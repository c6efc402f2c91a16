import NovoApex.Lib.Owned
import NovoApex.Orders.Ledger
import NovoApex.Turns.Intents
import NovoApex.Vendors.Isolation

/-!
# What belongs to whom

The foreign keys of the schema say that the rows an order names exist; none says that they
are of the order's business, and the business id a row carries is one the application wrote.
It gets there on a long way: a turn looks its business up by the number that was written to,
puts it into the checkout job next to the ids of the customer and the conversation, and the
delivery of the job resolves the products and the pickup location under it.

Nobody on that way crosses over to another business: an order's customer and conversation are
those of one person with the order's business, its lines are products of that business, its
pickup location is one of that business's, and what a turn or the confirmation of a payment
sends goes to the person its conversation is with, in the name of the conversation's business.
-/

namespace NovoApex.Turns
set_option autoImplicit false
open Lib Program Db Workers

/-- The person a customer is, and with whom. -/
def person (c : Customer) : String × String := (c.businessID, c.phone)

/-- The person a conversation is held with, and by whom. -/
def partner (c : Conversation) : String × String := (c.businessID, c.customerPhone)

/-- The customer and the conversation are those of one person with the business. -/
def OnePerson (db : Database) (businessID customerID conversationID : String) : Prop :=
  ∃ phone, db.customers.Owned person customerID (businessID, phone) ∧ db.conversations.Owned partner conversationID (businessID, phone)

/-- What an order names is of its business. -/
structure OrderBelongs (db : Database) (o : Order) : Prop where
  customer : db.customers.Owned Customer.businessID o.customerID o.businessID
  conversation : ∀ c, o.conversationID = some c → OnePerson db o.businessID o.customerID c
  pickup : ∀ l, o.locationID = some l → db.businessLocations.Owned BusinessLocation.businessID l o.businessID

/-- A message of a conversation is in the name of the conversation's business and goes to the person it is with. -/
def MessageBelongs (db : Database) (m : Addressed) : Prop :=
  ∀ c, m.conversationID = some c → ∃ b, m.businessID = some b ∧ db.conversations.Owned partner c (b, m.recipientPhone)

/-- What an order, a line, a message and a checkout job name is of their business. -/
structure Belongs (w : TurnWorld) : Prop where
  orders : ∀ o ∈ w.db.orders.rows, OrderBelongs w.db o
  lines : ∀ i ∈ w.db.orderItems.rows, ∃ b, w.db.orders.Owned Order.businessID i.orderID b ∧
    w.db.products.Owned Product.businessID i.productID b
  messages : ∀ m ∈ w.messages, MessageBelongs w.db m
  jobs : ∀ job ∈ w.checkoutJobs, OnePerson w.db job.businessID job.customerID job.conversationID

/-- Then no order names a conversation of another business, which is what a vendor's requests rely on. -/
theorem Belongs.linked {w : TurnWorld} (h : Belongs w) : Vendors.OrdersLinked w.db := by
  intro o mem c there named
  obtain ⟨phone, -, own⟩ := (h.orders o mem).conversation c.id named
  exact (congrArg Prod.fst (own.unique (.of_mem _ there)) :).symm

/-! ## Owners over time -/

/-- No row that is referred to is lost or given away. -/
structure Settles (db db' : Database) : Prop where
  customers : Table.OwnersKept person db.customers db'.customers
  conversations : Table.OwnersKept partner db.conversations db'.conversations
  locations : Table.OwnersKept BusinessLocation.businessID db.businessLocations db'.businessLocations
  products : Table.OwnersKept Product.businessID db.products db'.products
  orders : Table.OwnersKept Order.businessID db.orders db'.orders

theorem Settles.refl (db : Database) : Settles db db := ⟨.refl _, .refl _, .refl _, .refl _, .refl _⟩

theorem Settles.trans {a b c : Database} (first : Settles a b) (second : Settles b c) : Settles a c where
  customers := first.customers.trans second.customers
  conversations := first.conversations.trans second.conversations
  locations := first.locations.trans second.locations
  products := first.products.trans second.products
  orders := first.orders.trans second.orders

theorem OnePerson.settled {db db' : Database} {businessID customerID conversationID : String}
    (h : OnePerson db businessID customerID conversationID) (settles : Settles db db') :
    OnePerson db' businessID customerID conversationID := by
  obtain ⟨phone, customer, conversation⟩ := h
  exact ⟨phone, customer.kept settles.customers, conversation.kept settles.conversations⟩

theorem OrderBelongs.settled {db db' : Database} {o : Order} (h : OrderBelongs db o) (settles : Settles db db') : OrderBelongs db' o where
  customer := h.customer.kept (settles.customers.map (f := Prod.fst) fun _ => rfl)
  conversation c named := (h.conversation c named).settled settles
  pickup l named := (h.pickup l named).kept settles.locations

theorem MessageBelongs.settled {db db' : Database} {m : Addressed} (h : MessageBelongs db m) (settles : Settles db db') :
    MessageBelongs db' m := by
  intro c named
  obtain ⟨b, business, conversation⟩ := h c named
  exact ⟨b, business, conversation.kept settles.conversations⟩

/-- The columns that name rows are written once. -/
theorem OrderBelongs.of_fixed {db : Database} {o o' : Order} (h : OrderBelongs db o) (same : o.fixed = o'.fixed) : OrderBelongs db o' := by
  have business : o.businessID = o'.businessID := (congrArg Order.businessID same :)
  have customer : o.customerID = o'.customerID := (congrArg Order.customerID same :)
  have location : o.locationID = o'.locationID := (congrArg Order.locationID same :)
  refine ⟨?_, ?_, ?_⟩
  · rw [← business, ← customer]
    exact h.customer
  · rw [← business, ← customer, ← Order.fixed_conversationID same]
    exact h.conversation
  · rw [← business, ← location]
    exact h.pickup

/-- The customer of one person with the business is the business's. -/
theorem OnePerson.customer {db : Database} {businessID customerID conversationID : String}
    (h : OnePerson db businessID customerID conversationID) : db.customers.Owned Customer.businessID customerID businessID := by
  obtain ⟨phone, customer, -⟩ := h
  exact customer.map (f := Prod.fst) fun _ => rfl

theorem settles_checkoutTx {d : CheckoutTx} {db db' : Database} (ok : checkoutTx d db = .ok ((), db')) : Settles db db' := by
  have conversations := checkoutTx_conversations ok
  obtain ⟨-, placed⟩ := checkoutTx_ok ok
  obtain ⟨total, -, orders⟩ := placed.order
  obtain ⟨_, _, _, _, _, _, rest⟩ := placed.rest
  refine ⟨?_, ?_, ?_, ?_, ?_⟩
  · rw [rest]
    exact .refl _
  · rw [conversations]
    exact .update (by intro _; rfl) (by intro _; rfl)
  · rw [rest]
    exact .refl _
  · exact .of_map placed.stock fun _ => ⟨rfl, rfl⟩
  · exact .append orders

/-- A write on conversations, and on nothing else that is referred to. -/
theorem Settles.of_conversations {db : Database} {conversations : Table Conversation.id}
    (kept : Table.OwnersKept partner db.conversations conversations) : Settles db { db with conversations := conversations } :=
  ⟨.refl _, kept, .refl _, .refl _, .refl _⟩

theorem settles_transition (c : String) (src dst : ConversationState) (db : Database) :
    Settles db (Domain.transition c src dst db).2 := by
  rcases Domain.transition_cases c src dst db with eq | ⟨-, eq⟩
  · rw [eq]
    exact .refl db
  · rw [eq]
    exact .of_conversations (.update (by intro _; rfl) (by intro _; rfl))

theorem settles_cancelOrder (orderID reason : String) (now : Nat) (db : Database) :
    Settles db (exec (.cancelOrder orderID reason now) db).2 := by
  have orders : Table.OwnersKept Order.businessID db.orders (exec (.cancelOrder orderID reason now) db).2.orders := by
    rcases (exec_effect (.cancelOrder orderID reason now) db).orders_cases with ⟨_, absurd, -⟩ | ⟨f, fixed, rows⟩
    · cases absurd
    · exact .of_map rows fun o => ⟨Order.fixed_id (fixed o), (congrArg Order.businessID (fixed o) :)⟩
  have conversations : Table.OwnersKept partner db.conversations (exec (.cancelOrder orderID reason now) db).2.conversations := by
    show Table.OwnersKept partner db.conversations (beginFunc (cancelOrderTx orderID reason now) db).2.conversations
    by_cases none : db.orders.affected (cancellable orderID) = 0
    · have skip : cancelOrderTx orderID reason now db = .ok ((), db) := by simp only [cancelOrderTx, if_pos none]
      rw [beginFunc_ok skip]
      exact .refl _
    · obtain ⟨o, ho, sel⟩ := Table.affected_ne_zero.1 none
      simp only [cancellable, Bool.and_eq_true, decide_eq_true_eq] at sel
      obtain ⟨rfl, isOpen⟩ := sel
      obtain ⟨t, commits, written⟩ := cancelOrderTx_states reason now ho isOpen
      rw [beginFunc_ok commits, written]
      cases o.conversationID with
      | none => exact .refl _
      | some c => exact (settles_transition c .invoicing .cancelled _).conversations
  obtain ⟨_, _, _, frame⟩ := cancelOrder_frame orderID reason now db
  refine ⟨?_, conversations, ?_, ?_, orders⟩ <;> rw [frame] <;> exact .refl _

/-- No statement of the orders pipeline takes a row from its business. -/
theorem settles_exec (op : Stmt) (db : Database) : Settles db (exec op db).2 := by
  cases op with
  | checkoutTx d =>
    show Settles db (beginFunc (Workers.checkoutTx d) db).2
    rcases beginFunc_cases (Workers.checkoutTx d) db with ⟨_, db', ok, eq⟩ | ⟨e, -, eq⟩
    · rw [eq]
      exact settles_checkoutTx ok
    · rw [eq]
      exact .refl db
  | transition c src dst => exact settles_transition c src dst db
  | cancelOrder o reason now => exact settles_cancelOrder o reason now db
  | markOrderPaid o now => exact ⟨.refl _, .refl _, .refl _, .refl _, .update (by intro _; rfl) (by intro _; rfl)⟩
  | updateOrderFulfillment st o b now => exact ⟨.refl _, .refl _, .refl _, .refl _, .update (by intro _; rfl) (by intro _; rfl)⟩
  | escalateConversationByID c => exact .of_conversations (.update (by intro _; rfl) (by intro _; rfl))
  | takeoverConversation c b => exact .of_conversations (.update (by intro _; rfl) (by intro _; rfl))
  | releaseConversation c b => exact .of_conversations (.update (by intro _; rfl) (by intro _; rfl))
  | restock o now =>
    show Settles db (beginFunc (restockTx o now) db).2
    rcases beginFunc_cases (restockTx o now) db with ⟨_, db', ok, eq⟩ | ⟨e, -, eq⟩
    · rw [eq]
      unfold restockTx at ok
      split at ok
      · cases ok
      · split at ok
        · cases ok
          exact ⟨.refl _, .refl _, .refl _, .update (by intro _; rfl) (by intro _; rfl), .update (by intro _; rfl) (by intro _; rfl)⟩
        · cases ok
    · rw [eq]
      exact .refl db
  | insertPayment p =>
    obtain ⟨payments, eq⟩ := insertPayment_frame p db
    rw [eq]
    exact ⟨.refl _, .refl _, .refl _, .refl _, .refl _⟩
  | insertOutbound m =>
    show Settles db (Workers.insertOutbound m db).2
    unfold Workers.insertOutbound
    split <;> exact ⟨.refl _, .refl _, .refl _, .refl _, .refl _⟩
  | insertScheduledFollowUp f =>
    show Settles db (Db.insertScheduledFollowUp f db).2
    unfold Db.insertScheduledFollowUp
    split
    · exact .refl db
    · split
      · exact .refl db
      · split <;> exact ⟨.refl _, .refl _, .refl _, .refl _, .refl _⟩
  | _ => exact ⟨.refl _, .refl _, .refl _, .refl _, .refl _⟩

/-- And what was enqueued stays enqueued. -/
structure Settling (w w' : TurnWorld) : Prop where
  db : Settles w.db w'.db
  jobs : ∀ job ∈ w.checkoutJobs, job ∈ w'.checkoutJobs

theorem Settling.trans {a b c : TurnWorld} (first : Settling a b) (second : Settling b c) : Settling a c :=
  ⟨first.db.trans second.db, fun job mem => second.jobs job (first.jobs job mem)⟩

theorem settling_exec (i : TurnName) (op : TurnStmt) (w : TurnWorld) : Settling w (turnExec (i, op) w).2 := by
  have same : ∀ {w' : TurnWorld}, w'.db = w.db → w'.checkoutJobs = w.checkoutJobs → Settling w w' :=
    fun db jobs => ⟨db ▸ .refl _, fun job mem => jobs ▸ mem⟩
  refine ⟨?_, (grows_exec i op w).jobs⟩
  cases op with
  | receive m =>
    unfold turnExec
    simp only
    split <;> exact .refl _
  | upsertCustomer id businessID phone =>
    show Settles w.db (upsertCustomer id businessID phone w).2.db
    unfold upsertCustomer
    split
    · exact .refl _
    · split
      · rename_i customers inserted
        exact ⟨.insert inserted, .refl _, .refl _, .refl _, .refl _⟩
      · exact .refl _
  | upsertConversation id businessID customerPhone =>
    have heard : ∀ (r : ConversationRead) (w' : TurnWorld), Settles w.db w'.db → Settles w.db (hears i r w').db := by
      intro r w' settles
      unfold hears
      split <;> exact settles
    show Settles w.db (upsertConversation i id businessID customerPhone w).2.db
    unfold upsertConversation
    split
    · exact heard _ _ (.refl _)
    · split
      · rename_i conversations inserted
        exact heard ⟨id, .lead, false⟩ _ (.of_conversations (.insert inserted))
      · exact .refl _
  | setEscalated c reason => exact .of_conversations (.update (by intro _; rfl) (by intro _; rfl))
  | insertOutboundRow m =>
    unfold turnExec
    simp only
    split
    · rename_i w' inserted
      obtain ⟨outbound, rfl⟩ := insertTurnMessage_ok inserted
      exact .refl _
    · exact .refl _
  | stageOrderIntent id businessID customerID conversationID ttl =>
    unfold turnExec
    simp only
    split
    · rename_i staged db' ok
      obtain ⟨intents, rfl, -⟩ := stageOrderIntent_ok ok
      exact ⟨.refl _, .refl _, .refl _, .refl _, .refl _⟩
    · exact .refl _
  | sql op =>
    have step := settles_exec op w.db
    show Settles w.db (execSql i op w).2.db
    cases op with
    | takeoverConversation k b =>
      rw [execSql_takeover]
      split <;> exact step
    | releaseConversation k b =>
      rw [execSql_release]
      split <;> exact step
    | transition k src dst => rcases execSql_transition i w k src dst with eq | ⟨-, eq⟩ <;> rw [eq] <;> exact step
    | checkoutTx d =>
      rcases execSql_checkoutTx i w d with eq | ⟨db', ok, eq⟩
      · rw [eq]
        exact .refl _
      · rw [eq]
        exact settles_checkoutTx ok
    | _ => exact step
  | _ => exact .refl _

/-! ## The step -/

/-- What a statement writes names rows of its business. -/
def Proper (w : TurnWorld) : TurnStmt → Prop
  | .insertOutboundRow m => ∃ phone, w.db.conversations.Owned partner m.conversationID (m.businessID, phone)
  | .enqueueCheckout job => OnePerson w.db job.businessID job.customerID job.conversationID
  | .sql (.checkoutTx d) => OnePerson w.db d.businessID d.customerID d.conversationID ∧
      (∀ l, d.locationID = some l → w.db.businessLocations.Owned BusinessLocation.businessID l d.businessID) ∧
      ∀ item ∈ d.resolved, w.db.products.Owned Product.businessID item.productID d.businessID
  | .sql (.insertOutbound m) => MessageBelongs w.db ⟨some m.businessID, m.conversationID, m.recipientPhone⟩
  | _ => True

/-- A statement of the orders pipeline writes a message only by its insert. -/
theorem exec_outboundMessages (op : Stmt) (db : Database) :
    (exec op db).2.outboundMessages.rows = db.outboundMessages.rows ∨
      ∃ m, op = .insertOutbound m ∧ (exec op db).2.outboundMessages.rows = db.outboundMessages.rows ++ [m] := by
  cases op with
  | checkoutTx d =>
    refine .inl ?_
    show (beginFunc (Workers.checkoutTx d) db).2.outboundMessages.rows = _
    rcases beginFunc_cases (Workers.checkoutTx d) db with ⟨_, db', ok, eq⟩ | ⟨e, -, eq⟩
    · rw [eq]
      obtain ⟨-, placed⟩ := checkoutTx_ok ok
      obtain ⟨_, _, _, _, _, _, rest⟩ := placed.rest
      rw [rest]
    · rw [eq]
  | transition c src dst =>
    obtain ⟨_, frame⟩ := Domain.transition_frame c src dst db
    refine .inl ?_
    show (Domain.transition c src dst db).2.outboundMessages.rows = _
    rw [frame]
  | cancelOrder o reason now =>
    obtain ⟨_, _, _, frame⟩ := cancelOrder_frame o reason now db
    rw [frame]
    exact .inl rfl
  | restock o now =>
    refine .inl ?_
    show (beginFunc (restockTx o now) db).2.outboundMessages.rows = _
    rcases beginFunc_cases (restockTx o now) db with ⟨_, db', ok, eq⟩ | ⟨e, -, eq⟩
    · rw [eq]
      unfold restockTx at ok
      split at ok
      · cases ok
      · split at ok
        · cases ok
          rfl
        · cases ok
    · rw [eq]
  | insertPayment p =>
    obtain ⟨_, frame⟩ := insertPayment_frame p db
    rw [frame]
    exact .inl rfl
  | insertOutbound m =>
    show (Workers.insertOutbound m db).2.outboundMessages.rows = _ ∨ ∃ _, _ ∧ (Workers.insertOutbound m db).2.outboundMessages.rows = _
    unfold Workers.insertOutbound
    split
    · rename_i rows inserted
      exact .inr ⟨m, rfl, (Table.insert_eq_some.1 inserted).2⟩
    · exact .inl rfl
  | insertScheduledFollowUp f =>
    refine .inl ?_
    show (Db.insertScheduledFollowUp f db).2.outboundMessages.rows = _
    unfold Db.insertScheduledFollowUp
    split
    · rfl
    · split
      · rfl
      · split <;> rfl
  | _ => exact .inl rfl

theorem Belongs.settling {w w' : TurnWorld} (h : Belongs w) (settles : Settles w.db w'.db)
    (orders : ∀ o' ∈ w'.db.orders.rows, ∃ o ∈ w.db.orders.rows, o.fixed = o'.fixed) (lines : w'.db.orderItems = w.db.orderItems)
    (messages : ∀ m ∈ w'.messages, m ∈ w.messages ∨ MessageBelongs w.db m) (jobs : w'.checkoutJobs = w.checkoutJobs) : Belongs w' := by
  refine ⟨?_, ?_, ?_, ?_⟩
  · intro o' mem'
    obtain ⟨o, mem, same⟩ := orders o' mem'
    exact ((h.orders o mem).of_fixed same).settled settles
  · intro i mem
    obtain ⟨b, order, product⟩ := h.lines i (lines ▸ mem)
    exact ⟨b, order.kept settles.orders, product.kept settles.products⟩
  · intro m mem
    exact ((messages m mem).elim (h.messages m) id).settled settles
  · intro job mem
    exact (h.jobs job (jobs ▸ mem)).settled settles

/-- The order of a proper transaction. -/
theorem OrderBelongs.placed {w : TurnWorld} {d : CheckoutTx} (proper : Proper w (.sql (.checkoutTx d))) (total : Money) :
    OrderBelongs w.db (d.order total) where
  customer := proper.1.customer
  conversation c named := by
    change crmText d.conversationID = some c at named
    unfold crmText at named
    split at named
    · cases named
    · obtain rfl := Option.some.inj named
      exact proper.1
  pickup := proper.2.1

/-- The orders of an order transaction are the old ones and its own. -/
theorem Belongs.place {w : TurnWorld} (h : Belongs w) {d : CheckoutTx} {db' : Database} (ok : checkoutTx d w.db = .ok ((), db'))
    (proper : Proper w (.sql (.checkoutTx d))) (placements : List IntentPlacement) :
    Belongs { w with db := db', placements := placements } := by
  have settles := settles_checkoutTx ok
  obtain ⟨-, placed⟩ := checkoutTx_ok ok
  obtain ⟨total, -, orders⟩ := placed.order
  refine ⟨?_, ?_, ?_, ?_⟩
  · intro o mem
    rw [show db'.orders.rows = _ from orders] at mem
    rcases List.mem_append.1 mem with old | new
    · exact (h.orders o old).settled settles
    · obtain rfl := List.mem_singleton.1 new
      exact (OrderBelongs.placed proper total).settled settles
  · intro i mem
    rw [show db'.orderItems.rows = _ from placed.items] at mem
    rcases List.mem_append.1 mem with old | new
    · obtain ⟨b, order, product⟩ := h.lines i old
      exact ⟨b, order.kept settles.orders, product.kept settles.products⟩
    · obtain ⟨n, bound, rfl⟩ := List.mem_mapIdx.1 new
      refine ⟨d.businessID, ⟨d.order total, ?_, rfl, rfl⟩, (proper.2.2 _ (List.getElem_mem bound)).kept settles.products⟩
      show _ ∈ db'.orders.rows
      rw [orders]
      exact List.mem_append_right _ List.mem_cons_self
  · intro m mem
    have same : db'.outboundMessages = w.db.outboundMessages := by
      obtain ⟨_, _, _, _, _, _, rest⟩ := placed.rest
      rw [rest]
    unfold TurnWorld.messages at mem
    rw [show db'.outboundMessages.rows = _ from congrArg Table.rows same] at mem
    exact (h.messages m mem).settled settles
  · exact fun job mem => (h.jobs job mem).settled settles

/-- The row of a turn's message goes to the person its conversation is with. -/
theorem insertTurnMessage_row {m : TurnMessage} {w w' : TurnWorld} (h : insertTurnMessage m w = .ok w') :
    ∃ c ∈ w.db.conversations.rows, c.id = m.conversationID ∧ ∃ outbound, w.outbound.insert (m.row c.customerPhone w) = some outbound ∧
      w' = { w with outbound := outbound } := by
  unfold insertTurnMessage at h
  split at h
  · cases h
  · split at h
    · cases h
    · rename_i c found
      obtain ⟨mem, same⟩ := Table.find?_eq_some.1 found
      cases inserted : w.outbound.insert (m.row c.customerPhone w) with
      | none =>
        rw [inserted] at h
        cases h
      | some outbound =>
        rw [inserted] at h
        exact ⟨c, mem, same, outbound, inserted, (Except.ok.inj h).symm⟩

/-- A message in the name of the conversation's business. -/
theorem Belongs.say {w w' : TurnWorld} (h : Belongs w) {m : TurnMessage} (inserted : insertTurnMessage m w = .ok w')
    (proper : Proper w (.insertOutboundRow m)) : Belongs w' := by
  obtain ⟨c, there, id, outbound, rows, rfl⟩ := insertTurnMessage_row inserted
  obtain ⟨phone, conversation⟩ := proper
  obtain ⟨-, rows⟩ := Table.insert_eq_some.1 rows
  refine ⟨h.orders, h.lines, ?_, h.jobs⟩
  intro r mem
  unfold TurnWorld.messages at mem
  rw [show outbound.rows = _ from rows, List.map_append, List.mem_append, List.mem_append] at mem
  rcases mem with (old | new) | others
  · exact h.messages r (List.mem_append_left _ old)
  · obtain rfl := List.mem_singleton.1 new
    intro k named
    obtain rfl : m.conversationID = k := Option.some.inj named
    have own := conversation.unique (id ▸ Table.Owned.of_mem partner there)
    refine ⟨m.businessID, rfl, ?_⟩
    have phones : phone = c.customerPhone := congrArg Prod.snd own
    rw [phones] at conversation
    exact conversation
  · exact h.messages r (List.mem_append_right _ others)

/-- The step lemma: what a proper statement leaves belongs where it should. -/
theorem Belongs.step {w : TurnWorld} (h : Belongs w) (i : TurnName) (op : TurnStmt) (proper : Proper w op) :
    Belongs (turnExec (i, op) w).2 := by
  have settles := (settling_exec i op w).db
  have kept : ∀ {w' : TurnWorld}, Settles w.db w'.db → w'.db.orders = w.db.orders → w'.db.orderItems = w.db.orderItems →
      w'.messages = w.messages → w'.checkoutJobs = w.checkoutJobs → Belongs w' :=
    fun settles orders lines messages => h.settling settles (fun o mem => ⟨o, orders ▸ mem, rfl⟩) lines fun m mem => .inl (messages ▸ mem)
  cases op with
  | receive m =>
    unfold turnExec
    simp only
    split <;> exact kept (.refl _) rfl rfl rfl rfl
  | upsertCustomer id businessID phone =>
    change Settles w.db (upsertCustomer id businessID phone w).2.db at settles
    show Belongs (upsertCustomer id businessID phone w).2
    unfold upsertCustomer at settles ⊢
    split
    · exact h
    · split
      · rename_i customers inserted
        exact kept ⟨.insert inserted, .refl _, .refl _, .refl _, .refl _⟩ rfl rfl rfl rfl
      · exact h
  | upsertConversation id businessID customerPhone =>
    have heard : ∀ (r : ConversationRead) (w' : TurnWorld), Belongs w' → Belongs (hears i r w') := by
      intro r w' belongs
      unfold hears
      split
      · exact belongs
      · exact ⟨belongs.orders, belongs.lines, belongs.messages, belongs.jobs⟩
    show Belongs (upsertConversation i id businessID customerPhone w).2
    unfold upsertConversation
    split
    · exact heard _ _ h
    · split
      · rename_i conversations inserted
        exact heard ⟨id, .lead, false⟩ _ (kept (.of_conversations (.insert inserted)) rfl rfl rfl rfl)
      · exact h
  | insertOutboundRow m =>
    unfold turnExec
    simp only
    split
    · rename_i w' inserted
      obtain ⟨orders, lines, messages, jobs⟩ := h.say inserted proper
      exact ⟨orders, lines, messages, jobs⟩
    · exact h
  | stageOrderIntent id businessID customerID conversationID ttl =>
    unfold turnExec
    simp only
    split
    · rename_i staged db' ok
      obtain ⟨intents, rfl, -⟩ := stageOrderIntent_ok ok
      exact kept ⟨.refl _, .refl _, .refl _, .refl _, .refl _⟩ rfl rfl rfl rfl
    · exact h
  | enqueueCheckout job =>
    refine ⟨h.orders, h.lines, h.messages, ?_⟩
    intro j mem
    rcases List.mem_append.1 mem with old | new
    · exact h.jobs j old
    · obtain rfl := List.mem_singleton.1 new
      exact proper
  | sql op =>
    have beside : (∀ d, op ≠ .checkoutTx d) → ∀ {w' : TurnWorld}, w'.db = (exec op w.db).2 → w'.outbound = w.outbound →
        w'.checkoutJobs = w.checkoutJobs → Belongs w' := by
      intro other w' same outbound jobs
      refine h.settling (same ▸ settles_exec op w.db) ?_ (by rw [same]; exact (Orders.exec_ledger_frame other w.db).1) ?_ jobs
      · rw [same]
        rcases (exec_effect op w.db).orders_cases with ⟨d, rfl, -⟩ | ⟨f, fixed, rows⟩
        · exact (other d rfl).elim
        · intro o' mem
          rw [rows] at mem
          obtain ⟨o, memOld, rfl⟩ := List.mem_map.1 mem
          exact ⟨o, memOld, (fixed o).symm⟩
      · intro r mem
        unfold TurnWorld.messages at mem
        rw [outbound, same] at mem
        rcases exec_outboundMessages op w.db with rows | ⟨m, rfl, rows⟩
        · rw [rows] at mem
          exact .inl mem
        · rw [rows, List.map_append, ← List.append_assoc, List.mem_append] at mem
          rcases mem with old | new
          · exact .inl old
          · obtain rfl := List.mem_singleton.1 new
            exact .inr proper
    show Belongs (execSql i op w).2
    cases op with
    | takeoverConversation k b =>
      rw [execSql_takeover]
      split <;> exact beside (fun _ => Stmt.noConfusion) rfl rfl rfl
    | releaseConversation k b =>
      rw [execSql_release]
      split <;> exact beside (fun _ => Stmt.noConfusion) rfl rfl rfl
    | transition k src dst =>
      rcases execSql_transition i w k src dst with eq | ⟨-, eq⟩ <;> rw [eq] <;> exact beside (fun _ => Stmt.noConfusion) rfl rfl rfl
    | checkoutTx d =>
      rcases execSql_checkoutTx i w d with eq | ⟨db', ok, eq⟩
      · rw [eq]
        exact h
      · rw [eq]
        exact h.place ok proper _
    | _ => exact beside (fun _ => Stmt.noConfusion) rfl rfl rfl
  | setEscalated c reason => exact kept settles rfl rfl rfl rfl
  | _ => exact kept (.refl _) rfl rfl rfl rfl

/-! ## The handlers -/

/-- The statements of sweeps and of the vendor's other requests: they write no message. -/
def Silent : Stmt → Prop
  | .insertOutbound .. => False
  | op => Beside op

/-- What a name may run: the payment events are told from what else goes on beside the turns. -/
inductive ShopJob : TurnName → Program (turnStore.signed TurnName) Unit → Prop where
  | of {i p} (job : TurnJob i p) (named : ∀ n, i ≠ .other n) : ShopJob i p
  | payment (n) (evt : Paystack.NormalisedPaymentEvent) (a : Attempt) :
      ShopJob (.other n) ((embed sqlStatements (handlePaymentEvent evt a)).signed (.other n))
  | beside (n) (p : Handler Unit) (uses : p.Uses Silent) : ShopJob (.other n) ((embed sqlStatements p).signed (.other n))
  | outside (n) (op : TurnStmt) (outside : Outside op) :
      ShopJob (.other n) ((ignore (attempt (call (I := turnStore) op))).signed (.other n))

/-- The runs of a shop: any statement may fail, lose its reply or be the last of its handler. -/
def shopFlow (allow : TurnWorld → TurnName × TurnStmt → Prop) : Roster (turnStore.signed TurnName) TurnName TurnWorld where
  exec := turnExec
  job := ShopJob
  allow := allow

def belongProtocol : Protocol TurnName TurnWorld where
  inv := Belongs
  rely _ := Settling
  refl _ w := ⟨.refl _, fun _ mem => mem⟩
  trans _ _ _ _ first second := first.trans second

section Safety

variable {α β : Type} {allow : TurnWorld → TurnName × TurnStmt → Prop} {i : TurnName} {w : TurnWorld}

/-- A proper statement, and what its reply says. -/
theorem safe_proper {s : TurnStmt} {A : s.Reply → TurnWorld → Prop} (proper : ∀ t, Settling w t → Belongs t → Proper t s)
    (reply : ∀ t, Settling w t → Belongs t → ∀ a, (turnExec (i, s) t).1 = .ok a → A a (turnExec (i, s) t).2) :
    Safe (shopFlow allow) belongProtocol i (Replied A fun _ => True) ((call (I := turnStore) s).signed i) w := by
  intro t rely inv
  refine ⟨fun _ => ⟨?_, ?_, ?_, fun _ => trivial⟩, fun _ => trivial, fun _ => trivial⟩
  · exact Belongs.step inv i s (proper t rely inv)
  · exact fun _ _ => settling_exec i s t
  · show Replied A (fun _ => True) (turnExec (i, s) t).1 _
    cases answer : (turnExec (i, s) t).1 with
    | ok a => exact reply t rely inv a answer
    | error e => trivial

theorem safe_proper_wrapped {text : String} {s : TurnStmt} {A : s.Reply → TurnWorld → Prop}
    (proper : ∀ t, Settling w t → Belongs t → Proper t s)
    (reply : ∀ t, Settling w t → Belongs t → ∀ a, (turnExec (i, s) t).1 = .ok a → A a (turnExec (i, s) t).2) :
    Safe (shopFlow allow) belongProtocol i (Replied A fun _ => True) ((wrapped text s).signed i) w := by
  unfold wrapped
  rw [signed_mapErr]
  exact Safe.mapErr_replied (safe_proper proper reply)

/-- What the rows of the tables say stays known. -/
theorem safe_framed {K : TurnWorld → Prop} {Q : Except TurnErr α → TurnWorld → Prop} {p : Program (turnStore.signed TurnName) α}
    (lasting : ∀ s t, Settling s t → K s → K t) (known : K w) (safe : Safe (shopFlow allow) belongProtocol i Q p w) :
    Safe (shopFlow allow) belongProtocol i (fun r t => Q r t ∧ K t) p w :=
  safe.frame lasting (fun op t => lasting t _ (settling_exec op.1 op.2 t)) known

/-- Statements that are proper as long as something lasting is known. -/
theorem safe_known {K : TurnWorld → Prop} {p : TurnHandler α} (lasting : ∀ s t, Settling s t → K s → K t) (known : K w)
    (uses : p.Uses fun op => ∀ t, K t → Proper t op) :
    Safe (shopFlow allow) belongProtocol i (fun _ => K) (p.signed i) w := by
  have signed : (p.signed i).Uses fun op : TurnName × TurnStmt => op.1 = i ∧ ∀ t, K t → Proper t op.2 :=
    Uses.signed (uses.mono fun op proper => ⟨rfl, proper⟩)
  refine Safe.of_uses_known signed lasting known (fun op t proper known inv _ => ?_) fun _ _ => trivial
  obtain ⟨j, op⟩ := op
  obtain ⟨rfl, proper⟩ := proper
  exact ⟨Belongs.step inv j op (proper t known), fun _ _ => settling_exec j op t, lasting t _ (settling_exec j op t) known⟩

theorem safe_known_bind {K : TurnWorld → Prop} {Q : Except TurnErr β → TurnWorld → Prop} {p : TurnHandler α} {f : α → TurnHandler β}
    (lasting : ∀ s t, Settling s t → K s → K t) (known : K w) (uses : p.Uses fun op => ∀ t, K t → Proper t op)
    (rest : ∀ a t, K t → Safe (shopFlow allow) belongProtocol i Q ((f a).signed i) t)
    (failed : ∀ e t, Q (.error e) t) :
    Safe (shopFlow allow) belongProtocol i Q ((p >>= f).signed i) w := by
  refine Safe.bind_signed ((safe_known lasting known uses).mono fun r t known => ?_)
  cases r with
  | ok a => exact rest a t known
  | error e => exact failed e t

/-! ### A turn -/

/-- The turn's customer and conversation are those of one person with its business. -/
def Knows (oc : OrchContext) (t : TurnWorld) : Prop := OnePerson t.db oc.businessID oc.customerID oc.conversationID

theorem Knows.lasting {oc : OrchContext} (s t : TurnWorld) (settling : Settling s t) (h : Knows oc s) : Knows oc t := h.settled settling.db

theorem Reads.proper {op : TurnStmt} (h : Reads op) (t : TurnWorld) : Proper t op := by
  cases op <;> trivial

theorem upsertCustomer_owned {id businessID phone a : String} (h : (upsertCustomer id businessID phone w).1 = .ok a) :
    (upsertCustomer id businessID phone w).2.db.customers.Owned person a (businessID, phone) := by
  unfold upsertCustomer at h ⊢
  split
  · rename_i c found
    simp only [found] at h
    obtain rfl := Except.ok.inj h
    have same := List.find?_some found
    simp only [Bool.and_eq_true, decide_eq_true_eq] at same
    exact ⟨c, List.mem_of_find?_eq_some found, rfl, Prod.ext same.1 same.2⟩
  · rename_i found
    simp only [found] at h
    split
    · rename_i customers inserted
      simp only [inserted] at h
      obtain rfl := Except.ok.inj h
      exact .insert inserted
    · rename_i taken
      simp only [taken] at h
      cases h

theorem upsertConversation_owned {id businessID phone : String} {a : ConversationRead}
    (h : (upsertConversation i id businessID phone w).1 = .ok a) :
    (upsertConversation i id businessID phone w).2.db.conversations.Owned partner a.id (businessID, phone) := by
  have heard : ∀ (r : ConversationRead) (w : TurnWorld), (hears i r w).db = w.db := by
    intro r w
    unfold hears
    split <;> rfl
  unfold upsertConversation at h ⊢
  split
  · rename_i c found
    simp only [found] at h
    obtain rfl := Except.ok.inj h
    have same := List.find?_some found
    simp only [Bool.and_eq_true, decide_eq_true_eq] at same
    rw [heard]
    exact ⟨c, List.mem_of_find?_eq_some found, rfl, Prod.ext same.1 same.2⟩
  · rename_i found
    simp only [found] at h
    split
    · rename_i conversations inserted
      simp only [inserted] at h
      obtain rfl := Except.ok.inj h
      rw [heard]
      exact .insert inserted
    · rename_i taken
      simp only [taken] at h
      cases h

theorem safe_upsertCustomer {text id businessID phone : String} : Safe (shopFlow allow) belongProtocol i
    (Replied (fun c t => t.db.customers.Owned person c (businessID, phone)) fun _ => True)
    ((wrapped text (.upsertCustomer id businessID phone)).signed i) w :=
  safe_proper_wrapped (s := .upsertCustomer id businessID phone) (fun _ _ _ => trivial) fun _ _ _ _ answer => upsertCustomer_owned answer

theorem safe_upsertConversation {text id businessID phone : String} : Safe (shopFlow allow) belongProtocol i
    (Replied (fun (c : ConversationRead) t => t.db.conversations.Owned partner c.id (businessID, phone)) fun _ => True)
    ((wrapped text (.upsertConversation id businessID phone)).signed i) w :=
  safe_proper_wrapped (s := .upsertConversation id businessID phone) (fun _ _ _ => trivial)
    fun _ _ _ _ answer => upsertConversation_owned answer

/-- The customer and the conversation a turn resolves are those of the sender, with the business of the number. -/
theorem safe_resolved (x : TurnInput) (job : OrchestratorJob) :
    Safe (shopFlow allow) belongProtocol i (Replied (fun r t => ∀ oc, r = some oc → Knows oc t) fun _ => True)
      ((orchResolveConversationContext x job).signed i) w := by
  refine safe_known_bind (K := fun _ => True) (fun _ _ _ _ => trivial) trivial (uses_wrapped fun _ _ => trivial)
    (fun business t _ => ?_) fun _ _ => trivial
  cases business with
  | none => exact fun oc absurd => nomatch absurd
  | some business =>
    obtain ⟨businessID, currency⟩ := business
    refine Safe.bind_signed (safe_upsertCustomer.mono fun r t known => ?_)
    cases r with
    | error e => trivial
    | ok customerID =>
      have lasting : ∀ s t, Settling s t → s.db.customers.Owned person customerID (businessID, job.senderPhone) →
          t.db.customers.Owned person customerID (businessID, job.senderPhone) := fun s t settling own => own.kept settling.db.customers
      refine safe_known_bind lasting known (uses_onlyIf (Uses.bind (uses_wrapped fun _ _ => trivial) fun _ =>
        uses_onlyIf (uses_wrapped fun _ _ => trivial))) (fun _ t known => ?_) fun _ _ => trivial
      refine safe_known_bind lasting known (uses_wrapped fun _ _ => trivial) (fun _ t known => ?_) fun _ _ => trivial
      refine safe_known_bind lasting known (uses_wrapped fun _ _ => trivial) (fun _ t known => ?_) fun _ _ => trivial
      refine Safe.bind_signed ((safe_framed lasting known safe_upsertConversation).mono fun r t known => ?_)
      obtain ⟨conversation, customer⟩ := known
      cases r with
      | error e => trivial
      | ok c =>
        have both : Knows ⟨businessID, currency, customerID, job.senderPhone, c.id, c.state, c.escalated⟩ t :=
          ⟨job.senderPhone, customer, conversation⟩
        refine safe_known_bind Knows.lasting both (uses_wrapped fun _ _ => trivial) (fun _ t known => ?_) fun _ _ => trivial
        intro oc same
        obtain rfl := Option.some.inj same
        exact known

section Spoken

variable {oc : OrchContext}

/-- What a turn may issue once it knows its conversation. -/
abbrev Fits (oc : OrchContext) (op : TurnStmt) : Prop := ∀ t, Knows oc t → Proper t op

theorem fits_message {m : TurnMessage} (business : m.businessID = oc.businessID) (conversation : m.conversationID = oc.conversationID) :
    Fits oc (.insertOutboundRow m) := by
  intro t known
  obtain ⟨phone, -, own⟩ := known
  exact ⟨phone, by rw [business, conversation]; exact own⟩

theorem fits_text {outID textContent : String} :
    (orchEnqueueOutboundText outID oc.businessID oc.conversationID textContent).Uses (Fits oc) :=
  uses_enqueueOutbound (fun _ reads t _ => reads.proper t) fun _ => fits_message rfl rfl

theorem fits_guardrails {x : TurnInput} {textContent : String} : (orchEnforceSafetyGuardrails x oc textContent).Uses (Fits oc) := by
  unfold orchEnforceSafetyGuardrails
  split
  · trivial
  · split
    · exact Uses.bind (uses_wrapped fun _ _ => trivial) fun _ => Uses.bind (uses_logged fun _ _ => trivial) fun _ =>
        Uses.bind fits_text fun _ => trivial
    · trivial

theorem fits_image {outID shortID : String} : (orchSendProductImage outID oc shortID).Uses (Fits oc) := by
  unfold orchSendProductImage
  split
  · refine Uses.bind (uses_call.2 fun _ _ => trivial).attempt fun found => ?_
    cases found with
    | error e => trivial
    | ok p =>
      refine Uses.bind (uses_call.2 fun _ _ => trivial).attempt fun image => ?_
      split
      · exact uses_enqueueOutbound (fun _ reads t _ => reads.proper t) fun _ => fits_message rfl rfl
      · trivial
  · trivial

theorem fits_images {x : TurnInput} (n : Nat) (shortIDs : List String) : (orchSendProductImages x oc n shortIDs).Uses (Fits oc) := by
  induction shortIDs generalizing n with
  | nil => trivial
  | cons shortID rest ih => exact Uses.bind fits_image fun _ => ih (n + 1)

theorem fits_checkout {x : TurnInput} {latest : Option InboundMessage} {resp : LlmResponse} :
    (orchCheckout x oc latest resp).Uses (Fits oc) := by
  have stages : (stageIntent x oc).Uses (Fits oc) := uses_call.2 fun _ _ => trivial
  unfold orchCheckout
  split
  · trivial
  · split
    · split
      · trivial
      · refine Uses.bind (Uses.bind (uses_call.2 fun _ _ => trivial).attempt fun active => ?_) fun intent => ?_
        · cases active with
          | ok id => trivial
          | error e => exact Uses.bind stages.attempt fun _ => trivial
        · exact uses_logged fun _ known => known
    · split
      · exact stages.attempt.ignore
      · trivial

theorem fits_response {x : TurnInput} {latest : Option InboundMessage} {resp : LlmResponse} :
    (handleResponse x oc latest resp).Uses (Fits oc) := by
  refine (fits_images 1 _).bind fun _ => fits_text.bind fun _ => Uses.bind ?_ fun _ => Uses.bind (uses_logged fun _ _ => trivial) fun _ =>
    fits_checkout
  unfold turnTransition
  refine Uses.embed ?_
  split
  · split
    · exact Uses.ignore (uses_call.2 fun _ _ => trivial)
    · trivial
  · trivial

theorem fits_generate {x : TurnInput} {latest : Option InboundMessage} :
    (orchGenerateAndHandleLlmResponse x oc latest).Uses (Fits oc) := by
  refine Uses.bind (uses_wrapped fun _ _ => trivial) fun _ => Uses.bind (uses_onlyIf (uses_wrapped fun _ _ => trivial)) fun _ => ?_
  split
  · trivial
  · split
    · exact Uses.bind (uses_wrapped fun _ _ => trivial) fun _ => Uses.bind (uses_logged fun _ _ => trivial) fun _ => fits_text
    · exact fits_response

/-- The business an escalation looks up is the turn's. -/
theorem safe_businessOf {text : String} (known : Knows oc w) : Safe (shopFlow allow) belongProtocol i
    (Replied (fun b _ => b = oc.businessID) fun _ => True) ((wrapped text (.businessOf oc.conversationID)).signed i) w := by
  refine safe_proper_wrapped (s := .businessOf oc.conversationID) (fun _ _ _ => trivial) fun t rely _ b answer => ?_
  change orError .noRows ((t.db.conversations.find? oc.conversationID).map Conversation.businessID) = .ok b at answer
  cases found : t.db.conversations.find? oc.conversationID with
  | none =>
    rw [found] at answer
    cases answer
  | some c =>
    rw [found] at answer
    obtain rfl := Except.ok.inj answer
    obtain ⟨mem, id⟩ := Table.find?_eq_some.1 found
    obtain ⟨phone, -, own⟩ := Knows.lasting _ _ rely known
    exact (congrArg Prod.fst (own.unique (id ▸ Table.Owned.of_mem partner mem)) :).symm

/-- An escalation answers in the name of the business it looked up. -/
theorem fits_escalateBranch {x : TurnInput} {reason notice : String} (known : Knows oc w) :
    Safe (shopFlow allow) belongProtocol i (fun _ => Knows oc) ((escalateBranch x oc.conversationID reason notice).signed i) w := by
  have notifies : ∀ t, Knows oc t → Safe (shopFlow allow) belongProtocol i (fun _ => Knows oc)
      ((orchEscalate x oc.conversationID reason notice).signed i) t := by
    intro t known
    have escalates : (orchSetEscalated oc.conversationID reason).Uses (Fits oc) := uses_wrapped fun _ _ => trivial
    refine Safe.bind_signed ((safe_known Knows.lasting known escalates).mono fun r t known => ?_)
    cases r with
    | error e => exact known
    | ok _ =>
      refine Safe.bind_signed ((safe_framed Knows.lasting known (safe_businessOf known)).mono fun r t known => ?_)
      obtain ⟨same, known⟩ := known
      cases r with
      | error e => exact known
      | ok businessID =>
        obtain rfl : businessID = oc.businessID := same
        exact safe_known Knows.lasting known fits_text
  refine Safe.bind_signed ((notifies w known).mono fun r t known => ?_)
  cases r <;> exact known

theorem fits_media {x : TurnInput} {latest : Option InboundMessage} (known : Knows oc w) :
    Safe (shopFlow allow) belongProtocol i (fun _ => Knows oc) ((orchProcessMediaPayload x oc.conversationID latest).signed i) w := by
  unfold orchProcessMediaPayload
  split
  · exact known
  · rename_i latest
    simp only
    split
    · exact known
    · split
      · exact fits_escalateBranch known
      · split
        · exact fits_escalateBranch known
        · split
          · exact known
          · split
            · exact fits_escalateBranch known
            · unfold transcribeAudio
              split
              · exact fits_escalateBranch known
              · split
                · exact known
                · rename_i text _ _ id _
                  have persists : (wrapped "orchestrator: persist voice note transcript" (.persistTranscript id text)).Uses (Fits oc) :=
                    uses_wrapped fun _ _ => trivial
                  refine Safe.bind_signed ((safe_known Knows.lasting known persists).mono fun r t known => ?_)
                  cases r <;> exact known

theorem fits_converse {x : TurnInput} (known : Knows oc w) :
    Safe (shopFlow allow) belongProtocol i (fun _ _ => True) ((converse x oc).signed i) w := by
  refine safe_known_bind Knows.lasting known (uses_wrapped fun _ _ => trivial) (fun latest t known => ?_) fun _ _ => trivial
  refine Safe.bind_signed ((fits_media known).mono fun r t known => ?_)
  cases r with
  | error e => trivial
  | ok text =>
    cases text with
    | none => trivial
    | some textContent =>
      refine safe_known_bind Knows.lasting known fits_guardrails (fun proceed t known => ?_) fun _ _ => trivial
      split
      · have history : orchFetchConversationHistory.Uses (Fits oc) :=
          Uses.bind (uses_wrapped fun _ _ => trivial) fun _ => Uses.bind (uses_wrapped fun _ _ => trivial) fun _ =>
            uses_wrapped fun _ _ => trivial
        refine safe_known_bind Knows.lasting known history (fun _ t known => ?_) fun _ _ => trivial
        exact (safe_known Knows.lasting known fits_generate).mono fun _ _ _ => trivial
      · trivial

end Spoken

theorem safe_handleDebounced (x : TurnInput) (job : OrchestratorJob) :
    Safe (shopFlow allow) belongProtocol i (fun _ _ => True) ((handleDebouncedConversation x job).signed i) w := by
  refine Safe.bind_signed ((safe_resolved x job).mono fun r t known => ?_)
  cases r with
  | error e => trivial
  | ok resolved =>
    cases resolved with
    | none => trivial
    | some oc => exact fits_converse (known oc rfl)

/-! ### A checkout -/

/-- A read of the orders pipeline, and what its reply says. -/
theorem safe_read {s : Stmt} {A : s.Reply → TurnWorld → Prop} (proper : ∀ t, Proper t (.sql s))
    (reply : ∀ t : TurnWorld, ∀ a, (exec s t.db).1 = .ok a → A a (turnExec (i, .sql s) t).2) :
    Safe (shopFlow allow) belongProtocol i (Replied A fun _ => True)
      (((call (I := store) s : Handler s.Reply).embed sqlStatements).signed i) w := by
  intro t rely inv
  refine ⟨fun _ => ⟨?_, fun _ _ => settling_exec i _ t, ?_, fun _ => trivial⟩, fun _ => trivial, fun _ => trivial⟩
  · exact Belongs.step inv i (.sql s) (proper t)
  · show Replied A (fun _ => True) ((((exec s t.db).1.mapError TurnErr.db).mapError TurnErr.cause).mapError TurnErr.db) _
    cases answer : (exec s t.db).1 with
    | ok a => exact reply t a answer
    | error e => trivial

/-- The lines of a checkout are products of its business. -/
theorem safe_resolveProducts (businessID : String) (items : List DetectedItem) : Safe (shopFlow allow) belongProtocol i
    (Replied (fun resolved t => ∀ item ∈ resolved, t.db.products.Owned Product.businessID item.productID businessID) fun _ => True)
    (((checkoutResolveProducts businessID items).embed sqlStatements).signed i) w := by
  induction items generalizing w with
  | nil => exact fun item mem => absurd mem List.not_mem_nil
  | cons item rest ih =>
    unfold checkoutResolveProducts
    split
    · have reads : ∀ w, Safe (shopFlow allow) belongProtocol i (Replied (fun product t =>
          ∀ p, product = some p → t.db.products.Owned Product.businessID p.id businessID) fun _ => True)
          (((call (I := store) (.resolveProductByShortID businessID item.productID) : Handler (Option Product)).embed
            sqlStatements).signed i) w := by
        intro w
        refine safe_read (s := .resolveProductByShortID businessID item.productID) (fun _ => trivial) fun t product answer p same => ?_
        obtain rfl := Except.ok.inj answer
        have named := List.find?_some same
        simp only [Bool.and_eq_true, decide_eq_true_eq] at named
        exact ⟨p, List.mem_of_find?_eq_some same, rfl, named.1.1⟩
      rw [bind_eq, embed_bind, signed_bind]
      refine Safe.bind ((reads w).mono fun r t known => ?_)
      cases r with
      | error e => trivial
      | ok product =>
        have lasting : ∀ s t, Settling s t → (∀ p, product = some p → s.db.products.Owned Product.businessID p.id businessID) →
            ∀ p, product = some p → t.db.products.Owned Product.businessID p.id businessID :=
          fun s t settling own p same => (own p same).kept settling.db.products
        simp only
        rw [bind_eq, embed_bind, signed_bind]
        refine Safe.bind ((safe_framed lasting known ih).mono fun r t known => ?_)
        obtain ⟨resolved, own⟩ := known
        cases r with
        | error e => trivial
        | ok rest =>
          cases product with
          | none => exact resolved
          | some p =>
            intro item mem
            rcases List.mem_cons.1 mem with rfl | mem
            · exact own p rfl
            · exact resolved item mem
    · exact ih

/-- The pickup location of a checkout is its business's. -/
theorem safe_resolveFulfillment (job : CheckoutJob) : Safe (shopFlow allow) belongProtocol i
    (Replied (fun f t => ∀ l, f.2 = some l → t.db.businessLocations.Owned BusinessLocation.businessID l job.businessID) fun _ => True)
    (((checkoutResolveFulfillment job).embed sqlStatements).signed i) w := by
  unfold checkoutResolveFulfillment
  split
  · simp only
    split
    · exact fun l absurd => nomatch absurd
    · rw [bind_eq, embed_bind, signed_bind]
      have reads : Safe (shopFlow allow) belongProtocol i (Replied (fun location t =>
          ∀ l, location = some l → t.db.businessLocations.Owned BusinessLocation.businessID l job.businessID) fun _ => True)
          (((call (I := store) (.resolvePickupLocationByShortID job.businessID (job.pickupLocationID.getD "")) :
            Handler (Option String)).embed sqlStatements).signed i) w := by
        refine safe_read (s := .resolvePickupLocationByShortID job.businessID _) (fun _ => trivial) fun t location answer l same => ?_
        obtain rfl := Except.ok.inj answer
        obtain ⟨row, found, rfl⟩ := Option.map_eq_some_iff.1 same
        have named := List.find?_some found
        simp only [Bool.and_eq_true, decide_eq_true_eq] at named
        exact ⟨row, List.mem_of_find?_eq_some found, rfl, named.1.1.1⟩
      refine Safe.bind (reads.mono fun r t known => ?_)
      cases r with
      | error e => trivial
      | ok location => exact known
  · exact fun l absurd => nomatch absurd

/-- What is known when the order transaction is issued. -/
def Orders (tx : CheckoutTx) (t : TurnWorld) : Prop := Proper t (.sql (.checkoutTx tx))

theorem Orders.lasting {tx : CheckoutTx} (s t : TurnWorld) (settling : Settling s t) (h : Orders tx s) : Orders tx t := by
  obtain ⟨person, pickup, products⟩ := h
  exact ⟨person.settled settling.db, fun l named => (pickup l named).kept settling.db.locations,
    fun item mem => (products item mem).kept settling.db.products⟩

/-- The job that is handed out was enqueued, and so names rows of its business. -/
theorem safe_takeCheckout (n : Nat) : Safe (shopFlow allow) belongProtocol i
    (Replied (fun job t => OnePerson t.db job.businessID job.customerID job.conversationID) fun _ => True)
    ((call (I := turnStore) (.takeCheckout n)).signed i) w := by
  refine safe_proper (s := .takeCheckout n) (fun _ _ _ => trivial) fun t _ belongs job answer => ?_
  change orError .noRows t.checkoutJobs[n]? = .ok job at answer
  cases found : t.checkoutJobs[n]? with
  | none =>
    rw [found] at answer
    cases answer
  | some enqueued =>
    rw [found] at answer
    obtain rfl := Except.ok.inj answer
    exact belongs.jobs enqueued (List.mem_of_getElem? found)

theorem safe_handleCheckout {job : CheckoutJob} {d : Delivery} (known : OnePerson w.db job.businessID job.customerID job.conversationID) :
    Safe (shopFlow allow) belongProtocol i (fun _ _ => True) (((handleCheckout job d).embed sqlStatements).signed i) w := by
  have lasting : ∀ s t, Settling s t → OnePerson s.db job.businessID job.customerID job.conversationID →
      OnePerson t.db job.businessID job.customerID job.conversationID := fun s t settling person => person.settled settling.db
  unfold handleCheckout
  split
  · trivial
  · rw [bind_eq, embed_bind, signed_bind]
    refine Safe.bind ((safe_framed lasting known (safe_resolveProducts job.businessID job.detectedItems)).mono fun r t known => ?_)
    cases r with
    | error e => trivial
    | ok resolved =>
      -- the lines that were resolved, and whose order it is
      have lasting : ∀ s t, Settling s t →
          ((∀ item ∈ resolved, s.db.products.Owned Product.businessID item.productID job.businessID) ∧
            OnePerson s.db job.businessID job.customerID job.conversationID) →
          (∀ item ∈ resolved, t.db.products.Owned Product.businessID item.productID job.businessID) ∧
            OnePerson t.db job.businessID job.customerID job.conversationID := fun s t settling before =>
        ⟨fun item mem => (before.1 item mem).kept settling.db.products, lasting s t settling before.2⟩
      simp only
      split
      · trivial
      · have plain : (((call (I := store) (.getBusinessForOrder job.businessID) : Handler (Option String))).embed sqlStatements).Uses
            fun op => ∀ t, ((∀ item ∈ resolved, t.db.products.Owned Product.businessID item.productID job.businessID) ∧
              OnePerson t.db job.businessID job.customerID job.conversationID) → Proper t op :=
          Uses.embed (uses_call.2 fun _ _ => trivial)
        rw [bind_eq, embed_bind, signed_bind]
        refine Safe.bind ((safe_known lasting known plain).mono fun r t known => ?_)
        cases r with
        | error e => trivial
        | ok business =>
          simp only
          split
          · trivial
          · rename_i currency _
            rw [bind_eq, embed_bind, signed_bind]
            refine Safe.bind ((safe_framed lasting known (safe_resolveFulfillment job)).mono fun r t known => ?_)
            cases r with
            | error e => trivial
            | ok fulfillment =>
              obtain ⟨pickup, products, person⟩ := known
              have orders : Orders (job.tx d resolved currency fulfillment) t := ⟨person, pickup, products⟩
              refine (safe_known (α := Unit) Orders.lasting orders (Uses.embed ?_)).mono fun _ _ _ => trivial
              refine Uses.bind (uses_call.2 fun t known => known).attempt fun outcome => ?_
              cases outcome with
              | ok _ => trivial
              | error e => simp only; split <;> trivial

/-! ### A payment event -/

/-- Statements that are proper anywhere. -/
theorem safe_unowned {p : TurnHandler α} (uses : p.Uses fun op => ∀ t, Proper t op) :
    Safe (shopFlow allow) belongProtocol i (fun _ _ => True) (p.signed i) w :=
  (safe_known (K := fun _ => True) (fun _ _ _ _ => trivial) trivial (uses.mono fun _ proper t _ => proper t)).mono fun _ _ _ => trivial

theorem safe_unowned_bind {p : Handler α} {f : α → Handler β} (uses : p.Uses fun op => ∀ t, Proper t (.sql op))
    (rest : ∀ a t, Safe (shopFlow allow) belongProtocol i (fun _ _ => True) (((f a).embed sqlStatements).signed i) t) :
    Safe (shopFlow allow) belongProtocol i (fun _ _ => True) (((p.bind f).embed sqlStatements).signed i) w := by
  rw [embed_bind, signed_bind]
  refine Safe.bind ((safe_unowned (Uses.embed uses)).mono fun r t _ => ?_)
  cases r with
  | error e => trivial
  | ok a => exact rest a t

/-- The confirmation goes to the phone whose conversation with the business was looked up. -/
theorem safe_sendPaymentConfirmation {evt : Paystack.NormalisedPaymentEvent} {a : Attempt} {businessID customerID : String} :
    Safe (shopFlow allow) belongProtocol i (fun _ _ => True)
      (((sendPaymentConfirmation evt a businessID customerID).embed sqlStatements).signed i) w := by
  refine safe_unowned_bind (uses_call.2 fun _ => trivial) fun phone t => ?_
  cases phone with
  | none => trivial
  | some phone =>
    have found : Safe (shopFlow allow) belongProtocol i
        (Replied (fun c t => ∀ k, c = some k → t.db.conversations.Owned partner k (businessID, phone)) fun _ => True)
        (((call (I := store) (.conversationByPhone businessID phone) : Handler (Option String)).embed sqlStatements).signed i) t := by
      refine safe_read (s := .conversationByPhone businessID phone) (fun _ => trivial) fun t c answer k same => ?_
      obtain rfl := Except.ok.inj answer
      obtain ⟨row, found, rfl⟩ := Option.map_eq_some_iff.1 same
      have named := List.find?_some found
      simp only [Bool.and_eq_true, decide_eq_true_eq] at named
      exact ⟨row, List.mem_of_find?_eq_some found, rfl, Prod.ext named.1 named.2⟩
    simp only
    rw [bind_eq, embed_bind, signed_bind]
    refine Safe.bind (found.mono fun r t known => ?_)
    cases r with
    | error e => trivial
    | ok c =>
      cases c with
      | none => trivial
      | some c =>
        have lasting : ∀ s t, Settling s t → s.db.conversations.Owned partner c (businessID, phone) →
            t.db.conversations.Owned partner c (businessID, phone) := fun s t settling own => own.kept settling.db.conversations
        refine (safe_known (α := Unit) lasting (known c rfl) (Uses.embed (uses_call.2 fun t own k named => ?_))).mono fun _ _ _ => trivial
        obtain rfl := Option.some.inj named
        exact ⟨businessID, rfl, own⟩

theorem safe_recordPayment {evt : Paystack.NormalisedPaymentEvent} {a : Attempt} {m : Attribution} :
    Safe (shopFlow allow) belongProtocol i (fun _ _ => True) (((recordPayment evt a m).embed sqlStatements).signed i) w := by
  unfold recordPayment
  split
  · trivial
  · refine safe_unowned_bind ?_ fun _ t => safe_unowned_bind (uses_call.2 fun _ => trivial).attempt fun inserted t => ?_
    · unfold cancelOrderFollowUps
      split
      · exact uses_call.2 fun _ => trivial
      · trivial
    · cases inserted with
      | ok _ =>
        refine safe_unowned_bind ?_ fun _ t => ?_
        · unfold recordNetwork
          split
          · split
            · exact (uses_call.2 fun _ => trivial).attempt.ignore
            · trivial
          · trivial
        · split
          · split
            · exact safe_sendPaymentConfirmation
            · trivial
          · trivial
      | error e => simp only; split <;> trivial

theorem safe_handlePaymentEvent (evt : Paystack.NormalisedPaymentEvent) (a : Attempt) :
    Safe (shopFlow allow) belongProtocol i (fun _ _ => True) (((handlePaymentEvent evt a).embed sqlStatements).signed i) w := by
  have reconciles : (reconcile evt a.now).Uses fun op => ∀ t, Proper t (.sql op) :=
    (reconcile_uses evt a.now).mono fun op reconciles _ => by cases reconciles <;> trivial
  unfold handlePaymentEvent
  simp only
  split
  · exact safe_unowned_bind reconciles fun _ _ => safe_recordPayment
  · refine safe_unowned_bind (uses_call.2 fun _ => trivial) fun existing t => ?_
    cases existing with
    | some _ => trivial
    | none => exact safe_unowned_bind reconciles fun _ _ => safe_recordPayment

/-! ### Everybody -/

/-- Whatever runs under a name keeps to its business. -/
theorem safe_belongs {p : Program (turnStore.signed TurnName) Unit} (job : ShopJob i p) :
    Safe (shopFlow allow) belongProtocol i (fun _ _ => True) p w := by
  cases job with
  | of job named =>
    cases job with
    | turn n x job =>
      unfold turn ignore
      rw [bind_eq, bind_eq, signed_bind, signed_bind, signed_attempt]
      refine Safe.bind (Safe.bind (Safe.attempt ((safe_handleDebounced x job).mono fun r t _ => ?_)))
      have finishes : (call (I := turnStore) .finish).Uses fun op => ∀ t : TurnWorld, True → Proper t op := uses_call.2 fun _ _ => trivial
      exact (safe_known (fun _ _ _ _ => trivial) trivial finishes).mono fun _ _ _ => trivial
    | recover n => exact safe_unowned (uses_call.2 fun _ => trivial)
    | checkout n k d generated =>
      unfold checkoutTask
      refine Safe.bind_signed ((safe_takeCheckout k).mono fun r t known => ?_)
      cases r with
      | error e => trivial
      | ok job => exact safe_handleCheckout known
    | takeover n businessID id =>
      refine safe_unowned (Uses.embed (Uses.ignore ?_))
      exact Uses.bind (uses_call.2 fun _ => trivial) fun _ => trivial
    | release n businessID id =>
      refine safe_unowned (Uses.embed (Uses.ignore ?_))
      exact Uses.bind (uses_call.2 fun _ => trivial) fun _ => trivial
    | beside n q uses => exact absurd rfl (named n)
    | outside n op outside => exact absurd rfl (named n)
  | payment n evt a => exact safe_handlePaymentEvent evt a
  | beside n q uses =>
    refine safe_unowned (Uses.embed (uses.mono fun op silent t => ?_))
    cases op <;> trivial
  | outside n op outside =>
    refine safe_unowned (uses_logged fun t => ?_)
    cases op <;> trivial

end Safety

/-! ## Runs -/

/-- In every run of turns, checkout jobs, payment events and whatever else goes on, interleaved, failing and stopping anywhere:
what belongs to its business at the start does at every moment. -/
theorem belongs_throughout {allow : TurnWorld → TurnName × TurnStmt → Prop} {w : TurnWorld}
    {c : Crew (turnStore.signed TurnName) TurnName TurnWorld} (start : Belongs w) (run : (shopFlow allow).Reach ⟨w, []⟩ c) :
    Belongs c.state :=
  Protocol.invariant (R := shopFlow allow) (P := belongProtocol) (fun _ _ _ job _ _ => safe_belongs job) run start fun _ => trivial

theorem asked_belongs : Belongs asked where
  orders _ mem := nomatch mem
  lines _ mem := nomatch mem
  messages m mem := by
    have none : asked.messages = [] := rfl
    rw [none] at mem
    exact nomatch mem
  jobs _ mem := nomatch mem

instance (w : TurnWorld) (op : TurnName × TurnStmt) : Decidable ((shopFlow unhindered).allow w op) := isTrue trivial

/-- The payment of the order that is placed. -/
def payment : Program (turnStore.signed TurnName) Unit :=
  ((handlePaymentEvent (Orders.chargeOf "charge.success" "order-1" 500 "GHS") ⟨9, "payment-1", "confirmation-1"⟩).embed
    sqlStatements).signed (.other 0)

def paid : TurnWorld := (payment.run turnExec ordered).2

theorem belongs_throughout_ordered : ∃ c : Crew (turnStore.signed TurnName) TurnName TurnWorld,
    c.state.db.orders.rows.length = 1 ∧ c.state.db.orderItems.rows.length = 1 ∧
      (c.state.messages.map Addressed.conversationID) = [some "conv", some "conv"] ∧ Belongs c.state := by
  have turned : (shopFlow unhindered).Reach ⟨asked, []⟩ ⟨answered, []⟩ :=
    (shopFlow unhindered).reach_job (i := .turn 1) (p := turnOf 1 (input "1")) (.of (.turn 1 (input "1") debounced) nofun)
      (by decide +kernel)
  have placed : (shopFlow unhindered).Reach ⟨answered, []⟩ ⟨ordered, []⟩ :=
    (shopFlow unhindered).reach_job (i := .checkout 0) (p := checkoutOf 0 "order-1")
      (.of (.checkout 0 0 ⟨"order-1", fun _ => "order-1" ++ "-item", 0⟩ (by decide)) nofun) (by decide +kernel)
  have confirmed : (shopFlow unhindered).Reach ⟨ordered, []⟩ ⟨paid, []⟩ :=
    (shopFlow unhindered).reach_job (i := .other 0) (p := payment)
      (.payment 0 (Orders.chargeOf "charge.success" "order-1" 500 "GHS") ⟨9, "payment-1", "confirmation-1"⟩) (by decide +kernel)
  have belongs := belongs_throughout asked_belongs ((turned.trans placed).trans confirmed)
  exact ⟨⟨paid, []⟩, by decide +kernel, by decide +kernel, by decide +kernel, belongs⟩

end NovoApex.Turns
