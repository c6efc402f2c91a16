import NovoApex.Db.Store
import NovoApex.Workers.CheckoutSpec

/-!
# What a statement does to the order lifecycle

The lifecycle of an order lives in three places: its row, the state of its
conversation and its domain events. `Effect` lists everything one statement can
do to them and `exec_effect` says that the list is complete; every invariant of
the pipeline is a case analysis over it.
-/

namespace NovoApex
set_option autoImplicit false
open Lib Workers Db

/-- The lifecycle is untouched; the other tables may change. -/
structure SameLifecycle (db db' : Database) : Prop where
  orders : db'.orders = db.orders
  conversations : db'.conversations = db.conversations
  domainEvents : db'.domainEvents = db.domainEvents

theorem SameLifecycle.refl (db : Database) : SameLifecycle db db := ⟨rfl, rfl, rfl⟩

theorem SameLifecycle.stateOf {db db' : Database} (h : SameLifecycle db db') (k : String) :
    db'.stateOf k = db.stateOf k := by
  unfold Database.stateOf
  rw [h.conversations]

/-- `cancelOrder` on an open order. -/
structure Cancelled (o : Order) (reason : String) (now : Nat) (db db' : Database) : Prop where
  mem : o ∈ db.orders.rows
  wasOpen : o.status.isOpen = true
  orders : db'.orders = setStatus (cancellable o.id) .cancelled now db.orders
  states : ∀ k, db'.stateOf k =
    if o.conversationID = some k ∧ db.stateOf k = some .invoicing then some .cancelled else db.stateOf k
  events : db'.domainEvents.rows = db.domainEvents.rows ++ [Events.orderCancelledEvent ⟨o.id, reason⟩] ∨
    (∃ e ∈ db.domainEvents.rows, e.key = (Events.orderCancelledEvent ⟨o.id, reason⟩).key) ∧
      db'.domainEvents = db.domainEvents

/-- A restock that claimed its order. -/
structure Restocked (orderID : String) (now : Nat) (db db' : Database) : Prop where
  orders : db'.orders = db.orders.update (unrestored orderID)
    (fun o => { o with stockRestoredAt := some now }) fun _ => rfl
  conversations : db'.conversations = db.conversations
  domainEvents : db'.domainEvents = db.domainEvents

/-- A row after a restock is an old row, and the one restocked keeps its status. -/
theorem Restocked.mem {orderID : String} {now : Nat} {db db' : Database} (h : Restocked orderID now db db') {r : Order}
    (hr : r ∈ db'.orders.rows) :
    ∃ o ∈ db.orders.rows, r.id = o.id ∧ r.status = o.status ∧ (r = o ∨ o.id = orderID) := by
  rw [h.orders, Table.mem_update] at hr
  obtain ⟨o, ho, rfl⟩ := hr
  refine ⟨o, ho, ?_⟩
  rcases sel : unrestored orderID o with _ | _
  · rw [Table.rewrite_of_neg sel]
    exact ⟨rfl, rfl, .inl rfl⟩
  · rw [Table.rewrite_of_pos sel]
    simp only [unrestored, Bool.and_eq_true, decide_eq_true_eq] at sel
    exact ⟨rfl, rfl, .inr sel.1⟩

/-- A direct write of a conversation's state: the conversation named moves or nothing does. -/
structure StateWritten (conversationID : String) (state : ConversationState) (db db' : Database) : Prop where
  orders : db'.orders = db.orders
  states : ∀ k, db'.stateOf k = db.stateOf k ∨ k = conversationID ∧ db'.stateOf k = some state
  domainEvents : db'.domainEvents = db.domainEvents

/-- Everything a statement can do to the lifecycle. -/
inductive Effect (db : Database) : Stmt → Database → Prop where
  | same {op db'} (h : SameLifecycle db db') : Effect db op db'
  | placed {d db'} (accepts : Accepts d db) (h : Placed d db db') : Effect db (.checkoutTx d) db'
  | paid {orderID now} : Effect db (.markOrderPaid orderID now)
      { db with orders := setStatus (fun o => decide (o.id = orderID)) .paid now db.orders }
  | moved {c src dst db'} (orders : db'.orders = db.orders) (domainEvents : db'.domainEvents = db.domainEvents)
      (states : ∀ k, db'.stateOf k = if k = c ∧ Domain.validateTransition src dst = true ∧ db.stateOf c = some src
        then some dst else db.stateOf k) : Effect db (.transition c src dst) db'
  | cancelled {o reason now db'} (h : Cancelled o reason now db db') : Effect db (.cancelOrder o.id reason now) db'
  | restocked {orderID now db'} (h : Restocked orderID now db db') : Effect db (.restock orderID now) db'
  | fulfilled {status id businessID now} : Effect db (.updateOrderFulfillment status id businessID now)
      { db with
        orders := setStatus (fun o => decide (o.id = id) && decide (o.businessID = businessID)) status now db.orders }
  | escalated {c db'} (h : StateWritten c .escalated db db') : Effect db (.escalateConversationByID c) db'
  | taken {c b db'} (h : StateWritten c .escalated db db') : Effect db (.takeoverConversation c b) db'
  | released {c b db'} (h : StateWritten c .lead db db') : Effect db (.releaseConversation c b) db'

/-! ## The statements, one by one -/

theorem checkoutTx_effect (d : CheckoutTx) (db : Database) : Effect db (.checkoutTx d) (exec (.checkoutTx d) db).2 := by
  show Effect db (.checkoutTx d) (beginFunc (Workers.checkoutTx d) db).2
  rcases beginFunc_cases (Workers.checkoutTx d) db with ⟨_, db', ok, eq⟩ | ⟨e, -, eq⟩
  · rw [eq]
    obtain ⟨accepts, placed⟩ := checkoutTx_ok ok
    exact .placed accepts placed
  · rw [eq]
    exact .same (.refl db)

theorem cancelConversation_frame (conversationID : Option String) (db : Database) :
    ∃ cs, cancelConversation conversationID db = { db with conversations := cs } := by
  cases conversationID with
  | none => exact ⟨db.conversations, rfl⟩
  | some c => exact Domain.transition_frame c _ _ db

theorem stateOf_cancelConversation (conversationID : Option String) (db : Database) (k : String) :
    (cancelConversation conversationID db).stateOf k =
      if conversationID = some k ∧ db.stateOf k = some .invoicing then some .cancelled else db.stateOf k := by
  cases conversationID with
  | none => simp [cancelConversation]
  | some c =>
    have legal : Domain.validateTransition .invoicing .cancelled = true := rfl
    simp only [cancelConversation, Domain.stateOf_transition, legal, true_and, Option.some.injEq]
    by_cases hk : k = c
    · subst hk; simp
    · simp [hk, Ne.symm hk]

theorem conversationOfOrder_cancelled {o : Order} {db : Database} (ho : o ∈ db.orders.rows) (isOpen : o.status.isOpen = true)
    (now : Nat) : conversationOfOrder o.id { db with orders := setStatus (cancellable o.id) .cancelled now db.orders } =
      .ok o.conversationID := by
  have sel : cancellable o.id o = true := by simp [cancellable, isOpen]
  have found : (setStatus (cancellable o.id) .cancelled now db.orders).find? o.id =
      some { o with status := .cancelled, updatedAt := now } := by
    rw [Table.find?_eq_some]
    exact ⟨mem_setStatus.2 (.inr ⟨o, ho, sel, rfl⟩), rfl⟩
  simp only [conversationOfOrder, found]

/-- The transaction of `cancelOrder` on an open order: cancel the row, move the conversation, emit. -/
theorem cancelOrderTx_open {o : Order} {db : Database} (reason : String) (now : Nat) (ho : o ∈ db.orders.rows)
    (isOpen : o.status.isOpen = true) :
    cancelOrderTx o.id reason now db =
      (Events.insert (Events.orderCancelledEvent ⟨o.id, reason⟩) (cancelConversation o.conversationID
        { db with orders := setStatus (cancellable o.id) .cancelled now db.orders })).map fun r => ((), r.2) := by
  have sel : cancellable o.id o = true := by simp [cancellable, isOpen]
  have some_ : ¬ db.orders.affected (cancellable o.id) = 0 := Table.affected_ne_zero.2 ⟨o, ho, sel⟩
  unfold cancelOrderTx
  rw [if_neg some_]
  simp only [conversationOfOrder_cancelled ho isOpen]

/-- It comes through, and the events it emits leave the conversations alone. -/
theorem cancelOrderTx_states {o : Order} {db : Database} (reason : String) (now : Nat) (ho : o ∈ db.orders.rows)
    (isOpen : o.status.isOpen = true) : ∃ t, cancelOrderTx o.id reason now db = .ok ((), t) ∧ t.conversations =
      (cancelConversation o.conversationID
        { db with orders := setStatus (cancellable o.id) .cancelled now db.orders }).conversations := by
  rw [cancelOrderTx_open reason now ho isOpen]
  rcases Events.insert_cases (Events.orderCancelledEvent ⟨o.id, reason⟩) (cancelConversation o.conversationID
    { db with orders := setStatus (cancellable o.id) .cancelled now db.orders }) with ⟨evts, -, -, eq⟩ | ⟨-, eq⟩
  · rw [eq]
    exact ⟨_, rfl, rfl⟩
  · rw [eq]
    exact ⟨_, rfl, rfl⟩

/-- `cancelOrder` does nothing or cancels the one open order it names. -/
theorem cancelOrder_effect (orderID reason : String) (now : Nat) (db : Database) :
    Effect db (.cancelOrder orderID reason now) (exec (.cancelOrder orderID reason now) db).2 := by
  show Effect db _ (beginFunc (cancelOrderTx orderID reason now) db).2
  by_cases none : db.orders.affected (cancellable orderID) = 0
  · have skip : cancelOrderTx orderID reason now db = .ok ((), db) := by simp only [cancelOrderTx, if_pos none]
    rw [beginFunc_ok skip]
    exact .same (.refl db)
  · obtain ⟨o, ho, sel⟩ := Table.affected_ne_zero.1 none
    simp only [cancellable, Bool.and_eq_true, decide_eq_true_eq] at sel
    obtain ⟨rfl, isOpen⟩ := sel
    have body := cancelOrderTx_open reason now ho isOpen
    have states := stateOf_cancelConversation o.conversationID
      { db with orders := setStatus (cancellable o.id) .cancelled now db.orders }
    obtain ⟨cs, frame⟩ := cancelConversation_frame o.conversationID
      { db with orders := setStatus (cancellable o.id) .cancelled now db.orders }
    rw [frame] at body states
    rcases Events.insert_cases (Events.orderCancelledEvent ⟨o.id, reason⟩) _ with ⟨evts, -, rows, eq⟩ | ⟨taken, eq⟩
    · rw [eq] at body
      rw [beginFunc_ok body]
      exact .cancelled ⟨ho, isOpen, rfl, states, .inl rows⟩
    · rw [eq] at body
      rw [beginFunc_ok body]
      exact .cancelled ⟨ho, isOpen, rfl, states, .inr ⟨taken, rfl⟩⟩

/-- `cancelOrder` writes the lifecycle tables only. -/
theorem cancelOrder_frame (orderID reason : String) (now : Nat) (db : Database) :
    ∃ orders conversations domainEvents, (exec (.cancelOrder orderID reason now) db).2 =
      { db with orders := orders, conversations := conversations, domainEvents := domainEvents } := by
  show ∃ orders conversations domainEvents, (beginFunc (cancelOrderTx orderID reason now) db).2 = _
  by_cases none : db.orders.affected (cancellable orderID) = 0
  · have skip : cancelOrderTx orderID reason now db = .ok ((), db) := by simp only [cancelOrderTx, if_pos none]
    exact ⟨db.orders, db.conversations, db.domainEvents, by rw [beginFunc_ok skip]⟩
  · obtain ⟨o, ho, sel⟩ := Table.affected_ne_zero.1 none
    simp only [cancellable, Bool.and_eq_true, decide_eq_true_eq] at sel
    obtain ⟨rfl, isOpen⟩ := sel
    have body := cancelOrderTx_open reason now ho isOpen
    obtain ⟨cs, frame⟩ := cancelConversation_frame o.conversationID
      { db with orders := setStatus (cancellable o.id) .cancelled now db.orders }
    rw [frame] at body
    rcases Events.insert_cases (Events.orderCancelledEvent ⟨o.id, reason⟩) _ with ⟨evts, -, -, eq⟩ | ⟨-, eq⟩
    · rw [eq] at body
      exact ⟨_, _, _, by rw [beginFunc_ok body]⟩
    · rw [eq] at body
      exact ⟨_, cs, db.domainEvents, by rw [beginFunc_ok body]⟩

theorem restock_effect (orderID : String) (now : Nat) (db : Database) :
    Effect db (.restock orderID now) (exec (.restock orderID now) db).2 := by
  show Effect db _ (beginFunc (restockTx orderID now) db).2
  rcases beginFunc_cases (restockTx orderID now) db with ⟨_, db', ok, eq⟩ | ⟨e, -, eq⟩
  · rw [eq]
    unfold restockTx at ok
    split at ok
    · cases ok
    · split at ok
      · cases ok
        exact .restocked ⟨rfl, rfl, rfl⟩
      · cases ok
  · rw [eq]
    exact .same (.refl db)

/-- A direct write to the conversations selected, all of one id. -/
theorem setConversation_written {sel : Conversation → Bool} {conversationID : String}
    (fixes : ∀ c, sel c = true → c.id = conversationID) (state : ConversationState) (escalated : Bool)
    (db : Database) : StateWritten conversationID state db (setConversation sel state escalated db).2 := by
  refine ⟨rfl, fun k => ?_, rfl⟩
  unfold setConversation Database.stateOf
  simp only [Table.find?_update]
  cases hf : db.conversations.find? k with
  | none => exact .inl rfl
  | some c =>
    rcases hs : sel c with _ | _
    · simp [Table.rewrite, hs]
    · have here : k = conversationID := (Table.find?_eq_some.1 hf).2.symm.trans (fixes c hs)
      simp [Table.rewrite, hs, here]

/-- The references of a payment row. -/
structure PaymentRefers (p : PaymentInsert) (db : Database) : Prop where
  business : Refers db.businesses (some p.businessID)
  customer : Refers db.customers p.customerID
  order : Refers db.orders p.orderID

theorem insertPayment_eq_ok {p : PaymentInsert} {db db' : Database} :
    Workers.insertPayment p db = .ok ((), db') ↔
      ∃ amount payments, Numeric.ofDecimal p.amount = some amount ∧ db.payments.insert (p.row amount) = some payments ∧
        referenceTaken db p.reference = false ∧ PaymentRefers p db ∧ { db with payments := payments } = db' := by
  unfold Workers.insertPayment
  cases ha : (Numeric.ofDecimal p.amount : Option Money) with
  | none => simp
  | some amount =>
    cases hi : db.payments.insert (p.row amount) with
    | none => simp [hi]
    | some payments =>
      cases hr : referenceTaken db p.reference with
      | true => simp [hi]
      | false =>
        simp only [hi, bind_eq_ok, referenced_eq_ok, Bool.false_eq_true, if_false]
        constructor
        · rintro ⟨-, business, -, customer, -, order, same⟩
          injection same with same
          injection same with _ same
          exact ⟨amount, payments, rfl, hi, trivial, ⟨business, customer, order⟩, same⟩
        · rintro ⟨amount', payments', same, hi', -, refers, rfl⟩
          obtain rfl := Option.some.inj same
          obtain rfl := Option.some.inj (hi.symm.trans hi')
          exact ⟨(), refers.business, (), refers.customer, (), refers.order, rfl⟩

theorem insertPayment_frame (p : PaymentInsert) (db : Database) :
    ∃ payments, (exec (.insertPayment p) db).2 = { db with payments := payments } := by
  show ∃ payments, (beginFunc (Workers.insertPayment p) db).2 = _
  rcases beginFunc_cases (Workers.insertPayment p) db with ⟨_, db', ok, eq⟩ | ⟨e, -, eq⟩
  · obtain ⟨_, payments, -, -, -, -, rfl⟩ := insertPayment_eq_ok.1 ok
    exact ⟨payments, by rw [eq]⟩
  · exact ⟨db.payments, by rw [eq]⟩

/-- The list is complete. -/
theorem exec_effect (op : Stmt) (db : Database) : Effect db op (exec op db).2 := by
  cases op with
  | checkoutTx d => exact checkoutTx_effect d db
  | markOrderPaid o now => exact .paid
  | transition c src dst =>
    obtain ⟨cs, h⟩ := Domain.transition_frame c src dst db
    refine .moved ?_ ?_ (fun k => Domain.stateOf_transition k)
    · show (Domain.transition c src dst db).2.orders = _
      rw [h]
    · show (Domain.transition c src dst db).2.domainEvents = _
      rw [h]
  | cancelOrder o reason now => exact cancelOrder_effect o reason now db
  | restock o now => exact restock_effect o now db
  | updateOrderFulfillment st o b now => exact .fulfilled
  | escalateConversationByID c => exact .escalated (setConversation_written (by simp) _ _ db)
  | takeoverConversation c b => exact .taken (setConversation_written (by simp +contextual) _ _ db)
  | releaseConversation c b => exact .released (setConversation_written (by simp +contextual) _ _ db)
  | insertPayment p =>
    obtain ⟨payments, h⟩ := insertPayment_frame p db
    refine .same ?_
    rw [h]
    exact ⟨rfl, rfl, rfl⟩
  | insertOutbound m =>
    refine .same ?_
    show SameLifecycle db (Workers.insertOutbound m db).2
    unfold Workers.insertOutbound
    split <;> exact ⟨rfl, rfl, rfl⟩
  | insertScheduledFollowUp f =>
    refine .same ?_
    show SameLifecycle db (Db.insertScheduledFollowUp f db).2
    unfold Db.insertScheduledFollowUp
    split
    · exact .refl db
    · split
      · exact .refl db
      · split <;> exact ⟨rfl, rfl, rfl⟩
  | _ => exact .same ⟨rfl, rfl, rfl⟩

/-! ## What no statement changes -/

/-- The columns of an order that are written once: all but its status, its clock and its restock marker. -/
def Order.fixed (o : Order) : Order := { o with status := .pending, updatedAt := 0, stockRestoredAt := none }

theorem Order.fixed_id {o o' : Order} (h : o.fixed = o'.fixed) : o.id = o'.id := (congrArg Order.id h :)

theorem Order.fixed_conversationID {o o' : Order} (h : o.fixed = o'.fixed) : o.conversationID = o'.conversationID :=
  (congrArg Order.conversationID h :)

theorem Order.fixed_idempotencyKey {o o' : Order} (h : o.fixed = o'.fixed) : o.idempotencyKey = o'.idempotencyKey :=
  (congrArg Order.idempotencyKey h :)

theorem update_fixed {orders : Table Order.id} {sel : Order → Bool} {f : Order → Order} {keeps : ∀ o, (f o).id = o.id}
    (fixed : ∀ o, (f o).fixed = o.fixed) :
    ∃ g : Order → Order, (∀ o, (g o).fixed = o.fixed) ∧ (orders.update sel f keeps).rows = orders.rows.map g := by
  refine ⟨Table.rewrite sel f, fun o => ?_, rfl⟩
  unfold Table.rewrite
  split
  · exact fixed o
  · rfl

theorem setStatus_fixed (sel : Order → Bool) (status : OrderStatus) (now : Nat) (orders : Table Order.id) :
    ∃ g : Order → Order, (∀ o, (g o).fixed = o.fixed) ∧ (setStatus sel status now orders).rows = orders.rows.map g := by
  unfold setStatus
  exact update_fixed (by intro o; rfl)

/-- A statement places one order or rewrites rows in place, without touching their fixed columns. -/
theorem Effect.orders_cases {db db' : Database} {op : Stmt} (h : Effect db op db') :
    (∃ d, op = .checkoutTx d ∧ Accepts d db ∧ Placed d db db') ∨
      ∃ f : Order → Order, (∀ o, (f o).fixed = o.fixed) ∧ db'.orders.rows = db.orders.rows.map f := by
  have kept : db'.orders = db.orders → ∃ f : Order → Order, (∀ o, (f o).fixed = o.fixed) ∧
      db'.orders.rows = db.orders.rows.map f := fun h => ⟨id, fun _ => rfl, by rw [h, List.map_id]⟩
  cases h with
  | same h => exact .inr (kept h.orders)
  | placed accepts h => exact .inl ⟨_, rfl, accepts, h⟩
  | paid => exact .inr (setStatus_fixed _ _ _ db.orders)
  | moved orders domainEvents states => exact .inr (kept orders)
  | cancelled h => rw [h.orders]; exact .inr (setStatus_fixed _ _ _ db.orders)
  | restocked h => rw [h.orders]; exact .inr (update_fixed (by intro o; rfl))
  | fulfilled => exact .inr (setStatus_fixed _ _ _ db.orders)
  | escalated h => exact .inr (kept h.orders)
  | taken h => exact .inr (kept h.orders)
  | released h => exact .inr (kept h.orders)

end NovoApex
