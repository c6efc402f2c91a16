import NovoApex.Turns.Takeover

/-!
# Orders from intents

Migration 0008 wants an order to be created only from an intent that awaits its
confirmation. The intent's id travels from the turn that staged it through the queue to
the order transaction, which converts it. A turn whose intent could be neither read nor
staged sends a job without one, and nobody looks at how many intents the conversion
affected.

So the guarantee holds in the runs in which every order transaction that finds its
conversation orderable carries an intent that no order has been created from.
-/

namespace NovoApex.Turns
set_option autoImplicit false
open Lib Program Db Workers

/-- Every order was placed from an intent of its conversation: it awaited confirmation right before, and is converted to the
order since. -/
structure FromIntents (w : TurnWorld) : Prop where
  placed : ∀ o ∈ w.db.orders.rows, ∃ p ∈ w.placements, p.orderID = o.id ∧ p.conversationID = o.conversationID
  created : ∀ p ∈ w.placements, ∃ i ∈ p.before, i.status = .awaitingConfirmation ∧ crmText i.conversationID = p.conversationID ∧
    ∃ i' ∈ w.db.orderIntents.rows, i'.id = i.id ∧ i'.conversationID = i.conversationID ∧ i'.status = .converted ∧
      i'.orderID = some p.orderID

/-- An intent that is linked to an order stays linked to it. -/
def LinksKept (db db' : Database) : Prop :=
  ∀ i ∈ db.orderIntents.rows, ∀ o, i.orderID = some o → ∀ i' ∈ db'.orderIntents.rows, i'.id = i.id → i'.orderID = some o

/-- The conversation is in a state that an order may be placed from. -/
def Orderable (db : Database) (conversationID : String) : Prop := ∃ s ∈ orderableStates, db.stateOf conversationID = some s

instance (db : Database) (conversationID : String) : Decidable (Orderable db conversationID) :=
  inferInstanceAs (Decidable (∃ s ∈ orderableStates, _))

/-- The job carries an intent that no order has been created from. -/
def CarriesIntent (db : Database) (orderIntentID : Option String) : Prop :=
  (orderIntentID.bind crmText).isSome = true ∧
    ∀ i ∈ db.orderIntents.rows, some i.id = orderIntentID.bind crmText → i.status ≠ .converted

instance (db : Database) (orderIntentID : Option String) : Decidable (CarriesIntent db orderIntentID) :=
  inferInstanceAs (Decidable (_ ∧ ∀ i ∈ db.orderIntents.rows, _))

/-- An order transaction that finds its conversation orderable carries an intent that no order has been created from. -/
def keepsIntent (w : TurnWorld) : TurnName × TurnStmt → Prop
  | (_, .sql (.checkoutTx d)) => Orderable w.db d.conversationID → CarriesIntent w.db d.orderIntentID
  | _ => True

/-! ## Intents and orders over time -/

/-- Intents are never deleted, a converted one never changes, and what was enqueued stays enqueued. -/
structure Grows (w w' : TurnWorld) : Prop where
  intents : ∀ i ∈ w.db.orderIntents.rows, ∃ i' ∈ w'.db.orderIntents.rows, i'.id = i.id ∧ i'.conversationID = i.conversationID ∧
    (i.status = .converted → i' = i)
  jobs : ∀ job ∈ w.checkoutJobs, job ∈ w'.checkoutJobs

theorem Grows.of_same {w w' : TurnWorld} (intents : w'.db.orderIntents = w.db.orderIntents)
    (jobs : ∀ job ∈ w.checkoutJobs, job ∈ w'.checkoutJobs) : Grows w w' :=
  ⟨fun i mem => ⟨i, intents ▸ mem, rfl, rfl, fun _ => rfl⟩, jobs⟩

theorem Grows.trans {a b c : TurnWorld} (first : Grows a b) (second : Grows b c) : Grows a c := by
  refine ⟨?_, fun job mem => second.jobs job (first.jobs job mem)⟩
  intro i mem
  obtain ⟨i', mem', id', conversation', same'⟩ := first.intents i mem
  obtain ⟨i'', mem'', id'', conversation'', same''⟩ := second.intents i' mem'
  refine ⟨i'', mem'', id''.trans id', conversation''.trans conversation', fun converted => ?_⟩
  obtain rfl := same' converted
  exact same'' converted

/-- Only the order transaction and the staging write intents. -/
theorem exec_intents (op : Stmt) (db : Database) (other : ∀ d, op ≠ .checkoutTx d) :
    (exec op db).2.orderIntents = db.orderIntents := by
  cases op with
  | checkoutTx d => exact (other d rfl).elim
  | transition c src dst =>
    obtain ⟨_, eq⟩ := Domain.transition_frame c src dst db
    show (Domain.transition c src dst db).2.orderIntents = _
    rw [eq]
  | cancelOrder o reason now =>
    obtain ⟨_, _, _, eq⟩ := cancelOrder_frame o reason now db
    rw [eq]
  | restock o now =>
    show (beginFunc (restockTx o now) db).2.orderIntents = _
    rcases beginFunc_cases (restockTx o now) db with ⟨_, db', ok, eq⟩ | ⟨e, -, eq⟩
    · rw [eq]
      unfold restockTx at ok
      split at ok
      · cases ok
      · split at ok
        · cases ok
          rfl
        · cases ok
    · rw [eq]
  | insertPayment p =>
    obtain ⟨_, eq⟩ := insertPayment_frame p db
    rw [eq]
  | insertOutbound m =>
    show (Workers.insertOutbound m db).2.orderIntents = _
    unfold Workers.insertOutbound
    split <;> rfl
  | insertScheduledFollowUp f =>
    show (Db.insertScheduledFollowUp f db).2.orderIntents = _
    unfold Db.insertScheduledFollowUp
    split
    · rfl
    · split
      · rfl
      · split <;> rfl
  | _ => rfl

/-- A conversion leaves an intent, or converts one that was not converted. -/
theorem convertedIntent_cases (d : CheckoutTx) (i : OrderIntent) :
    convertedIntent d i = i ∨ d.orderIntentID.bind crmText = some i.id ∧ i.status ≠ .converted ∧
      convertedIntent d i = { i with status := .converted, orderID := crmText d.orderID } := by
  unfold convertedIntent
  split
  · rename_i named
    refine .inr ⟨named.1, fun converted => ?_, rfl⟩
    have convertible := named.2
    rw [OrderIntent.convertible, converted] at convertible
    exact absurd convertible (by decide)
  · exact .inl rfl

theorem grows_checkoutTx {w : TurnWorld} {d : CheckoutTx} {db' : Database} (placed : Placed d w.db db')
    (placements : List IntentPlacement) : Grows w { w with db := db', placements := placements } := by
  refine ⟨fun i mem => ⟨convertedIntent d i, ?_, ?_⟩, fun job mem => mem⟩
  · show _ ∈ db'.orderIntents.rows
    rw [placed.intents]
    exact List.mem_map_of_mem mem
  · rcases convertedIntent_cases d i with same | ⟨-, unconverted, eq⟩
    · rw [same]
      exact ⟨rfl, rfl, fun _ => rfl⟩
    · rw [eq]
      exact ⟨rfl, rfl, fun converted => (unconverted converted).elim⟩

/-- Staging keeps the intents, and there is one of the conversation under the id it returns. -/
theorem stageOrderIntent_grows {w : TurnWorld} {id businessID customerID conversationID staged : String} {expiresAt : Nat}
    {db' : Database} (h : stageOrderIntent id businessID customerID conversationID expiresAt w.db = .ok (staged, db')) :
    Grows w { w with db := db' } := by
  obtain ⟨intents, rfl, renewed | inserted⟩ := stageOrderIntent_ok h
  · obtain ⟨k, waits, -, -, awaiting, rfl⟩ := renewed
    refine ⟨fun i mem => ⟨_, List.mem_map_of_mem mem, ?_⟩, fun job mem => mem⟩
    by_cases same : i.id = k.id
    · obtain rfl := Table.eq_of_key mem waits same
      simp [Table.rewrite, awaiting]
    · simp [Table.rewrite, same]
  · obtain ⟨-, inserted⟩ := inserted
    obtain ⟨-, rows⟩ := Table.insert_eq_some.1 inserted
    refine ⟨fun i mem => ⟨i, ?_, rfl, rfl, fun _ => rfl⟩, fun job mem => mem⟩
    show i ∈ intents.rows
    rw [rows]
    exact List.mem_append_left _ mem

theorem grows_exec (i : TurnName) (op : TurnStmt) (w : TurnWorld) : Grows w (turnExec (i, op) w).2 := by
  have plain : ∀ {w' : TurnWorld}, w'.db.orderIntents = w.db.orderIntents → w'.checkoutJobs = w.checkoutJobs → Grows w w' :=
    fun intents jobs => .of_same intents fun job mem => jobs ▸ mem
  cases op with
  | receive m =>
    unfold turnExec
    simp only
    split <;> exact plain rfl rfl
  | upsertCustomer id businessID phone =>
    show Grows w (upsertCustomer id businessID phone w).2
    unfold upsertCustomer
    split
    · exact plain rfl rfl
    · split <;> exact plain rfl rfl
  | upsertConversation id businessID customerPhone =>
    have heard : ∀ (r : ConversationRead) (w' : TurnWorld), w'.db.orderIntents = w.db.orderIntents →
        w'.checkoutJobs = w.checkoutJobs → Grows w (hears i r w') := by
      intro r w' intents jobs
      unfold hears
      split <;> exact plain intents jobs
    show Grows w (upsertConversation i id businessID customerPhone w).2
    unfold upsertConversation
    split
    · exact heard _ _ rfl rfl
    · split
      · exact heard ⟨id, .lead, false⟩ _ rfl rfl
      · exact plain rfl rfl
  | insertOutboundRow m =>
    unfold turnExec
    simp only
    split
    · rename_i w' inserted
      obtain ⟨outbound, rfl⟩ := insertTurnMessage_ok inserted
      exact plain rfl rfl
    · exact plain rfl rfl
  | stageOrderIntent id businessID customerID conversationID ttl =>
    unfold turnExec
    simp only
    split
    · rename_i staged db' ok
      exact stageOrderIntent_grows ok
    · exact plain rfl rfl
  | enqueueCheckout job => exact .of_same rfl fun job mem => List.mem_append_left _ mem
  | sql op =>
    show Grows w (execSql i op w).2
    cases op with
    | takeoverConversation k b =>
      rw [execSql_takeover]
      split <;> exact plain rfl rfl
    | releaseConversation k b =>
      rw [execSql_release]
      split <;> exact plain rfl rfl
    | transition k src dst =>
      have same := exec_intents (.transition k src dst) w.db fun _ => (nomatch ·)
      rcases execSql_transition i w k src dst with eq | ⟨-, eq⟩ <;> rw [eq] <;> exact plain same rfl
    | checkoutTx d =>
      rcases execSql_checkoutTx i w d with eq | ⟨db', ok, eq⟩
      · rw [eq]
        exact plain rfl rfl
      · rw [eq]
        exact grows_checkoutTx (checkoutTx_ok ok).2 _
    | _ => exact plain (exec_intents _ w.db fun _ => (nomatch ·)) rfl
  | _ => exact plain rfl rfl

/-! ## The invariant -/

/-- An intent id that a job carries is that of an intent of its conversation. -/
def Carried (w : TurnWorld) (orderIntentID : Option String) (conversationID : String) : Prop :=
  ∀ id, orderIntentID = some id → ∃ i ∈ w.db.orderIntents.rows, i.id = id ∧ i.conversationID = conversationID

theorem Carried.grows {w w' : TurnWorld} {orderIntentID : Option String} {conversationID : String}
    (h : Carried w orderIntentID conversationID) (grows : Grows w w') : Carried w' orderIntentID conversationID := by
  intro id named
  obtain ⟨i, mem, same, own⟩ := h id named
  obtain ⟨i', mem', same', own', -⟩ := grows.intents i mem
  exact ⟨i', mem', same'.trans same, own'.trans own⟩

/-- An intent awaits its confirmation, or was converted to an order. -/
def Settled (i : OrderIntent) : Prop :=
  i.status = .awaitingConfirmation ∧ i.orderID = none ∨ i.status = .converted ∧ i.orderID.isSome = true

/-- The link from the turns through the queue to the orders. -/
structure Linked (w : TurnWorld) : Prop where
  jobs : ∀ job ∈ w.checkoutJobs, Carried w job.orderIntentID job.conversationID
  settled : ∀ i ∈ w.db.orderIntents.rows, Settled i
  orders : FromIntents w

/-- What is known of a statement that creates an order or asks for one. -/
def Tied (w : TurnWorld) : TurnStmt → Prop
  | .enqueueCheckout job => Carried w job.orderIntentID job.conversationID
  | .sql (.checkoutTx d) => d.orderID ≠ "" ∧ Carried w d.orderIntentID d.conversationID
  | _ => True

theorem FromIntents.frame {w w' : TurnWorld} (h : FromIntents w) (grows : Grows w w') (placements : w'.placements = w.placements)
    (orders : ∀ o' ∈ w'.db.orders.rows, ∃ o ∈ w.db.orders.rows, o'.id = o.id ∧ o'.conversationID = o.conversationID) :
    FromIntents w' := by
  constructor
  · intro o' mem'
    obtain ⟨o, mem, id, conversation⟩ := orders o' mem'
    rw [placements, id, conversation]
    exact h.placed o mem
  · intro p mem
    rw [placements] at mem
    obtain ⟨i, before, awaited, own, i', mem', same, conversation, converted, linked⟩ := h.created p mem
    obtain ⟨i'', mem'', -, -, kept⟩ := grows.intents i' mem'
    obtain rfl := kept converted
    exact ⟨i, before, awaited, own, i'', mem'', same, conversation, converted, linked⟩

theorem Linked.frame {w w' : TurnWorld} (h : Linked w) (intents : w'.db.orderIntents = w.db.orderIntents)
    (jobs : w'.checkoutJobs = w.checkoutJobs) (placements : w'.placements = w.placements)
    (orders : ∀ o' ∈ w'.db.orders.rows, ∃ o ∈ w.db.orders.rows, o'.id = o.id ∧ o'.conversationID = o.conversationID) :
    Linked w' := by
  have grows : Grows w w' := .of_same intents fun job mem => jobs ▸ mem
  refine ⟨fun job mem => (h.jobs job (jobs ▸ mem)).grows grows, ?_, h.orders.frame grows placements orders⟩
  rw [intents]
  exact h.settled

/-- Staging renews an intent that waits, or adds one. -/
theorem Linked.stage {w : TurnWorld} (h : Linked w) {id businessID customerID conversationID staged : String} {expiresAt : Nat}
    {db' : Database} (ok : stageOrderIntent id businessID customerID conversationID expiresAt w.db = .ok (staged, db')) :
    Linked { w with db := db' } := by
  have grows := stageOrderIntent_grows ok
  obtain ⟨intents, rfl, staged⟩ := stageOrderIntent_ok ok
  refine ⟨fun job mem => (h.jobs job mem).grows grows, ?_, h.orders.frame grows rfl fun o mem => ⟨o, mem, rfl, rfl⟩⟩
  rcases staged with ⟨k, -, -, -, -, rfl⟩ | ⟨-, inserted⟩
  · intro i mem
    obtain ⟨old, memOld, rfl⟩ := List.mem_map.1 mem
    have was := h.settled old memOld
    unfold Table.rewrite
    split <;> exact was
  · obtain ⟨-, rows⟩ := Table.insert_eq_some.1 inserted
    intro i mem
    rcases List.mem_append.1 (rows ▸ mem) with mem | mem
    · exact h.settled i mem
    · obtain rfl := List.mem_singleton.1 mem
      exact .inl ⟨rfl, rfl⟩

/-- There is an intent of the conversation under the id that staging returns. -/
theorem stageOrderIntent_carried {w : TurnWorld} {id businessID customerID conversationID staged : String} {expiresAt : Nat}
    {db' : Database} (ok : stageOrderIntent id businessID customerID conversationID expiresAt w.db = .ok (staged, db')) :
    Carried { w with db := db' } (some staged) conversationID := by
  intro named same
  obtain rfl := Option.some.inj same
  obtain ⟨intents, rfl, ⟨k, waits, rfl, own, -, rfl⟩ | ⟨rfl, inserted⟩⟩ := stageOrderIntent_ok ok
  · refine ⟨_, List.mem_map_of_mem waits, ?_, ?_⟩
    · simp [Table.rewrite]
    · simp [Table.rewrite, own]
  · obtain ⟨-, rows⟩ := Table.insert_eq_some.1 inserted
    refine ⟨⟨staged, conversationID, .awaitingConfirmation, none, expiresAt⟩, ?_, rfl, rfl⟩
    show _ ∈ intents.rows
    rw [rows]
    exact List.mem_append_right _ List.mem_cons_self

/-- The order transaction converts the intent that its job carries. -/
theorem Linked.place {w : TurnWorld} (h : Linked w) {d : CheckoutTx} {db' : Database} (ok : checkoutTx d w.db = .ok ((), db'))
    (may : Orderable w.db d.conversationID → CarriesIntent w.db d.orderIntentID)
    (tied : Tied w (.sql (.checkoutTx d))) :
    Linked { w with db := db', placements := ⟨d.orderID, crmText d.conversationID, w.db.orderIntents.rows⟩ :: w.placements } := by
  obtain ⟨accepts, placed⟩ := checkoutTx_ok ok
  obtain ⟨generated, carried⟩ := tied
  have linkedTo : crmText d.orderID = some d.orderID := if_neg generated
  have grows := grows_checkoutTx placed (⟨d.orderID, crmText d.conversationID, w.db.orderIntents.rows⟩ :: w.placements)
  -- the intent that the job carries: it is of the conversation, and nothing was created from it
  obtain ⟨named, fresh⟩ := may accepts.orderable
  obtain ⟨id, named⟩ := Option.isSome_iff_exists.1 named
  obtain ⟨carriedID, isCarried, isText⟩ := Option.bind_eq_some_iff.1 named
  obtain ⟨i, mem, same, own⟩ := carried carriedID isCarried
  have idText : id = carriedID := by
    unfold crmText at isText
    split at isText
    · cases isText
    · exact (Option.some.inj isText).symm
  have ownID : d.orderIntentID.bind crmText = some i.id := by rw [named, idText, same]
  have awaiting : i.status = .awaitingConfirmation := by
    rcases h.settled i mem with ⟨awaits, -⟩ | ⟨converted, -⟩
    · exact awaits
    · exact (fresh i mem ownID.symm converted).elim
  have becomes : convertedIntent d i = { i with status := .converted, orderID := some d.orderID } := by
    unfold convertedIntent
    rw [if_pos ⟨ownID, by rw [OrderIntent.convertible, awaiting]; decide⟩, linkedTo]
  obtain ⟨total, -, orders⟩ := placed.order
  refine ⟨fun job mem => (h.jobs job mem).grows grows, ?_, ?_, ?_⟩
  · intro j memj
    rw [show db'.orderIntents.rows = _ from placed.intents] at memj
    obtain ⟨old, memOld, rfl⟩ := List.mem_map.1 memj
    rcases convertedIntent_cases d old with kept | ⟨-, -, converts⟩
    · rw [kept]
      exact h.settled old memOld
    · rw [converts, linkedTo]
      exact .inr ⟨rfl, rfl⟩
  · intro o memo
    rw [show db'.orders.rows = _ from orders] at memo
    rcases List.mem_append.1 memo with old | new
    · obtain ⟨p, memp, found⟩ := h.orders.placed o old
      exact ⟨p, List.mem_cons_of_mem _ memp, found⟩
    · obtain rfl := List.mem_singleton.1 new
      exact ⟨_, List.mem_cons_self, rfl, rfl⟩
  · intro p memp
    rcases List.mem_cons.1 memp with rfl | old
    · refine ⟨i, mem, awaiting, by rw [own], convertedIntent d i, ?_, ?_⟩
      · show _ ∈ db'.orderIntents.rows
        rw [placed.intents]
        exact List.mem_map_of_mem mem
      · rw [becomes]
        exact ⟨rfl, rfl, rfl, rfl⟩
    · obtain ⟨k, before, awaited, ownk, k', memk, same, conversation, converted, linked⟩ := h.orders.created p old
      obtain ⟨k'', memk', -, -, kept⟩ := grows.intents k' memk
      obtain rfl := kept converted
      exact ⟨k, before, awaited, ownk, k'', memk', same, conversation, converted, linked⟩

/-- The step lemma: a statement keeps the links, if the order it creates or asks for carries its intent. -/
theorem Linked.step {w : TurnWorld} (h : Linked w) (i : TurnName) (op : TurnStmt) (may : keepsIntent w (i, op)) (tied : Tied w op) :
    Linked (turnExec (i, op) w).2 := by
  have plain : ∀ {w' : TurnWorld}, w'.db.orderIntents = w.db.orderIntents → w'.checkoutJobs = w.checkoutJobs →
      w'.placements = w.placements → w'.db.orders = w.db.orders → Linked w' :=
    fun intents jobs placements orders => h.frame intents jobs placements fun o mem => ⟨o, orders ▸ mem, rfl, rfl⟩
  cases op with
  | receive m =>
    unfold turnExec
    simp only
    split <;> exact plain rfl rfl rfl rfl
  | upsertCustomer id businessID phone =>
    show Linked (upsertCustomer id businessID phone w).2
    unfold upsertCustomer
    split
    · exact h
    · split
      · exact plain rfl rfl rfl rfl
      · exact h
  | upsertConversation id businessID customerPhone =>
    have heard : ∀ (r : ConversationRead) (w' : TurnWorld), w'.db.orderIntents = w.db.orderIntents →
        w'.checkoutJobs = w.checkoutJobs → w'.placements = w.placements → w'.db.orders = w.db.orders → Linked (hears i r w') := by
      intro r w' intents jobs placements orders
      unfold hears
      split <;> exact plain intents jobs placements orders
    show Linked (upsertConversation i id businessID customerPhone w).2
    unfold upsertConversation
    split
    · exact heard _ _ rfl rfl rfl rfl
    · split
      · exact heard ⟨id, .lead, false⟩ _ rfl rfl rfl rfl
      · exact h
  | insertOutboundRow m =>
    unfold turnExec
    simp only
    split
    · rename_i w' inserted
      obtain ⟨outbound, rfl⟩ := insertTurnMessage_ok inserted
      exact plain rfl rfl rfl rfl
    · exact h
  | stageOrderIntent id businessID customerID conversationID ttl =>
    unfold turnExec
    simp only
    split
    · rename_i staged db' ok
      exact h.stage ok
    · exact h
  | enqueueCheckout job =>
    have grows : Grows w (turnExec (i, .enqueueCheckout job) w).2 := grows_exec i (.enqueueCheckout job) w
    refine ⟨?_, h.settled, h.orders.frame grows rfl fun o mem => ⟨o, mem, rfl, rfl⟩⟩
    intro j mem
    rcases List.mem_append.1 mem with old | new
    · exact (h.jobs j old).grows grows
    · obtain rfl := List.mem_singleton.1 new
      exact tied.grows grows
  | sql op =>
    have beside : (∀ d, op ≠ .checkoutTx d) → ∀ {w' : TurnWorld}, w'.db = (exec op w.db).2 → w'.checkoutJobs = w.checkoutJobs →
        w'.placements = w.placements → Linked w' := by
      intro other w' same jobs placements
      refine h.frame (by rw [same]; exact exec_intents op w.db other) jobs placements ?_
      rw [same]
      rcases (exec_effect op w.db).orders_cases with ⟨d, rfl, -⟩ | ⟨f, fixed, rows⟩
      · exact (other d rfl).elim
      · intro o' mem
        rw [rows] at mem
        obtain ⟨o, memOld, rfl⟩ := List.mem_map.1 mem
        exact ⟨o, memOld, Order.fixed_id (fixed o), Order.fixed_conversationID (fixed o)⟩
    show Linked (execSql i op w).2
    cases op with
    | takeoverConversation k b =>
      rw [execSql_takeover]
      split <;> exact beside (fun _ => (nomatch ·)) rfl rfl rfl
    | releaseConversation k b =>
      rw [execSql_release]
      split <;> exact beside (fun _ => (nomatch ·)) rfl rfl rfl
    | transition k src dst =>
      rcases execSql_transition i w k src dst with eq | ⟨-, eq⟩ <;> rw [eq] <;> exact beside (fun _ => (nomatch ·)) rfl rfl rfl
    | checkoutTx d =>
      rcases execSql_checkoutTx i w d with eq | ⟨db', ok, eq⟩
      · rw [eq]
        exact h
      · rw [eq]
        exact h.place ok may tied
    | _ => exact beside (fun _ => (nomatch ·)) rfl rfl rfl
  | _ => exact plain rfl rfl rfl rfl

/-! ## The handlers -/

/-- The flow in which orders carry their intents, and what everybody relies on. -/
def intentFlow : Roster (turnStore.signed TurnName) TurnName TurnWorld := turnFlow keepsIntent

def intentProtocol : Protocol TurnName TurnWorld where
  inv := Linked
  rely _ := Grows
  refl _ w := .of_same rfl fun _ mem => mem
  trans _ _ _ _ first second := first.trans second

section Safety

variable {α β : Type} {i : TurnName} {w : TurnWorld}

/-- A statement that is tied to its intent, and what its reply says. -/
theorem safe_tied {op : TurnStmt} {A : op.Reply → TurnWorld → Prop} (tied : ∀ t, Grows w t → Tied t op)
    (reply : ∀ t, Grows w t → ∀ a, (turnExec (i, op) t).1 = .ok a → A a (turnExec (i, op) t).2) :
    Safe intentFlow intentProtocol i (Replied A fun _ => True) ((call (I := turnStore) op).signed i) w := by
  intro t rely inv
  refine ⟨fun may => ⟨?_, ?_, ?_, fun _ => trivial⟩, fun _ => trivial, fun _ => trivial⟩
  · exact Linked.step inv i op may (tied t rely)
  · exact fun _ _ => grows_exec i op t
  · show Replied A (fun _ => True) (turnExec (i, op) t).1 _
    cases answer : (turnExec (i, op) t).1 with
    | ok a => exact reply t rely a answer
    | error e => trivial

/-- A handler that neither creates orders nor asks for them. -/
theorem safe_plain {p : TurnHandler α} (uses : p.Uses fun op => ∀ t, Tied t op) :
    Safe intentFlow intentProtocol i (fun _ _ => True) (p.signed i) w := by
  have signed : (p.signed i).Uses fun op : TurnName × TurnStmt => op.1 = i ∧ ∀ t, Tied t op.2 :=
    Uses.signed (uses.mono fun op tied => ⟨rfl, tied⟩)
  refine Safe.of_uses signed (fun op t plain inv may => ?_) fun _ => trivial
  obtain ⟨j, op⟩ := op
  obtain ⟨rfl, tied⟩ := plain
  exact ⟨Linked.step inv j op may (tied t), fun _ _ => grows_exec j op t⟩

theorem safe_plain_bind {p : TurnHandler α} {f : α → TurnHandler β} (uses : p.Uses fun op => ∀ t, Tied t op)
    (rest : ∀ a t, Safe intentFlow intentProtocol i (fun _ _ => True) ((f a).signed i) t) :
    Safe intentFlow intentProtocol i (fun _ _ => True) ((p >>= f).signed i) w := by
  rw [bind_eq, signed_bind]
  refine Safe.bind ((safe_plain uses).mono fun r t _ => ?_)
  cases r with
  | ok a => exact rest a t
  | error e => trivial

theorem Opens.tied {op : TurnStmt} (h : Opens op) (t : TurnWorld) : Tied t op := by
  cases op <;> trivial

theorem Says.tied {oc : OrchContext} {op : TurnStmt} (h : Says oc op) (t : TurnWorld) : Tied t op := by
  cases h with
  | @reads op reads => cases op <;> trivial
  | _ => trivial

/-- The intent of a confirming turn is one of its conversation. -/
theorem safe_confirmedIntent (x : TurnInput) (oc : OrchContext) :
    Safe intentFlow intentProtocol i (Replied (fun intent t => Carried t intent oc.conversationID) fun _ => True)
      ((confirmedIntent x oc).signed i) w := by
  have reads : Safe intentFlow intentProtocol i (Replied (fun id t => Carried t (some id) oc.conversationID) fun _ => True)
      ((call (I := turnStore) (.getActiveOrderIntent oc.conversationID)).signed i) w := by
    refine safe_tied (fun _ _ => trivial) fun t _ id answer => ?_
    intro named same
    obtain rfl := Option.some.inj same
    change orError .noRows ((getActiveOrderIntent oc.conversationID t).map OrderIntent.id) = .ok id at answer
    cases found : getActiveOrderIntent oc.conversationID t with
    | none =>
      rw [found] at answer
      cases answer
    | some k =>
      rw [found] at answer
      obtain rfl := Except.ok.inj answer
      have active := List.find?_some found
      simp only [Bool.and_eq_true, decide_eq_true_eq] at active
      exact ⟨k, List.mem_of_find?_eq_some found, rfl, active.1.1⟩
  have stages : ∀ w, Safe intentFlow intentProtocol i (Replied (fun id t => Carried t (some id) oc.conversationID) fun _ => True)
      ((stageIntent x oc).signed i) w := by
    intro w
    refine safe_tied (fun _ _ => trivial) fun t _ staged answer => ?_
    unfold turnExec at answer ⊢
    simp only at answer ⊢
    split at answer
    · rename_i id db' ok
      obtain rfl := Except.ok.inj answer
      exact stageOrderIntent_carried ok
    · cases answer
  unfold confirmedIntent
  rw [bind_eq, signed_bind, signed_attempt]
  refine Safe.bind (Safe.attempt (reads.mono fun r t known => ?_))
  cases r with
  | ok id => exact known
  | error e =>
    simp only
    rw [bind_eq, signed_bind, signed_attempt]
    refine Safe.bind (Safe.attempt ((stages t).mono fun r t known => ?_))
    cases r with
    | ok id => exact known
    | error e => exact fun id absurd => nomatch absurd

theorem safe_orchCheckout (x : TurnInput) (oc : OrchContext) (latest : Option InboundMessage) (resp : LlmResponse) :
    Safe intentFlow intentProtocol i (fun _ _ => True) ((orchCheckout x oc latest resp).signed i) w := by
  unfold orchCheckout
  split
  · trivial
  · split
    · split
      · trivial
      · rw [bind_eq, signed_bind]
        refine Safe.bind ((safe_confirmedIntent x oc).mono fun r t known => ?_)
        cases r with
        | error e => trivial
        | ok intent =>
          simp only
          have enqueues : Safe intentFlow intentProtocol i (Replied (fun _ _ => True) fun _ => True)
              ((call (I := turnStore) (.enqueueCheckout (orchCheckoutJob oc latest resp intent))).signed i) t :=
            safe_tied (fun u rely => known.grows rely) fun _ _ _ _ => trivial
          unfold ignore
          rw [bind_eq, signed_bind, signed_attempt]
          exact Safe.bind (Safe.attempt (enqueues.mono fun r u _ => trivial))
    · split
      · exact safe_plain (uses_call.2 fun _ => trivial).attempt.ignore
      · trivial

theorem safe_generate (x : TurnInput) (oc : OrchContext) (latest : Option InboundMessage) :
    Safe intentFlow intentProtocol i (fun _ _ => True) ((orchGenerateAndHandleLlmResponse x oc latest).signed i) w := by
  refine safe_plain_bind (uses_wrapped fun _ => trivial) fun _ t => ?_
  refine safe_plain_bind (uses_onlyIf (uses_wrapped fun _ => trivial)) fun _ t => ?_
  split
  · trivial
  · rename_i resp _
    split
    · exact safe_plain (uses_unsure.mono fun _ => Says.tied)
    · refine safe_plain_bind ((uses_images 1 _).mono fun _ => Says.tied) fun _ t => ?_
      refine safe_plain_bind (uses_text.mono fun _ => Says.tied) fun _ t => ?_
      refine safe_plain_bind (uses_transition.mono fun _ => Says.tied) fun _ t => ?_
      exact safe_plain_bind (uses_logged fun _ => trivial) fun _ t => safe_orchCheckout x oc latest resp

theorem safe_confirming (x : TurnInput) (job : OrchestratorJob) :
    Safe intentFlow intentProtocol i (fun _ _ => True) ((handleDebouncedConversation x job).signed i) w := by
  refine safe_plain_bind (resolve_uses.mono fun _ => Opens.tied) fun resolved t => ?_
  cases resolved with
  | none => trivial
  | some oc =>
    refine safe_plain_bind (uses_wrapped fun _ => trivial) fun latest t => ?_
    refine safe_plain_bind (uses_media.mono fun _ => Says.tied) fun text t => ?_
    cases text with
    | none => trivial
    | some textContent =>
      refine safe_plain_bind (uses_guardrails.mono fun _ => Says.tied) fun proceed t => ?_
      simp only
      split
      · exact safe_plain_bind ((@uses_history oc).mono fun _ => Says.tied) fun _ t => safe_generate x oc latest
      · trivial

/-- The statements of a checkout job: its order transaction is that of its payload. -/
def OfJob (job : CheckoutJob) (d : Delivery) : Stmt → Prop
  | .checkoutTx tx => ∃ resolved currency fulfillment, tx = job.tx d resolved currency fulfillment
  | _ => True

theorem handleCheckout_ofJob (job : CheckoutJob) (d : Delivery) : (handleCheckout job d).Uses (OfJob job d) := by
  unfold handleCheckout
  split
  · trivial
  · refine (checkoutResolveProducts_uses (fun _ _ => trivial) _ _).bind fun resolved => ?_
    split
    · trivial
    · refine Uses.bind (uses_call.2 trivial) fun business => ?_
      split
      · trivial
      · refine (checkoutResolveFulfillment_uses (fun _ _ => trivial) job).bind fun fulfillment =>
          Uses.bind (uses_call.2 ⟨_, _, _, rfl⟩).attempt fun outcome => ?_
        cases outcome with
        | ok _ => trivial
        | error e => simp only; split <;> trivial

/-- A checkout job carries what was enqueued. -/
theorem safe_checkoutTask {n : Nat} {d : Delivery} (generated : d.orderID ≠ "") :
    Safe intentFlow intentProtocol i (fun _ _ => True) ((checkoutTask n d).signed i) w := by
  have takes : Safe intentFlow intentProtocol i (Replied (fun job t => job ∈ t.checkoutJobs) fun _ => True)
      ((call (I := turnStore) (.takeCheckout n)).signed i) w := by
    refine safe_tied (fun _ _ => trivial) fun t _ job answer => ?_
    change orError .noRows t.checkoutJobs[n]? = .ok job at answer
    cases found : t.checkoutJobs[n]? with
    | none =>
      rw [found] at answer
      cases answer
    | some enqueued =>
      rw [found] at answer
      obtain rfl := Except.ok.inj answer
      exact List.mem_of_getElem? found
  unfold checkoutTask
  rw [bind_eq, signed_bind]
  refine Safe.bind (takes.mono fun r t known => ?_)
  cases r with
  | error e => trivial
  | ok job =>
    have plain : (embed sqlStatements (handleCheckout job d)).Uses fun op : TurnStmt => ∃ sql, op = .sql sql ∧ OfJob job d sql := by
      refine Uses.embed ?_
      exact (handleCheckout_ofJob job d).mono fun op ofJob => ⟨op, rfl, ofJob⟩
    have uses : ((embed sqlStatements (handleCheckout job d)).signed i).Uses
        fun op : TurnName × TurnStmt => op.1 = i ∧ ∃ sql, op.2 = .sql sql ∧ OfJob job d sql :=
      Uses.signed (plain.mono fun op ofJob => ⟨rfl, ofJob⟩)
    have safe : Safe intentFlow intentProtocol i (fun _ t => job ∈ t.checkoutJobs)
        ((embed sqlStatements (handleCheckout job d)).signed i) t := by
      refine Safe.of_uses_known uses (fun _ _ rely mem => rely.jobs job mem) known (fun op u ofJob mem inv may => ?_) fun _ _ => trivial
      obtain ⟨j, op⟩ := op
      obtain ⟨rfl, sql, rfl, ofJob⟩ := ofJob
      have tied : Tied u (.sql sql) := by
        cases sql with
        | checkoutTx tx =>
          obtain ⟨resolved, currency, fulfillment, rfl⟩ := ofJob
          exact ⟨generated, inv.jobs job mem⟩
        | _ => trivial
      exact ⟨Linked.step inv j _ may tied, fun _ _ => grows_exec j _ u, (grows_exec j _ u).jobs job mem⟩
    exact safe.mono fun _ _ _ => trivial

/-- Whatever runs under a name keeps the links. -/
theorem safe_linked {p : Program (turnStore.signed TurnName) Unit} (job : TurnJob i p) :
    Safe intentFlow intentProtocol i (fun _ _ => True) p w := by
  cases job with
  | turn n x job =>
    unfold turn ignore
    rw [bind_eq, bind_eq, signed_bind, signed_bind, signed_attempt]
    refine Safe.bind (Safe.bind (Safe.attempt ((safe_confirming x job).mono fun r t _ => ?_)))
    exact safe_plain (uses_call.2 fun _ => trivial)
  | recover n => exact safe_plain (uses_call.2 fun _ => trivial)
  | checkout n k d generated => exact safe_checkoutTask generated
  | takeover n businessID id =>
    refine safe_plain (Uses.embed (Uses.ignore ?_))
    exact Uses.bind (uses_call.2 fun _ => trivial) fun _ => trivial
  | release n businessID id =>
    refine safe_plain (Uses.embed (Uses.ignore ?_))
    exact Uses.bind (uses_call.2 fun _ => trivial) fun _ => trivial
  | beside n q uses =>
    refine safe_plain (Uses.embed (uses.mono fun op beside t => ?_))
    cases op <;> trivial
  | outside n op outside =>
    refine safe_plain (uses_logged fun t => ?_)
    cases op <;> trivial

end Safety

/-! ## Runs -/

/-- Nothing was staged, asked for or ordered yet. -/
def Unordered (w : TurnWorld) : Prop :=
  w.db.orders.rows = [] ∧ w.db.orderIntents.rows = [] ∧ w.checkoutJobs = [] ∧ w.placements = []

theorem Unordered.linked {w : TurnWorld} (h : Unordered w) : Linked w := by
  obtain ⟨orders, intents, jobs, placements⟩ := h
  refine ⟨?_, ?_, ⟨?_, ?_⟩⟩
  · intro job mem
    rw [jobs] at mem
    cases mem
  · intro i mem
    rw [intents] at mem
    cases mem
  · intro o mem
    rw [orders] at mem
    cases mem
  · intro p mem
    rw [placements] at mem
    cases mem

/-- A link lasts, because a converted intent does. -/
theorem Linked.kept {w w' : TurnWorld} (h : Linked w) (grows : Grows w w') : LinksKept w.db w'.db := by
  intro i mem o linked i' mem' same
  rcases h.settled i mem with ⟨-, unlinked⟩ | ⟨converted, -⟩
  · rw [unlinked] at linked
    cases linked
  · obtain ⟨i'', mem'', -, -, kept⟩ := grows.intents i mem
    obtain rfl := kept converted
    obtain rfl := Table.eq_of_key mem' mem'' same
    exact linked

/-- In every run of turns, checkout jobs and whatever else goes on in which every order transaction that finds its conversation
orderable carries an intent that no order has been created from, every order was created from an intent that awaited its
confirmation and is converted to it, and no intent is ever linked to two orders. -/
theorem orders_from_intents {w : TurnWorld} {a b : Crew (turnStore.signed TurnName) TurnName TurnWorld} (start : Unordered w)
    (run : (turnFlow keepsIntent).Reach ⟨w, []⟩ a) (later : (turnFlow keepsIntent).Reach a b) :
    FromIntents a.state ∧ LinksKept a.state.db b.state.db := by
  have safe : ∀ i p s, intentFlow.job i p → intentProtocol.inv s → intentProtocol.idle i s →
      Safe intentFlow intentProtocol i (fun _ => intentProtocol.idle i) p s := fun _ _ _ job _ _ => safe_linked job
  have linked : Linked a.state := Protocol.invariant (R := intentFlow) (P := intentProtocol) safe run start.linked fun _ => trivial
  have grows : Grows a.state b.state := Protocol.observed (R := intentFlow) (P := intentProtocol) Protocol.promise_idle safe run later
    start.linked (fun _ => trivial) (i := .bystander) fun p job => nomatch job
  exact ⟨linked.orders, linked.kept grows⟩

/-- The same, computed. -/
def keepsIntentNow (w : TurnWorld) : TurnName × TurnStmt → Bool
  | (_, .sql (.checkoutTx d)) => decide (Orderable w.db d.conversationID → CarriesIntent w.db d.orderIntentID)
  | _ => true

theorem keepsIntentNow_iff (w : TurnWorld) (op : TurnName × TurnStmt) : keepsIntentNow w op = true ↔ keepsIntent w op := by
  unfold keepsIntentNow keepsIntent
  split
  · exact decide_eq_true_iff
  · simp

instance (w : TurnWorld) (op : TurnName × TurnStmt) : Decidable (keepsIntent w op) := decidable_of_iff _ (keepsIntentNow_iff w op)

instance (w : TurnWorld) (op : TurnName × TurnStmt) : Decidable ((turnFlow keepsIntent).allow w op) :=
  inferInstanceAs (Decidable (keepsIntent w op))

theorem asked_unordered : Unordered asked := ⟨rfl, rfl, rfl, rfl⟩

/-- A delivery of the `k`th checkout job that writes the order under the id. -/
def checkoutOf (k : Nat) (orderID : String) : Program (turnStore.signed TurnName) Unit :=
  (checkoutTask k ⟨orderID, fun _ => orderID ++ "-item", 0⟩).signed (.checkout k)

/-- The turn of a customer who confirms, then its checkout job. -/
def ordered : TurnWorld := ((checkoutOf 0 "order-1").run turnExec answered).2

theorem orders_from_intents_confirmed : ∃ c : Crew (turnStore.signed TurnName) TurnName TurnWorld,
    c.state.db.orders.rows.length = 1 ∧ FromIntents c.state ∧ LinksKept c.state.db c.state.db := by
  have turned : (turnFlow keepsIntent).Reach ⟨asked, []⟩ ⟨answered, []⟩ :=
    (turnFlow keepsIntent).reach_job (i := .turn 1) (p := turnOf 1 (input "1")) (.turn 1 (input "1") debounced) (by decide +kernel)
  have placed : (turnFlow keepsIntent).Reach ⟨answered, []⟩ ⟨ordered, []⟩ :=
    (turnFlow keepsIntent).reach_job (i := .checkout 0) (p := checkoutOf 0 "order-1")
      (.checkout 0 0 ⟨"order-1", fun _ => "order-1" ++ "-item", 0⟩ (by decide)) (by decide +kernel)
  have created := orders_from_intents asked_unordered (turned.trans placed) .refl
  exact ⟨⟨ordered, []⟩, by decide +kernel, created⟩

/-! ## Orders without an intent -/

/-- The turn is about to stage its intent. -/
def staging : Program (turnStore.signed TurnName) Unit × TurnWorld := (turnOf 1 (input "1")).steps turnExec 18 asked

/-- The staging fails, and the turn goes on. -/
def unstaged : Except TurnErr Unit × TurnWorld := staging.1.failing.run turnExec staging.2

/-- The customer writes and confirms again, before the first job runs. -/
def wroteAgain : TurnWorld :=
  ((ignore (attempt (call (I := turnStore) (.receive (message "2" (some "text") "Yes, please!" 8)))) : TurnHandler Unit).signed
    (.other 0)).run turnExec answered |>.2

def answeredAgain : TurnWorld := ((turnOf 2 (input "2")).run turnExec wroteAgain).2

def orderedOnce : TurnWorld := ((checkoutOf 0 "order-1").run turnExec answeredAgain).2

/-- The order is cancelled, and the customer asks again. -/
def cancelAndReopen : Handler Unit := do
  call (I := store) (.cancelOrder "order-1" "payment_failed" 20)
  ignore (call (I := store) (.transition "conv" .cancelled .browsing))

def reopened : TurnWorld := (((embed sqlStatements cancelAndReopen).signed (.other 1)).run turnExec orderedOnce).2

/-- The delayed job of the second confirmation runs. -/
def orderedTwice : TurnWorld := ((checkoutOf 1 "order-2").run turnExec reopened).2

/-- Every placement came from an intent that awaited its confirmation. -/
def awaitedAll (w : TurnWorld) : Bool :=
  w.placements.all fun p => p.before.any fun i => decide (i.status = .awaitingConfirmation)

theorem FromIntents.awaited {w : TurnWorld} (h : FromIntents w) : awaitedAll w = true := by
  rw [awaitedAll, List.all_eq_true]
  intro p mem
  obtain ⟨i, before, awaited, -⟩ := h.created p mem
  exact List.any_eq_true.2 ⟨i, before, decide_eq_true awaited⟩

/-- An order is placed by a job whose intent could not be staged, and another by a delayed job whose intent was converted to an
order that was cancelled since. -/
theorem order_without_intent :
    (∃ c : Crew (turnStore.signed TurnName) TurnName TurnWorld, (turnFlow unhindered).Reach ⟨asked, []⟩ c ∧
      c.state.db.orders.rows.length = 1 ∧ ¬ FromIntents c.state) ∧
    ∃ c : Crew (turnStore.signed TurnName) TurnName TurnWorld, (turnFlow unhindered).Reach ⟨asked, []⟩ c ∧
      c.state.db.orders.rows.length = 2 ∧ ¬ FromIntents c.state := by
  have started : (turnFlow unhindered).Step ⟨asked, []⟩ ⟨asked, [(.turn 1, turnOf 1 (input "1"))]⟩ :=
    .spawn (.turn 1 (input "1") debounced) List.not_mem_nil
  have stages : (turnFlow unhindered).Reach ⟨asked, [(.turn 1, turnOf 1 (input "1"))]⟩ ⟨staging.2, [(.turn 1, staging.1)]⟩ :=
    (turnFlow unhindered).reach_steps 18 [] [] (by decide +kernel)
  have fails : (turnFlow unhindered).Reach ⟨staging.2, [(.turn 1, staging.1)]⟩ ⟨staging.2, [(.turn 1, staging.1.failing)]⟩ :=
    (turnFlow unhindered).reach_fail [] [] (by decide +kernel)
  have ends := (turnFlow unhindered).reach_end (p := staging.1.failing) (i := .turn 1) [] [] (s := staging.2) (by decide +kernel)
  have comes : (turnFlow unhindered).Step ⟨unstaged.2, [(.turn 1, .ret unstaged.1)]⟩
      ⟨unstaged.2, [(.checkout 0, checkoutOf 0 "order-1"), (.turn 1, .ret unstaged.1)]⟩ :=
    .spawn (.checkout 0 0 ⟨"order-1", fun _ => "order-1" ++ "-item", 0⟩ (by decide)) (by decide)
  have places := (turnFlow unhindered).reach_end (p := checkoutOf 0 "order-1") (i := .checkout 0) [] [(.turn 1, .ret unstaged.1)]
    (s := unstaged.2) (by decide +kernel)
  have first : (turnFlow unhindered).Reach ⟨asked, []⟩ ⟨answered, []⟩ :=
    (turnFlow unhindered).reach_job (i := .turn 1) (p := turnOf 1 (input "1")) (.turn 1 (input "1") debounced) (by decide +kernel)
  have writes : (turnFlow unhindered).Reach ⟨answered, []⟩ ⟨wroteAgain, []⟩ :=
    (turnFlow unhindered).reach_job (i := .other 0) (.outside 0 (.receive (message "2" (some "text") "Yes, please!" 8)) trivial)
      (by decide +kernel)
  have second : (turnFlow unhindered).Reach ⟨wroteAgain, []⟩ ⟨answeredAgain, []⟩ :=
    (turnFlow unhindered).reach_job (i := .turn 2) (p := turnOf 2 (input "2")) (.turn 2 (input "2") debounced) (by decide +kernel)
  have orders : (turnFlow unhindered).Reach ⟨answeredAgain, []⟩ ⟨orderedOnce, []⟩ :=
    (turnFlow unhindered).reach_job (i := .checkout 0) (p := checkoutOf 0 "order-1")
      (.checkout 0 0 ⟨"order-1", fun _ => "order-1" ++ "-item", 0⟩ (by decide)) (by decide +kernel)
  have reopens : (turnFlow unhindered).Reach ⟨orderedOnce, []⟩ ⟨reopened, []⟩ :=
    (turnFlow unhindered).reach_job (i := .other 1) (p := (embed sqlStatements cancelAndReopen).signed (.other 1))
      (.beside 1 cancelAndReopen (Uses.bind (uses_call.2 trivial) fun _ => (uses_call.2 trivial).ignore)) (by decide +kernel)
  have reorders : (turnFlow unhindered).Reach ⟨reopened, []⟩ ⟨orderedTwice, []⟩ :=
    (turnFlow unhindered).reach_job (i := .checkout 1) (p := checkoutOf 1 "order-2")
      (.checkout 1 1 ⟨"order-2", fun _ => "order-2" ++ "-item", 0⟩ (by decide)) (by decide +kernel)
  refine ⟨⟨_, ((((Relation.ReflTransGen.single started).trans stages).trans fails).trans ends).tail comes |>.trans places, ?_, ?_⟩,
    ⟨_, first.trans (writes.trans (second.trans (orders.trans (reopens.trans reorders)))), ?_, ?_⟩⟩
  · decide +kernel
  · intro created
    exact absurd created.awaited (by decide +kernel)
  · decide +kernel
  · intro created
    exact absurd created.awaited (by decide +kernel)

end NovoApex.Turns
