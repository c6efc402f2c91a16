import NovoApex.Orders.OneOrder

/-!
# Cancelled orders

`cancelOrder` closes an order, frees its conversation and emits `order.cancelled`
in one transaction; the event starts the restock. Two writers of `orders.status`
do not know about that: a payment marks any order PAID, also one that is cancelled
and back on the shelf, and the vendor's status patch cancels without an event.
-/

namespace NovoApex.Orders
set_option autoImplicit false
open Lib Workers

/-- The order has its `order.cancelled` event. -/
def HasCancelledEvent (db : Database) (orderID : String) : Prop :=
  ∃ e ∈ db.domainEvents.rows, e.key = (Events.aggregateTypeOrder, orderID, EventType.orderCancelled)

instance (db : Database) (orderID : String) : Decidable (HasCancelledEvent db orderID) :=
  inferInstanceAs (Decidable (∃ e ∈ db.domainEvents.rows, _))

theorem hasCancelledEvent_congr {db db' : Database} (h : db'.domainEvents = db.domainEvents) (orderID : String) :
    HasCancelledEvent db' orderID ↔ HasCancelledEvent db orderID := by
  unfold HasCancelledEvent
  rw [h]

/-- A checkout emits no cancellation. -/
theorem hasCancelledEvent_placed {db db' : Database} {d : CheckoutTx} (placed : Placed d db db') (orderID : String) :
    HasCancelledEvent db' orderID ↔ HasCancelledEvent db orderID := by
  rcases placed.events with rows | ⟨-, same⟩
  · unfold HasCancelledEvent
    rw [rows]
    simp [Events.orderCreatedEvent, DomainEvent.key]
  · exact hasCancelledEvent_congr same orderID

/-- A cancellation leaves its own event behind and no other. -/
theorem hasCancelledEvent_cancelled {db db' : Database} {o : Order} {reason : String} {now : Nat}
    (h : Cancelled o reason now db db') (orderID : String) :
    HasCancelledEvent db' orderID ↔ HasCancelledEvent db orderID ∨ orderID = o.id := by
  rcases h.events with rows | ⟨⟨e, he, key⟩, same⟩
  · unfold HasCancelledEvent
    rw [rows]
    simp [Events.orderCancelledEvent, DomainEvent.key, or_and_right, exists_or, eq_comm]
  · rw [hasCancelledEvent_congr same]
    constructor
    · exact .inl
    · rintro (h | rfl)
      · exact h
      · exact ⟨e, he, key⟩

/-- The rows of a cancelled order: itself, or an untouched row of another order. -/
theorem mem_cancelled {db db' : Database} {o : Order} {reason : String} {now : Nat} (h : Cancelled o reason now db db')
    {r : Order} (hr : r ∈ db'.orders.rows) :
    r = { o with status := .cancelled, updatedAt := now } ∨ r ∈ db.orders.rows ∧ r.id ≠ o.id := by
  rw [h.orders] at hr
  rcases mem_setStatus.1 hr with ⟨hr, other⟩ | ⟨old, hold, sel, rfl⟩
  · refine .inr ⟨hr, fun same => ?_⟩
    obtain rfl := Table.eq_of_key hr h.mem same
    simp [cancellable, h.wasOpen] at other
  · simp only [cancellable, Bool.and_eq_true, decide_eq_true_eq] at sel
    obtain rfl := Table.eq_of_key hold h.mem sel.1
    exact .inl rfl

/-! ## Restocked goods -/

/-- Checkouts, payment events, the expiry sweep and the restocks. -/
def stockJobs : Job → Bool
  | .checkout .. | .payment .. | .expiry .. | .restock .. => true
  | _ => false

/-- A payment does not mark a cancelled order paid. -/
def PaysLiveOrder (db : Database) : Stmt → Prop
  | .markOrderPaid orderID _ => ∀ o ∈ db.orders.rows, o.id = orderID → o.status ≠ .cancelled
  | _ => True

instance (db : Database) : DecidablePred (PaysLiveOrder db) := fun op => by
  unfold PaysLiveOrder
  split <;> infer_instance

/-- The invariant: an order whose cancellation was announced is cancelled, and so is a restocked one. -/
structure CancelledForGood (db : Database) : Prop where
  announced : ∀ orderID, HasCancelledEvent db orderID → ∃ o ∈ db.orders.rows, o.id = orderID ∧ o.status = .cancelled
  restocked : ∀ o ∈ db.orders.rows, o.stockRestoredAt.isSome = true → o.status = .cancelled

theorem CancelledForGood.placed {db db' : Database} (h : CancelledForGood db) {d : CheckoutTx}
    (placed : Placed d db db') : CancelledForGood db' := by
  obtain ⟨total, -, rows⟩ := placed.order
  refine ⟨fun orderID event => ?_, fun o ho restored => ?_⟩
  · obtain ⟨o, ho, cancelled⟩ := h.announced orderID ((hasCancelledEvent_placed placed orderID).1 event)
    exact ⟨o, rows ▸ List.mem_append_left _ ho, cancelled⟩
  · rw [rows] at ho
    rcases List.mem_append.1 ho with ho | ho
    · exact h.restocked o ho restored
    · obtain rfl := List.mem_singleton.1 ho
      cases restored

theorem CancelledForGood.paid {db : Database} (h : CancelledForGood db) {orderID : String} {now : Nat}
    (may : PaysLiveOrder db (.markOrderPaid orderID now)) :
    CancelledForGood { db with orders := setStatus (fun o => decide (o.id = orderID)) .paid now db.orders } := by
  refine ⟨fun id event => ?_, fun o ho restored => ?_⟩
  · obtain ⟨o, ho, rfl, cancelled⟩ := h.announced id event
    refine ⟨o, mem_setStatus.2 (.inl ⟨ho, ?_⟩), rfl, cancelled⟩
    rw [decide_eq_false_iff_not]
    exact fun same => may o ho same cancelled
  · rcases mem_setStatus.1 ho with ⟨ho, -⟩ | ⟨old, hold, sel, rfl⟩
    · exact h.restocked o ho restored
    · exact (may old hold (of_decide_eq_true sel) (h.restocked old hold restored)).elim

theorem CancelledForGood.cancelled {db db' : Database} (h : CancelledForGood db) {o : Order} {reason : String} {now : Nat}
    (cancelled : Cancelled o reason now db db') : CancelledForGood db' := by
  have here : { o with status := .cancelled, updatedAt := now } ∈ db'.orders.rows := by
    rw [cancelled.orders]
    exact mem_setStatus.2 (.inr ⟨o, cancelled.mem, by simp [cancellable, cancelled.wasOpen], rfl⟩)
  refine ⟨fun orderID event => ?_, fun r hr restored => ?_⟩
  · rcases (hasCancelledEvent_cancelled cancelled orderID).1 event with event | rfl
    · obtain ⟨r, hr, rfl, status⟩ := h.announced orderID event
      refine ⟨r, ?_, rfl, status⟩
      rw [cancelled.orders]
      exact mem_setStatus.2 (.inl ⟨hr, by simp [cancellable, status, OrderStatus.isOpen]⟩)
    · exact ⟨_, here, rfl, rfl⟩
  · rcases mem_cancelled cancelled hr with rfl | ⟨hr, -⟩
    · rfl
    · exact h.restocked r hr restored

/-- Only an announced order is restocked, and that one is cancelled. -/
theorem CancelledForGood.restock {db db' : Database} (h : CancelledForGood db) {orderID : String} {now : Nat}
    (announced : HasCancelledEvent db orderID) (restocked : Restocked orderID now db db') : CancelledForGood db' := by
  obtain ⟨o, ho, rfl, status⟩ := h.announced orderID announced
  refine ⟨fun id event => ?_, fun r hr restored => ?_⟩
  · obtain ⟨r, hr, rfl, cancelled⟩ := h.announced id ((hasCancelledEvent_congr restocked.domainEvents id).1 event)
    refine ⟨_, restocked.orders ▸ Table.mem_update.2 ⟨r, hr, rfl⟩, ?_⟩
    unfold Table.rewrite
    split <;> exact ⟨rfl, cancelled⟩
  · obtain ⟨old, hold, sameID, sameStatus, rfl | same⟩ := restocked.mem hr
    · exact h.restocked r hold restored
    · obtain rfl := Table.eq_of_key hold ho same
      exact sameStatus.trans status

theorem CancelledForGood.step {db db' : Database} {j : Job} {op : Stmt} (hj : stockJobs j = true) (enabled : j.enabled db)
    (issues : Issues j op) (may : PaysLiveOrder db op) (h : CancelledForGood db) (effect : Effect db op db') :
    CancelledForGood db' := by
  have same : db'.orders = db.orders → db'.domainEvents = db.domainEvents → CancelledForGood db' := by
    intro orders events
    refine ⟨fun orderID event => ?_, fun o ho => ?_⟩
    · rw [orders]
      exact h.announced orderID ((hasCancelledEvent_congr events orderID).1 event)
    · rw [orders] at ho
      exact h.restocked o ho
  cases effect with
  | same kept => exact same kept.orders kept.domainEvents
  | placed accepts placed => exact h.placed placed
  | paid => exact h.paid may
  | moved orders domainEvents states => exact same orders domainEvents
  | cancelled cancelled => exact h.cancelled cancelled
  | restocked restocked =>
    cases issues with
    | quiet quiet => exact quiet.elim
    | restock => exact h.restock ⟨_, enabled, rfl⟩ restocked
  | fulfilled | escalated | taken | released =>
    cases issues <;> first | cases hj | exact False.elim ‹_›

/-- In every run whose payments leave cancelled orders alone, restocked goods are never also sold. -/
theorem restocked_never_paid {db : Database} {pool : Pool store Database} (start : CancelledForGood db)
    (run : (pipeline stockJobs PaysLiveOrder).Reach ⟨db, []⟩ pool) :
    ∀ o ∈ pool.state.orders.rows, o.stockRestoredAt.isSome = true → o.status ≠ .paid := by
  have keeps : (pipeline stockJobs PaysLiveOrder).Keeps CancelledForGood (MayIssue stockJobs) :=
    pipeline_keeps fun hj enabled issues may inv effect => inv.step hj enabled issues may effect
  intro o ho restored paid
  have cancelled := (keeps.invariant run start).restocked o ho restored
  rw [paid] at cancelled
  cases cancelled

/-- A failed charge cancels the order and its goods go back on sale, twice announced. -/
def cancelAndRestock : List Job :=
  [orderOne "order-1" "m1", charge "charge.failed" "attempt-1" "p1", .restock ⟨"order-1", "payment_failed"⟩ 2,
    .restock ⟨"order-1", "payment_failed"⟩ 3]

theorem CancelledForGood.of_empty {db : Database} (noOrders : db.orders.rows = []) (noEvents : db.domainEvents.rows = []) :
    CancelledForGood db := by
  refine ⟨?_, ?_⟩
  · rintro orderID ⟨e, he, -⟩
    rw [noEvents] at he
    cases he
  · intro o ho
    rw [noOrders] at ho
    cases ho

theorem restocked_never_paid_redelivery :
    (∃ o ∈ (runJobs cancelAndRestock shop).orders.rows, o.stockRestoredAt.isSome = true) ∧
      ∀ o ∈ (runJobs cancelAndRestock shop).orders.rows, o.stockRestoredAt.isSome = true → o.status ≠ .paid :=
  ⟨by decide +kernel, restocked_never_paid (.of_empty rfl rfl)
    (reach_jobs (by decide +kernel : Runnable stockJobs PaysLiveOrder cancelAndRestock shop))⟩

/-- The customer's money arrives after the goods went back. -/
theorem restocked_then_paid : ∃ pool, (pipeline stockJobs unrestricted).Reach ⟨shop, []⟩ pool ∧
    ∃ o ∈ pool.state.orders.rows, o.stockRestoredAt.isSome = true ∧ o.status = .paid := by
  let jobs := cancelAndRestock ++ [charge "charge.success" "order-1" "p2"]
  refine ⟨⟨runJobs jobs shop, []⟩, reach_jobs (by decide +kernel), ?_⟩
  show ∃ o ∈ (runJobs jobs shop).orders.rows, _
  decide +kernel

/-! ## Every cancellation announced -/

/-- The vendor's patch neither cancels an order nor reopens one whose cancellation was announced. -/
def PatchesLiveOrder (db : Database) : Stmt → Prop
  | .updateOrderFulfillment status id businessID _ =>
    ∀ o ∈ db.orders.rows, o.id = id → o.businessID = businessID →
      (status = .cancelled → o.status = .cancelled) ∧ (status.isOpen = true → ¬ HasCancelledEvent db id)
  | _ => True

instance (db : Database) : DecidablePred (PatchesLiveOrder db) := fun op => by
  unfold PatchesLiveOrder
  split <;> infer_instance

/-- The invariant: cancelled orders are announced, open orders are not, and nothing else is. -/
structure Announced (db : Database) : Prop where
  known : ∀ orderID, HasCancelledEvent db orderID → ∃ o ∈ db.orders.rows, o.id = orderID
  cancelled : ∀ o ∈ db.orders.rows, o.status = .cancelled → HasCancelledEvent db o.id
  isOpen : ∀ o ∈ db.orders.rows, o.status.isOpen = true → ¬ HasCancelledEvent db o.id

theorem Announced.placed {db db' : Database} (h : Announced db) {d : CheckoutTx} (accepts : Accepts d db)
    (placed : Placed d db db') : Announced db' := by
  obtain ⟨total, -, rows⟩ := placed.order
  have events := hasCancelledEvent_placed placed
  refine ⟨fun orderID event => ?_, fun o ho status => ?_, fun o ho status => ?_⟩
  · obtain ⟨o, ho, same⟩ := h.known orderID ((events orderID).1 event)
    exact ⟨o, rows ▸ List.mem_append_left _ ho, same⟩
  · rw [events]
    rw [rows] at ho
    rcases List.mem_append.1 ho with ho | ho
    · exact h.cancelled o ho status
    · obtain rfl := List.mem_singleton.1 ho
      cases status
  · rw [events]
    rw [rows] at ho
    rcases List.mem_append.1 ho with ho | ho
    · exact h.isOpen o ho status
    · obtain rfl := List.mem_singleton.1 ho
      intro event
      obtain ⟨old, hold, same⟩ := h.known _ event
      exact accepts.freshOrder old hold same

/-- A status write keeps the announcements as long as it neither cancels nor reopens against them. -/
theorem Announced.setStatus {db : Database} (h : Announced db) {sel : Order → Bool} {status : OrderStatus} {now : Nat}
    (keeps : ∀ o ∈ db.orders.rows, sel o = true →
      (status = .cancelled → o.status = .cancelled) ∧ (status.isOpen = true → ¬ HasCancelledEvent db o.id)) :
    Announced { db with orders := setStatus sel status now db.orders } := by
  refine ⟨fun orderID event => ?_, fun r hr cancelled => ?_, fun r hr open_ => ?_⟩
  · obtain ⟨o, ho, rfl⟩ := h.known orderID event
    rcases hs : sel o with _ | _
    · exact ⟨o, mem_setStatus.2 (.inl ⟨ho, hs⟩), rfl⟩
    · exact ⟨_, mem_setStatus.2 (.inr ⟨o, ho, hs, rfl⟩), rfl⟩
  · rcases mem_setStatus.1 hr with ⟨hr, -⟩ | ⟨o, ho, hs, rfl⟩
    · exact h.cancelled r hr cancelled
    · exact h.cancelled o ho ((keeps o ho hs).1 cancelled)
  · rcases mem_setStatus.1 hr with ⟨hr, -⟩ | ⟨o, ho, hs, rfl⟩
    · exact h.isOpen r hr open_
    · exact (keeps o ho hs).2 open_

theorem Announced.cancel {db db' : Database} (h : Announced db) {o : Order} {reason : String} {now : Nat}
    (cancelled : Cancelled o reason now db db') : Announced db' := by
  have events := hasCancelledEvent_cancelled cancelled
  refine ⟨fun orderID event => ?_, fun r hr status => ?_, fun r hr status => ?_⟩
  · have here : { o with status := .cancelled, updatedAt := now } ∈ db'.orders.rows := by
      rw [cancelled.orders]
      exact mem_setStatus.2 (.inr ⟨o, cancelled.mem, by simp [cancellable, cancelled.wasOpen], rfl⟩)
    rcases (events orderID).1 event with event | rfl
    · obtain ⟨r, hr, rfl⟩ := h.known orderID event
      by_cases same : r.id = o.id
      · exact ⟨_, here, same.symm⟩
      · refine ⟨r, ?_, rfl⟩
        rw [cancelled.orders]
        exact mem_setStatus.2 (.inl ⟨hr, by simp [cancellable, same]⟩)
    · exact ⟨_, here, rfl⟩
  · rw [events]
    rcases mem_cancelled cancelled hr with rfl | ⟨hr, -⟩
    · exact .inr rfl
    · exact .inl (h.cancelled r hr status)
  · rw [events]
    rcases mem_cancelled cancelled hr with rfl | ⟨hr, other⟩
    · cases status
    · rintro (event | same)
      · exact h.isOpen r hr status event
      · exact other same

/-- Writes that keep the events, and the ids and statuses of the orders. -/
theorem Announced.same {db db' : Database} (h : Announced db) (events : db'.domainEvents = db.domainEvents)
    {f : Order → Order} (rows : db'.orders.rows = db.orders.rows.map f)
    (keeps : ∀ o, (f o).id = o.id ∧ (f o).status = o.status) : Announced db' := by
  have congr := hasCancelledEvent_congr events
  refine ⟨fun orderID event => ?_, fun r hr status => ?_, fun r hr status => ?_⟩
  · obtain ⟨o, ho, same⟩ := h.known orderID ((congr orderID).1 event)
    exact ⟨f o, rows ▸ List.mem_map_of_mem ho, (keeps o).1.trans same⟩
  · rw [rows] at hr
    obtain ⟨o, ho, rfl⟩ := List.mem_map.1 hr
    rw [congr, (keeps o).1]
    exact h.cancelled o ho ((keeps o).2.symm.trans status)
  · rw [rows] at hr
    obtain ⟨o, ho, rfl⟩ := List.mem_map.1 hr
    rw [congr, (keeps o).1]
    rw [(keeps o).2] at status
    exact h.isOpen o ho status

theorem Announced.step {db db' : Database} {op : Stmt} (may : PatchesLiveOrder db op) (h : Announced db)
    (effect : Effect db op db') : Announced db' := by
  have same : db'.orders = db.orders → db'.domainEvents = db.domainEvents → Announced db' := fun orders events =>
    h.same events (orders ▸ (List.map_id _).symm) fun _ => ⟨rfl, rfl⟩
  cases effect with
  | same kept => exact same kept.orders kept.domainEvents
  | placed accepts placed => exact h.placed accepts placed
  | paid => exact h.setStatus fun _ _ _ => ⟨(nomatch ·), (nomatch ·)⟩
  | moved orders domainEvents states => exact same orders domainEvents
  | cancelled cancelled => exact h.cancel cancelled
  | restocked restocked =>
    refine h.same restocked.domainEvents (congrArg Table.rows restocked.orders) fun o => ?_
    unfold Table.rewrite
    split <;> exact ⟨rfl, rfl⟩
  | fulfilled =>
    refine h.setStatus fun o ho sel => ?_
    simp only [Bool.and_eq_true, decide_eq_true_eq] at sel
    obtain ⟨rfl, business⟩ := sel
    exact may o ho rfl business
  | escalated written => exact same written.orders written.domainEvents
  | taken written => exact same written.orders written.domainEvents
  | released written => exact same written.orders written.domainEvents

theorem Announced.of_empty {db : Database} (noOrders : db.orders.rows = []) (noEvents : db.domainEvents.rows = []) :
    Announced db := by
  refine ⟨?_, ?_, ?_⟩
  · rintro orderID ⟨e, he, -⟩
    rw [noEvents] at he
    cases he
  · intro o ho
    rw [noOrders] at ho
    cases ho
  · intro o ho
    rw [noOrders] at ho
    cases ho

/-- What a step that cancels an order commits with it: the order's first `order.cancelled` row, and the move of
its conversation out of INVOICING. -/
structure CommitsCancellation (o : Order) (db db' : Database) : Prop where
  first : ¬ HasCancelledEvent db o.id
  event : ∃ reason, db'.domainEvents.rows = db.domainEvents.rows ++ [Events.orderCancelledEvent ⟨o.id, reason⟩]
  conversation : ∀ c, o.conversationID = some c → db.stateOf c = some .invoicing → db'.stateOf c = some .cancelled

theorem Announced.commits_cancel {db db' : Database} (h : Announced db) {o : Order} {reason : String} {now : Nat}
    (cancelled : Cancelled o reason now db db') : CommitsCancellation o db db' := by
  have first := h.isOpen o cancelled.mem cancelled.wasOpen
  refine ⟨first, ?_, fun c conv invoicing => ?_⟩
  · rcases cancelled.events with rows | ⟨event, -⟩
    · exact ⟨reason, rows⟩
    · exact (first event).elim
  · rw [cancelled.states, if_pos ⟨conv, invoicing⟩]

/-- An allowed statement that moves an order into CANCELLED is a `cancelOrder` of it. -/
theorem Announced.commits {db db' : Database} {op : Stmt} (h : Announced db) (may : PatchesLiveOrder db op)
    (effect : Effect db op db') {o o' : Order} (ho : o ∈ db.orders.rows) (ho' : o' ∈ db'.orders.rows) (id : o'.id = o.id)
    (before : o.status ≠ .cancelled) (after : o'.status = .cancelled) : CommitsCancellation o db db' := by
  -- the row itself cannot have been left alone
  have unchanged : o' ∉ db.orders.rows := by
    intro old
    obtain rfl := Table.eq_of_key old ho id
    exact before after
  cases effect with
  | same kept => exact (unchanged (kept.orders ▸ ho')).elim
  | placed accepts placed =>
    obtain ⟨total, -, rows⟩ := placed.order
    rw [rows] at ho'
    rcases List.mem_append.1 ho' with ho' | ho'
    · exact (unchanged ho').elim
    · obtain rfl := List.mem_singleton.1 ho'
      cases after
  | paid =>
    rcases mem_setStatus.1 ho' with ⟨ho', -⟩ | ⟨old, hold, -, rfl⟩
    · exact (unchanged ho').elim
    · cases after
  | moved orders domainEvents states => exact (unchanged (orders ▸ ho')).elim
  | cancelled cancelled =>
    rcases mem_cancelled cancelled ho' with rfl | ⟨ho', -⟩
    · obtain rfl := Table.eq_of_key cancelled.mem ho id
      exact h.commits_cancel cancelled
    · exact (unchanged ho').elim
  | restocked restocked =>
    obtain ⟨old, hold, sameID, sameStatus, -⟩ := restocked.mem ho'
    obtain rfl := Table.eq_of_key hold ho (sameID.symm.trans id)
    exact (before (sameStatus.symm.trans after)).elim
  | fulfilled =>
    rcases mem_setStatus.1 ho' with ⟨ho', -⟩ | ⟨old, hold, sel, rfl⟩
    · exact (unchanged ho').elim
    · simp only [Bool.and_eq_true, decide_eq_true_eq] at sel
      obtain rfl := Table.eq_of_key hold ho id
      exact (before ((may old hold sel.1 sel.2).1 after)).elim
  | escalated written => exact (unchanged (written.orders ▸ ho')).elim
  | taken written => exact (unchanged (written.orders ▸ ho')).elim
  | released written => exact (unchanged (written.orders ▸ ho')).elim

/-- In every run whose vendor patches neither cancel nor reopen, each step that cancels an order commits its
event and frees its conversation, and every cancelled order has its event. -/
theorem cancellations_announced {db : Database} {pool : Pool store Database} (start : Announced db)
    (run : (pipeline (fun _ => true) PatchesLiveOrder).Reach ⟨db, []⟩ pool) :
    (∀ o ∈ pool.state.orders.rows, o.status = .cancelled → HasCancelledEvent pool.state o.id) ∧
      ∀ next, (pipeline (fun _ => true) PatchesLiveOrder).Step pool next →
        ∀ o ∈ pool.state.orders.rows, ∀ o' ∈ next.state.orders.rows, o'.id = o.id → o.status ≠ .cancelled →
          o'.status = .cancelled → CommitsCancellation o pool.state next.state := by
  have keeps : (pipeline (fun _ => true) PatchesLiveOrder).Keeps Announced (MayIssue fun _ => true) :=
    pipeline_keeps fun _ _ _ may inv effect => inv.step may effect
  refine ⟨(keeps.invariant run start).cancelled, fun next step o ho o' ho' id before after => ?_⟩
  rcases keeps.effect run start step with same | ⟨op, -, may, inv, eq⟩
  · rw [same] at ho'
    obtain rfl := Table.eq_of_key ho' ho id
    exact (before after).elim
  · rw [eq] at ho' ⊢
    exact inv.commits may (exec_effect op pool.state) ho ho' id before after

/-- A failed charge cancels one order, the vendor ships the next. -/
def cancelAndShip : List Job :=
  [orderOne "order-1" "m1", charge "charge.failed" "attempt-1" "p1", .turn "conv" .cancelled .productInquiry,
    orderOne "order-2" "m2", .fulfillment "biz" "order-2" .shipped "f1" 5]

theorem cancellations_announced_shipped :
    (∃ o ∈ (runJobs cancelAndShip shop).orders.rows, o.status = .cancelled) ∧
      ∀ o ∈ (runJobs cancelAndShip shop).orders.rows, o.status = .cancelled →
        HasCancelledEvent (runJobs cancelAndShip shop) o.id :=
  ⟨by decide +kernel, (cancellations_announced (.of_empty rfl rfl)
    (reach_jobs (by decide +kernel : Runnable (fun _ => true) PatchesLiveOrder cancelAndShip shop))).1⟩

/-- The vendor cancels an order: no event, and the conversation stays in INVOICING. -/
theorem vendor_cancellation_unannounced : ∃ pool, (pipeline (fun _ => true) unrestricted).Reach ⟨shop, []⟩ pool ∧
    (∃ o ∈ pool.state.orders.rows, o.status = .cancelled ∧ ¬ HasCancelledEvent pool.state o.id) ∧
      pool.state.stateOf "conv" = some .invoicing := by
  let jobs := [orderOne "order-1" "m1", .fulfillment "biz" "order-1" .cancelled "f1" 5]
  refine ⟨⟨runJobs jobs shop, []⟩, reach_jobs (by decide +kernel), ?_, ?_⟩
  · show ∃ o ∈ (runJobs jobs shop).orders.rows, o.status = .cancelled ∧ ¬ HasCancelledEvent (runJobs jobs shop) o.id
    decide +kernel
  · show (runJobs jobs shop).stateOf "conv" = some .invoicing
    decide +kernel

end NovoApex.Orders
