import NovoApex.Orders.Placement

/-!
# The ledger of an order

The items of an order are written with its row and never again, and so is the
`order.created` event. `Ledger` ties the three together: the total of the row is the
exact sum over the items, and the event repeats the row. It holds in every state the
pipeline reaches.
-/

namespace NovoApex.Orders
set_option autoImplicit false
open Lib Program Workers

/-- The resolved item a row of `order_items` keeps. -/
def resolvedOf (i : OrderItem) : CheckoutResolvedItem := ⟨i.productID, i.productName, i.unitPrice, i.quantity⟩

/-- The items of an order, in the order they were written. -/
def itemsOf (db : Database) (orderID : String) : List CheckoutResolvedItem :=
  (db.orderItems.rows.filter fun i => decide (i.orderID = orderID)).map resolvedOf

/-- Orders, their items and their events agree. -/
structure Ledger (db : Database) : Prop where
  matched : CreatedMatch db
  owned : ∀ i ∈ db.orderItems.rows, ∃ o ∈ db.orders.rows, o.id = i.orderID
  total : ∀ o ∈ db.orders.rows, o.totalAmount.toDecimal = totalAmount (itemsOf db o.id)
  created : ∀ o ∈ db.orders.rows, ∃ p, Events.orderCreatedEvent p ∈ db.domainEvents.rows ∧ Repeats p o
  customer : ∀ o ∈ db.orders.rows, (db.customers.find? o.customerID).isSome = true

theorem Ledger.of_empty {db : Database} (noOrders : db.orders.rows = []) (noItems : db.orderItems.rows = [])
    (noEvents : db.domainEvents.rows = []) : Ledger db := by
  refine ⟨.of_empty noOrders noEvents, ?_, ?_, ?_, ?_⟩
  · simp [noItems]
  · simp [noOrders]
  · simp [noOrders]
  · simp [noOrders]

/-! ## The checkout transaction -/

/-- A checkout transaction is over the exact sum of its lines. -/
def SumsUp : Stmt → Prop
  | .checkoutTx tx => tx.totalAmount = totalAmount tx.resolved
  | _ => True

theorem handleCheckout_sumsUp (job : CheckoutJob) (d : Delivery) : (handleCheckout job d).Uses SumsUp := by
  unfold handleCheckout
  split
  · trivial
  · refine (checkoutResolveProducts_uses (fun _ _ => trivial) _ _).bind fun resolved => ?_
    split
    · trivial
    · refine Uses.bind (uses_call.2 trivial) fun business => ?_
      split
      · trivial
      · rename_i currency _
        refine (checkoutResolveFulfillment_uses (fun _ _ => trivial) job).bind fun fulfillment => ?_
        have sums : SumsUp (.checkoutTx (job.tx d resolved currency fulfillment)) := rfl
        refine Uses.bind (uses_call.2 sums).attempt fun outcome => ?_
        cases outcome with
        | ok _ => trivial
        | error e => simp only; split <;> trivial

theorem sumsUp_of_quiet {op : Stmt} (quiet : op.quiet) : SumsUp op := by
  cases op with
  | checkoutTx tx => exact quiet.elim
  | _ => trivial

/-- No job opens a checkout transaction over another sum. -/
theorem Job.program_sumsUp (j : Job) : j.program.Uses SumsUp := by
  cases j with
  | checkout job d => exact handleCheckout_sumsUp job d
  | _ =>
    refine (Job.program_uses _).mono fun op issues => ?_
    cases issues with
    | quiet quiet => exact sumsUp_of_quiet quiet
    | _ => trivial

theorem map_resolvedOf_items (d : CheckoutTx) : d.items.map resolvedOf = d.resolved := by
  apply List.ext_getElem
  · simp [CheckoutTx.items]
  · intro n bound bound'
    simp [CheckoutTx.items, resolvedOf]

theorem itemsOf_placed {d : CheckoutTx} {db db' : Database} (h : Ledger db) (accepts : Accepts d db) (placed : Placed d db db')
    (orderID : String) : itemsOf db' orderID = if orderID = d.orderID then d.resolved else itemsOf db orderID := by
  have own : ∀ i ∈ d.items, i.orderID = d.orderID := by
    intro i mem
    obtain ⟨n, bound, rfl⟩ := List.getElem_of_mem mem
    simp [CheckoutTx.items]
  unfold itemsOf
  rw [placed.items, List.filter_append, List.map_append]
  by_cases new : orderID = d.orderID
  · subst new
    have none : (db.orderItems.rows.filter fun i => decide (i.orderID = d.orderID)) = [] := by
      rw [List.filter_eq_nil_iff]
      intro i mem same
      obtain ⟨o, ho, id⟩ := h.owned i mem
      exact accepts.freshOrder o ho (id.trans (of_decide_eq_true same))
    have all : (d.items.filter fun i => decide (i.orderID = d.orderID)) = d.items :=
      List.filter_eq_self.2 fun i mem => decide_eq_true (own i mem)
    rw [none, all, if_pos rfl, map_resolvedOf_items]
    rfl
  · have none : (d.items.filter fun i => decide (i.orderID = orderID)) = [] := by
      rw [List.filter_eq_nil_iff]
      intro i mem same
      exact new ((of_decide_eq_true same).symm.trans (own i mem))
    rw [none, if_neg new]
    exact List.append_nil _

/-- The transaction's event repeats the row, once the stored total is its sum. -/
theorem repeats_created {d : CheckoutTx} {total : Money} (same : d.totalAmount = total.toDecimal) :
    Repeats d.created (d.order total) :=
  ⟨rfl, rfl, rfl, (crmText_getD d.conversationID).symm, same, rfl⟩

theorem Ledger.placed {d : CheckoutTx} {db db' : Database} (h : Ledger db) (sums : d.totalAmount = totalAmount d.resolved)
    (accepts : Accepts d db) (placed : Placed d db db') : Ledger db' := by
  obtain ⟨events, matched⟩ := h.matched.placed accepts placed
  obtain ⟨total, stored, orders⟩ := placed.order
  obtain ⟨m, grid⟩ := totalAmount_grid d.resolved
  have exact_ : total.toDecimal = totalAmount d.resolved := by
    rw [← sums] at grid ⊢
    exact Numeric.toDecimal_of_grid grid stored
  have customers : db'.customers = db.customers := by
    obtain ⟨_, _, _, _, _, _, frame⟩ := placed.rest
    rw [frame]
  refine ⟨matched, fun i mem => ?_, fun o mem => ?_, fun o mem => ?_, fun o mem => ?_⟩
  · rw [placed.items] at mem
    rw [orders]
    rcases List.mem_append.1 mem with old | new
    · obtain ⟨o, ho, id⟩ := h.owned i old
      exact ⟨o, List.mem_append_left _ ho, id⟩
    · obtain ⟨n, bound, rfl⟩ := List.getElem_of_mem new
      exact ⟨d.order total, by simp, by simp [CheckoutTx.items, CheckoutTx.order]⟩
  · rw [itemsOf_placed h accepts placed]
    rw [orders] at mem
    rcases List.mem_append.1 mem with old | new
    · rw [if_neg (accepts.freshOrder o old)]
      exact h.total o old
    · obtain rfl := List.mem_singleton.1 new
      have here : (d.order total).id = d.orderID := rfl
      rw [if_pos here]
      exact exact_
  · rw [orders] at mem
    rw [events]
    rcases List.mem_append.1 mem with old | new
    · obtain ⟨p, hp, repeats⟩ := h.created o old
      exact ⟨p, List.mem_append_left _ hp, repeats⟩
    · obtain rfl := List.mem_singleton.1 new
      exact ⟨d.created, by simp, repeats_created (sums.trans exact_.symm)⟩
  · rw [orders] at mem
    rw [customers]
    rcases List.mem_append.1 mem with old | new
    · exact h.customer o old
    · obtain rfl := List.mem_singleton.1 new
      exact accepts.refers.customer _ rfl

/-! ## The other statements -/

/-- Items and customers are written by the checkout transaction only, and customers not even by it. -/
theorem exec_ledger_frame {op : Stmt} (other : ∀ d, op ≠ .checkoutTx d) (db : Database) :
    (exec op db).2.orderItems = db.orderItems ∧ (exec op db).2.customers = db.customers := by
  cases op with
  | checkoutTx d => exact absurd rfl (other d)
  | transition c src dst =>
    obtain ⟨cs, frame⟩ := Domain.transition_frame c src dst db
    show (Domain.transition c src dst db).2.orderItems = _ ∧ (Domain.transition c src dst db).2.customers = _
    rw [frame]
    exact ⟨rfl, rfl⟩
  | cancelOrder o reason now =>
    obtain ⟨_, _, _, frame⟩ := cancelOrder_frame o reason now db
    rw [frame]
    exact ⟨rfl, rfl⟩
  | restock o now =>
    show (beginFunc (restockTx o now) db).2.orderItems = _ ∧ (beginFunc (restockTx o now) db).2.customers = _
    rcases beginFunc_cases (restockTx o now) db with ⟨_, db', ok, eq⟩ | ⟨e, -, eq⟩
    · rw [eq]
      unfold restockTx at ok
      split at ok
      · cases ok
      · split at ok
        · cases ok
          exact ⟨rfl, rfl⟩
        · cases ok
    · rw [eq]
      exact ⟨rfl, rfl⟩
  | insertPayment p =>
    obtain ⟨payments, frame⟩ := insertPayment_frame p db
    rw [frame]
    exact ⟨rfl, rfl⟩
  | insertOutbound m =>
    show (Workers.insertOutbound m db).2.orderItems = _ ∧ (Workers.insertOutbound m db).2.customers = _
    unfold Workers.insertOutbound
    split <;> exact ⟨rfl, rfl⟩
  | insertScheduledFollowUp f =>
    show (Db.insertScheduledFollowUp f db).2.orderItems = _ ∧ (Db.insertScheduledFollowUp f db).2.customers = _
    unfold Db.insertScheduledFollowUp
    split
    · exact ⟨rfl, rfl⟩
    · split
      · exact ⟨rfl, rfl⟩
      · split <;> exact ⟨rfl, rfl⟩
  | _ => exact ⟨rfl, rfl⟩

theorem Repeats.fixed {p : OrderCreated} {o o' : Order} (h : Repeats p o) (same : o'.fixed = o.fixed) : Repeats p o' := by
  obtain ⟨id, business, customer, conversation, total, currency⟩ := h
  refine ⟨?_, ?_, ?_, ?_, ?_, ?_⟩
  · exact id.trans (Order.fixed_id same).symm
  · exact business.trans (congrArg Order.businessID same).symm
  · exact customer.trans (congrArg Order.customerID same).symm
  · exact conversation.trans (congrArg (fun o : Order => o.conversationID.getD "") same).symm
  · exact total.trans (congrArg (fun o : Order => o.totalAmount.toDecimal) same).symm
  · exact currency.trans (congrArg Order.currency same).symm

theorem Ledger.kept {db db' : Database} {op : Stmt} (h : Ledger db) (effect : Effect db op db')
    (items : db'.orderItems = db.orderItems) (customers : db'.customers = db.customers) {f : Order → Order}
    (fixed : ∀ o, (f o).fixed = o.fixed) (orders : db'.orders.rows = db.orders.rows.map f) : Ledger db' := by
  refine ⟨h.matched.step effect, fun i mem => ?_, fun o mem => ?_, fun o mem => ?_, fun o mem => ?_⟩
  · obtain ⟨o, ho, id⟩ := h.owned i (items ▸ mem)
    exact ⟨f o, orders ▸ List.mem_map_of_mem ho, (Order.fixed_id (fixed o)).trans id⟩
  · rw [orders] at mem
    obtain ⟨old, hold, rfl⟩ := List.mem_map.1 mem
    have total : (f old).totalAmount = old.totalAmount := (congrArg Order.totalAmount (fixed old) :)
    rw [total, Order.fixed_id (fixed old), itemsOf, items]
    exact h.total old hold
  · rw [orders] at mem
    obtain ⟨old, hold, rfl⟩ := List.mem_map.1 mem
    obtain ⟨p, hp, repeats⟩ := h.created old hold
    exact ⟨p, effect.events_grow hp, repeats.fixed (fixed old)⟩
  · rw [orders] at mem
    obtain ⟨old, hold, rfl⟩ := List.mem_map.1 mem
    have customer : (f old).customerID = old.customerID := (congrArg Order.customerID (fixed old) :)
    rw [customer, customers]
    exact h.customer old hold

/-- Every statement of the pipeline keeps the ledger. -/
theorem Ledger.step {db : Database} {op : Stmt} (h : Ledger db) (sums : SumsUp op) : Ledger (exec op db).2 := by
  have effect := exec_effect op db
  rcases effect.orders_cases with ⟨d, rfl, accepts, placed⟩ | ⟨f, fixed, orders⟩
  · exact h.placed sums accepts placed
  · by_cases checkout : ∃ d, op = .checkoutTx d
    · -- a transaction that places nothing is rolled back
      obtain ⟨d, rfl⟩ := checkout
      show Ledger (beginFunc (Workers.checkoutTx d) db).2
      rcases beginFunc_cases (Workers.checkoutTx d) db with ⟨_, db', ok, eq⟩ | ⟨e, -, eq⟩
      · rw [eq]
        obtain ⟨accepts, placed⟩ := checkoutTx_ok ok
        exact h.placed sums accepts placed
      · rw [eq]
        exact h
    · obtain ⟨items, customers⟩ := exec_ledger_frame (fun d same => checkout ⟨d, same⟩) db
      exact h.kept effect items customers fixed orders

/-- The ledger holds in every state the pipeline reaches. -/
theorem ledger_reach {jobs : Job → Bool} {allow : Database → Stmt → Prop} {db : Database} {pool : Pool store Database}
    (start : Ledger db) (run : (pipeline jobs allow).Reach ⟨db, []⟩ pool) : Ledger pool.state := by
  have keeps : (pipeline jobs allow).Keeps Ledger fun _ op => SumsUp op := by
    refine ⟨?_, fun s op sums _ inv => inv.step sums, fun s op _ _ _ op' sums => sums⟩
    rintro s p ⟨j, -, -, rfl⟩
    exact Job.program_sumsUp j
  exact keeps.invariant run start

end NovoApex.Orders
