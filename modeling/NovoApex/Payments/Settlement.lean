import NovoApex.Orders.OneOrder
import NovoApex.Payments.Reconciliation

/-!
# What a payment event settles

An attempt at a payment event marks at most one order PAID: the one its reference
names, or an open order of the payer, and only over the exact amount. The event's
currency is not compared, and any outcome but a failure counts as paid.
-/

namespace NovoApex.Payments
set_option autoImplicit false
open Lib Program Workers Paystack Orders

/-- The orders an attempt at an event can leave: as they were, or with the order of its verdict settled. -/
def OrdersLeft (evt : NormalisedPaymentEvent) (now : Nat) (db : Database) (orders : Table Order.id) : Prop :=
  orders = db.orders ∨ ∃ orderID customerID businessID, verdict evt db = .settle orderID customerID businessID ∧
    (evt.status ≠ .failed ∧ orders = setStatus (fun o => decide (o.id = orderID)) .paid now db.orders ∨
      evt.status = .failed ∧ orders = setStatus (cancellable orderID) .cancelled now db.orders)

/-- A statement that does not write orders. -/
def KeepsOrders (op : Stmt) : Prop := ∀ db, (exec op db).2.orders = db.orders

theorem keepsOrders_of_quiet {op : Stmt} (quiet : op.quiet) : KeepsOrders op :=
  fun db => ((exec_effect op db).of_quiet quiet).orders

theorem keepsOrders_transition (c : String) (src dst : ConversationState) : KeepsOrders (.transition c src dst) := by
  intro db
  obtain ⟨cs, frame⟩ := Domain.transition_frame c src dst db
  show (Domain.transition c src dst db).2.orders = db.orders
  rw [frame]

theorem guarded_keepsOrders {F : Prop} {α : Type} {P : Table Order.id → Prop} {p : Handler α} {s : Database}
    (uses : p.Uses KeepsOrders) (start : P s.orders) :
    Guarded exec F (fun s => P s.orders) (fun _ s => P s.orders) p s := by
  refine Guarded.of_uses (fun op s keeps h => ?_) uses start
  rw [keeps]
  exact h

section

variable {evt : NormalisedPaymentEvent} {a : Attempt} {db : Database}

theorem guarded_settle {orderID customerID businessID : String}
    (decided : verdict evt db = .settle orderID customerID businessID) :
    Guarded exec True (fun s => OrdersLeft evt a.now db s.orders) (fun _ s => OrdersLeft evt a.now db s.orders)
      (settleReconciledOrder evt.status orderID a.now) db := by
  have start : OrdersLeft evt a.now db db.orders := .inl rfl
  unfold settleReconciledOrder
  by_cases failed : evt.status = .failed
  · rw [if_pos failed]
    refine ⟨start, ?_, fun _ => start⟩
    show OrdersLeft evt a.now db (exec (.cancelOrder orderID "payment_failed" a.now) db).2.orders
    cases cancelOrder_effect orderID "payment_failed" a.now db with
    | same same =>
      rw [same.orders]
      exact start
    | cancelled cancelled =>
      rw [cancelled.orders]
      exact .inr ⟨_, _, _, decided, .inr ⟨failed, rfl⟩⟩
  · rw [if_neg failed]
    have paid : OrdersLeft evt a.now db (markOrderPaid orderID a.now db).orders :=
      .inr ⟨_, _, _, decided, .inl ⟨failed, rfl⟩⟩
    have moves : (transitionOrderConversation orderID .invoicing .paid).Uses KeepsOrders := by
      refine Uses.bind (uses_call.2 (keepsOrders_of_quiet trivial)) fun conversationID => ?_
      cases conversationID with
      | none => exact trivial
      | some c => exact (uses_call.2 (keepsOrders_transition c _ _)).ignore
    exact ⟨start, guarded_keepsOrders moves paid, fun _ => start⟩

theorem guarded_ordersLeft : Guarded exec True (fun s => OrdersLeft evt a.now db s.orders)
    (fun _ s => OrdersLeft evt a.now db s.orders) (handlePaymentEvent evt a) db := by
  have start : OrdersLeft evt a.now db db.orders := .inl rfl
  have records : ∀ m s, OrdersLeft evt a.now db s.orders → Guarded exec True (fun s => OrdersLeft evt a.now db s.orders)
      (fun _ s => OrdersLeft evt a.now db s.orders) (recordPayment evt a m) s := fun m s h =>
    guarded_keepsOrders ((recordPayment_uses evt a m).mono fun _ => keepsOrders_of_quiet) h
  refine (reads_handlePaymentEvent evt a db).guarded start (fun _ => start) ?_
  cases decided : verdict evt db with
  | recorded => exact start
  | settle orderID customerID businessID =>
    refine Guarded.bind ((guarded_settle decided).mono (fun _ => id) fun r s h => ?_)
    cases r with
    | ok _ => exact records _ s h
    | error e => exact h
  | credit customerID businessID => exact records ⟨some customerID, some businessID, none⟩ db start
  | unknown => exact start
  | unreadable e => exact start

/-- An attempt at an event leaves the tables: it ended, or it stopped on the way. -/
def Leaves (evt : NormalisedPaymentEvent) (a : Attempt) (db db' : Database) : Prop :=
  (∃ r, (handlePaymentEvent evt a).Ends exec db r db') ∨ (handlePaymentEvent evt a).Halts exec db db'

theorem ordersLeft_of_leaves {db' : Database} (h : Leaves evt a db db') : OrdersLeft evt a.now db db'.orders := by
  rcases h with ⟨r, ends⟩ | halts
  · have left := guarded_ordersLeft.ends trivial ends
    exact left
  · have left := guarded_ordersLeft.halts trivial (fun _ _ h => h) halts
    exact left

/-- The order of a settling verdict: over the amount, and referenced or an open order of the payer. -/
theorem verdict_settle {orderID customerID businessID : String}
    (h : verdict evt db = .settle orderID customerID businessID) {o : Order} (ho : o ∈ db.orders.rows) (id : o.id = orderID) :
    amountOf evt = o.totalAmount.toDecimal ∧ (o.id = evt.reference ∨
      o.status.isOpen = true ∧ ∃ cust ∈ db.customers.rows, cust.id = o.customerID ∧ cust.phone = phoneOf evt) := by
  unfold verdict at h
  split at h
  · cases h
  · split at h
    · rename_i r matched
      cases h
      obtain ⟨-, o', ho', -, -, id', -, total, -⟩ := referenceMatch_eq_some matched
      obtain rfl := Table.eq_of_key ho ho' (id.trans id'.symm)
      exact ⟨total.symm, .inl id⟩
    · unfold phoneVerdict at h
      split at h
      · rename_i c decided
        cases h
        obtain ⟨o', ho', cust, hcust, id', isOpen, total, owner, -, -, phone⟩ := phoneDecision_order decided
        obtain rfl := Table.eq_of_key ho ho' (id.trans id'.symm)
        exact ⟨total.symm, .inr ⟨isOpen, cust, hcust, owner.symm, phone⟩⟩
      · cases h
      · cases h
      · cases h

/-- However an attempt at an event ends, an order it turned PAID has the event's amount as its total, is the one
referenced or an open order of the payer, and the event was not a failure. -/
theorem paid_over_amount {db' : Database} (left : Leaves evt a db db') {o o' : Order} (ho : o ∈ db.orders.rows)
    (ho' : o' ∈ db'.orders.rows) (id : o'.id = o.id) (before : o.status ≠ .paid) (after : o'.status = .paid) :
    evt.status ≠ .failed ∧ amountOf evt = o.totalAmount.toDecimal ∧ (o.id = evt.reference ∨
      o.status.isOpen = true ∧ ∃ cust ∈ db.customers.rows, cust.id = o.customerID ∧ cust.phone = phoneOf evt) := by
  rcases ordersLeft_of_leaves left with same | ⟨orderID, customerID, businessID, decided, ⟨live, orders⟩ | ⟨-, orders⟩⟩
  · rw [same] at ho'
    obtain rfl := Table.eq_of_key ho' ho id
    exact (before after).elim
  · rw [orders] at ho'
    rcases mem_setStatus.1 ho' with ⟨ho', -⟩ | ⟨old, hold, sel, rfl⟩
    · obtain rfl := Table.eq_of_key ho' ho id
      exact (before after).elim
    · obtain rfl := Table.eq_of_key hold ho id
      exact ⟨live, verdict_settle decided hold (of_decide_eq_true sel)⟩
  · rw [orders] at ho'
    rcases mem_setStatus.1 ho' with ⟨ho', -⟩ | ⟨old, hold, sel, rfl⟩
    · obtain rfl := Table.eq_of_key ho' ho id
      exact (before after).elim
    · cases after

end

theorem paid_over_amount_one_piece :
    ∃ o ∈ (runJobs [orderOne "order-1" "m1"] shop).orders.rows,
      amountOf (chargeOf "charge.success" "order-1" 500 "GHS") = o.totalAmount.toDecimal := by
  let evt := chargeOf "charge.success" "order-1" 500 "GHS"
  let a : Attempt := ⟨1, "p1", "p1-message"⟩
  let db := runJobs [orderOne "order-1" "m1"] shop
  have paid : ∃ o ∈ db.orders.rows, ∃ o' ∈ ((handlePaymentEvent evt a).run exec db).2.orders.rows,
      o'.id = o.id ∧ o.status ≠ .paid ∧ o'.status = .paid := by decide +kernel
  obtain ⟨o, ho, o', ho', id, before, after⟩ := paid
  have left : Leaves evt a db ((handlePaymentEvent evt a).run exec db).2 := .inl ⟨_, ends_run exec _ db⟩
  exact ⟨o, ho, (paid_over_amount left ho ho' id before after).2.1⟩

/-- An attempt turns an order PAID only for a success over its total, in its currency, while it is open. -/
def SettlesDue (evt : NormalisedPaymentEvent) (a : Attempt) (db : Database) : Prop :=
  ∀ o ∈ db.orders.rows, ∀ o' ∈ ((handlePaymentEvent evt a).run exec db).2.orders.rows,
    o'.id = o.id → o.status ≠ .paid → o'.status = .paid →
      evt.status = .success ∧ amountOf evt = o.totalAmount.toDecimal ∧ evt.currency = o.currency ∧ o.status.isOpen = true

instance (evt : NormalisedPaymentEvent) (a : Attempt) (db : Database) : Decidable (SettlesDue evt a db) :=
  inferInstanceAs (Decidable (∀ o ∈ db.orders.rows, _))

/-- An open order, and the same order after a failed charge. -/
def openAndCancelled : Database × Database :=
  (runJobs [orderOne "order-1" "m1"] shop, runJobs [orderOne "order-1" "m1", charge "charge.failed" "attempt-1" "p1"] shop)

/-- In reachable tables: an event that is no charge settles an open order, so does a success in another currency,
and a late success settles a cancelled one. -/
theorem settles_undue :
    (pipeline (fun _ => true) unrestricted).Reach ⟨shop, []⟩ ⟨openAndCancelled.1, []⟩ ∧
    (pipeline (fun _ => true) unrestricted).Reach ⟨shop, []⟩ ⟨openAndCancelled.2, []⟩ ∧
    ¬ SettlesDue (chargeOf "charge.dispute.create" "order-1" 500 "GHS") ⟨1, "p2", "msg"⟩ openAndCancelled.1 ∧
    ¬ SettlesDue (chargeOf "charge.success" "order-1" 500 "NGN") ⟨1, "p2", "msg"⟩ openAndCancelled.1 ∧
    ¬ SettlesDue (chargeOf "charge.success" "order-1" 500 "GHS") ⟨1, "p2", "msg"⟩ openAndCancelled.2 := by
  refine ⟨reach_jobs (by decide +kernel), reach_jobs (by decide +kernel), ?_, ?_, ?_⟩
  · decide +kernel
  · decide +kernel
  · decide +kernel

end NovoApex.Payments
