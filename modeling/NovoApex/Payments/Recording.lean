import NovoApex.Payments.Reconciliation
import NovoApex.Pipeline

/-!
# The writes of a payment event

One rule for each half of an attempt: settling the order and recording the
payment. A rule lists the states between the statements, which is where an attempt
can stop, and what each outcome leaves.
-/

namespace NovoApex.Payments
set_option autoImplicit false
open Lib Program Workers Paystack

section Rules

variable {F : Prop} {C : Database → Prop} {Q : Except Err Unit → Database → Prop}

/-- `cancelOrder` never fails by itself. -/
theorem exec_cancelOrder (orderID reason : String) (now : Nat) (s : Database) :
    (exec (.cancelOrder orderID reason now) s).1 = .ok () := by
  show (beginFunc (cancelOrderTx orderID reason now) s).1 = .ok ()
  by_cases none : s.orders.affected (cancellable orderID) = 0
  · have skip : cancelOrderTx orderID reason now s = .ok ((), s) := by simp only [cancelOrderTx, if_pos none]
    rw [beginFunc_ok skip]
  · obtain ⟨o, ho, sel⟩ := Table.affected_ne_zero.1 none
    simp only [cancellable, Bool.and_eq_true, decide_eq_true_eq] at sel
    obtain ⟨rfl, isOpen⟩ := sel
    have body := cancelOrderTx_open reason now ho isOpen
    rcases Events.insert_cases (Events.orderCancelledEvent ⟨o.id, reason⟩) _ with ⟨_, _, _, eq⟩ | ⟨_, eq⟩
    · rw [eq] at body
      rw [beginFunc_ok body]
    · rw [eq] at body
      rw [beginFunc_ok body]

/-- The move of a settled order's conversation. -/
def moveConversation (conversationID : Option String) (s : Database) : Database :=
  match conversationID with
  | some c => (Domain.transition c .invoicing .paid s).2
  | none => s

/-- The tables a settlement leaves. -/
def settled (status : EventStatus) (o : Order) (now : Nat) (s : Database) : Database :=
  if status = .failed then (exec (.cancelOrder o.id "payment_failed" now) s).2
  else moveConversation o.conversationID (markOrderPaid o.id now s)

theorem moveConversation_frame (conversationID : Option String) (s : Database) :
    ∃ cs, moveConversation conversationID s = { s with conversations := cs } := by
  cases conversationID with
  | none => exact ⟨s.conversations, rfl⟩
  | some c => exact Domain.transition_frame c _ _ s

/-- A settlement writes the lifecycle tables only. -/
theorem settled_frame (status : EventStatus) (o : Order) (now : Nat) (s : Database) :
    ∃ orders conversations domainEvents, settled status o now s =
      { s with orders := orders, conversations := conversations, domainEvents := domainEvents } := by
  unfold settled
  split
  · exact cancelOrder_frame o.id "payment_failed" now s
  · obtain ⟨cs, frame⟩ := moveConversation_frame o.conversationID (markOrderPaid o.id now s)
    exact ⟨_, cs, s.domainEvents, frame⟩

/-- The orders `cancelOrder` leaves. -/
theorem cancelOrder_orders (orderID reason : String) (now : Nat) (s : Database) :
    (exec (.cancelOrder orderID reason now) s).2.orders = s.orders ∨
      (exec (.cancelOrder orderID reason now) s).2.orders = setStatus (cancellable orderID) .cancelled now s.orders := by
  cases cancelOrder_effect orderID reason now s with
  | same same => exact .inl same.orders
  | cancelled cancelled => exact .inr cancelled.orders

/-- The orders a settlement leaves. -/
theorem settled_orders (status : EventStatus) (o : Order) (now : Nat) (s : Database) :
    (status ≠ .failed ∧ (settled status o now s).orders = setStatus (fun r => decide (r.id = o.id)) .paid now s.orders) ∨
      status = .failed ∧ ((settled status o now s).orders = s.orders ∨
        (settled status o now s).orders = setStatus (cancellable o.id) .cancelled now s.orders) := by
  unfold settled
  by_cases failed : status = .failed
  · rw [if_pos failed]
    exact .inr ⟨failed, cancelOrder_orders o.id "payment_failed" now s⟩
  · rw [if_neg failed]
    obtain ⟨cs, frame⟩ := moveConversation_frame o.conversationID (markOrderPaid o.id now s)
    exact .inl ⟨failed, by rw [frame]; rfl⟩

/-- A settlement keeps the other orders as they are, and the order itself in the table. -/
theorem mem_settled (status : EventStatus) (o : Order) (now : Nat) {s : Database} {r : Order} (hr : r ∈ s.orders.rows) :
    (r.id ≠ o.id → r ∈ (settled status o now s).orders.rows) ∧ ∃ r' ∈ (settled status o now s).orders.rows, r'.id = r.id := by
  have kept : ∀ {sel : Order → Bool} {st : OrderStatus}, (sel r = true → r.id = o.id) →
      (r.id ≠ o.id → r ∈ (setStatus sel st now s.orders).rows) ∧ ∃ r' ∈ (setStatus sel st now s.orders).rows, r'.id = r.id := by
    intro sel st only
    rcases hs : sel r with _ | _
    · have here : r ∈ (setStatus sel st now s.orders).rows := mem_setStatus.2 (.inl ⟨hr, hs⟩)
      exact ⟨fun _ => here, r, here, rfl⟩
    · exact ⟨fun ne => (ne (only hs)).elim, _, mem_setStatus.2 (.inr ⟨r, hr, hs, rfl⟩), rfl⟩
  rcases settled_orders status o now s with ⟨-, eq⟩ | ⟨-, eq | eq⟩
  · rw [eq]
    exact kept of_decide_eq_true
  · rw [eq]
    exact ⟨fun _ => hr, r, hr, rfl⟩
  · rw [eq]
    refine kept fun sel => ?_
    simp only [cancellable, Bool.and_eq_true, decide_eq_true_eq] at sel
    exact sel.1

/-- Settling stops before or after the order's own write. -/
theorem guarded_settleReconciledOrder {status : EventStatus} {o : Order} {now : Nat} {s : Database}
    (ho : o ∈ s.orders.rows) (before : C s) (faulty : F → Q (.error .transient) s)
    (marked : status ≠ .failed → C (markOrderPaid o.id now s) ∧ (F → Q (.error .transient) (markOrderPaid o.id now s)))
    (done : Q (.ok ()) (settled status o now s)) :
    Guarded exec F C Q (settleReconciledOrder status o.id now) s := by
  unfold settled at done
  unfold settleReconciledOrder
  by_cases failed : status = .failed
  · rw [if_pos failed] at done ⊢
    refine ⟨before, ?_, faulty⟩
    show Q (exec (.cancelOrder o.id "payment_failed" now) s).1 (exec (.cancelOrder o.id "payment_failed" now) s).2
    rw [exec_cancelOrder]
    exact done
  · rw [if_neg failed] at done ⊢
    obtain ⟨mid, midFaulty⟩ := marked failed
    have found : conversationOfOrder o.id (markOrderPaid o.id now s) = .ok o.conversationID := by
      have row : (markOrderPaid o.id now s).orders.find? o.id = some { o with status := .paid, updatedAt := now } :=
        Table.find?_eq_some.2 ⟨mem_setStatus.2 (.inr ⟨o, ho, decide_eq_true rfl, rfl⟩), rfl⟩
      unfold conversationOfOrder
      rw [row]
    refine ⟨before, ?_, faulty⟩
    have answers : exec (.conversationOfOrder o.id) (markOrderPaid o.id now s) =
      (.ok o.conversationID, markOrderPaid o.id now s) := Prod.ext found rfl
    refine guarded_query answers mid midFaulty ?_
    cases conv : o.conversationID with
    | none =>
      rw [conv] at done
      exact done
    | some c =>
      rw [conv] at done
      exact ⟨mid, done, midFaulty⟩

/-- The tables after the order's follow-ups are cancelled. -/
def followUpsStopped (orderID : Option String) (now : Nat) (s : Database) : Database :=
  match orderID with
  | some orderID => cancelFollowUps orderID now s
  | none => s

/-- What follows the payment insert, by its outcome. -/
def afterInsert (evt : NormalisedPaymentEvent) (a : Attempt) (businessID : String) (m : Attribution) :
    Except Err Unit → Handler Unit
  | .ok _ => afterPayment evt a businessID m
  | .error (.uniqueViolation _) => pure ()
  | .error e => raise e

/-- Recording stops before the follow-ups are cancelled, before the insert, or in what follows it. -/
theorem guarded_recordPayment {evt : NormalisedPaymentEvent} {a : Attempt} {m : Attribution} {businessID : String}
    {s : Database} (attributed : m.businessID = some businessID) (before : C s) (faulty : F → Q (.error .transient) s)
    (stopped : C (followUpsStopped m.orderID a.now s))
    (stoppedFaulty : F → Q (.error .transient) (followUpsStopped m.orderID a.now s))
    (inserted : Guarded exec F C Q
      (afterInsert evt a businessID m
        (exec (.insertPayment (paymentInsertOf evt a businessID m)) (followUpsStopped m.orderID a.now s)).1)
      (exec (.insertPayment (paymentInsertOf evt a businessID m)) (followUpsStopped m.orderID a.now s)).2) :
    Guarded exec F C Q (recordPayment evt a m) s := by
  have row : ∀ t, C t → (F → Q (.error .transient) t) → Guarded exec F C Q
      (afterInsert evt a businessID m (exec (.insertPayment (paymentInsertOf evt a businessID m)) t).1)
      (exec (.insertPayment (paymentInsertOf evt a businessID m)) t).2 →
      Guarded exec F C Q (insertPaymentRow evt a businessID m) t := by
    intro t ct ft rest
    refine ⟨ct, ?_, ft⟩
    revert rest
    generalize exec (.insertPayment (paymentInsertOf evt a businessID m)) t = outcome
    intro rest
    obtain ⟨r, t'⟩ := outcome
    cases r with
    | ok u => exact rest
    | error e => cases e <;> exact rest
  unfold recordPayment
  rw [attributed]
  simp only
  unfold cancelOrderFollowUps
  cases named : m.orderID with
  | none =>
    rw [named] at stopped stoppedFaulty inserted
    exact row s stopped stoppedFaulty inserted
  | some orderID =>
    rw [named] at stopped stoppedFaulty inserted
    exact ⟨before, row _ stopped stoppedFaulty inserted, faulty⟩

/-- The writes of a match, from the order's status to the insert. -/
theorem guarded_match {evt : NormalisedPaymentEvent} {a : Attempt} {o : Order} {customerID businessID : String}
    {s t : Database} (ho : o ∈ s.orders.rows) (before : C s) (faulty : F → Q (.error .transient) s)
    (marked : evt.status ≠ .failed → C (markOrderPaid o.id a.now s) ∧ (F → Q (.error .transient) (markOrderPaid o.id a.now s)))
    (settles : settled evt.status o a.now s = t) (done : C t) (doneFaulty : F → Q (.error .transient) t)
    (stopped : C (cancelFollowUps o.id a.now t)) (stoppedFaulty : F → Q (.error .transient) (cancelFollowUps o.id a.now t))
    (inserted : Guarded exec F C Q
      (afterInsert evt a businessID ⟨some customerID, some businessID, some o.id⟩
        (exec (.insertPayment (paymentInsertOf evt a businessID ⟨some customerID, some businessID, some o.id⟩))
          (cancelFollowUps o.id a.now t)).1)
      (exec (.insertPayment (paymentInsertOf evt a businessID ⟨some customerID, some businessID, some o.id⟩))
        (cancelFollowUps o.id a.now t)).2) :
    Guarded exec F C Q ((Verdict.settle o.id customerID businessID).program evt a) s := by
  refine Guarded.bind (guarded_settleReconciledOrder ho before faulty marked ?_)
  rw [settles]
  exact guarded_recordPayment rfl done doneFaulty stopped stoppedFaulty inserted

end Rules

/-! ## The tables that matter to a payment -/

/-- The foreign keys of orders and customers. -/
structure ReferencesHold (db : Database) : Prop where
  orderBusiness : ∀ o ∈ db.orders.rows, (db.businesses.find? o.businessID).isSome = true
  orderCustomer : ∀ o ∈ db.orders.rows, (db.customers.find? o.customerID).isSome = true
  customerBusiness : ∀ c ∈ db.customers.rows, (db.businesses.find? c.businessID).isSome = true

/-- The tables a payment event reads to decide or writes to settle. -/
structure SameCore (s s' : Database) : Prop where
  orders : s'.orders = s.orders
  conversations : s'.conversations = s.conversations
  scheduledFollowUps : s'.scheduledFollowUps = s.scheduledFollowUps
  payments : s'.payments = s.payments
  customers : s'.customers = s.customers
  businesses : s'.businesses = s.businesses

theorem SameCore.refl (s : Database) : SameCore s s := ⟨rfl, rfl, rfl, rfl, rfl, rfl⟩

theorem SameCore.trans {s t u : Database} (h : SameCore s t) (h' : SameCore t u) : SameCore s u :=
  ⟨h'.orders.trans h.orders, h'.conversations.trans h.conversations,
    h'.scheduledFollowUps.trans h.scheduledFollowUps, h'.payments.trans h.payments,
    h'.customers.trans h.customers, h'.businesses.trans h.businesses⟩

/-- A statement that leaves those tables alone. -/
def KeepsCore (op : Stmt) : Prop := ∀ s, SameCore s (exec op s).2

/-- What follows the insert leaves them alone. -/
theorem afterPayment_keepsCore (evt : NormalisedPaymentEvent) (a : Attempt) (businessID : String) (m : Attribution) :
    (afterPayment evt a businessID m).Uses KeepsCore := by
  have reads : ∀ {op : Stmt}, (∀ s, (exec op s).2 = s) → KeepsCore op := fun h s => by
    rw [h s]
    exact .refl s
  unfold afterPayment
  refine Uses.bind ?_ fun _ => ?_
  · unfold recordNetwork
    split
    · split
      · exact (uses_call.2 fun s => ⟨rfl, rfl, rfl, rfl, rfl, rfl⟩).attempt.ignore
      · exact trivial
    · exact trivial
  · split
    · split
      · unfold sendPaymentConfirmation
        refine Uses.bind (uses_call.2 (reads fun _ => rfl)) fun phone => ?_
        cases phone with
        | none => exact trivial
        | some phone =>
          refine Uses.bind (uses_call.2 (reads fun _ => rfl)) fun c => ?_
          cases c with
          | none => exact trivial
          | some c =>
            refine uses_call.2 fun s => ?_
            show SameCore s (insertOutbound _ s).2
            unfold insertOutbound
            split <;> exact ⟨rfl, rfl, rfl, rfl, rfl, rfl⟩
      · exact trivial
    · exact trivial

theorem guarded_afterPayment {F : Prop} (evt : NormalisedPaymentEvent) (a : Attempt) (businessID : String) (m : Attribution)
    (s : Database) : Guarded exec F (SameCore s) (fun _ => SameCore s) (afterPayment evt a businessID m) s :=
  Guarded.of_uses (fun _ t keeps h => h.trans (keeps t)) (afterPayment_keepsCore evt a businessID m) (.refl s)

/-- The reference of an event is free exactly when the event is not recorded. -/
theorem referenceTaken_iff (evt : NormalisedPaymentEvent) (s : Database) :
    referenceTaken s (crmText evt.reference) = true ↔ recorded evt s := by
  unfold recorded referenceTaken crmText paymentByReference
  by_cases unreferenced : evt.reference = ""
  · simp [unreferenced]
  · simp [unreferenced, List.find?_isSome]

/-- The row an event writes, once its amount is a column value. -/
def paymentRow (evt : NormalisedPaymentEvent) (a : Attempt) (businessID : String) (m : Attribution) (amount : Money) : Payment :=
  (paymentInsertOf evt a businessID m).row amount

/-- An unrecorded event whose amount fits, under a fresh id and with its references in place, is recorded. -/
theorem exec_insertPayment (evt : NormalisedPaymentEvent) (a : Attempt) (businessID : String) (m : Attribution) (s : Database)
    {amount : Money} (fits : Numeric.ofDecimal (amountOf evt) = some amount)
    (fresh : ∀ p ∈ s.payments.rows, p.id ≠ a.paymentID) (unrecorded : ¬ recorded evt s)
    (refers : PaymentRefers (paymentInsertOf evt a businessID m) s) :
    ∃ payments, exec (.insertPayment (paymentInsertOf evt a businessID m)) s = (.ok (), { s with payments := payments }) ∧
      payments.rows = s.payments.rows ++ [paymentRow evt a businessID m amount] := by
  obtain ⟨payments, hins⟩ : ∃ payments, s.payments.insert (paymentRow evt a businessID m amount) = some payments := by
    cases hi : s.payments.insert (paymentRow evt a businessID m amount) with
    | some payments => exact ⟨payments, rfl⟩
    | none =>
      obtain ⟨p, hp, same⟩ := Table.insert_eq_none.1 hi
      exact (fresh p hp same).elim
  have free : referenceTaken s (crmText evt.reference) = false := by
    rw [Bool.eq_false_iff]
    exact fun taken => unrecorded ((referenceTaken_iff evt s).1 taken)
  have ok : insertPayment (paymentInsertOf evt a businessID m) s = .ok ((), { s with payments := payments }) :=
    insertPayment_eq_ok.2 ⟨amount, payments, fits, hins, free, refers, rfl⟩
  refine ⟨payments, ?_, (Table.insert_eq_some.1 hins).2⟩
  show beginFunc (insertPayment (paymentInsertOf evt a businessID m)) s = _
  rw [beginFunc_ok ok]

/-- A missing reference is a foreign key violation. -/
theorem referenced_error {R : Type} {key : R → String} {t : Table key} {constraint : String} {ref : Option String} {e : Err}
    (h : referenced t constraint ref = .error e) : e = .foreignKeyViolation constraint := by
  unfold referenced at h
  split at h
  · cases h
  · split at h
    · cases h
    · exact (Except.error.inj h).symm

/-- An unrecorded event under a fresh id is refused for its amount or its references only. -/
theorem exec_insertPayment_refused (evt : NormalisedPaymentEvent) (a : Attempt) (businessID : String) (m : Attribution)
    (s : Database) (fresh : ∀ p ∈ s.payments.rows, p.id ≠ a.paymentID) (unrecorded : ¬ recorded evt s)
    (refused : ∀ amount : Money, Numeric.ofDecimal (amountOf evt) = some amount →
      ¬ PaymentRefers (paymentInsertOf evt a businessID m) s) :
    ∃ e, (∀ constraint, e ≠ .uniqueViolation constraint) ∧
      exec (.insertPayment (paymentInsertOf evt a businessID m)) s = (.error e, s) := by
  suffices body : ∃ e, (∀ constraint, e ≠ Err.uniqueViolation constraint) ∧
      insertPayment (paymentInsertOf evt a businessID m) s = .error e by
    obtain ⟨e, other, body⟩ := body
    exact ⟨e, other, beginFunc_error body⟩
  cases body : insertPayment (paymentInsertOf evt a businessID m) s with
  | ok r =>
    obtain ⟨amount, -, fits, -, -, refers, -⟩ := insertPayment_eq_ok.1 body
    exact (refused amount fits refers).elim
  | error e =>
    refine ⟨e, ?_, rfl⟩
    rintro constraint rfl
    unfold insertPayment at body
    split at body
    · cases body
    · split at body
      · rename_i conflict
        obtain ⟨p, hp, same⟩ := Table.insert_eq_none.1 conflict
        exact fresh p hp same
      · split at body
        · rename_i taken
          exact unrecorded ((referenceTaken_iff evt s).1 taken)
        · -- what is left are the three foreign keys
          rcases NovoApex.bind_eq_error.1 body with business | ⟨-, -, body⟩
          · cases referenced_error business
          · rcases NovoApex.bind_eq_error.1 body with customer | ⟨-, -, body⟩
            · cases referenced_error customer
            · rcases NovoApex.bind_eq_error.1 body with order | ⟨-, -, body⟩
              · cases referenced_error order
              · cases body

end NovoApex.Payments
