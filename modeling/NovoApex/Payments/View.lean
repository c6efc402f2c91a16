import NovoApex.Payments.Recording

/-!
# The settled tables up to ids and clocks

`viewOf` keeps of the orders, conversations, follow-ups and payments what does not
depend on the attempt that wrote it. On views the writes of an attempt are functions
of the event, and making them again changes nothing.
-/

namespace NovoApex.Payments
set_option autoImplicit false
open Lib Program Workers Paystack

/-- The rows of the four tables without generated ids and timestamps. -/
structure View where
  orders : List Order
  conversations : List Conversation
  followUps : List ScheduledFollowUp
  payments : List Payment
  deriving DecidableEq

/-- An order without its clock. -/
def orderView (o : Order) : Order := { o with updatedAt := 0 }

/-- A follow-up that remembers only whether it was cancelled. -/
def followUpView (f : ScheduledFollowUp) : ScheduledFollowUp := { f with cancelledAt := f.cancelledAt.map fun _ => 0 }

/-- A payment without its id, that remembers only whether it was reconciled. -/
def paymentView (p : Payment) : Payment := { p with id := "", reconciledAt := p.reconciledAt.map fun _ => 0 }

def viewOf (db : Database) : View where
  orders := db.orders.rows.map orderView
  conversations := db.conversations.rows
  followUps := db.scheduledFollowUps.rows.map followUpView
  payments := db.payments.rows.map paymentView

/-! ## The writes -/

/-- A status write. -/
def withStatus (sel : Order → Bool) (status : OrderStatus) (orders : List Order) : List Order :=
  orders.map (Table.rewrite sel fun o => { o with status := status })

/-- The move of an order's conversation out of INVOICING. -/
def outOfInvoicing (conversationID : Option String) (dst : ConversationState) (rows : List Conversation) : List Conversation :=
  match conversationID with
  | some c => rows.map (Table.rewrite (fun k => decide (k.id = c) && decide (k.state ∈ [ConversationState.invoicing]))
      fun k => { k with state := dst })
  | none => rows

/-- An order's follow-ups that are still due are cancelled. -/
def withoutFollowUps (orderID : String) (rows : List ScheduledFollowUp) : List ScheduledFollowUp :=
  rows.map (Table.rewrite (fun f => decide (f.orderID = orderID) && f.executedAt.isNone && f.cancelledAt.isNone)
    fun f => { f with cancelledAt := some 0 })

namespace View

/-- The order is marked paid. -/
def mark (orderID : String) (v : View) : View := { v with orders := withStatus (fun o => decide (o.id = orderID)) .paid v.orders }

/-- The order is settled. -/
def settle (status : EventStatus) (orderID : String) (conversationID : Option String) (v : View) : View :=
  if status = .failed then
    if v.orders.any (cancellable orderID) then
      { v with
        orders := withStatus (cancellable orderID) .cancelled v.orders
        conversations := outOfInvoicing conversationID .cancelled v.conversations }
    else v
  else { v.mark orderID with conversations := outOfInvoicing conversationID .paid v.conversations }

/-- The order's follow-ups are cancelled. -/
def stop (orderID : String) (v : View) : View := { v with followUps := withoutFollowUps orderID v.followUps }

/-- A payment is recorded. -/
def record (p : Payment) (v : View) : View := { v with payments := v.payments ++ [p] }

/-! ## Again -/

variable {status : EventStatus} {orderID : String} {conversationID : Option String} {v : View}

theorem withStatus_again (sel : Order → Bool) (status : OrderStatus) (orders : List Order) :
    withStatus sel status (withStatus sel status orders) = withStatus sel status orders :=
  Table.map_rewrite_again (by intro o; rfl) orders

theorem outOfInvoicing_again (conversationID : Option String) (dst : ConversationState) (rows : List Conversation) :
    outOfInvoicing conversationID dst (outOfInvoicing conversationID dst rows) = outOfInvoicing conversationID dst rows := by
  cases conversationID with
  | none => rfl
  | some c => exact Table.map_rewrite_again (by intro k; rfl) rows

theorem withoutFollowUps_again (orderID : String) (rows : List ScheduledFollowUp) :
    withoutFollowUps orderID (withoutFollowUps orderID rows) = withoutFollowUps orderID rows :=
  Table.map_rewrite_again (by intro f; rfl) rows

/-- A cancelled order cannot be cancelled again. -/
theorem any_cancellable_cancelled (orderID : String) (orders : List Order) :
    (withStatus (cancellable orderID) .cancelled orders).any (cancellable orderID) = false := by
  rw [List.any_eq_false]
  intro o ho
  obtain ⟨old, -, rfl⟩ := List.mem_map.1 ho
  rcases hs : cancellable orderID old with _ | _
  · rw [Table.rewrite_of_neg hs, hs]
    exact Bool.false_ne_true
  · rw [Table.rewrite_of_pos hs]
    simp [cancellable, OrderStatus.isOpen]

/-- A settled order is not open any more. -/
theorem settle_closed : (v.settle status orderID conversationID).orders.any (cancellable orderID) = false := by
  unfold settle
  by_cases failed : status = .failed
  · rw [if_pos failed]
    by_cases isOpen : v.orders.any (cancellable orderID) = true
    · rw [if_pos isOpen]
      exact any_cancellable_cancelled orderID v.orders
    · rw [if_neg isOpen]
      exact Bool.eq_false_iff.2 isOpen
  · rw [if_neg failed, List.any_eq_false]
    intro o ho
    obtain ⟨old, -, rfl⟩ := List.mem_map.1 ho
    by_cases same : old.id = orderID
    · simp [Table.rewrite, cancellable, OrderStatus.isOpen, same]
    · simp [Table.rewrite, cancellable, same]

theorem settle_settle : (v.settle status orderID conversationID).settle status orderID conversationID =
    v.settle status orderID conversationID := by
  unfold settle
  by_cases failed : status = .failed
  · simp only [if_pos failed]
    by_cases isOpen : v.orders.any (cancellable orderID) = true
    · simp only [if_pos isOpen, any_cancellable_cancelled, Bool.false_eq_true, if_false]
    · simp only [if_neg isOpen]
  · simp only [if_neg failed, mark, withStatus_again, outOfInvoicing_again]

theorem settle_payments : (v.settle status orderID conversationID).payments = v.payments := by
  unfold settle
  split
  · split <;> rfl
  · rfl

theorem settle_mark (live : status ≠ .failed) :
    (v.mark orderID).settle status orderID conversationID = v.settle status orderID conversationID := by
  unfold settle
  simp only [if_neg live, mark, withStatus_again]

theorem settle_stop : (v.stop orderID).settle status orderID conversationID = (v.settle status orderID conversationID).stop orderID := by
  unfold settle
  by_cases failed : status = .failed
  · rw [if_pos failed, if_pos failed]
    show (if v.orders.any (cancellable orderID) = true then _ else _) = stop orderID (if _ then _ else _)
    split <;> rfl
  · rw [if_neg failed, if_neg failed]
    rfl

theorem stop_stop : (v.stop orderID).stop orderID = v.stop orderID := by
  simp only [stop, withoutFollowUps_again]

end View

/-! ## Views of the tables written -/

theorem map_setStatus (sel : Order → Bool) (timeless : ∀ o, sel (orderView o) = sel o) (status : OrderStatus) (now : Nat)
    (orders : Table Order.id) :
    (setStatus sel status now orders).rows.map orderView = withStatus sel status (orders.rows.map orderView) :=
  Table.map_map_rewrite timeless (by intro o; rfl) orders.rows

theorem viewOf_markOrderPaid (orderID : String) (now : Nat) (s : Database) :
    viewOf (markOrderPaid orderID now s) = (viewOf s).mark orderID := by
  have marked : (setStatus (fun o => decide (o.id = orderID)) .paid now s.orders).rows.map orderView =
    withStatus (fun o => decide (o.id = orderID)) .paid (s.orders.rows.map orderView) := map_setStatus _ (by intro o; rfl) ..
  unfold viewOf markOrderPaid View.mark
  simp only [marked]

theorem viewOf_cancelFollowUps (orderID : String) (now : Nat) (s : Database) :
    viewOf (cancelFollowUps orderID now s) = (viewOf s).stop orderID := by
  have stopped : (cancelFollowUps orderID now s).scheduledFollowUps.rows.map followUpView =
      withoutFollowUps orderID (s.scheduledFollowUps.rows.map followUpView) := by
    refine Table.map_map_rewrite (fun f => ?_) (by intro f; rfl) s.scheduledFollowUps.rows
    simp only [followUpView, Option.isNone_map]
    rfl
  unfold viewOf View.stop
  rw [stopped]
  rfl

theorem rows_transition (c : String) {dst : ConversationState} (legal : Domain.validateTransition .invoicing dst = true)
    (s : Database) : (Domain.transition c .invoicing dst s).2.conversations.rows =
      outOfInvoicing (some c) dst s.conversations.rows := by
  unfold Domain.transition
  rw [if_pos legal]
  rfl

theorem rows_cancelConversation (conversationID : Option String) (s : Database) :
    (cancelConversation conversationID s).conversations.rows = outOfInvoicing conversationID .cancelled s.conversations.rows := by
  cases conversationID with
  | none => rfl
  | some c => exact rows_transition c rfl s

theorem rows_moveConversation (conversationID : Option String) (s : Database) :
    (moveConversation conversationID s).conversations.rows = outOfInvoicing conversationID .paid s.conversations.rows := by
  cases conversationID with
  | none => rfl
  | some c => exact rows_transition c rfl s

/-- The tables `cancelOrder` leaves, up to the events. -/
theorem viewOf_cancelOrder {o : Order} {reason : String} {now : Nat} {s : Database} (ho : o ∈ s.orders.rows) :
    viewOf (exec (.cancelOrder o.id reason now) s).2 =
      if (viewOf s).orders.any (cancellable o.id) then
        { viewOf s with
          orders := withStatus (cancellable o.id) .cancelled (viewOf s).orders
          conversations := outOfInvoicing o.conversationID .cancelled (viewOf s).conversations }
      else viewOf s := by
  have seen : (viewOf s).orders.any (cancellable o.id) = s.orders.rows.any (cancellable o.id) := by
    unfold viewOf
    rw [List.any_map]
    rfl
  rw [seen]
  show viewOf (beginFunc (cancelOrderTx o.id reason now) s).2 = _
  by_cases isOpen : s.orders.rows.any (cancellable o.id) = true
  · rw [if_pos isOpen]
    obtain ⟨r, hr, sel⟩ := List.any_eq_true.1 isOpen
    simp only [cancellable, Bool.and_eq_true, decide_eq_true_eq] at sel
    obtain rfl := Table.eq_of_key hr ho sel.1
    have body := cancelOrderTx_open reason now ho sel.2
    have cancelled := map_setStatus (cancellable r.id) (by intro o; rfl) .cancelled now s.orders
    have moved := rows_cancelConversation r.conversationID
      { s with orders := setStatus (cancellable r.id) .cancelled now s.orders }
    obtain ⟨cs, frame⟩ := cancelConversation_frame r.conversationID
      { s with orders := setStatus (cancellable r.id) .cancelled now s.orders }
    rw [frame] at body moved
    rcases Events.insert_cases (Events.orderCancelledEvent ⟨r.id, reason⟩) _ with ⟨_, _, _, eq⟩ | ⟨_, eq⟩
    all_goals
      rw [eq] at body
      rw [beginFunc_ok body]
      unfold viewOf
      simp only at moved ⊢
      rw [cancelled, moved]
  · rw [if_neg isOpen]
    have none : s.orders.affected (cancellable o.id) = 0 := by
      rw [Table.affected_eq_zero]
      intro r hr
      exact Bool.eq_false_iff.2 fun sel => isOpen (List.any_eq_true.2 ⟨r, hr, sel⟩)
    have skip : cancelOrderTx o.id reason now s = .ok ((), s) := by simp only [cancelOrderTx, if_pos none]
    rw [beginFunc_ok skip]

theorem viewOf_settled (status : EventStatus) {o : Order} (now : Nat) {s : Database} (ho : o ∈ s.orders.rows) :
    viewOf (settled status o now s) = (viewOf s).settle status o.id o.conversationID := by
  unfold settled View.settle
  by_cases failed : status = .failed
  · rw [if_pos failed, if_pos failed]
    exact viewOf_cancelOrder ho
  · rw [if_neg failed, if_neg failed, ← viewOf_markOrderPaid o.id now]
    have moved := rows_moveConversation o.conversationID (markOrderPaid o.id now s)
    obtain ⟨cs, frame⟩ := moveConversation_frame o.conversationID (markOrderPaid o.id now s)
    rw [frame] at moved ⊢
    unfold viewOf
    simp only at moved ⊢
    rw [moved]
    rfl

end NovoApex.Payments
