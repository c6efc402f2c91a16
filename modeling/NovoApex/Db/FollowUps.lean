import NovoApex.Db.Schema
import NovoApex.Lib.Program
import NovoApex.Lib.TaskQueue
import Mathlib.Data.List.Sort

/-!
# The store of the follow-ups

The statements of `followup_schedule.go`, `followup.go` and `checkout_expiry.go`, one by
one, with the follow-up queue and its tasks. A sweep's claims become visible at its
commit; until then the rows are locked.

Some of the state is history that no statement reads: the reminders, the deliveries
that scheduled half of an order's follow-ups, the successes of tasks and deliveries,
and the orders that expired.
-/

namespace NovoApex
set_option autoImplicit false

/-- Neither executed nor cancelled. -/
def ScheduledFollowUp.isOpen (f : ScheduledFollowUp) : Bool := f.executedAt.isNone && f.cancelledAt.isNone

/-- `job_type = 'unpaid-invoice-second'`. -/
def finalReminder : String := "unpaid-invoice-second"

/-- The final reminder of the order was claimed at or before the cutoff. -/
def ScheduledFollowUp.expires (cutoff : Int) (o : Order) (f : ScheduledFollowUp) : Bool :=
  decide (f.orderID = o.id) && decide (f.jobType = finalReminder) && f.executedAt.any fun e => decide ((e : Int) ≤ cutoff)

/-- The row with the `executed_at` that the transaction has given it. -/
def ScheduledFollowUp.execute (claimed : List (String × Nat)) (f : ScheduledFollowUp) : ScheduledFollowUp :=
  match claimed.lookup f.id with
  | some now => { f with executedAt := some now }
  | none => f

theorem ScheduledFollowUp.execute_id (claimed : List (String × Nat)) (f : ScheduledFollowUp) : (f.execute claimed).id = f.id := by
  unfold ScheduledFollowUp.execute
  split <;> rfl

def ScheduledFollowUp.cancel (now : Nat) (f : ScheduledFollowUp) : ScheduledFollowUp := { f with cancelledAt := some now }

namespace Db
open Lib

/-- `FollowUpPayload`. -/
structure FollowUpPayload where
  jobType : String
  businessID : String
  customerID : String
  orderID : String
  deriving DecidableEq, Repr

/-- What the sweep puts into the task of a row. -/
def payloadOf (f : ScheduledFollowUp) : FollowUpPayload := ⟨f.jobType, f.businessID, f.customerID, f.orderID⟩

/-- The columns of `customers` that a reminder reads; the name is nullable. -/
structure Addressee where
  id : String
  name : Option String
  phone : String
  deriving DecidableEq

/-- The column of `customer_profiles` that a reminder counts in. -/
structure LatePayments where
  customerID : String
  latePaymentCount : Nat
  deriving DecidableEq

/-- One run of the task of a follow-up. -/
structure FollowUpRun where
  attempt : Nat
  followUp : String
  deriving DecidableEq, Repr

/-- One delivery of an order's `order.created`. -/
structure ScheduleDelivery where
  attempt : Nat
  orderID : String
  deriving DecidableEq, Repr

/-- The transaction of a sweep: the rows it has claimed, and of which it has enqueued a task. -/
structure FollowUpTx where
  id : String
  ended : Bool
  locked : Bool
  claimed : List (String × Nat)
  enqueued : List String
  deriving DecidableEq

/-- An outbound row that a run has written. -/
structure Reminder where
  followUp : String
  payload : FollowUpPayload
  outboundID : String
  createdAt : Nat
  deriving DecidableEq, Repr

/-- An order that was cancelled, and why. -/
structure Cancellation where
  orderID : String
  reason : String
  time : Nat
  deriving DecidableEq, Repr

/-- The order with its customer and business, as a reminder reads it. -/
structure OrderLookup where
  status : OrderStatus
  totalAmount : Money
  customerName : String
  customerPhone : String
  currency : String
  deriving DecidableEq

/-- The errors of the follow-up workers. -/
inductive FollowUpErr where
  | db (e : Err)
  /-- The transaction has ended. -/
  | txClosed
  /-- `fmt.Errorf("context: %w", cause)`. -/
  | context (text : String) (cause : FollowUpErr)
  deriving DecidableEq, Repr

/-- The tables, the queue, the clock and the history. -/
structure FollowUpWorld where
  businesses : Table Business.id
  customers : Table Addressee.id
  profiles : Table LatePayments.customerID
  conversations : Table Conversation.id
  orders : Table Order.id
  followUps : Table ScheduledFollowUp.id
  outboundMessages : Table OutboundMessage.id
  transactions : Table FollowUpTx.id
  queue : TaskQueue FollowUpPayload
  /-- The tasks asynq is running. -/
  running : List FollowUpRun
  clock : Nat
  reminders : List Reminder
  /-- The deliveries that have inserted the pair and not the third row. -/
  halfway : List ScheduleDelivery
  /-- The orders one of whose deliveries returned nil. -/
  scheduled : List String
  /-- The follow-ups whose task succeeded, and when. -/
  succeeded : List (String × Nat)
  cancellations : List Cancellation

/-- The statements of the follow-up workers and of those around them. -/
inductive FollowUpStmt where
  | now
  | tick (later : Nat)
  | lookupOrder (run : FollowUpRun) (orderID : String)
  | recordLatePayment (customerID : String)
  | lookupConversation (run : FollowUpRun) (businessID customerPhone : String)
  | insertOutboundRow (run : FollowUpRun) (payload : FollowUpPayload) (row : OutboundMessage)
  | publishOutbound (run : FollowUpRun) (id : String)
  | startTask (run : FollowUpRun)
  | finishTask (run : FollowUpRun) (success : Bool)
  | begin (tx : String)
  | lockScanner (tx : String)
  | due (tx : String) (now : Nat)
  | claim (tx id : String) (now : Nat)
  | enqueue (tx id : String) (payload : FollowUpPayload)
  | commit (tx : String)
  | rollback (tx : String)
  | cancelFollowUps (orderID : String) (now : Nat)
  | existsFollowUp (orderID : String)
  | insertPair (d : ScheduleDelivery) (first second : ScheduledFollowUp)
  | insertThird (d : ScheduleDelivery) (row : ScheduledFollowUp)
  | insertDeliveryConfirmation (row : ScheduledFollowUp)
  | scheduled (d : ScheduleDelivery)
  | expiredOrders (cutoff : Int)
  | cancelOrder (orderID reason : String)
  | insertOrder (o : Order)
  | setStatus (orderID : String) (status : OrderStatus)
  | setName (customerID : String) (name : Option String)

/-- What a statement answers. -/
@[reducible] def FollowUpStmt.Reply : FollowUpStmt → Type
  | now => Nat
  | lookupOrder .. => Option OrderLookup
  | lookupConversation .. => Option String
  | startTask .. => FollowUpPayload
  | due .. => List ScheduledFollowUp
  | claim .. => Bool
  | existsFollowUp .. => Bool
  | expiredOrders .. => List String
  | _ => Unit

/-- The interface of the follow-up workers. -/
abbrev followUpStore : Interface := ⟨FollowUpStmt, FollowUpStmt.Reply, FollowUpErr, .db .transient⟩

/-! ## Reading -/

/-- `orders JOIN customers JOIN businesses`; a NULL name does not scan into a string. -/
def lookupOrder (orderID : String) (w : FollowUpWorld) : Except FollowUpErr (Option OrderLookup) :=
  match w.orders.find? orderID with
  | none => .ok none
  | some o =>
    match w.customers.find? o.customerID, w.businesses.find? o.businessID with
    | some c, some b =>
      match c.name with
      | some name => .ok (some ⟨o.status, o.totalAmount, name, c.phone, b.currency⟩)
      | none => .error (.db .scanNull)
    | _, _ => .ok none

/-- The conversation of a business with a phone. -/
def lookupConversation (businessID customerPhone : String) (w : FollowUpWorld) : Option String :=
  (w.conversations.rows.find? fun c => decide (c.businessID = businessID) && decide (c.customerPhone = customerPhone)).map Conversation.id

/-- `LIMIT 50`. -/
def dueLimit : Nat := 50

/-- The rows that are due, the oldest first. -/
def due (now : Nat) (w : FollowUpWorld) : List ScheduledFollowUp :=
  ((w.followUps.rows.filter fun f => decide (f.scheduledAt ≤ now) && f.isOpen).insertionSort
    fun a b => a.scheduledAt ≤ b.scheduledAt).take dueLimit

/-- `LIMIT 100` of the expiry scan. -/
def expiredLimit : Nat := 100

/-- The unpaid orders whose final reminder has expired, once for each such reminder. -/
def expiredOrders (cutoff : Int) (w : FollowUpWorld) : List String :=
  ((((w.orders.rows.filter fun o => o.status.isOpen).insertionSort fun a b => a.createdAt ≤ b.createdAt).flatMap fun o =>
    (w.followUps.rows.filter (ScheduledFollowUp.expires cutoff o)).map fun _ => o.id)).take expiredLimit

/-! ## Writing -/

/-- The task id of a row. -/
def followUpTaskID (id : String) : String := "scheduled-follow-up:" ++ id

/-- `MaxRetry` of the follow-up queue. -/
def followUpMaxRetry : Nat := 2

/-- The sweep's transaction, while it is open. -/
def openFollowUpTx (tx : String) (w : FollowUpWorld) : Option FollowUpTx := (w.transactions.find? tx).filter fun t => !t.ended

/-- Rewrite one transaction. -/
def setFollowUpTx (tx : String) (f : FollowUpTx → FollowUpTx) (keeps : ∀ t, (f t).id = t.id) (w : FollowUpWorld) : FollowUpWorld :=
  { w with transactions := w.transactions.update (fun t => decide (t.id = tx)) f keeps }

def FollowUpTx.lock (t : FollowUpTx) : FollowUpTx := { t with locked := true }

def FollowUpTx.claim (id : String) (now : Nat) (t : FollowUpTx) : FollowUpTx := { t with claimed := (id, now) :: t.claimed }

def FollowUpTx.enqueue (id : String) (t : FollowUpTx) : FollowUpTx := { t with enqueued := id :: t.enqueued }

def FollowUpTx.finish (t : FollowUpTx) : FollowUpTx := { t with ended := true }

/-- A statement of an open transaction. -/
def withinTx {α : Type} (tx : String) (w : FollowUpWorld) (f : FollowUpTx → Except FollowUpErr α × FollowUpWorld) :
    Except FollowUpErr α × FollowUpWorld :=
  match openFollowUpTx tx w with
  | some t => f t
  | none => (.error .txClosed, w)

/-- Make a sweep's claims visible. -/
def applyClaims (claimed : List (String × Nat)) (w : FollowUpWorld) : FollowUpWorld :=
  { w with
    followUps := w.followUps.update (fun f => (claimed.lookup f.id).isSome) (.execute claimed) (ScheduledFollowUp.execute_id claimed) }

/-- The row can be claimed by the transaction: it is open, and not claimed by this very transaction. -/
def claimable (id : String) (t : FollowUpTx) (w : FollowUpWorld) : Bool :=
  (w.followUps.find? id).any ScheduledFollowUp.isOpen && (t.claimed.lookup id).isNone

/-- `INSERT INTO scheduled_follow_ups`, with the constraints of the table. -/
def insertFollowUp (row : ScheduledFollowUp) (w : FollowUpWorld) : Except FollowUpErr FollowUpWorld :=
  if (w.orders.find? row.orderID).isNone then .error (.db (.foreignKeyViolation "scheduled_follow_ups_order_id_fkey"))
  else if (w.businesses.find? row.businessID).isNone then .error (.db (.foreignKeyViolation "scheduled_follow_ups_business_id_fkey"))
  else
    match w.followUps.insert row with
    | some followUps => .ok { w with followUps := followUps }
    | none => .error (.db (.uniqueViolation "scheduled_follow_ups_pkey"))

/-- `orchInsertOutboundRow`: the recipient is the conversation's. -/
def insertOutboundRow (row : OutboundMessage) (w : FollowUpWorld) : Except FollowUpErr FollowUpWorld :=
  if (w.businesses.find? row.businessID).isNone then .error (.db (.foreignKeyViolation "outbound_messages_business_id_fkey"))
  else
    match row.conversationID.bind w.conversations.find? with
    | none => .error (.db (.foreignKeyViolation "outbound_messages_conversation_id_fkey"))
    | some c =>
      match w.outboundMessages.insert { row with recipientPhone := c.customerPhone } with
      | some messages => .ok { w with outboundMessages := messages }
      | none => .error (.db (.uniqueViolation "outbound_messages_pkey"))

/-- What asynq does with the task when a run of it has ended. -/
def finishTask (run : FollowUpRun) (success : Bool) (w : FollowUpWorld) : FollowUpWorld :=
  if run ∈ w.running then
    { w with
      running := w.running.filter fun r => decide (r ≠ run)
      succeeded := if success then (run.followUp, w.clock) :: w.succeeded else w.succeeded
      queue :=
        match w.queue.slot (followUpTaskID run.followUp) with
        | .live payload retried =>
          if success then w.queue.complete (followUpTaskID run.followUp)
          else w.queue.fail followUpMaxRetry (followUpTaskID run.followUp) payload retried
        | _ => w.queue }
  else w

/-- `cancelOrder`; its event and its conversation are not read here. -/
def cancelOrder (orderID reason : String) (w : FollowUpWorld) : FollowUpWorld :=
  if (w.orders.find? orderID).any fun o => o.status.isOpen then
    { w with
      orders := NovoApex.setStatus (fun o => decide (o.id = orderID)) .cancelled w.clock w.orders
      cancellations := ⟨orderID, reason, w.clock⟩ :: w.cancellations }
  else w

/-- Execute one statement. -/
def followUpExec : followUpStore.Exec FollowUpWorld
  | .now, w => (.ok w.clock, w)
  | .tick later, w => (.ok (), { w with clock := w.clock + later })
  | .lookupOrder _ orderID, w => (lookupOrder orderID w, w)
  | .recordLatePayment customerID, w =>
    (.ok (), { w with
      profiles := w.profiles.update (fun p => decide (p.customerID = customerID))
        (fun p => { p with latePaymentCount := p.latePaymentCount + 1 }) fun _ => rfl })
  | .lookupConversation _ businessID customerPhone, w => (.ok (lookupConversation businessID customerPhone w), w)
  | .insertOutboundRow run payload row, w =>
    match insertOutboundRow row w with
    | .ok w' => (.ok (), { w' with reminders := ⟨run.followUp, payload, row.id, w.clock⟩ :: w.reminders })
    | .error e => (.error e, w)
  | .publishOutbound _ _, w => (.ok (), w)
  | .startTask run, w =>
    match w.queue.slot (followUpTaskID run.followUp) with
    | .live payload _ => (.ok payload, { w with running := run :: w.running })
    | _ => (.error (.db .noRows), w)
  | .finishTask run success, w => (.ok (), finishTask run success w)
  | .begin tx, w =>
    match w.transactions.insert ⟨tx, false, false, [], []⟩ with
    | some transactions => (.ok (), { w with transactions := transactions })
    | none => (.error .txClosed, w)
  | .lockScanner tx, w => withinTx tx w fun _ => (.ok (), setFollowUpTx tx .lock (fun _ => rfl) w)
  | .due tx now, w => withinTx tx w fun _ => (.ok (due now w), w)
  | .claim tx id now, w => withinTx tx w fun t =>
    if claimable id t w then (.ok true, setFollowUpTx tx (.claim id now) (fun _ => rfl) w) else (.ok false, w)
  | .enqueue tx id payload, w =>
    (.ok (), { setFollowUpTx tx (.enqueue id) (fun _ => rfl) w with queue := w.queue.enqueue (followUpTaskID id) payload })
  | .commit tx, w => withinTx tx w fun t => (.ok (), setFollowUpTx tx .finish (fun _ => rfl) (applyClaims t.claimed w))
  | .rollback tx, w => (.ok (), setFollowUpTx tx .finish (fun _ => rfl) w)
  | .cancelFollowUps orderID now, w =>
    (.ok (), { w with
      followUps := w.followUps.update (fun f => decide (f.orderID = orderID) && f.isOpen) (.cancel now) fun _ => rfl })
  | .existsFollowUp orderID, w => (.ok (w.followUps.rows.any fun f => decide (f.orderID = orderID)), w)
  | .insertPair d first second, w =>
    match insertFollowUp first w >>= insertFollowUp second with
    | .ok w' => (.ok (), { w' with halfway := d :: w'.halfway })
    | .error e => (.error e, w)
  | .insertThird d row, w =>
    match insertFollowUp row w with
    | .ok w' => (.ok (), { w' with halfway := w'.halfway.filter fun x => decide (x ≠ d) })
    | .error e => (.error e, w)
  | .insertDeliveryConfirmation row, w =>
    match insertFollowUp row w with
    | .ok w' => (.ok (), w')
    | .error e => (.error e, w)
  | .scheduled d, w => (.ok (), { w with scheduled := d.orderID :: w.scheduled })
  | .expiredOrders cutoff, w => (.ok (expiredOrders cutoff w), w)
  | .cancelOrder orderID reason, w => (.ok (), cancelOrder orderID reason w)
  | .insertOrder o, w =>
    if (w.customers.find? o.customerID).isNone then (.error (.db (.foreignKeyViolation "orders_customer_id_fkey")), w)
    else if (w.businesses.find? o.businessID).isNone then (.error (.db (.foreignKeyViolation "orders_business_id_fkey")), w)
    else
      match w.orders.insert o with
      | some orders => (.ok (), { w with orders := orders })
      | none => (.error (.db (.uniqueViolation "orders_pkey")), w)
  | .setStatus orderID status, w =>
    (.ok (), { w with orders := NovoApex.setStatus (fun o => decide (o.id = orderID)) status w.clock w.orders })
  | .setName customerID name, w =>
    (.ok (), { w with
      customers := w.customers.update (fun c => decide (c.id = customerID)) (fun c => { c with name := name }) fun _ => rfl })

/-- What an insert of a follow-up does. -/
theorem insertFollowUp_ok {row : ScheduledFollowUp} {w w' : FollowUpWorld} (h : insertFollowUp row w = .ok w') :
    ∃ followUps, w.followUps.insert row = some followUps ∧ (w.orders.find? row.orderID).isSome = true ∧
      (w.businesses.find? row.businessID).isSome = true ∧ w' = { w with followUps := followUps } := by
  unfold insertFollowUp at h
  split at h
  · cases h
  · rename_i order
    split at h
    · cases h
    · rename_i business
      split at h
      · rename_i followUps inserted
        rw [Bool.not_eq_true, Option.isNone_eq_false_iff] at order business
        exact ⟨followUps, inserted, order, business, (Except.ok.inj h).symm⟩
      · cases h

/-- An insert succeeds when the row is new and what it refers to is there. -/
theorem insertFollowUp_new {row : ScheduledFollowUp} {w : FollowUpWorld} (order : (w.orders.find? row.orderID).isSome = true)
    (business : (w.businesses.find? row.businessID).isSome = true) (new : row.id ∉ w.followUps.rows.map ScheduledFollowUp.id) :
    ∃ w', insertFollowUp row w = .ok w' := by
  unfold insertFollowUp
  rw [if_neg (by simpa [Option.isSome_iff_ne_none] using order), if_neg (by simpa [Option.isSome_iff_ne_none] using business)]
  cases inserted : w.followUps.insert row with
  | some followUps => exact ⟨_, rfl⟩
  | none =>
    obtain ⟨u, mem, same⟩ := Table.insert_eq_none.1 inserted
    exact (new (same ▸ List.mem_map_of_mem mem)).elim

/-- What an insert of an outbound row does. -/
theorem insertOutboundRow_ok {row : OutboundMessage} {w w' : FollowUpWorld} (h : insertOutboundRow row w = .ok w') :
    ∃ messages, w' = { w with outboundMessages := messages } := by
  unfold insertOutboundRow at h
  split at h
  · cases h
  · split at h
    · cases h
    · split at h
      · exact ⟨_, (Except.ok.inj h).symm⟩
      · cases h

/-- The pair goes in as a whole or not at all. -/
theorem insertPair_cases (d : ScheduleDelivery) (first second : ScheduledFollowUp) (w : FollowUpWorld) :
    (∃ e, followUpExec (.insertPair d first second) w = (.error e, w)) ∨
      ∃ mid last, insertFollowUp first w = .ok mid ∧ insertFollowUp second mid = .ok last ∧
        followUpExec (.insertPair d first second) w = (.ok (), { last with halfway := d :: last.halfway }) := by
  cases inserted : insertFollowUp first w with
  | error e => exact .inl ⟨e, by simp [followUpExec, inserted, Bind.bind, Except.bind]⟩
  | ok mid =>
    cases inserted' : insertFollowUp second mid with
    | error e => exact .inl ⟨e, by simp [followUpExec, inserted, inserted', Bind.bind, Except.bind]⟩
    | ok last => exact .inr ⟨mid, last, rfl, inserted', by simp [followUpExec, inserted, inserted', Bind.bind, Except.bind]⟩

/-- No open transaction other than `tx` has claimed a row that `p` selects. -/
def unclaimed (tx : Option String) (p : String → Bool) (w : FollowUpWorld) : Prop :=
  ∀ t ∈ w.transactions.rows, tx ≠ some t.id → t.ended = false → ∀ c ∈ t.claimed, p c.1 = false

instance (tx : Option String) (p : String → Bool) (w : FollowUpWorld) : Decidable (unclaimed tx p w) :=
  decidable_of_iff ((w.transactions.rows.all fun t => decide (tx = some t.id) || t.ended || t.claimed.all fun c => !p c.1) = true) (by
    unfold unclaimed
    simp only [List.all_eq_true, Bool.or_eq_true, decide_eq_true_eq, Bool.not_eq_true']
    refine forall₂_congr fun t _ => ?_
    cases t.ended <;> by_cases own : tx = some t.id <;> simp [own])

/-- When a statement proceeds: the scanner's lock is a singleton, a write waits for the claims on its rows, and asynq runs a
task once at a time. -/
def followUpProceeds (w : FollowUpWorld) : FollowUpStmt → Prop
  | .lockScanner tx => ∀ t ∈ w.transactions.rows, t.id = tx ∨ t.ended = true ∨ t.locked = false
  | .claim tx id _ => unclaimed (some tx) (fun x => decide (x = id)) w
  | .cancelFollowUps orderID _ =>
    unclaimed none (fun x => (w.followUps.find? x).any fun f => decide (f.orderID = orderID)) w
  | .startTask run => ∀ r ∈ w.running, r.followUp ≠ run.followUp
  | _ => True

instance (w : FollowUpWorld) : DecidablePred (followUpProceeds w) := fun op => by
  unfold followUpProceeds
  split <;> infer_instance

end Db

end NovoApex
