import NovoApex.Db.FollowUps
import NovoApex.Workers.Lifecycle
import NovoApex.Lib.Crew

/-!
# Follow-ups

`HandleFollowUpSchedule` (`followup_schedule.go`) writes the follow-ups of an order,
`SweepFollowUps` (`followup.go`) claims those that are due and enqueues their tasks,
`HandleFollowUp` turns a task into an outbound message, and `SweepCheckoutExpiry`
(`checkout_expiry.go`) cancels the orders whose final reminder was claimed a day ago.
-/

namespace NovoApex.FollowUps
set_option autoImplicit false
open Lib Program Db Workers

/-- A worker of the follow-ups. -/
abbrev FollowUpHandler (α : Type) : Type := Program followUpStore α

/-! ## Scheduling -/

/-- The ids that one delivery generates. -/
structure FollowUpIDs where
  abandonedCart : String
  first : String
  second : String

/-- Hours, in milliseconds. -/
def hours (n : Nat) : Nat := n * 60 * 60 * 1000

/-- A row as it is inserted. -/
def followUpRow (evt : OrderCreated) (id jobType : String) (scheduledAt : Nat) : ScheduledFollowUp :=
  ⟨id, evt.orderID, evt.businessID, evt.customerID, jobType, scheduledAt, none, none⟩

/-- `HandleFollowUpSchedule`. -/
def handleFollowUpSchedule (d : ScheduleDelivery) (evt : OrderCreated) (ids : FollowUpIDs) : FollowUpHandler Unit := do
  let found : Bool ← call (I := followUpStore) (.existsFollowUp evt.orderID)
  if found then pure ()
  else do
    let now : Nat ← call (I := followUpStore) .now
    let _ : Unit ← mapErr (.context "follow-up schedule: schedule pair") (call (I := followUpStore) (.insertPair d
      (followUpRow evt ids.abandonedCart "abandoned-cart" (now + hours 2))
      (followUpRow evt ids.first "unpaid-invoice-first" (now + hours 24))))
    mapErr (.context "follow-up schedule: schedule second reminder") (call (I := followUpStore) (.insertThird d
      (followUpRow evt ids.second finalReminder (now + hours 48))))

/-- A delivery of the event, whose success is noted. -/
def deliverSchedule (d : ScheduleDelivery) (evt : OrderCreated) (ids : FollowUpIDs) : FollowUpHandler Unit := do
  handleFollowUpSchedule d evt ids
  call (I := followUpStore) (.scheduled d)

/-! ## The sweep -/

/-- The loop over the due rows: a row is claimed before its task is enqueued, and an enqueue that fails is logged. -/
def claimDue (tx : String) (publisher : Bool) (now : Nat) : List ScheduledFollowUp → FollowUpHandler Unit
  | [] => pure ()
  | d :: rest => do
    let claimed : Bool ← mapErr (.context "follow-up: claim row") (call (I := followUpStore) (.claim tx d.id now))
    if claimed && publisher then do
      ignore (attempt (call (I := followUpStore) (.enqueue tx d.id (payloadOf d))))
      claimDue tx publisher now rest
    else claimDue tx publisher now rest

/-- The body of the sweep's transaction. -/
def sweepDue (tx : String) (publisher : Bool) (now : Nat) : FollowUpHandler Unit := do
  let _ : Unit ← mapErr (.context "follow-up: advisory lock") (call (I := followUpStore) (.lockScanner tx))
  let rows : List ScheduledFollowUp ← mapErr (.context "follow-up: due query") (call (I := followUpStore) (.due tx now))
  claimDue tx publisher now rows
  mapErr (.context "follow-up: commit") (call (I := followUpStore) (.commit tx))

/-- `SweepFollowUps`: any error rolls the transaction back. -/
def sweepFollowUps (tx : String) (publisher : Bool) : FollowUpHandler Unit := do
  let now : Nat ← call (I := followUpStore) .now
  let _ : Unit ← mapErr (.context "follow-up: begin tx") (call (I := followUpStore) (.begin tx))
  let swept ← attempt (sweepDue tx publisher now)
  match swept with
  | .ok _ => pure ()
  | .error e => do
    ignore (attempt (call (I := followUpStore) (.rollback tx)))
    raise e

/-! ## The task of a row -/

/-- `symbolForCurrency`. -/
def symbolForCurrency (currency : String) : String :=
  if currency = "NGN" then "₦" else if currency = "USD" then "$" else "GH₵"

/-- What a follow-up has to say, if it is still relevant, and whether it is about a late payment. -/
def reminderText (jobType : String) (order : OrderLookup) : Option (String × Bool) :=
  let name := if order.customerName = "" then "there" else order.customerName
  let amount := symbolForCurrency order.currency ++ stringFixed2 order.totalAmount.units
  if jobType = "abandoned-cart" then
    if order.status = .confirmed then
      some ("Hi " ++ name ++ ", looks like you left some items in your cart. Let us know if you'd like to complete your order!", false)
    else none
  else if jobType = "unpaid-invoice-first" then
    if order.status.isOpen then
      some ("Hi " ++ name ++ ", just a friendly reminder about your recent order for " ++ amount ++
        ". Let us know if you need help with payment.", true)
    else none
  else if jobType = finalReminder then
    if order.status.isOpen then
      some ("Hi " ++ name ++ ", this is a final reminder for your order of " ++ amount ++
        ". Your order will be cancelled soon if payment is not received.", true)
    else none
  else if jobType = "delivery-confirmation" then
    if order.status = .delivered then
      some ("Hi " ++ name ++ ", your order has been marked as delivered. Did everything arrive safely?", false)
    else none
  else if jobType = "re-engagement" then
    some ("Hi " ++ name ++
      ", it's been a while since your last order! We miss you and wanted to share our latest catalog with you.", false)
  else none

/-- The outbound row of a reminder; the insert takes the recipient from the conversation. -/
def reminderRow (outboundID : String) (fp : FollowUpPayload) (conversationID text : String) : OutboundMessage :=
  ⟨outboundID, fp.businessID, some conversationID, "", "text", text, "pending"⟩

/-- From the conversation on: the row is written before it is published. -/
def sendReminder (run : FollowUpRun) (publisher : Bool) (outboundID : String) (fp : FollowUpPayload) (customerPhone text : String) :
    FollowUpHandler Unit := do
  let conversation : Option String ← mapErr (.context "follow-up: conversation lookup")
    (call (I := followUpStore) (.lookupConversation run fp.businessID customerPhone))
  match conversation with
  | none => pure ()
  | some conversationID => do
    let _ : Unit ← mapErr (fun e => .context "follow-up: persist outbound row" (.context "orchestrator: insert outbound row" e))
      (call (I := followUpStore) (.insertOutboundRow run fp (reminderRow outboundID fp conversationID text)))
    if publisher then mapErr (.context "follow-up: enqueue outbound") (call (I := followUpStore) (.publishOutbound run outboundID))
    else pure ()

/-- `HandleFollowUp`; a late-payment signal that fails is logged. -/
def handleFollowUp (run : FollowUpRun) (publisher : Bool) (outboundID : String) (fp : FollowUpPayload) : FollowUpHandler Unit := do
  let found : Option OrderLookup ← mapErr (.context "follow-up: order lookup") (call (I := followUpStore) (.lookupOrder run fp.orderID))
  match found with
  | none => pure ()
  | some order =>
    match reminderText fp.jobType order with
    | none => pure ()
    | some (text, late) => do
      if late then do
        ignore (attempt (call (I := followUpStore) (.recordLatePayment fp.customerID)))
        sendReminder run publisher outboundID fp order.customerPhone text
      else sendReminder run publisher outboundID fp order.customerPhone text

/-- `HandleFollowUp` as asynq runs it. -/
def followUpTask (run : FollowUpRun) (publisher : Bool) (outboundID : String) : FollowUpHandler Unit := do
  let fp : FollowUpPayload ← call (I := followUpStore) (.startTask run)
  let handled ← attempt (handleFollowUp run publisher outboundID fp)
  call (I := followUpStore) (.finishTask run handled.isOk)

/-- A run that the rate limiter turns away. -/
def limitedTask (run : FollowUpRun) : FollowUpHandler Unit := do
  let _ : FollowUpPayload ← call (I := followUpStore) (.startTask run)
  call (I := followUpStore) (.finishTask run false)

/-! ## Expiry -/

/-- Cancel the orders one after the other; a failed cancellation is logged and skipped. -/
def cancelExpiredOrders : List String → FollowUpHandler Unit
  | [] => pure ()
  | orderID :: rest => do
    ignore (attempt (call (I := followUpStore) (.cancelOrder orderID "checkout_expired")))
    cancelExpiredOrders rest

/-- `SweepCheckoutExpiry`. -/
def sweepExpiredOrders : FollowUpHandler Unit := do
  let now : Nat ← call (I := followUpStore) .now
  let orderIDs : List String ← call (I := followUpStore) (.expiredOrders (now - checkoutExpiryGrace))
  cancelExpiredOrders orderIDs

/-! ## Runs -/

/-- Who acts on the follow-ups. -/
inductive FollowUpName where
  | run (r : FollowUpRun)
  | sweep (tx : String)
  | delivery (d : ScheduleDelivery)
  | expiry (n : Nat)
  | other (n : Nat)
  deriving DecidableEq

/-- What others do: time passes, the server rolls back, payments cancel follow-ups, orders are placed, paid, delivered or
cancelled, and names become known. -/
def Outside : FollowUpStmt → Prop
  | .tick .. | .rollback .. | .cancelFollowUps .. | .insertOrder .. | .setStatus .. | .setName .. => True
  | .insertDeliveryConfirmation row => row.jobType = "delivery-confirmation"
  | .cancelOrder _ reason => reason ≠ "checkout_expired"
  | _ => False

/-- What a name may run. -/
inductive FollowUpJob : FollowUpName → FollowUpHandler Unit → Prop where
  | task (r publisher outboundID) : FollowUpJob (.run r) (followUpTask r publisher outboundID)
  | limited (r) : FollowUpJob (.run r) (limitedTask r)
  /-- Asynq takes back the task of a worker that is gone. -/
  | recover (r) : FollowUpJob (.run r) (call (I := followUpStore) (.finishTask r false))
  | sweep (tx publisher) : FollowUpJob (.sweep tx) (sweepFollowUps tx publisher)
  | schedule (d evt ids) (own : evt.orderID = d.orderID) : FollowUpJob (.delivery d) (deliverSchedule d evt ids)
  | expiry (n) : FollowUpJob (.expiry n) sweepExpiredOrders
  | other (n) (op : FollowUpStmt) (outside : Outside op) : FollowUpJob (.other n) (ignore (attempt (call (I := followUpStore) op)))

/-- The runs of the follow-ups: any statement may fail, lose its reply or be the last of its handler. -/
def followUpFlow : Roster followUpStore FollowUpName FollowUpWorld where
  exec := followUpExec
  job := FollowUpJob
  allow := followUpProceeds

instance (w : FollowUpWorld) (op : FollowUpStmt) : Decidable (followUpFlow.allow w op) := inferInstanceAs (Decidable (followUpProceeds w op))

instance (w : FollowUpWorld) (op : FollowUpStmt) : Decidable (followUpFlow.faults w op) := isTrue trivial

end NovoApex.FollowUps
