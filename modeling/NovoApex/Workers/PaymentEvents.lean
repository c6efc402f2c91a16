import NovoApex.Db.Store

/-!
# HandlePaymentEvent

`internal/workers/payment_events.go`: a sequence of separately committed
statements. Strategy A matches the event's reference with an order id, strategy B
the payer's phone and the amount with an open order; a match is settled, then the
payment is recorded. Push notifications leave no trace in the database and are
left out.
-/

namespace NovoApex.Workers
set_option autoImplicit false
open Lib Program Paystack

/-- What one attempt at an event generates: its clock and the ids of the rows it writes. -/
structure Attempt where
  now : Nat
  paymentID : String
  outboundID : String

/-- `customerID`, `businessID` and `orderID` as the strategies leave them. -/
structure Attribution where
  customerID : Option String
  businessID : Option String
  orderID : Option String
  deriving DecidableEq

/-- Nothing matched. -/
def Attribution.none : Attribution := ⟨.none, .none, .none⟩

/-- `transitionOrderConversation`. -/
def transitionOrderConversation (orderID : String) (src dst : ConversationState) : Handler Unit := do
  let conversationID : Option String ← call (I := store) (.conversationOfOrder orderID)
  match conversationID with
  | none => pure ()
  | some c => ignore (call (I := store) (.transition c src dst))

/-- `settleReconciledOrder`: a failed event cancels, anything else that reconciled is treated as paid. -/
def settleReconciledOrder (status : EventStatus) (orderID : String) (now : Nat) : Handler Unit :=
  if status = .failed then call (I := store) (.cancelOrder orderID "payment_failed" now)
  else do
    let _ : Unit ← call (I := store) (.markOrderPaid orderID now)
    transitionOrderConversation orderID .invoicing .paid

/-- Strategy A: the order whose id is the reference, if its total is the amount. -/
def strategyA (evt : NormalisedPaymentEvent) (now : Nat) : Handler Attribution :=
  if evt.reference = "" then pure Attribution.none
  else do
    let order : Option ReferencedOrder ← call (I := store) (.orderByReference evt.reference)
    match order with
    | none => pure Attribution.none
    | some o =>
      if o.totalAmount.toDecimal = fromMinorUnits evt.amountMinor then do
        settleReconciledOrder evt.status evt.reference now
        pure ⟨some o.customerID, some o.businessID, some evt.reference⟩
      else pure Attribution.none

/-- A row of strategy B whose order has the amount. -/
structure Candidate where
  customerID : String
  businessID : String
  orderID : String
  deriving DecidableEq

/-- The accumulators of strategy B's scan: the customers seen and the candidates. -/
structure PhoneScan where
  customers : List (String × String)
  candidates : List Candidate

/-- One iteration of the scan. The total of a customer without open orders is NULL, which does not
scan into a decimal. -/
def scanPhoneRow (amount : ℚ) (acc : PhoneScan) (row : PhoneRow) : Except Err PhoneScan :=
  match row.order with
  | none => .error .scanNull
  | some (orderID, total) =>
    .ok {
      customers := if (row.customerID, row.businessID) ∈ acc.customers then acc.customers
        else acc.customers ++ [(row.customerID, row.businessID)]
      candidates := if total.toDecimal = amount then acc.candidates ++ [⟨row.customerID, row.businessID, orderID⟩]
        else acc.candidates }

/-- The scan of strategy B's rows. -/
def scanPhoneRows (amount : ℚ) (rows : List PhoneRow) : Except Err PhoneScan :=
  rows.foldlM (scanPhoneRow amount) ⟨[], []⟩

/-- What the scan decides. -/
inductive PhoneMatch where
  | order (candidate : Candidate)
  | customer (customerID businessID : String)
  | nothing
  deriving DecidableEq

/-- The switch after the scan: one candidate settles, several are ambiguous, and without one a
single customer is credited with an unmatched payment. -/
def phoneMatch (eventBusinessID : String) (scan : PhoneScan) : PhoneMatch :=
  match scan.candidates with
  | [c] => .order c
  | _ :: _ :: _ => .nothing
  | [] =>
    match scan.customers with
    | [(customerID, businessID)] => .customer customerID (if eventBusinessID ≠ "" then eventBusinessID else businessID)
    | _ => .nothing

/-- Strategy B: phone and amount, scoped to the event's business when it names one. -/
def strategyB (evt : NormalisedPaymentEvent) (now : Nat) : Handler Attribution := do
  let rows : List PhoneRow ← call (I := store) (.phoneRows (customerPhoneFromRaw evt.rawJSON) evt.businessID)
  match scanPhoneRows (fromMinorUnits evt.amountMinor) rows with
  | .error e => raise e
  | .ok scan =>
    match phoneMatch evt.businessID scan with
    | .order c => do
      settleReconciledOrder evt.status c.orderID now
      pure ⟨some c.customerID, some c.businessID, some c.orderID⟩
    | .customer customerID businessID => pure ⟨some customerID, some businessID, none⟩
    | .nothing => pure Attribution.none

/-- `paymentStatusFor`. -/
def paymentStatusFor : EventStatus → PaymentStatus
  | .success => .success
  | .failed => .failed
  | .pending => .pending

/-- The `paymentInsert` of an event. -/
def paymentInsertOf (evt : NormalisedPaymentEvent) (a : Attempt) (businessID : String) (m : Attribution) :
    PaymentInsert where
  id := a.paymentID
  businessID := businessID
  customerID := m.customerID
  orderID := m.orderID
  reference := crmText evt.reference
  amount := fromMinorUnits evt.amountMinor
  currency := evt.currency
  provider := evt.provider
  network := crmText evt.authorizationBank
  status := paymentStatusFor evt.status
  paidAt := evt.paidAt
  reconciledAt := m.orderID.map fun _ => a.now
  rawWebhookBody := evt.rawJSON

/-- The confirmation text. -/
def confirmationText (evt : NormalisedPaymentEvent) : String :=
  "✅ Payment of *" ++ evt.currency ++ " " ++ stringFixed2 evt.amountMinor.toInt ++
    "* received for your order. Thank you! 🎉\n\nYour order is now being processed."

/-- `sendPaymentConfirmation`: persist the message; a failed publish is left to the outbox sweep. -/
def sendPaymentConfirmation (evt : NormalisedPaymentEvent) (a : Attempt) (businessID customerID : String) :
    Handler Unit := do
  let phone : Option String ← call (I := store) (.customerPhone customerID)
  match phone with
  | none => pure ()
  | some phone => do
    let conversationID : Option String ← call (I := store) (.conversationByPhone businessID phone)
    match conversationID with
    | none => pure ()
    | some c => call (I := store) (.insertOutbound {
        id := a.outboundID
        businessID := businessID
        conversationID := some c
        recipientPhone := phone
        messageType := "text"
        textContent := confirmationText evt
        status := "pending" })

/-- The preferred-network write: best effort, its error is swallowed. -/
def recordNetwork (evt : NormalisedPaymentEvent) (m : Attribution) : Handler Unit :=
  match m.customerID with
  | some customerID =>
    if evt.status = .success ∧ evt.authorizationBank ≠ "" then
      ignore (attempt (call (I := store) (.setPreferredPaymentNetwork evt.authorizationBank customerID)))
    else pure ()
  | none => pure ()

/-- What follows a recorded payment: the network signal and the customer's confirmation. -/
def afterPayment (evt : NormalisedPaymentEvent) (a : Attempt) (businessID : String) (m : Attribution) :
    Handler Unit := do
  recordNetwork evt m
  match m.orderID, m.customerID with
  | some _, some customerID =>
    if evt.status = .success then sendPaymentConfirmation evt a businessID customerID else pure ()
  | _, _ => pure ()

/-- The payment insert: any unique violation means the event was recorded before. -/
def insertPaymentRow (evt : NormalisedPaymentEvent) (a : Attempt) (businessID : String) (m : Attribution) :
    Handler Unit := do
  let inserted ← attempt (call (I := store) (.insertPayment (paymentInsertOf evt a businessID m)))
  match inserted with
  | .ok _ => afterPayment evt a businessID m
  | .error (.uniqueViolation _) => pure ()
  | .error e => raise e

/-- Cancel the follow-ups of a reconciled order. -/
def cancelOrderFollowUps (orderID : Option String) (now : Nat) : Handler Unit :=
  match orderID with
  | some orderID => call (I := store) (.cancelFollowUps orderID now)
  | none => pure ()

/-- Steps 4 to 6: cancel the order's follow-ups, record the payment, confirm it. -/
def recordPayment (evt : NormalisedPaymentEvent) (a : Attempt) (m : Attribution) : Handler Unit :=
  match m.businessID with
  | none => pure () -- cannot determine the business
  | some businessID => do
    cancelOrderFollowUps m.orderID a.now
    insertPaymentRow evt a businessID m

/-- The two strategies: B runs when A matched nothing and the payer's phone is known. -/
def reconcile (evt : NormalisedPaymentEvent) (now : Nat) : Handler Attribution := do
  let m ← strategyA evt now
  if m.orderID.isNone && decide (customerPhoneFromRaw evt.rawJSON ≠ "") then strategyB evt now else pure m

/-- `HandlePaymentEvent`. -/
def handlePaymentEvent (evt : NormalisedPaymentEvent) (a : Attempt) : Handler Unit :=
  let process : Handler Unit := do
    let m ← reconcile evt a.now
    recordPayment evt a m
  if evt.reference = "" then process
  else do
    let existing : Option String ← call (I := store) (.paymentByReference evt.reference)
    match existing with
    | some _ => pure () -- duplicate payment event
    | none => process

end NovoApex.Workers
