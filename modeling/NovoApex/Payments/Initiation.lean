import NovoApex.Payments.Amounts

/-!
# HandlePaymentInit

`internal/workers/payment_init.go`: the `order.created` consumer that asks the provider
for a checkout link, stores it in `orders.payment_url` and writes the invoice row. The
columns that only this handler uses stand beside the tables, and so does the provider,
whose answers are a parameter.

Each statement carries the delivery that issues it. Two parts of the state are history
that no statement reads: the links the provider gave out, and the delivery whose update
stored the link of an order.
-/

namespace NovoApex.Payments
set_option autoImplicit false
open Lib Program Workers

/-- `PaymentRequest`, in major units. -/
structure PaymentRequest where
  amount : Decimal
  currency : String
  customerPhone : String
  reference : String
  callbackURL : String
  businessID : String
  deriving DecidableEq

/-- `PaymentLink`. -/
structure PaymentLink where
  providerReference : String
  paymentURL : String
  status : String
  deriving DecidableEq

/-- The row of the customer and its business. -/
structure Payer where
  phone : String
  callbackURL : String
  waPhoneNumberID : String
  deriving DecidableEq

/-- One delivery of an `order.created` task, with the id it draws for its invoice row. -/
structure InitDelivery where
  evt : Events.OrderCreatedPayload
  outboundID : String
  deriving DecidableEq

/-- The tables, the columns only payment initiation uses, and the history. -/
structure InitWorld where
  db : Database
  /-- `orders.payment_url`, by order. -/
  paymentURL : String → Option String
  /-- `businesses.payment_callback_url`. -/
  callbackURL : String → Option String
  /-- `businesses.whatsapp_phone_number_id`. -/
  waPhoneNumberID : String → String
  /-- The references the provider answered, with its links. -/
  links : List (String × PaymentLink)
  /-- The delivery whose update stored the link of an order. -/
  claimed : String → Option InitDelivery

/-- The statements of the handler, and its calls of the provider and of the queue. -/
inductive InitStmt where
  | paymentURL (orderID : String)
  | payer (customerID : String)
  | initiatePayment (req : PaymentRequest)
  | setPaymentURL (orderID url : String)
  | insertInvoice (m : OutboundMessage)
  | publishOutbound (outboundID : String)

/-- What a statement answers; `none` is `pgx.ErrNoRows`. -/
@[reducible] def InitStmt.Reply : InitStmt → Type
  | paymentURL .. => Option String
  | payer .. => Option Payer
  | initiatePayment .. => PaymentLink
  | setPaymentURL .. => Nat
  | insertInvoice .. => Unit
  | publishOutbound .. => Unit

/-- The errors of the handler. -/
inductive InitErr where
  | db (e : Err)
  /-- `payment-init: parse total`. -/
  | parseTotal (text : String)
  /-- `payment-init: no payment link returned`. -/
  | noPaymentLink
  /-- `payment-init: persist invoice outbound`. -/
  | persistInvoice (e : InitErr)
  deriving DecidableEq

/-- The interface of the handler. -/
abbrev initStore : Interface := ⟨InitStmt, InitStmt.Reply, InitErr, .db .transient⟩

/-! ## The statements -/

/-- `SELECT COALESCE(payment_url, '') FROM orders WHERE id = …`. -/
def paymentURLOf (orderID : String) (w : InitWorld) : Option String :=
  (w.db.orders.find? orderID).map fun _ => (w.paymentURL orderID).getD ""

/-- The customer joined with its business. -/
def payerOf (customerID : String) (w : InitWorld) : Option Payer :=
  (w.db.customers.find? customerID).bind fun c =>
    (w.db.businesses.find? c.businessID).map fun b => ⟨c.phone, (w.callbackURL b.id).getD "", w.waPhoneNumberID b.id⟩

/-- `UPDATE orders SET payment_url = … WHERE id = … AND payment_url IS NULL` finds its row. -/
def claims (orderID : String) (w : InitWorld) : Bool := (w.db.orders.find? orderID).isSome && (w.paymentURL orderID).isNone

/-- What the update leaves. -/
def setPaymentURL (by_ : InitDelivery) (orderID url : String) (w : InitWorld) : InitWorld :=
  { w with
    paymentURL := Function.update w.paymentURL orderID (some url)
    claimed := Function.update w.claimed orderID (some by_) }

/-- `INSERT INTO outbound_messages`, with the constraints of the table. -/
def insertInvoice (m : OutboundMessage) (w : InitWorld) : Except Err InitWorld :=
  match w.db.outboundMessages.insert m with
  | none => .error (.uniqueViolation "outbound_messages_pkey")
  | some rows => do
    referenced w.db.businesses "outbound_messages_business_id_fkey" (some m.businessID)
    referenced w.db.conversations "outbound_messages_conversation_id_fkey" m.conversationID
    .ok { w with db := { w.db with outboundMessages := rows } }

/-- What the provider answers, given its answers so far. -/
abbrev Provider : Type := List (String × PaymentLink) → PaymentRequest → PaymentLink

/-- Execute one statement. -/
def initExec (provider : Provider) : (initStore.signed InitDelivery).Exec InitWorld
  | (_, .paymentURL orderID), w => (.ok (paymentURLOf orderID w), w)
  | (_, .payer customerID), w => (.ok (payerOf customerID w), w)
  | (_, .initiatePayment req), w =>
    (.ok (provider w.links req), { w with links := w.links ++ [(req.reference, provider w.links req)] })
  | (d, .setPaymentURL orderID url), w => if claims orderID w then (.ok 1, setPaymentURL d orderID url w) else (.ok 0, w)
  | (_, .insertInvoice m), w =>
    match insertInvoice m w with
    | .ok w' => (.ok (), w')
    | .error e => (.error (.db e), w)
  | (_, .publishOutbound _), w => (.ok (), w)

/-! ## The handler -/

/-- `GetCurrencyConfig(currency).PaymentMethods`; an unknown currency falls back to GHS. -/
def paymentMethods (currency : String) : String :=
  if currency = "NGN" then "card, bank transfer, or USSD"
  else if currency = "USD" then "card"
  else "Mobile Money, card, or bank transfer"

/-- The invoice, down to the link. -/
def invoiceText (evt : Events.OrderCreatedPayload) (total : Decimal) : String :=
  "Thank you for confirming your order!\n\nYour total is *" ++ evt.currency ++ " " ++ stringFixed2 (roundHalfAway (total.toRat * 100)) ++
    "*.\n\nTap the link below to pay securely with " ++ paymentMethods evt.currency ++ ":\n"

/-- The row of the invoice. -/
def invoiceRow (evt : Events.OrderCreatedPayload) (outboundID phone : String) (total : Decimal) (paymentURL : String) : OutboundMessage where
  id := outboundID
  businessID := evt.businessID
  conversationID := crmText evt.conversationID
  recipientPhone := phone
  messageType := "text"
  textContent := invoiceText evt total ++ paymentURL
  status := "pending"

/-- `enqueuePaymentInvoice`. -/
def enqueuePaymentInvoice (evt : Events.OrderCreatedPayload) (outboundID phone : String) (total : Decimal) (paymentURL : String) :
    Program initStore Unit := do
  let _ : Unit ← mapErr InitErr.persistInvoice (call (I := initStore) (.insertInvoice (invoiceRow evt outboundID phone total paymentURL)))
  call (I := initStore) (.publishOutbound outboundID)

/-- The request for a link. -/
def requestFor (evt : Events.OrderCreatedPayload) (payer : Payer) (total : Decimal) : PaymentRequest where
  amount := total
  currency := evt.currency
  customerPhone := payer.phone
  reference := evt.orderID
  callbackURL := if payer.callbackURL = "" then "https://novoapex.com/success" else payer.callbackURL
  businessID := evt.businessID

/-- From the link on: store it, first write wins, and send the invoice. -/
def persistLink (evt : Events.OrderCreatedPayload) (outboundID : String) (payer : Payer) (total : Decimal) (link : PaymentLink) :
    Program initStore Unit :=
  if link.status ≠ "initiated" ∨ link.paymentURL = "" then raise InitErr.noPaymentLink
  else do
    let affected : Nat ← call (I := initStore) (.setPaymentURL evt.orderID link.paymentURL)
    -- another delivery has won the race
    if affected = 0 then pure ()
    else if payer.phone = "" ∨ payer.waPhoneNumberID = "" then pure ()
    else enqueuePaymentInvoice evt outboundID payer.phone total link.paymentURL

/-- `HandlePaymentInit`. -/
def handlePaymentInit (evt : Events.OrderCreatedPayload) (outboundID : String) : Program initStore Unit := do
  let existing : Option String ← call (I := initStore) (.paymentURL evt.orderID)
  match existing with
  | none => pure ()
  | some existing =>
    -- a link was already generated for this order
    if existing ≠ "" then pure ()
    else do
      let payer : Option Payer ← call (I := initStore) (.payer evt.customerID)
      match payer with
      | none => pure ()
      | some payer =>
        match Decimal.newFromString evt.totalAmount with
        | none => raise (InitErr.parseTotal evt.totalAmount)
        | some total => do
          let link : PaymentLink ← call (I := initStore) (.initiatePayment (requestFor evt payer total))
          persistLink evt outboundID payer total link

end NovoApex.Payments
