import NovoApex.Workers.CheckoutTx
import Mathlib.Data.List.Sort

/-!
# The statements of the order lifecycle workers

The SQL of `payment_events.go`, `checkout_expiry.go` and `restock.go` in
`internal/workers`. A statement outside a transaction commits on its own;
`cancelOrder` and the restock are transactions.
-/

namespace NovoApex.Workers
set_option autoImplicit false
open Lib

/-! ## Payment events -/

/-- The idempotency probe on `payments.external_reference`. -/
def paymentByReference (reference : String) (db : Database) : Option String :=
  (db.payments.rows.find? fun p => decide (p.externalReference = some reference)).map Payment.id

/-- What strategy A reads of an order. -/
structure ReferencedOrder where
  businessID : String
  customerID : String
  totalAmount : Money
  deriving DecidableEq

/-- Strategy A's lookup: the order whose id is the reference, joined with its customer. -/
def orderByReference (reference : String) (db : Database) : Option ReferencedOrder :=
  (db.orders.find? reference).bind fun o =>
    (db.customers.find? o.customerID).map fun _ => ⟨o.businessID, o.customerID, o.totalAmount⟩

/-- One row of strategy B's query; the order columns are NULL for a customer without open orders. -/
structure PhoneRow where
  customerID : String
  businessID : String
  order : Option (String × Money)
  deriving DecidableEq

/-- The lateral subquery: the five newest open orders of a customer. -/
def newestOpenOrders (db : Database) (customerID : String) : List Order :=
  ((db.orders.rows.filter fun o => decide (o.customerID = customerID) && o.status.isOpen).insertionSort
    fun a b => b.createdAt ≤ a.createdAt).take 5

/-- `LEFT JOIN LATERAL`: a row per open order, or one row of NULLs. -/
def phoneRowsOf (db : Database) (c : Customer) : List PhoneRow :=
  match newestOpenOrders db c.id with
  | [] => [⟨c.id, c.businessID, none⟩]
  | orders => orders.map fun o => ⟨c.id, c.businessID, some (o.id, o.totalAmount)⟩

/-- The customers strategy B looks at: those with the phone, of the event's business when it names one. -/
def phoneCustomers (phone businessID : String) (db : Database) : List Customer :=
  db.customers.rows.filter fun c =>
    decide (c.phone = phone) && (decide (businessID = "") || decide (c.businessID = businessID))

/-- Strategy B's query. -/
def phoneRows (phone businessID : String) (db : Database) : List PhoneRow :=
  (phoneCustomers phone businessID db).flatMap (phoneRowsOf db)

/-- `UPDATE orders SET status = 'PAID', updated_at = now WHERE id = orderID`. -/
def markOrderPaid (orderID : String) (now : Nat) (db : Database) : Database :=
  { db with orders := setStatus (fun o => decide (o.id = orderID)) .paid now db.orders }

/-- `SELECT COALESCE(conversation_id, '') FROM orders WHERE id = orderID`. -/
def conversationOfOrder (orderID : String) (db : Database) : Except Err (Option String) :=
  match db.orders.find? orderID with
  | some o => .ok o.conversationID
  | none => .error .noRows

/-- The rows `cancelOrder` may cancel: the order, while it is open. -/
def cancellable (orderID : String) (o : Order) : Bool := decide (o.id = orderID) && o.status.isOpen

/-- `TransitionTx` INVOICING → CANCELLED on the order's conversation; a rejection is ignored. -/
def cancelConversation (conversationID : Option String) (db : Database) : Database :=
  match conversationID with
  | some c => (Domain.transition c .invoicing .cancelled db).2
  | none => db

/-- The body of `cancelOrder`. -/
def cancelOrderTx (orderID reason : String) (now : Nat) : Tx Unit := fun db =>
  if db.orders.affected (cancellable orderID) = 0 then .ok ((), db) -- already paid / cancelled / missing
  else
    let db₁ := { db with orders := setStatus (cancellable orderID) .cancelled now db.orders }
    match conversationOfOrder orderID db₁ with
    | .error e => .error e
    | .ok conversationID =>
      (Events.insert (Events.orderCancelledEvent ⟨orderID, reason⟩) (cancelConversation conversationID db₁)).map
        fun r => ((), r.2)

/-- `UPDATE scheduled_follow_ups SET cancelled_at = now` for the order's follow-ups still due. -/
def cancelFollowUps (orderID : String) (now : Nat) (db : Database) : Database :=
  { db with
    scheduledFollowUps := db.scheduledFollowUps.update
      (fun f => decide (f.orderID = orderID) && f.executedAt.isNone && f.cancelledAt.isNone)
      (fun f => { f with cancelledAt := some now }) fun _ => rfl }

/-- `insertPayment`'s row, with the amount still a decimal. -/
structure PaymentInsert where
  id : String
  businessID : String
  customerID : Option String
  orderID : Option String
  reference : Option String
  amount : ℚ
  currency : String
  provider : String
  network : Option String
  status : PaymentStatus
  paidAt : Option Nat
  reconciledAt : Option Nat
  rawWebhookBody : Paystack.WebhookBody

/-- The stored row. -/
def PaymentInsert.row (p : PaymentInsert) (amount : Money) : Payment where
  id := p.id
  businessID := p.businessID
  customerID := p.customerID
  orderID := p.orderID
  externalReference := p.reference
  amount := amount
  currency := p.currency
  provider := p.provider
  network := p.network
  status := p.status
  paidAt := p.paidAt
  reconciledAt := p.reconciledAt
  rawWebhookPayload := p.rawWebhookBody

/-- `payments_external_reference_key` is taken; NULLs never collide. -/
def referenceTaken (db : Database) (reference : Option String) : Bool :=
  reference.isSome && db.payments.rows.any fun p => p.externalReference == reference

/-- `INSERT INTO payments`. -/
def insertPayment (p : PaymentInsert) : Tx Unit := fun db =>
  match Numeric.ofDecimal p.amount with
  | none => .error .outOfRange
  | some amount =>
    match db.payments.insert (p.row amount) with
    | none => .error (.uniqueViolation "payments_pkey")
    | some payments =>
      if referenceTaken db p.reference then .error (.uniqueViolation "payments_external_reference_key")
      else do
        referenced db.businesses "payments_business_id_fkey" (some p.businessID)
        referenced db.customers "payments_customer_id_fkey" p.customerID
        referenced db.orders "payments_order_id_fkey" p.orderID
        .ok ((), { db with payments := payments })

/-- `UPDATE customer_profiles SET preferred_payment_network = bank WHERE customer_id = customerID`. -/
def setPreferredPaymentNetwork (bank customerID : String) (db : Database) : Database :=
  { db with
    customerProfiles := db.customerProfiles.update (fun p => decide (p.customerID = customerID))
      (fun p => { p with preferredPaymentNetwork := some bank }) fun _ => rfl }

/-- The conversation of a phone: `conversations_business_id_customer_phone_key`. -/
def conversationByPhone (businessID phone : String) (db : Database) : Option String :=
  (db.conversations.rows.find? fun c => decide (c.businessID = businessID) && decide (c.customerPhone = phone)).map
    Conversation.id

/-- `INSERT INTO outbound_messages`. -/
def insertOutbound (m : OutboundMessage) (db : Database) : Except Err Unit × Database :=
  match db.outboundMessages.insert m with
  | some rows => (.ok (), { db with outboundMessages := rows })
  | none => (.error (.uniqueViolation "outbound_messages_pkey"), db)

/-! ## Checkout expiry -/

/-- The expired query: open orders whose final reminder fired at or before the cutoff, oldest first. -/
def expiredOrders (cutoff : Nat) (db : Database) : List String :=
  let due : Order → ScheduledFollowUp → Bool := fun o f =>
    decide (f.orderID = o.id) && decide (f.jobType = "unpaid-invoice-second") &&
      f.executedAt.any fun t => decide (t ≤ cutoff)
  let joined := (db.orders.rows.filter fun o => o.status.isOpen).flatMap fun o =>
    (db.scheduledFollowUps.rows.filter (due o)).map fun _ => o
  ((joined.insertionSort fun a b => a.createdAt ≤ b.createdAt).take 100).map Order.id

/-! ## Restock -/

/-- The quantity an order holds of a product, over all its lines. -/
def orderedQuantity (db : Database) (orderID productID : String) : Int :=
  ((db.orderItems.rows.filter fun i => decide (i.orderID = orderID) && decide (i.productID = productID)).map
    fun i => i.quantity.toInt).sum

/-- The product has a line in the order. -/
def inOrder (db : Database) (orderID : String) (p : Product) : Bool :=
  db.orderItems.rows.any fun i => decide (i.orderID = orderID) && decide (i.productID = p.id)

/-- The rows the restock may claim: the order, while it is not restocked. -/
def unrestored (orderID : String) (o : Order) : Bool := decide (o.id = orderID) && o.stockRestoredAt.isNone

/-- The body of `HandleRestock`'s transaction: claim the order, then give its lines back. -/
def restockTx (orderID : String) (now : Nat) : Tx Unit := fun db =>
  if db.orders.affected (unrestored orderID) = 0 then .error .stockAlreadyRestored
  else if db.products.rows.all fun p => !inOrder db orderID p || fitsInt32 (p.stock + orderedQuantity db orderID p.id) then
    .ok ((), { db with
      orders := db.orders.update (unrestored orderID) (fun o => { o with stockRestoredAt := some now }) fun _ => rfl
      products := db.products.update (inOrder db orderID)
        (fun p => { p with stock := p.stock + orderedQuantity db orderID p.id }) fun _ => rfl })
  else .error .outOfRange

end NovoApex.Workers
