import NovoApex.Integrations.Paystack
import NovoApex.Lib.Table

/-!
# The schema

`internal/db/migrations`, as far as the modelled statements read or write it.
Ids are the UUID texts the application generates; they are never empty, so the
empty string a Go variable holds for "no id" is `none` here. Timestamps are
milliseconds.
-/

namespace NovoApex
set_option autoImplicit false
open Lib

/-- `"ConversationState"`. -/
inductive ConversationState where
  | lead | browsing | checkout | invoicing | paid | cancelled | support | escalated
  deriving DecidableEq, Repr

/-- `"OrderStatus"`. -/
inductive OrderStatus where
  | pending | confirmed | paymentPending | paid | processing | shipped | delivered | cancelled
  deriving DecidableEq, Repr

/-- `"PaymentStatus"`. -/
inductive PaymentStatus where
  | pending | success | failed | refunded
  deriving DecidableEq, Repr

/-- `"FulfillmentType"`. -/
inductive FulfillmentType where
  | delivery | pickup
  deriving DecidableEq, Repr

/-- `"OrderIntentStatus"`. -/
inductive OrderIntentStatus where
  | awaitingConfirmation | confirmed | converted | expired | cancelled
  deriving DecidableEq, Repr

/-- The event types of the checkout pipeline. -/
inductive EventType where
  | orderCreated | orderCancelled
  deriving DecidableEq, Repr

structure Business where
  id : String
  currency : String
  paystackRecipientCode : Option String
  deriving DecidableEq

structure BusinessLocation where
  id : String
  businessID : String
  offersPickup : Bool
  isActive : Bool
  deriving DecidableEq

structure Customer where
  id : String
  businessID : String
  phone : String
  deriving DecidableEq

structure CustomerProfile where
  customerID : String
  preferredPaymentNetwork : Option String
  deriving DecidableEq

structure Conversation where
  id : String
  businessID : String
  customerPhone : String
  state : ConversationState
  isEscalatedToHuman : Bool
  deriving DecidableEq

/-- `stock` is an `INTEGER` column. -/
structure Product where
  id : String
  businessID : String
  name : String
  price : Money
  stock : Int
  isAvailable : Bool
  deriving DecidableEq

structure Order where
  id : String
  businessID : String
  customerID : String
  conversationID : Option String
  status : OrderStatus
  totalAmount : Money
  currency : String
  createdAt : Nat
  updatedAt : Nat
  /-- Source WhatsApp message id of the confirming turn; `orders_idempotency_key_key` is unique. -/
  idempotencyKey : Option String
  fulfillmentType : FulfillmentType
  locationID : Option String
  stockRestoredAt : Option Nat
  deriving DecidableEq

structure OrderItem where
  id : String
  orderID : String
  productID : String
  productName : String
  quantity : Int32
  unitPrice : Money
  deriving DecidableEq

structure OrderIntent where
  id : String
  conversationID : String
  status : OrderIntentStatus
  orderID : Option String
  expiresAt : Nat
  deriving DecidableEq

structure Payment where
  id : String
  businessID : String
  customerID : Option String
  orderID : Option String
  /-- `payments_external_reference_key` is unique. -/
  externalReference : Option String
  amount : Money
  currency : String
  provider : String
  network : Option String
  status : PaymentStatus
  paidAt : Option Nat
  reconciledAt : Option Nat
  rawWebhookPayload : Paystack.WebhookBody
  deriving DecidableEq

structure Payout where
  id : String
  businessID : String
  amount : Money
  currency : String
  status : PaymentStatus
  reference : Option String
  paystackTransferID : Option String
  deriving DecidableEq

structure ScheduledFollowUp where
  id : String
  orderID : String
  businessID : String
  customerID : String
  jobType : String
  scheduledAt : Nat
  executedAt : Option Nat
  cancelledAt : Option Nat
  deriving DecidableEq

structure OutboundMessage where
  id : String
  businessID : String
  conversationID : Option String
  recipientPhone : String
  messageType : String
  textContent : String
  status : String
  deriving DecidableEq

/-- The payload of `order.created`; `totalAmount` is the exact decimal its text denotes. -/
structure OrderCreated where
  orderID : String
  businessID : String
  customerID : String
  conversationID : String
  totalAmount : ℚ
  currency : String
  deriving DecidableEq

/-- The payload of `order.cancelled`. -/
structure OrderCancelled where
  orderID : String
  reason : String
  deriving DecidableEq

inductive EventPayload where
  | orderCreated (payload : OrderCreated)
  | orderCancelled (payload : OrderCancelled)
  deriving DecidableEq

/-- A `domain_events` row. The unique index on (aggregate_type, aggregate_id, event_type) is its identity. -/
structure DomainEvent where
  aggregateType : String
  aggregateID : String
  eventType : EventType
  payload : EventPayload
  deriving DecidableEq

/-- The emission backstop: at most one event of a type per aggregate, ever. -/
def DomainEvent.key (e : DomainEvent) : String × String × EventType := (e.aggregateType, e.aggregateID, e.eventType)

/-- The tables the orders pipeline shares. -/
structure Database where
  businesses : Table Business.id
  businessLocations : Table BusinessLocation.id
  customers : Table Customer.id
  customerProfiles : Table CustomerProfile.customerID
  conversations : Table Conversation.id
  products : Table Product.id
  orders : Table Order.id
  orderItems : Table OrderItem.id
  orderIntents : Table OrderIntent.id
  payments : Table Payment.id
  scheduledFollowUps : Table ScheduledFollowUp.id
  domainEvents : Table DomainEvent.key
  outboundMessages : Table OutboundMessage.id

/-- The statuses an order has while it waits for its payment. -/
def OrderStatus.isOpen : OrderStatus → Bool
  | .confirmed | .paymentPending => true
  | _ => false

/-- `UPDATE orders SET status = status, updated_at = now` for the orders selected. -/
def setStatus (sel : Order → Bool) (status : OrderStatus) (now : Nat) (orders : Table Order.id) : Table Order.id :=
  orders.update sel (fun o => { o with status := status, updatedAt := now }) fun _ => rfl

/-- A row after a status write is an old row, as it was or with the new status. -/
theorem mem_setStatus {sel : Order → Bool} {status : OrderStatus} {now : Nat} {orders : Table Order.id} {r : Order} :
    r ∈ (setStatus sel status now orders).rows ↔
      (r ∈ orders.rows ∧ sel r = false) ∨
        ∃ o ∈ orders.rows, sel o = true ∧ r = { o with status := status, updatedAt := now } := by
  unfold setStatus
  rw [Table.mem_update]
  constructor
  · rintro ⟨o, ho, rfl⟩
    rcases hs : sel o with _ | _
    · rw [Table.rewrite_of_neg hs]
      exact .inl ⟨ho, hs⟩
    · rw [Table.rewrite_of_pos hs]
      exact .inr ⟨o, ho, hs, rfl⟩
  · rintro (⟨hr, hs⟩ | ⟨o, ho, hs, rfl⟩)
    · exact ⟨r, hr, Table.rewrite_of_neg hs⟩
    · exact ⟨o, ho, Table.rewrite_of_pos hs⟩

/-- The errors statements and handlers end in. -/
inductive Err where
  /-- The connection, the statement or the commit failed; nothing was written. -/
  | transient
  /-- `pgx.ErrNoRows`. -/
  | noRows
  /-- SQLSTATE 23505, with the constraint it names. -/
  | uniqueViolation (constraint : String)
  /-- SQLSTATE 23503. -/
  | foreignKeyViolation (constraint : String)
  /-- SQLSTATE 22003: a value does not fit its column. -/
  | outOfRange
  /-- Scanning SQL NULL into a `decimal.Decimal`. -/
  | scanNull
  /-- A job payload that does not decode. -/
  | invalidPayload (message : String)
  | checkoutNotOrderable
  | checkoutInsufficientStock
  | stockAlreadyRestored
  deriving DecidableEq, Repr

/-- The body of a transaction: statements over the tables, the first error ends it. -/
abbrev Tx : Type → Type := StateT Database (Except Err)

/-- `pgx.BeginFunc`: commit on success, roll back on any error. -/
def beginFunc {α : Type} (body : Tx α) (db : Database) : Except Err α × Database :=
  match body db with
  | .ok (a, db') => (.ok a, db')
  | .error e => (.error e, db)

section Tx

variable {α β : Type}

theorem bind_eq_ok {x : Except Err α} {f : α → Except Err β} {b : β} :
    (x >>= f) = .ok b ↔ ∃ a, x = .ok a ∧ f a = .ok b := by
  cases x with
  | error e => exact ⟨fun h => (by cases h), fun ⟨_, h, _⟩ => (by cases h)⟩
  | ok a => exact ⟨fun h => ⟨a, rfl, h⟩, fun ⟨_, same, h⟩ => (by cases same; exact h)⟩

theorem bind_eq_error {x : Except Err α} {f : α → Except Err β} {e : Err} :
    (x >>= f) = .error e ↔ x = .error e ∨ ∃ a, x = .ok a ∧ f a = .error e := by
  cases x with
  | error e' =>
    show Except.error e' = .error e ↔ _
    simp
  | ok a =>
    show f a = .error e ↔ _
    simp

theorem Tx.bind_eq_ok {x : Tx α} {f : α → Tx β} {db db' : Database} {b : β} :
    (x >>= f) db = .ok (b, db') ↔ ∃ a mid, x db = .ok (a, mid) ∧ f a mid = .ok (b, db') := by
  show (x db >>= fun p => f p.1 p.2) = .ok (b, db') ↔ _
  rw [NovoApex.bind_eq_ok]
  exact ⟨fun ⟨p, first, rest⟩ => ⟨p.1, p.2, first, rest⟩, fun ⟨a, mid, first, rest⟩ => ⟨(a, mid), first, rest⟩⟩

theorem beginFunc_ok {body : Tx α} {db db' : Database} {a : α} (h : body db = .ok (a, db')) :
    beginFunc body db = (.ok a, db') := by
  simp only [beginFunc, h]

theorem beginFunc_error {body : Tx α} {db : Database} {e : Err} (h : body db = .error e) :
    beginFunc body db = (.error e, db) := by
  simp only [beginFunc, h]

/-- A transaction commits its body or leaves the tables alone. -/
theorem beginFunc_cases (body : Tx α) (db : Database) :
    (∃ a db', body db = .ok (a, db') ∧ beginFunc body db = (.ok a, db')) ∨
      ∃ e, body db = .error e ∧ beginFunc body db = (.error e, db) := by
  cases h : body db with
  | ok p => exact .inl ⟨p.1, p.2, rfl, beginFunc_ok h⟩
  | error e => exact .inr ⟨e, rfl, beginFunc_error h⟩

end Tx

end NovoApex
