import NovoApex.Domain.State
import NovoApex.Events.Events

/-!
# The checkout transaction

The transaction of `HandleCheckout` (`internal/workers/checkout.go`), statement by
statement: claim the conversation, insert the order, convert the intent, insert
the items, decrement the stock, emit `order.created`. The queries are those of
`internal/db/queries/workers.sql` and `order_intents.sql`.
-/

namespace NovoApex.Workers
set_option autoImplicit false
open Lib

/-- `crmText`: the empty string is NULL. -/
def crmText (s : String) : Option String := if s = "" then none else some s

/-- `checkoutResolvedItem`. -/
structure CheckoutResolvedItem where
  productID : String
  productName : String
  unitPrice : Money
  quantity : Int32
  deriving DecidableEq

/-- `checkoutStockEntry`. -/
structure CheckoutStockEntry where
  id : String
  qty : Int32
  deriving DecidableEq

/-- What `HandleCheckout` has fixed when it opens the transaction. -/
structure CheckoutTx where
  orderID : String
  itemID : Nat → String
  now : Nat
  businessID : String
  customerID : String
  conversationID : String
  sourceMessageID : String
  orderIntentID : Option String
  totalAmount : ℚ
  currency : String
  fulfillmentType : FulfillmentType
  locationID : Option String
  resolved : List CheckoutResolvedItem

/-! ## Reads before the transaction -/

/-- `crmValidShortID`: `^[0-9a-f]{8}$`. -/
def crmValidShortID (s : String) : Bool :=
  decide (s.toList.length = 8) && s.toList.all fun c => ('0' ≤ c && c ≤ '9') || ('a' ≤ c && c ≤ 'f')

/-- `id LIKE shortID || '%'`. A valid short id holds no wildcard, so the escaped pattern is a prefix test. -/
def likeShortID (id shortID : String) : Bool := shortID.toList.isPrefixOf id.toList

/-- `ResolveProductByShortID`; `LIMIT 1` takes the first match of the scan. -/
def resolveProductByShortID (businessID shortID : String) (db : Database) : Option Product :=
  db.products.rows.find? fun p => decide (p.businessID = businessID) && p.isAvailable && likeShortID p.id shortID

/-- `GetBusinessForOrder`: the tenant currency. -/
def getBusinessForOrder (businessID : String) (db : Database) : Option String :=
  (db.businesses.find? businessID).map Business.currency

/-- `ResolvePickupLocationByShortID`. -/
def resolvePickupLocationByShortID (businessID shortID : String) (db : Database) : Option String :=
  (db.businessLocations.rows.find? fun l =>
    decide (l.businessID = businessID) && l.offersPickup && l.isActive && likeShortID l.id shortID).map
    BusinessLocation.id

/-! ## The transaction -/

/-- The states an order may be placed from. -/
def orderableStates : List ConversationState := [.browsing, .checkout, .support, .lead]

/-- The CAS transition that claims the one-order-at-a-time slot. -/
def claimConversation (conversationID : String) : Tx Unit := fun db =>
  match Domain.transitionToTx conversationID orderableStates .invoicing db with
  | (true, db') => .ok ((), db')
  | (false, _) => .error .checkoutNotOrderable

/-- A row's reference to a table; NULL references nothing. -/
def referenced {R : Type} {key : R → String} (t : Table key) (constraint : String) : Option String → Except Err Unit
  | none => .ok ()
  | some id => if (t.find? id).isSome then .ok () else .error (.foreignKeyViolation constraint)

/-- The row `InsertOrder` writes, once its total is a column value. -/
def CheckoutTx.order (d : CheckoutTx) (total : Money) : Order where
  id := d.orderID
  businessID := d.businessID
  customerID := d.customerID
  conversationID := crmText d.conversationID
  status := .confirmed
  totalAmount := total
  currency := d.currency
  createdAt := d.now
  updatedAt := d.now
  idempotencyKey := crmText d.sourceMessageID
  fulfillmentType := d.fulfillmentType
  locationID := d.locationID
  stockRestoredAt := none

/-- `orders_idempotency_key_key` is taken by another row; NULLs never collide. -/
def idempotencyKeyTaken (db : Database) (key : Option String) : Bool :=
  key.isSome && db.orders.rows.any fun o => o.idempotencyKey == key

/-- `InsertOrder`. -/
def insertOrder (d : CheckoutTx) : Tx Unit := fun db =>
  match Numeric.ofDecimal d.totalAmount with
  | none => .error .outOfRange
  | some total =>
    let row := d.order total
    match db.orders.insert row with
    | none => .error (.uniqueViolation "orders_pkey")
    | some orders =>
      if idempotencyKeyTaken db row.idempotencyKey then .error (.uniqueViolation "orders_idempotency_key_key")
      else do
        referenced db.businesses "orders_business_id_fkey" (some row.businessID)
        referenced db.conversations "orders_conversation_id_fkey" row.conversationID
        referenced db.customers "orders_customer_id_fkey" (some row.customerID)
        referenced db.businessLocations "orders_location_id_fkey" row.locationID
        .ok ((), { db with orders := orders })

/-- The intent statuses `ConvertOrderIntent` converts. -/
def OrderIntent.convertible (i : OrderIntent) : Bool :=
  decide (i.status ∈ [OrderIntentStatus.awaitingConfirmation, .confirmed])

/-- `ConvertOrderIntent`, when the job names an intent. The affected-row count is not looked at. -/
def convertOrderIntent (intentID : Option String) (orderID : String) : Tx Unit := fun db =>
  match intentID.bind crmText with
  | none => .ok ((), db)
  | some id =>
    .ok ((), { db with
      orderIntents := db.orderIntents.update (fun i => decide (i.id = id) && OrderIntent.convertible i)
        (fun i => { i with status := .converted, orderID := crmText orderID }) fun _ => rfl })

/-- `checkoutOrderItemRow`: one ledger row per resolved item, duplicates kept. -/
def CheckoutTx.items (d : CheckoutTx) : List OrderItem :=
  d.resolved.mapIdx fun i item => {
    id := d.itemID i
    orderID := d.orderID
    productID := item.productID
    productName := item.productName
    quantity := item.quantity
    unitPrice := item.unitPrice }

/-- Insert rows one after the other; `none` when a key is taken. -/
def insertAll {R K : Type} [DecidableEq K] {key : R → K} (t : Table key) : List R → Option (Table key)
  | [] => some t
  | r :: rest => (t.insert r).bind fun t' => insertAll t' rest

/-- `InsertOrderItems`. -/
def insertOrderItems (items : List OrderItem) : Tx Unit := fun db =>
  match insertAll db.orderItems items with
  | none => .error (.uniqueViolation "order_items_pkey")
  | some rows =>
    if items.all fun i => (db.products.find? i.productID).isSome then .ok ((), { db with orderItems := rows })
    else .error (.foreignKeyViolation "order_items_product_id_fkey")

/-- One step of the aggregation loop over the resolved items. -/
def addQuantity (acc : List (String × Int)) (item : CheckoutResolvedItem) : List (String × Int) :=
  if item.productID ∈ acc.map Prod.fst then
    acc.map fun e => if e.1 = item.productID then (e.1, e.2 + item.quantity.toInt) else e
  else acc ++ [(item.productID, item.quantity.toInt)]

/-- `qtyByProduct`, in the order of first occurrence. -/
def qtyByProduct (resolved : List CheckoutResolvedItem) : List (String × Int) := resolved.foldl addQuantity []

/-- The entries of the conditional decrement. The sums are kept in 64 bits and cut to 32 here. -/
def stockEntries (resolved : List CheckoutResolvedItem) : List CheckoutStockEntry :=
  (qtyByProduct resolved).map fun e => ⟨e.1, Int32.ofInt e.2⟩

/-- The entry that matches a product: `p.id = v.id AND p.stock >= v.qty`. -/
def matchingEntry (entries : List CheckoutStockEntry) (p : Product) : Option CheckoutStockEntry :=
  entries.find? fun e => decide (e.id = p.id) && decide (e.qty.toInt ≤ p.stock)

/-- The values of an `INTEGER` column. -/
def fitsInt32 (n : Int) : Bool := decide (-2 ^ 31 ≤ n) && decide (n < 2 ^ 31)

/-- The row `DecrementStockIfAvailable` leaves of a product. -/
def decremented (entries : List CheckoutStockEntry) (p : Product) : Product :=
  match matchingEntry entries p with
  | some e => { p with stock := p.stock - e.qty.toInt }
  | none => p

theorem decremented_id (entries : List CheckoutStockEntry) (p : Product) : (decremented entries p).id = p.id := by
  unfold decremented
  split <;> rfl

/-- `DecrementStockIfAvailable` and the check that every entry found its stock. -/
def decrementStock (entries : List CheckoutStockEntry) : Tx Unit := fun db =>
  if db.products.rows.all fun p => (matchingEntry entries p).isNone || fitsInt32 (decremented entries p).stock then
    if db.products.affected (fun p => (matchingEntry entries p).isSome) = entries.length then
      .ok ((), { db with
        products := db.products.update (fun _ => true) (decremented entries) (decremented_id entries) })
    else .error .checkoutInsufficientStock
  else .error .outOfRange

/-- The `order.created` payload. -/
def CheckoutTx.created (d : CheckoutTx) : OrderCreated where
  orderID := d.orderID
  businessID := d.businessID
  customerID := d.customerID
  conversationID := d.conversationID
  totalAmount := d.totalAmount
  currency := d.currency

/-- The body of the order transaction. -/
def checkoutTx (d : CheckoutTx) : Tx Unit := do
  claimConversation d.conversationID
  insertOrder d
  convertOrderIntent d.orderIntentID d.orderID
  insertOrderItems d.items
  decrementStock (stockEntries d.resolved)
  let _ ← Events.insert (Events.orderCreatedEvent d.created)

end NovoApex.Workers
