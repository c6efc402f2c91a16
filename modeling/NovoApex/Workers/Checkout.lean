import NovoApex.Db.Store

/-!
# HandleCheckout

`internal/workers/checkout.go`: resolve the detected items, price them, pick the
currency and the fulfillment, then run the order transaction. Every non-fatal
rejection ends without an error so that the job does not retry.
-/

namespace NovoApex.Workers
set_option autoImplicit false
open Lib Program

/-- `DetectedItem`. -/
structure DetectedItem where
  productID : String
  quantity : Int32
  deriving DecidableEq

/-- `CheckoutJob`. -/
structure CheckoutJob where
  businessID : String
  customerID : String
  conversationID : String
  customerPhone : String
  sourceMessageID : String
  detectedItems : List DetectedItem
  fulfillmentChoice : Option String
  pickupLocationID : Option String
  orderIntentID : Option String

/-- What one delivery of a job generates: the ids of the rows it writes and its clock. -/
structure Delivery where
  orderID : String
  itemID : Nat → String
  now : Nat

/-- The ledger entry of a resolved item; quantity 0 stands for 1. -/
def resolvedItem (item : DetectedItem) (p : Product) : CheckoutResolvedItem where
  productID := p.id
  productName := p.name
  unitPrice := p.price
  quantity := if item.quantity = 0 then 1 else item.quantity

/-- `checkoutResolveProducts`: invalid or unknown short ids are dropped. -/
def checkoutResolveProducts (businessID : String) : List DetectedItem → Handler (List CheckoutResolvedItem)
  | [] => pure []
  | item :: rest =>
    if crmValidShortID item.productID then do
      let product : Option Product ← call (I := store) (.resolveProductByShortID businessID item.productID)
      let resolved ← checkoutResolveProducts businessID rest
      match product with
      | some p => pure (resolvedItem item p :: resolved)
      | none => pure resolved
    else checkoutResolveProducts businessID rest

/-- The order total, in exact decimal arithmetic. -/
def totalAmount (resolved : List CheckoutResolvedItem) : ℚ :=
  resolved.foldl (fun total item => total + item.unitPrice.toDecimal * item.quantity.toInt) 0

/-- The currency switch: a missing business falls back to GHS, an empty currency falls into the
default branch, which returns the nil error. -/
def orderCurrency : Option String → Option String
  | some currency => if currency ≠ "" then some currency else none
  | none => some "GHS"

/-- `checkoutResolveFulfillment`: an unresolvable pickup location still gives PICKUP. -/
def checkoutResolveFulfillment (job : CheckoutJob) : Handler (FulfillmentType × Option String) :=
  if job.fulfillmentChoice = some "pickup" then
    let shortID := job.pickupLocationID.getD ""
    if shortID = "" || !crmValidShortID shortID then pure (.pickup, none)
    else do
      let location : Option String ← call (I := store) (.resolvePickupLocationByShortID job.businessID shortID)
      pure (.pickup, location)
  else pure (.delivery, none)

/-- The transaction of a job, once its reads are done. -/
def CheckoutJob.tx (job : CheckoutJob) (d : Delivery) (resolved : List CheckoutResolvedItem) (currency : String)
    (fulfillment : FulfillmentType × Option String) : CheckoutTx where
  orderID := d.orderID
  itemID := d.itemID
  now := d.now
  businessID := job.businessID
  customerID := job.customerID
  conversationID := job.conversationID
  sourceMessageID := job.sourceMessageID
  orderIntentID := job.orderIntentID
  totalAmount := totalAmount resolved
  currency := currency
  fulfillmentType := fulfillment.1
  locationID := fulfillment.2
  resolved := resolved

/-- The transaction errors that are rejections: not orderable, duplicate key, short of stock. -/
def checkoutRejection : Err → Bool
  | .checkoutNotOrderable => true
  | .uniqueViolation constraint => decide (constraint = "orders_idempotency_key_key")
  | .checkoutInsufficientStock => true
  | _ => false

/-- `HandleCheckout`. -/
def handleCheckout (job : CheckoutJob) (d : Delivery) : Handler Unit :=
  if job.detectedItems.isEmpty then pure ()
  else do
    let resolved ← checkoutResolveProducts job.businessID job.detectedItems
    if resolved.isEmpty then pure ()
    else do
      let business : Option String ← call (I := store) (.getBusinessForOrder job.businessID)
      match orderCurrency business with
      | none => pure ()
      | some currency => do
        let fulfillment ← checkoutResolveFulfillment job
        let outcome ← attempt (call (I := store) (.checkoutTx (job.tx d resolved currency fulfillment)))
        match outcome with
        | .ok _ => pure ()
        | .error e => if checkoutRejection e then pure () else raise e

end NovoApex.Workers
