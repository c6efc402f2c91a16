import NovoApex.Db.Store

/-!
# Vendor endpoints

`ordersFulfillment` and `ordersEscalate` (`internal/handlers/orders_write.go`),
`conversationTakeover` and `conversationRelease` (`conversations_write.go`), from
the decoded request on.
-/

namespace NovoApex.Handlers
set_option autoImplicit false
open Lib Program

/-- The answer of an endpoint: its status and, for a refusal, its message. -/
structure Response where
  status : Nat
  message : String
  deriving DecidableEq

/-- `ordersFulfillment`: a fresh transition into DELIVERED schedules the delivery confirmation. -/
def ordersFulfillment (businessID id : String) (status : OrderStatus) (followUpID : String) (now : Nat) :
    Handler Response := do
  let existing : Option Order ← call (I := store) (.getOrderByIDAndBusiness id businessID)
  match existing with
  | none => pure ⟨404, "Order not found"⟩
  | some existing => do
    let _ : Nat ← call (I := store) (.updateOrderFulfillment status id businessID now)
    if status = .delivered ∧ existing.status ≠ .delivered then do
      let _ : Unit ← call (I := store) (.insertScheduledFollowUp {
        id := followUpID
        orderID := id
        businessID := businessID
        customerID := existing.customerID
        jobType := "delivery-confirmation"
        scheduledAt := now + 2 * 60 * 60 * 1000
        executedAt := none
        cancelledAt := none })
      pure ⟨200, ""⟩
    else pure ⟨200, ""⟩

/-- `ordersEscalate`. -/
def ordersEscalate (businessID id : String) : Handler Response := do
  let order : Option Order ← call (I := store) (.getOrderByIDAndBusiness id businessID)
  match order with
  | none => pure ⟨404, "Order not found"⟩
  | some order =>
    match order.conversationID with
    | some c => do
      let _ : Nat ← call (I := store) (.escalateConversationByID c)
      pure ⟨201, "Associated conversation escalated to human"⟩
    | none => pure ⟨201, "Associated conversation escalated to human"⟩

/-- The answer of takeover and release, by the rows they affected. -/
def conversationAnswer (affected : Nat) : Response :=
  if affected = 0 then ⟨404, "Conversation not found"⟩ else ⟨201, ""⟩

/-- `conversationTakeover`. -/
def conversationTakeover (businessID id : String) : Handler Response := do
  let affected : Nat ← call (I := store) (.takeoverConversation id businessID)
  pure (conversationAnswer affected)

/-- `conversationRelease`. -/
def conversationRelease (businessID id : String) : Handler Response := do
  let affected : Nat ← call (I := store) (.releaseConversation id businessID)
  pure (conversationAnswer affected)

end NovoApex.Handlers
