import NovoApex.Db.Store

/-!
# Expiry, restock and turn transitions

`SweepCheckoutExpiry`, `HandleRestock`, and the state transition an orchestrator
turn makes once the LLM has answered (`orchGenerateAndHandleLlmResponse`).
-/

namespace NovoApex.Workers
set_option autoImplicit false
open Lib Program

/-- `checkoutExpiryGrace`: 24 hours, in milliseconds. -/
def checkoutExpiryGrace : Nat := 24 * 60 * 60 * 1000

/-- Cancel the orders one after the other; a failed cancellation is logged and skipped. -/
def cancelExpired (now : Nat) : List String → Handler Unit
  | [] => pure ()
  | orderID :: rest => do
    let _ ← attempt (call (I := store) (.cancelOrder orderID "checkout_expired" now))
    cancelExpired now rest

/-- `SweepCheckoutExpiry`. -/
def sweepCheckoutExpiry (now : Nat) : Handler Unit := do
  let orderIDs : List String ← call (I := store) (.expiredOrders (now - checkoutExpiryGrace))
  cancelExpired now orderIDs

/-- `HandleRestock`: a redelivery for an order already restocked is not an error. -/
def handleRestock (evt : OrderCancelled) (now : Nat) : Handler Unit := do
  let outcome ← attempt (call (I := store) (.restock evt.orderID now))
  match outcome with
  | .ok _ => pure ()
  | .error .stockAlreadyRestored => pure ()
  | .error e => raise e

/-- The LLM's intents the state switch distinguishes. -/
inductive Intent where
  | checkoutRequest | productInquiry | imageMatch | supportFaq | complaint | other
  deriving DecidableEq, Repr

/-- The state switch of a turn that read `current`. -/
def turnTarget (intent : Intent) (current : ConversationState) : Option ConversationState :=
  match intent with
  | .checkoutRequest =>
    match current with
    | .lead | .browsing | .support => some .checkout
    | .paid | .cancelled => some .browsing
    | _ => none
  | .productInquiry | .imageMatch =>
    match current with
    | .lead | .support | .paid | .cancelled => some .browsing
    | _ => none
  | .supportFaq | .complaint =>
    match current with
    | .lead | .browsing | .checkout | .paid | .cancelled => some .support
    | _ => none
  | .other => none

/-- The transition of one turn, from the state it read when it began. -/
def turnTransition (conversationID : String) (current : ConversationState) (intent : Intent) : Handler Unit :=
  match turnTarget intent current with
  | some newState =>
    if newState ≠ current then ignore (call (I := store) (.transition conversationID current newState)) else pure ()
  | none => pure ()

end NovoApex.Workers
