import NovoApex.Money

/-!
# Paystack webhook events

`internal/integrations/paystack/events.go`. A webhook body is taken as JSON
decodes it: an absent string field is empty, an absent amount or an unparseable
`paid_at` is `none`. A declared field of another type, such as `"metadata": 0`, is
an error of its own, which `ParseWebhookEvent` returns.
-/

namespace NovoApex.Paystack
set_option autoImplicit false
open Lib

/-- The `data` object of a webhook body. The phone is what `customerPhoneFromRaw` decodes on its own. -/
structure WebhookData where
  reference : String
  amount : Option ℚ
  currency : String
  paidAt : Option Nat
  customerEmail : String
  customerPhone : String
  authorizationBank : String
  businessID : String
  deriving DecidableEq

/-- The envelope Paystack signs. `mistyped` is what `json.Unmarshal` says of it when one of the fields that `webhookWire`
declares has another type; such a field stays empty. -/
structure WebhookBody where
  event : String
  data : Option WebhookData
  mistyped : Option String
  deriving DecidableEq

/-- The event outcome, normalised from the event name. -/
inductive EventStatus where
  | success | failed | pending
  deriving DecidableEq, Repr

structure NormalisedPaymentEvent where
  provider : String
  event : String
  reference : String
  amountMinor : Int64
  currency : String
  status : EventStatus
  paidAt : Option Nat
  businessID : String
  customerEmail : String
  authorizationBank : String
  rawJSON : WebhookBody
  deriving DecidableEq

/-- `ErrMissingDataField`. -/
def errMissingDataField : String := "Paystack webhook payload missing \"data\" field"

/-- The status switch of `ParseWebhookEvent`: the event name alone decides. -/
def statusOfEvent (event : String) : EventStatus :=
  if event = "charge.success" then .success
  else if event = "charge.failed" then .failed
  else .pending

/-- `ParseWebhookEvent`. Currency codes are ASCII, so upper-casing is `Char.toUpper`. -/
def parseWebhookEvent (body : WebhookBody) : Except String NormalisedPaymentEvent :=
  match body.mistyped, body.data with
  | some e, _ => .error ("paystack: decode webhook body: " ++ e)
  | none, none => .error errMissingDataField
  | none, some data =>
    let currency := data.currency.toUpper
    .ok {
      provider := "paystack"
      event := body.event
      reference := data.reference
      -- an absent amount stays 0; a fractional one is truncated
      amountMinor := (data.amount.map intPart).getD 0
      currency := if currency = "" then "GHS" else currency
      status := statusOfEvent body.event
      paidAt := data.paidAt
      businessID := data.businessID
      customerEmail := data.customerEmail
      authorizationBank := data.authorizationBank
      rawJSON := body }

/-- `customerPhoneFromRaw`: the payer's phone, which the normalised event does not carry. -/
def customerPhoneFromRaw (raw : WebhookBody) : String := (raw.data.map WebhookData.customerPhone).getD ""

theorem statusOfEvent_eq_success {event : String} : statusOfEvent event = .success ↔ event = "charge.success" := by
  unfold statusOfEvent
  split
  · simp_all
  · split <;> simp_all

end NovoApex.Paystack
