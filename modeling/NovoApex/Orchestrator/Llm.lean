import NovoApex.Lib.Json
import NovoApex.Workers.Orchestrator

/-!
# The model's output

`internal/orchestrator/llm.go` and `types.go`: what the LLM answers, the checks
`validateLlmOutput` makes of it, and `orchCheckoutJob`'s narrowing of the
quantities. The output is taken as the document its text spells; a text that
spells none comes with the scanner's message. A repeated name is decoded onto what
its first occurrence left.
-/

namespace NovoApex.Orchestrator
set_option autoImplicit false
open Lib

/-- `DetectedItem`: the quantity is a binary64. -/
structure DetectedItem where
  productID : String
  quantity : ℚ
  deriving DecidableEq

/-- `CrmSignals`. -/
structure CrmSignals where
  orderConfirmed : Bool
  detectedItems : List DetectedItem
  deliveryArea : Option String
  fulfillmentChoice : Option String
  pickupLocationID : Option String
  customerName : Option String
  detectedPreferences : List String
  wantsUpdates : Option Bool
  sentiment : String
  deriving DecidableEq

/-- `LlmResponse`. -/
structure LlmResponse where
  replyText : String
  internalConfidence : ℚ
  intent : String
  customerRequestedImages : Bool
  sendProductImageIDs : List String
  referencedProductIDs : List String
  crmSignals : CrmSignals
  deriving DecidableEq

/-- The zero value. -/
def LlmResponse.zero : LlmResponse := ⟨"", 0, "", false, [], [], ⟨false, [], none, none, none, none, [], none, ""⟩⟩

/-! ## Decoding -/

def decodeItem : Decoder DetectedItem :=
  decodeStruct ⟨"CrmSignals", "crm_signals.detected_items", "orchestrator.DetectedItem"⟩ [
    ("product_id", fun j item =>
      (decodeString ⟨"DetectedItem", "crm_signals.detected_items.product_id", "string"⟩ j item.productID).map
        fun v => { item with productID := v }),
    ("quantity", fun j item =>
      (decodeFloat64 ⟨"DetectedItem", "crm_signals.detected_items.quantity", "float64"⟩ j item.quantity).map
        fun v => { item with quantity := v })]

/-- The place of a field of `CrmSignals`. -/
def crmPlace (field type : String) : Place := ⟨"CrmSignals", "crm_signals." ++ field, type⟩

/-- CRM signals that are being decoded, and what their slices keep. -/
structure CrmDecoding where
  signals : CrmSignals
  keptItems : List DetectedItem
  keptPreferences : List String

def decodeCrmSignals : Decoder CrmDecoding :=
  decodeStruct ⟨"LlmResponse", "crm_signals", "orchestrator.CrmSignals"⟩ [
    ("order_confirmed", fun j crm =>
      (decodeBool (crmPlace "order_confirmed" "bool") j crm.signals.orderConfirmed).map
        fun v => { crm with signals.orderConfirmed := v }),
    ("detected_items", fun j crm =>
      (decodeSlice (crmPlace "detected_items" "[]orchestrator.DetectedItem") ⟨"", 0⟩ decodeItem j
        ⟨crm.signals.detectedItems, crm.keptItems⟩).map fun v => { crm with signals.detectedItems := v.items, keptItems := v.kept }),
    ("delivery_area", fun j crm =>
      (decodePointer "" (decodeString (crmPlace "delivery_area" "string")) j crm.signals.deliveryArea).map
        fun v => { crm with signals.deliveryArea := v }),
    ("fulfillment_choice", fun j crm =>
      (decodePointer "" (decodeString (crmPlace "fulfillment_choice" "string")) j crm.signals.fulfillmentChoice).map
        fun v => { crm with signals.fulfillmentChoice := v }),
    ("pickup_location_id", fun j crm =>
      (decodePointer "" (decodeString (crmPlace "pickup_location_id" "string")) j crm.signals.pickupLocationID).map
        fun v => { crm with signals.pickupLocationID := v }),
    ("customer_name", fun j crm =>
      (decodePointer "" (decodeString (crmPlace "customer_name" "string")) j crm.signals.customerName).map
        fun v => { crm with signals.customerName := v }),
    ("detected_preferences", fun j crm =>
      (decodeSlice (crmPlace "detected_preferences" "[]string") "" (decodeString (crmPlace "detected_preferences" "string")) j
        ⟨crm.signals.detectedPreferences, crm.keptPreferences⟩).map
          fun v => { crm with signals.detectedPreferences := v.items, keptPreferences := v.kept }),
    ("wants_updates", fun j crm =>
      (decodePointer false (decodeBool (crmPlace "wants_updates" "bool")) j crm.signals.wantsUpdates).map
        fun v => { crm with signals.wantsUpdates := v }),
    ("sentiment", fun j crm =>
      (decodeString (crmPlace "sentiment" "string") j crm.signals.sentiment).map fun v => { crm with signals.sentiment := v })]

/-- A response that is being decoded, and what its slices keep. -/
structure LlmDecoding where
  resp : LlmResponse
  keptImageIDs : List String
  keptReferencedIDs : List String
  keptItems : List DetectedItem
  keptPreferences : List String

/-- `json.Unmarshal` into an `LlmResponse`. -/
def decodeLlmResponse : Decoder LlmDecoding :=
  decodeStruct ⟨"", "", "orchestrator.LlmResponse"⟩ [
    ("reply_text", fun j d =>
      (decodeString ⟨"LlmResponse", "reply_text", "string"⟩ j d.resp.replyText).map fun v => { d with resp.replyText := v }),
    ("internal_confidence", fun j d =>
      (decodeFloat64 ⟨"LlmResponse", "internal_confidence", "float64"⟩ j d.resp.internalConfidence).map
        fun v => { d with resp.internalConfidence := v }),
    ("intent", fun j d =>
      (decodeString ⟨"LlmResponse", "intent", "string"⟩ j d.resp.intent).map fun v => { d with resp.intent := v }),
    ("customer_requested_images", fun j d =>
      (decodeBool ⟨"LlmResponse", "customer_requested_images", "bool"⟩ j d.resp.customerRequestedImages).map
        fun v => { d with resp.customerRequestedImages := v }),
    ("send_product_image_ids", fun j d =>
      (decodeSlice ⟨"LlmResponse", "send_product_image_ids", "[]string"⟩ ""
        (decodeString ⟨"LlmResponse", "send_product_image_ids", "string"⟩) j ⟨d.resp.sendProductImageIDs, d.keptImageIDs⟩).map
          fun v => { d with resp.sendProductImageIDs := v.items, keptImageIDs := v.kept }),
    ("referenced_product_ids", fun j d =>
      (decodeSlice ⟨"LlmResponse", "referenced_product_ids", "[]string"⟩ ""
        (decodeString ⟨"LlmResponse", "referenced_product_ids", "string"⟩) j ⟨d.resp.referencedProductIDs, d.keptReferencedIDs⟩).map
          fun v => { d with resp.referencedProductIDs := v.items, keptReferencedIDs := v.kept }),
    ("crm_signals", fun j d =>
      (decodeCrmSignals j ⟨d.resp.crmSignals, d.keptItems, d.keptPreferences⟩).map
        fun v => { d with resp.crmSignals := v.signals, keptItems := v.keptItems, keptPreferences := v.keptPreferences })]

/-! ## Validation -/

/-- The fields the schema requires. -/
def requiredFields : List String :=
  ["reply_text", "internal_confidence", "intent", "customer_requested_images", "send_product_image_ids",
    "referenced_product_ids", "crm_signals"]

/-- The fields it requires of the CRM signals. -/
def requiredCrmFields : List String :=
  ["order_confirmed", "detected_items", "delivery_area", "customer_name", "detected_preferences", "sentiment"]

def intents : List String :=
  ["product_inquiry", "greeting", "support_faq", "checkout_request", "complaint", "image_match", "unknown"]

def sentiments : List String := ["positive", "neutral", "negative"]

/-- `check`: an issue unless the condition holds. -/
def check (ok : Bool) (issue : String) : List String := if ok then [] else [issue]

/-- The members of a document read into a map; `null` gives the nil map. -/
def rawMap : Json → Option (List (String × Json))
  | .object members => some members
  | .null => some []
  | _ => none

/-- A required field is there and not null. -/
def checkField (top : List (String × Json)) (key : String) : List String :=
  check (Json.member? key top).isSome ("missing required field " ++ key) ++
    check ((Json.member? key top).any fun v => !v.isNull) (key ++ " must not be null")

/-- The CRM signals as a map, and the issues of reading them. -/
def rawCrm (top : List (String × Json)) : Option (List (String × Json)) × List String :=
  match Json.member? "crm_signals" top with
  | some (.object members) => (some members, [])
  | some .null => (none, ["missing required field crm_signals"])
  | some _ => (none, ["crm_signals is not a JSON object"])
  | none => (none, ["missing required field crm_signals"])

/-- `validateLlmOutput`. `number` and `quote` are how an issue prints a number (`%v`) and a text (`%q`). -/
def validateLlmOutput (number : ℚ → String) (quote : String → String) (raw : Except String Json) : Except (List String) LlmResponse :=
  match raw.bind fun doc => (decodeLlmResponse doc ⟨LlmResponse.zero, [], [], [], []⟩).map fun d => (doc, d.resp) with
  | .error message => .error ["output is not valid JSON matching the schema types: " ++ message]
  | .ok (doc, resp) =>
    match rawMap doc with
    | none => .error ["output is not valid JSON matching the schema shape: json: cannot unmarshal " ++ doc.kind ++
        " into Go value of type map[string]json.RawMessage"]
    | some top =>
      let crm := rawCrm top
      let issues := requiredFields.flatMap (checkField top) ++ crm.2 ++
        (match crm.1 with
          | some members => requiredCrmFields.flatMap fun key =>
              check (Json.member? key members).isSome ("missing required field crm_signals." ++ key)
          | none => []) ++
        check (decide (resp.intent ∈ intents)) ("intent " ++ quote resp.intent ++ " is not one of the allowed enum values") ++
        check (decide (0 ≤ resp.internalConfidence) && decide (resp.internalConfidence ≤ 1))
          ("internal_confidence " ++ number resp.internalConfidence ++ " is outside the range [0,1]") ++
        check (decide (resp.sendProductImageIDs.length ≤ 5))
          ("send_product_image_ids has " ++ toString resp.sendProductImageIDs.length ++ " items, maximum is 5") ++
        (match crm.1 with
          | some _ => check (decide (resp.crmSignals.sentiment ∈ sentiments))
              ("crm_signals.sentiment " ++ quote resp.crmSignals.sentiment ++ " is not one of the allowed enum values")
          | none => [])
      if issues.isEmpty then .ok resp else .error issues

/-! ## The response within a turn -/

/-- The intents a turn distinguishes. -/
def intentOf : String → Workers.Intent
  | "checkout_request" => .checkoutRequest
  | "product_inquiry" => .productInquiry
  | "image_match" => .imageMatch
  | "support_faq" => .supportFaq
  | "complaint" => .complaint
  | _ => .other

/-- The response as a turn works with it. `int32` is the conversion of a binary64: towards zero where that fits, and whatever the
platform makes of it where it does not. -/
def LlmResponse.narrowed (int32 : ℚ → Int32) (resp : LlmResponse) : Turns.LlmResponse where
  replyText := resp.replyText
  internalConfidence := resp.internalConfidence
  intent := intentOf resp.intent
  customerRequestedImages := resp.customerRequestedImages
  sendProductImageIDs := resp.sendProductImageIDs
  orderConfirmed := resp.crmSignals.orderConfirmed
  detectedItems := resp.crmSignals.detectedItems.map fun it => ⟨it.productID, int32 it.quantity⟩
  fulfillmentChoice := resp.crmSignals.fulfillmentChoice
  pickupLocationID := resp.crmSignals.pickupLocationID

end NovoApex.Orchestrator
