import NovoApex.Lib.JsonSchema
import NovoApex.Orchestrator.Llm

/-!
# The schema of the output

`internal/orchestrator/schema.go`: `LLMSchemaJSON` is what the LLM is told to answer.
`validateLlmOutput` decodes the answer and checks keys by lists of its own. The decoder
takes a name in any case and as often as it comes, the lists and the schema only by its
very spelling. `Passes` is what the output is let pass on, and
`validateLlmOutput_agrees_iff` tells where that and the schema part.
-/

namespace NovoApex.Orchestrator
set_option autoImplicit false
open Lib Schema

/-! ## Schemas -/

/-- An element of `detected_items`. -/
def detectedItemSchema : Schema := object [("product_id", string), ("quantity", number fun _ => true)] []

/-- `CrmSignalsSchema`. -/
def crmSignalsSchema : Schema :=
  object [("order_confirmed", boolean), ("detected_items", array detectedItemSchema none), ("delivery_area", nullable string),
    ("fulfillment_choice", nullable (enum ["delivery", "pickup"])), ("pickup_location_id", nullable string),
    ("customer_name", nullable string), ("detected_preferences", array string none), ("wants_updates", nullable boolean),
    ("sentiment", enum sentiments)] []

/-- `LLMSchemaJSON`. -/
def LLMSchemaJSON : Schema :=
  object [("reply_text", string), ("internal_confidence", number fun q => decide (0 ≤ q) && decide (q ≤ 1)), ("intent", enum intents),
    ("customer_requested_images", boolean), ("send_product_image_ids", array string (some 5)),
    ("referenced_product_ids", array string none), ("crm_signals", crmSignalsSchema)] []

/-- What decodes as an item. -/
def itemTypes : Schema := nullable (spelled [("product_id", nullable string), ("quantity", nullable (number finite))])

/-- What decodes as CRM signals. -/
def crmTypes : Schema :=
  nullable (spelled [("order_confirmed", nullable boolean), ("detected_items", nullable (array itemTypes none)),
    ("delivery_area", nullable string), ("fulfillment_choice", nullable string), ("pickup_location_id", nullable string),
    ("customer_name", nullable string), ("detected_preferences", nullable (array (nullable string) none)),
    ("wants_updates", nullable boolean), ("sentiment", nullable string)])

/-- What decodes as a response. -/
def responseTypes : Schema :=
  nullable (spelled [("reply_text", nullable string), ("internal_confidence", nullable (number finite)), ("intent", nullable string),
    ("customer_requested_images", nullable boolean), ("send_product_image_ids", nullable (array (nullable string) none)),
    ("referenced_product_ids", nullable (array (nullable string) none)), ("crm_signals", crmTypes)])

/-- What of an item `validateLlmOutput` leaves unchecked. -/
def uncheckedItem : Schema := object [("product_id", notNull), ("quantity", notNull)] []

/-- What of the CRM signals it leaves unchecked: three of the keys, the choices of fulfillment, and nulls. The sentiment is checked as
it was decoded, under whatever spelling. -/
def uncheckedCrm : Schema :=
  object [("order_confirmed", notNull), ("detected_items", array uncheckedItem none),
    ("fulfillment_choice", nullable (enum ["delivery", "pickup"])), ("pickup_location_id", any), ("detected_preferences", array notNull none),
    ("wants_updates", any), ("sentiment", enum sentiments)] []

/-- What of the schema it leaves unchecked. The confidence, the intent and the number of images are checked as they were decoded. -/
def unchecked : Schema :=
  object [("internal_confidence", number fun q => decide (0 ≤ q) && decide (q ≤ 1)), ("intent", enum intents),
    ("send_product_image_ids", array notNull (some 5)), ("referenced_product_ids", array notNull none), ("crm_signals", uncheckedCrm)] []

/-! ## Values -/

/-- The value under a name of an object. -/
def valueAt {β : Type} (j : Json) (name : String) (zero : β) (value : Json → β) : β := (Json.member? name j.members).elim zero value

def itemOf (j : Json) : DetectedItem := ⟨valueAt j "product_id" "" Json.text, valueAt j "quantity" 0 Json.float⟩

def crmSignalsOf (j : Json) : CrmSignals where
  orderConfirmed := valueAt j "order_confirmed" false Json.flag
  detectedItems := valueAt j "detected_items" [] (Json.items itemOf)
  deliveryArea := valueAt j "delivery_area" none Json.text?
  fulfillmentChoice := valueAt j "fulfillment_choice" none Json.text?
  pickupLocationID := valueAt j "pickup_location_id" none Json.text?
  customerName := valueAt j "customer_name" none Json.text?
  detectedPreferences := valueAt j "detected_preferences" [] (Json.items Json.text)
  wantsUpdates := valueAt j "wants_updates" none Json.flag?
  sentiment := valueAt j "sentiment" "" Json.text

/-- The values of a document. -/
def responseOf (j : Json) : LlmResponse where
  replyText := valueAt j "reply_text" "" Json.text
  internalConfidence := valueAt j "internal_confidence" 0 Json.float
  intent := valueAt j "intent" "" Json.text
  customerRequestedImages := valueAt j "customer_requested_images" false Json.flag
  sendProductImageIDs := valueAt j "send_product_image_ids" [] (Json.items Json.text)
  referencedProductIDs := valueAt j "referenced_product_ids" [] (Json.items Json.text)
  crmSignals := valueAt j "crm_signals" ⟨false, [], none, none, none, none, [], none, ""⟩ crmSignalsOf

/-! ## What is decoded -/

section Decoded

open Json (under latest last places)

/-- An item, by what was read into its fields. -/
def itemRead (look : String → List Json) : DetectedItem := ⟨(latest (look "product_id")).text, (latest (look "quantity")).float⟩

/-- An item of which several documents tell. -/
def readItem (js : List Json) : DetectedItem := itemRead fun k => under k (js.flatMap Json.members)

def crmRead (look : String → List Json) : CrmSignals where
  orderConfirmed := (latest (look "order_confirmed")).flag
  detectedItems := (places (look "detected_items")).items.map readItem
  deliveryArea := (last (look "delivery_area")).text?
  fulfillmentChoice := (last (look "fulfillment_choice")).text?
  pickupLocationID := (last (look "pickup_location_id")).text?
  customerName := (last (look "customer_name")).text?
  detectedPreferences := (places (look "detected_preferences")).items.map fun js => (latest js).text
  wantsUpdates := (last (look "wants_updates")).flag?
  sentiment := (latest (look "sentiment")).text

def crmDecoding (look : String → List Json) : CrmDecoding where
  signals := crmRead look
  keptItems := (places (look "detected_items")).kept.map readItem
  keptPreferences := (places (look "detected_preferences")).kept.map fun js => (latest js).text

/-- The CRM signals of which several documents tell. -/
def readCrm (js : List Json) : CrmDecoding := crmDecoding fun k => under k (js.flatMap Json.members)

def responseRead (look : String → List Json) : LlmResponse where
  replyText := (latest (look "reply_text")).text
  internalConfidence := (latest (look "internal_confidence")).float
  intent := (latest (look "intent")).text
  customerRequestedImages := (latest (look "customer_requested_images")).flag
  sendProductImageIDs := (places (look "send_product_image_ids")).items.map fun js => (latest js).text
  referencedProductIDs := (places (look "referenced_product_ids")).items.map fun js => (latest js).text
  crmSignals := (readCrm (look "crm_signals")).signals

def llmDecoding (look : String → List Json) : LlmDecoding where
  resp := responseRead look
  keptImageIDs := (places (look "send_product_image_ids")).kept.map fun js => (latest js).text
  keptReferencedIDs := (places (look "referenced_product_ids")).kept.map fun js => (latest js).text
  keptItems := (readCrm (look "crm_signals")).keptItems
  keptPreferences := (readCrm (look "crm_signals")).keptPreferences

/-- What a document says under all the spellings of the names. Of several values the last one counts that is not null, or of a
nullable field the last one. An array is the last one, with the gaps of its items filled from those that stood in their places, and
the CRM signals are all their objects together. -/
def readResponse (doc : Json) : LlmResponse := responseRead fun k => under k doc.members

theorem reads_item : Reads decodeItem ⟨"", 0⟩ itemTypes readItem := by
  refine reads_struct (v := itemRead) (by decide +kernel) (by decide) (fun look look' same => ?_) (.cons ?_ (.cons ?_ .nil))
  · simp only [List.map_cons, List.map_nil, List.forall_mem_cons] at same
    simp only [itemRead, same]
  · exact reads_string.part (fun _ _ => rfl) fun _ _ => by simp [itemRead]
  · exact reads_float64.part (fun _ _ => rfl) fun _ _ => by simp [itemRead]

theorem reads_texts {place place' : Place} : Reads (decodeSlice place "" (decodeString place')) ⟨[], []⟩
    (nullable (array (nullable string) none)) fun js => Slice.of (fun js => (latest js).text) (places js) :=
  reads_slice reads_string

theorem reads_crm : Reads decodeCrmSignals ⟨⟨false, [], none, none, none, none, [], none, ""⟩, [], []⟩ crmTypes readCrm := by
  refine reads_struct (v := crmDecoding) (by decide +kernel) (by decide) (fun look look' same => ?_)
    (.cons ?_ (.cons ?_ (.cons ?_ (.cons ?_ (.cons ?_ (.cons ?_ (.cons ?_ (.cons ?_ (.cons ?_ .nil)))))))))
  · simp only [List.map_cons, List.map_nil, List.forall_mem_cons] at same
    simp only [crmDecoding, crmRead, same]
  · exact reads_bool.part (fun _ _ => rfl) fun _ _ => by simp [crmDecoding, crmRead]
  · exact (reads_slice reads_item).part (fun _ _ => rfl) fun _ _ => by simp [crmDecoding, crmRead, Slice.of]
  · exact reads_pointer_string.part (fun _ _ => rfl) fun _ _ => by simp [crmDecoding, crmRead]
  · exact reads_pointer_string.part (fun _ _ => rfl) fun _ _ => by simp [crmDecoding, crmRead]
  · exact reads_pointer_string.part (fun _ _ => rfl) fun _ _ => by simp [crmDecoding, crmRead]
  · exact reads_pointer_string.part (fun _ _ => rfl) fun _ _ => by simp [crmDecoding, crmRead]
  · exact reads_texts.part (fun _ _ => rfl) fun _ _ => by simp [crmDecoding, crmRead, Slice.of]
  · exact reads_pointer_bool.part (fun _ _ => rfl) fun _ _ => by simp [crmDecoding, crmRead]
  · exact reads_string.part (fun _ _ => rfl) fun _ _ => by simp [crmDecoding, crmRead]

/-- The third array finds what the first one left behind the end of the second. -/
example :
    let item (id literal : String) (n : ℚ) : Json := .object [("product_id", .string id), ("quantity", .number literal n)]
    let crm : Json := .object [("detected_items", .array [item "a" "2" 2, item "b" "3" 3]), ("detected_items", .array [.object []]),
      ("detected_items", .array [.object [], .object []])]
    (readCrm [crm]).signals.detectedItems = [⟨"a", 2⟩, ⟨"b", 3⟩] := by decide +kernel

theorem reads_response : Reads decodeLlmResponse ⟨LlmResponse.zero, [], [], [], []⟩ responseTypes
    fun js => llmDecoding fun k => under k (js.flatMap Json.members) := by
  refine reads_struct (v := llmDecoding) (by decide +kernel) (by decide) (fun look look' same => ?_)
    (.cons ?_ (.cons ?_ (.cons ?_ (.cons ?_ (.cons ?_ (.cons ?_ (.cons ?_ .nil)))))))
  · simp only [List.map_cons, List.map_nil, List.forall_mem_cons] at same
    simp only [llmDecoding, responseRead, same]
  · exact reads_string.part (fun _ _ => rfl) fun _ _ => by simp [llmDecoding, responseRead]
  · exact reads_float64.part (fun _ _ => rfl) fun _ _ => by simp [llmDecoding, responseRead]
  · exact reads_string.part (fun _ _ => rfl) fun _ _ => by simp [llmDecoding, responseRead]
  · exact reads_bool.part (fun _ _ => rfl) fun _ _ => by simp [llmDecoding, responseRead]
  · exact reads_texts.part (fun _ _ => rfl) fun _ _ => by simp [llmDecoding, responseRead, Slice.of]
  · exact reads_texts.part (fun _ _ => rfl) fun _ _ => by simp [llmDecoding, responseRead, Slice.of]
  · exact reads_crm.part (fun _ _ => rfl) fun _ _ => by simp [llmDecoding, responseRead]

/-- What an output is decoded to. -/
theorem decodeLlmResponse_reads (doc : Json) : ((decodeLlmResponse doc ⟨LlmResponse.zero, [], [], [], []⟩).map LlmDecoding.resp).toOption =
    if responseTypes doc then some (readResponse doc) else none := by
  have value : llmDecoding (fun k => under k ([doc].flatMap Json.members)) = llmDecoding fun k => under k doc.members := by
    rw [List.flatMap_singleton]
  have read := reads_response.next [] doc
  rw [reads_response.start, List.nil_append, value] at read
  rcases reads_cases read with ⟨holds, decoded⟩ | ⟨fails, e, decoded⟩
  · rw [holds, decoded]
    rfl
  · rw [fails, decoded]
    rfl

end Decoded

/-! ## The checks -/

theorem check_eq_nil {ok : Bool} {issue : String} : check ok issue = [] ↔ ok = true := by
  unfold check
  cases ok <;> simp

theorem checkField_eq_nil {top : List (String × Json)} {key : String} :
    checkField top key = [] ↔ (Json.member? key top).any notNull = true := by
  unfold checkField
  rw [List.append_eq_nil_iff, check_eq_nil, check_eq_nil]
  cases Json.member? key top with
  | none => simp
  | some j => simp [notNull]

/-- What `validateLlmOutput` enforces: every spelling of a name decodes, the keys of its lists are there under their very names, and
what was decoded is within the bounds. -/
structure Passes (doc : Json) : Prop where
  decodes : responseTypes doc = true
  fields : ∀ key ∈ requiredFields, (Json.member? key doc.members).any notNull = true
  crm : ∃ members, Json.member? "crm_signals" doc.members = some (.object members) ∧
    ∀ key ∈ requiredCrmFields, (Json.member? key members).isSome = true
  intent : (readResponse doc).intent ∈ intents
  confidence : 0 ≤ (readResponse doc).internalConfidence ∧ (readResponse doc).internalConfidence ≤ 1
  images : (readResponse doc).sendProductImageIDs.length ≤ 5
  sentiment : (readResponse doc).crmSignals.sentiment ∈ sentiments

theorem settled_ok {issues : List String} {resp r : LlmResponse} :
    (if issues.isEmpty then Except.ok resp else Except.error issues) = Except.ok r ↔ issues = [] ∧ r = resp := by
  cases issues with
  | nil => exact ⟨fun same => ⟨rfl, (Except.ok.inj same).symm⟩, fun ⟨_, same⟩ => congrArg Except.ok same.symm⟩
  | cons issue rest => exact iff_of_false (fun absurd => by cases absurd) fun absurd => by cases absurd.1

/-- The spec of `validateLlmOutput`. -/
theorem validateLlmOutput_ok {number : ℚ → String} {quote : String → String} {doc : Json} {resp : LlmResponse} :
    validateLlmOutput number quote (.ok doc) = .ok resp ↔ Passes doc ∧ resp = readResponse doc := by
  unfold validateLlmOutput
  rcases reads_cases (decodeLlmResponse_reads doc) with ⟨holds, decoded⟩ | ⟨fails, e, decoded⟩
  · cases read : decodeLlmResponse doc ⟨LlmResponse.zero, [], [], [], []⟩ with
    | error e =>
      rw [read] at decoded
      cases decoded
    | ok d =>
      rw [read] at decoded
      obtain value : d.resp = readResponse doc := Except.ok.inj decoded
      have top : rawMap doc = some doc.members := by
        cases doc with
        | null => rfl
        | object members => rfl
        | _ => cases holds
      simp only [Except.bind, read, Except.map, top, value]
      rw [settled_ok]
      refine and_congr_left fun _ => ?_
      by_cases crm : ∃ members, Json.member? "crm_signals" doc.members = some (.object members)
      · obtain ⟨members, crm⟩ := crm
        have raw : rawCrm doc.members = (some members, []) := by
          unfold rawCrm
          rw [crm]
        rw [raw]
        simp only [List.append_eq_nil_iff, List.flatMap_eq_nil_iff, checkField_eq_nil, check_eq_nil, decide_eq_true_eq, Bool.and_eq_true]
        constructor
        · rintro ⟨⟨⟨⟨⟨⟨fields, -⟩, keys⟩, known⟩, range⟩, few⟩, mood⟩
          exact ⟨holds, fields, ⟨members, crm, keys⟩, known, range, few, mood⟩
        · rintro ⟨-, fields, ⟨members', crm', keys⟩, known, range, few, mood⟩
          cases crm.symm.trans crm'
          exact ⟨⟨⟨⟨⟨⟨fields, trivial⟩, keys⟩, known⟩, range⟩, few⟩, mood⟩
      · have issue : (rawCrm doc.members).2 ≠ [] := by
          unfold rawCrm
          cases found : Json.member? "crm_signals" doc.members with
          | none => exact List.cons_ne_nil _ _
          | some j =>
            cases j with
            | object members => exact absurd ⟨members, found⟩ crm
            | _ => exact List.cons_ne_nil _ _
        constructor
        · intro none
          simp only [List.append_eq_nil_iff] at none
          exact absurd none.1.1.1.1.1.2 issue
        · exact fun passes => absurd (passes.crm.imp fun _ => And.left) crm
  · cases read : decodeLlmResponse doc ⟨LlmResponse.zero, [], [], [], []⟩ with
    | ok d =>
      rw [read] at decoded
      cases decoded
    | error e' =>
      simp only [Except.bind, read, Except.map]
      refine iff_of_false (by simp) fun passes => ?_
      rw [passes.1.decodes] at fails
      cases fails

/-! ## Where the schemas part -/

theorem string_notNull (j : Json) (h : string j = true) : notNull j = true := by
  cases j <;> first | rfl | cases h

theorem number_notNull {within : ℚ → Bool} (j : Json) (h : number within j = true) : notNull j = true := by
  cases j <;> first | rfl | cases h

theorem boolean_notNull (j : Json) (h : boolean j = true) : notNull j = true := by
  cases j <;> first | rfl | cases h

theorem enum_notNull {values : List String} (j : Json) (h : enum values j = true) : notNull j = true := by
  cases j <;> first | rfl | cases h

theorem array_notNull {items : Schema} {most : Option Nat} (j : Json) (h : array items most j = true) : notNull j = true := by
  cases j <;> first | rfl | cases h

theorem object_notNull {required optional : List (String × Schema)} (j : Json) (h : object required optional j = true) :
    notNull j = true := by
  cases j <;> first | rfl | cases h

/-- A key whose value is not null is one of the schema if it decodes. -/
theorem any_of_types {look : Option Json} {s : Schema} (types : look.all (nullable s) = true) (some_ : look.any notNull = true) :
    look.any s = true :=
  any_of_all some_ types fun j some_ types => strict_of_notNull j types some_

theorem item_unchecked (j : Json) (h : detectedItemSchema j = true) : uncheckedItem j = true := by
  cases j with
  | object members =>
    unfold detectedItemSchema at h
    unfold uncheckedItem
    simp only [object_object, List.all_cons, List.all_nil, Bool.and_true, Bool.and_eq_true] at h ⊢
    exact ⟨any_mono string_notNull h.1, any_mono number_notNull h.2⟩
  | _ => cases h

/-- An item that decodes and is complete is one of the schema. -/
theorem item_of_types (j : Json) (types : itemTypes j = true) (complete : uncheckedItem j = true) : detectedItemSchema j = true := by
  cases j with
  | object members =>
    have fits := all_of_spelled types
    unfold uncheckedItem at complete
    unfold detectedItemSchema
    simp only [List.forall_mem_cons, List.not_mem_nil, false_imp_iff, implies_true, and_true] at fits
    simp only [object_object, List.all_cons, List.all_nil, Bool.and_true, Bool.and_eq_true] at complete ⊢
    obtain ⟨product, quantity⟩ := fits
    refine ⟨any_of_types product complete.1, any_of_all complete.2 quantity fun j some_ finite_ => ?_⟩
    have strict := strict_of_notNull j finite_ some_
    cases j <;> first | rfl | cases strict
  | _ => cases complete

/-- The schema asks for everything that is left unchecked. -/
theorem unchecked_of_schema (j : Json) (h : LLMSchemaJSON j = true) : unchecked j = true := by
  have crm : ∀ j, crmSignalsSchema j = true → uncheckedCrm j = true := by
    intro j h
    cases j with
    | object members =>
      unfold crmSignalsSchema at h
      unfold uncheckedCrm
      simp only [object_object, List.all_cons, List.all_nil, Bool.and_true, Bool.and_eq_true] at h ⊢
      obtain ⟨confirmed, items, -, choice, location, -, preferences, updates, sentiment⟩ := h
      exact ⟨any_mono boolean_notNull confirmed, any_mono (array_mono item_unchecked) items, choice,
        any_mono (fun _ _ => rfl) location, any_mono (array_mono string_notNull) preferences,
        any_mono (fun _ _ => rfl) updates, sentiment⟩
    | _ => cases h
  cases j with
  | object top =>
    unfold LLMSchemaJSON at h
    unfold unchecked
    simp only [object_object, List.all_cons, List.all_nil, Bool.and_true, Bool.and_eq_true] at h ⊢
    obtain ⟨-, confidence, intent, -, images, referenced, signals⟩ := h
    exact ⟨confidence, intent, any_mono (array_mono string_notNull) images,
      any_mono (array_mono string_notNull) referenced, any_mono crm signals⟩
  | _ => cases h

/-- CRM signals that decode, have the keys that are looked for and what is left unchecked are those of the schema. -/
theorem crm_of_types {members : List (String × Json)} (types : crmTypes (.object members) = true)
    (keys : ∀ key ∈ requiredCrmFields, (Json.member? key members).isSome = true) (rest : uncheckedCrm (.object members) = true) :
    crmSignalsSchema (.object members) = true := by
  have fits := all_of_spelled types
  unfold uncheckedCrm at rest
  unfold crmSignalsSchema
  simp only [List.forall_mem_cons, List.not_mem_nil, false_imp_iff, implies_true, and_true] at fits
  simp only [requiredCrmFields, List.forall_mem_cons, List.not_mem_nil, false_imp_iff, implies_true, and_true] at keys
  simp only [object_object, List.all_cons, List.all_nil, Bool.and_true, Bool.and_eq_true] at rest ⊢
  obtain ⟨confirmed, items, area, -, location, name, preferences, updates, -⟩ := fits
  obtain ⟨-, -, area', name', -, -⟩ := keys
  obtain ⟨confirmed', items', choice, location', preferences', updates', sentiment⟩ := rest
  have there : ∀ {look : Option Json} {s : Schema}, look.all s = true → look.isSome = true → look.any s = true := by
    intro look s all some_
    cases look with
    | none => cases some_
    | some j => exact all
  refine ⟨any_of_types confirmed (any_mono (fun _ some_ => some_) confirmed'), any_of_all items' items fun j complete types => ?_,
    there area area', choice, any_of_all location' location fun _ _ here => here, there name name',
    any_of_all preferences' preferences fun j some_ types => ?_, any_of_all updates' updates fun _ _ here => here, sentiment⟩
  · exact array_mono₂ item_of_types j (strict_of_notNull j types (array_notNull j complete)) complete
  · exact array_mono₂ strict_of_notNull j (strict_of_notNull j types (array_notNull j some_)) some_

/-- What passes and has what is left unchecked satisfies the schema. -/
theorem schema_of_passes {doc : Json} (passes : Passes doc) (rest : unchecked doc = true) : LLMSchemaJSON doc = true := by
  cases doc with
  | object top =>
    have fits := all_of_spelled passes.decodes
    have fields := passes.fields
    obtain ⟨members, crm, keys⟩ := passes.crm
    change Json.member? "crm_signals" top = some (.object members) at crm
    unfold unchecked at rest
    unfold LLMSchemaJSON
    simp only [List.forall_mem_cons, List.not_mem_nil, false_imp_iff, implies_true, and_true] at fits
    simp only [requiredFields, List.forall_mem_cons, List.not_mem_nil, false_imp_iff, implies_true, and_true, Json.members] at fields
    simp only [object_object, List.all_cons, List.all_nil, Bool.and_true, Bool.and_eq_true, crm, Option.any_some] at rest ⊢
    obtain ⟨reply, -, -, requested, images, referenced, signals⟩ := fits
    obtain ⟨reply', -, -, requested', -, -, -⟩ := fields
    obtain ⟨confidence, intent, images', referenced', signals'⟩ := rest
    rw [crm] at signals
    refine ⟨any_of_types reply reply', confidence, intent, any_of_types requested requested',
      any_of_all images' images fun j some_ types => ?_, any_of_all referenced' referenced fun j some_ types => ?_,
      crm_of_types signals keys signals'⟩
    · have texts := strict_of_notNull j types (array_notNull j some_)
      exact array_mono₂ (fun j some_ text => strict_of_notNull j text some_) j some_ texts
    · exact array_mono₂ strict_of_notNull j (strict_of_notNull j types (array_notNull j some_)) some_
  | _ => cases rest

/-- The value of an enumeration. -/
theorem text_of_enum {look : Option Json} {values : List String} (h : look.any (enum values) = true) : look.elim "" Json.text ∈ values := by
  cases look with
  | none => cases h
  | some j =>
    cases j with
    | string s => exact of_decide_eq_true h
    | _ => cases h

/-- A confidence within the bounds is within them as a binary64. -/
theorem confidence_unit {look : Option Json} (h : look.any (number fun q => decide (0 ≤ q) && decide (q ≤ 1)) = true) :
    0 ≤ look.elim 0 Json.float ∧ look.elim 0 Json.float ≤ 1 := by
  cases look with
  | none => cases h
  | some j =>
    cases j with
    | number literal value =>
      rw [Option.any_some] at h
      unfold number at h
      rw [Bool.and_eq_true, decide_eq_true_eq, decide_eq_true_eq] at h
      obtain ⟨f, nearest, low, high⟩ := float64_unit h.1 h.2
      show 0 ≤ (float64 value).getD 0 ∧ (float64 value).getD 0 ≤ 1
      rw [nearest]
      exact ⟨low, high⟩
    | _ => cases h

/-- What satisfies the schema passes, if all of it decodes and the other spellings change nothing. -/
theorem passes_of_schema {doc : Json} (h : LLMSchemaJSON doc = true) (decodes : responseTypes doc = true)
    (same : readResponse doc = responseOf doc) : Passes doc := by
  cases doc with
  | object top =>
    unfold LLMSchemaJSON at h
    simp only [object_object, List.all_cons, List.all_nil, Bool.and_true, Bool.and_eq_true] at h
    obtain ⟨reply, confidence, intent, requested, images, referenced, signals⟩ := h
    obtain ⟨members, crm⟩ : ∃ members, Json.member? "crm_signals" top = some (.object members) := by
      cases found : Json.member? "crm_signals" top with
      | none =>
        rw [found] at signals
        cases signals
      | some j =>
        rw [found] at signals
        cases j with
        | object members => exact ⟨members, rfl⟩
        | _ => cases signals
    have value : (responseOf (.object top)).crmSignals = crmSignalsOf (.object members) := by
      show (Json.member? "crm_signals" top).elim _ _ = _
      rw [crm]
      rfl
    have notNull_ : (Json.member? "crm_signals" top).any notNull = true := any_mono object_notNull signals
    rw [crm, Option.any_some] at signals
    unfold crmSignalsSchema at signals
    simp only [object_object, List.all_cons, List.all_nil, Bool.and_true, Bool.and_eq_true] at signals
    obtain ⟨confirmed, items, area, -, -, name, preferences, -, sentiment⟩ := signals
    have present : ∀ {look : Option Json} {s : Schema}, look.any s = true → look.isSome = true := by
      intro look s any
      cases look with
      | none => cases any
      | some j => rfl
    refine ⟨decodes, ?_, ⟨members, crm, ?_⟩, ?_, ?_, ?_, ?_⟩
    · simp only [requiredFields, List.forall_mem_cons, List.not_mem_nil, false_imp_iff, implies_true, and_true, Json.members]
      exact ⟨any_mono string_notNull reply, any_mono number_notNull confidence, any_mono enum_notNull intent,
        any_mono boolean_notNull requested, any_mono array_notNull images, any_mono array_notNull referenced, notNull_⟩
    · simp only [requiredCrmFields, List.forall_mem_cons, List.not_mem_nil, false_imp_iff, implies_true, and_true]
      exact ⟨present confirmed, present items, present area, present name, present preferences, present sentiment⟩
    · rw [same]
      exact text_of_enum intent
    · rw [same]
      exact confidence_unit confidence
    · rw [same]
      show ((Json.member? "send_product_image_ids" top).elim [] (Json.items Json.text)).length ≤ 5
      cases found : Json.member? "send_product_image_ids" top with
      | none => exact Nat.zero_le 5
      | some j =>
        rw [found] at images
        cases j with
        | array ids =>
          have few := (Bool.and_eq_true_iff.1 images).2
          show (ids.map Json.text).length ≤ 5
          rw [List.length_map]
          exact of_decide_eq_true few
        | _ => exact Nat.zero_le 5
    · rw [same, value]
      exact text_of_enum sentiment
  | _ => cases h

/-! ## Agreement -/

/-- The output is accepted exactly when it satisfies the schema, and then with its values. -/
structure Agrees (number : ℚ → String) (quote : String → String) (doc : Json) : Prop where
  accepts : (∃ resp, validateLlmOutput number quote (.ok doc) = .ok resp) ↔ LLMSchemaJSON doc = true
  values : ∀ resp, validateLlmOutput number quote (.ok doc) = .ok resp → resp = responseOf doc

/-- An output is judged by the schema exactly when it satisfies what is left unchecked, unless it breaks what is enforced anyway, and
when, should it satisfy the schema, all the spellings of the names decode and what they say is what the very names say. -/
theorem validateLlmOutput_agrees_iff {number : ℚ → String} {quote : String → String} {doc : Json} :
    Agrees number quote doc ↔ (Passes doc → unchecked doc = true) ∧
      (LLMSchemaJSON doc = true → responseTypes doc = true ∧ readResponse doc = responseOf doc) := by
  have accepts : (∃ resp, validateLlmOutput number quote (.ok doc) = .ok resp) ↔ Passes doc := by
    constructor
    · rintro ⟨resp, accepted⟩
      exact (validateLlmOutput_ok.1 accepted).1
    · exact fun passes => ⟨_, validateLlmOutput_ok.2 ⟨passes, rfl⟩⟩
  constructor
  · intro agrees
    have same := accepts.symm.trans agrees.accepts
    refine ⟨fun passes => unchecked_of_schema doc (same.1 passes), fun h => ⟨(same.2 h).decodes, ?_⟩⟩
    exact agrees.values _ (validateLlmOutput_ok.2 ⟨same.2 h, rfl⟩)
  · rintro ⟨complete, plain⟩
    refine ⟨accepts.trans ⟨fun passes => schema_of_passes passes (complete passes), fun h => ?_⟩, fun resp accepted => ?_⟩
    · obtain ⟨decodes, same⟩ := plain h
      exact passes_of_schema h decodes same
    · obtain ⟨passes, value⟩ := validateLlmOutput_ok.1 accepted
      exact value.trans (plain (schema_of_passes passes (complete passes))).2

/-- An output with the members given, and CRM signals with the keys given. -/
def outputWith (reply crm : List (String × Json)) : Json :=
  .object (reply ++ [("internal_confidence", .number "0.9" (9 / 10)), ("intent", .string "checkout_request"),
    ("customer_requested_images", .bool false), ("send_product_image_ids", .array []), ("referenced_product_ids", .array []),
    ("crm_signals", .object crm)])

def thanks : List (String × Json) := [("reply_text", .string "Thank you!")]

/-- CRM signals with every key of the schema. -/
def completeCrm : List (String × Json) :=
  [("order_confirmed", .bool true),
    ("detected_items", .array [.object [("product_id", .string "0a1b2c3d"), ("quantity", .number "2" 2)]]),
    ("delivery_area", .null), ("fulfillment_choice", .string "delivery"), ("pickup_location_id", .null), ("customer_name", .null),
    ("detected_preferences", .array []), ("wants_updates", .null), ("sentiment", .string "positive")]

/-- A complete output is judged by the schema, also when it says its reply twice, or under another name than the schema's. -/
theorem complete_output_agrees :
    Agrees (fun _ => "") (fun _ => "") (outputWith thanks completeCrm) ∧
      Agrees (fun _ => "") (fun _ => "") (outputWith (("reply_text", .string "Hello!") :: thanks) completeCrm) ∧
      Agrees (fun _ => "") (fun _ => "") (outputWith [("Reply_Text", .string "Thank you!")] completeCrm) := by
  refine ⟨?_, ?_, ?_⟩
  · exact validateLlmOutput_agrees_iff.2 ⟨fun _ => by decide +kernel, fun _ => by decide +kernel⟩
  · exact validateLlmOutput_agrees_iff.2 ⟨fun _ => by decide +kernel, fun _ => by decide +kernel⟩
  · refine validateLlmOutput_agrees_iff.2 ⟨fun passes => ?_, fun satisfies => ?_⟩
    · exact absurd (passes.fields "reply_text" (by decide)) (by decide +kernel)
    · exact absurd satisfies (by decide +kernel)

/-- An output whose item has no quantity, without three of the keys, passes; its quantity is read as none. -/
theorem incomplete_output_accepted :
    let doc := outputWith thanks [("order_confirmed", .bool true), ("detected_items", .array [.object [("product_id", .string "0a1b2c3d")]]),
      ("delivery_area", .null), ("customer_name", .null), ("detected_preferences", .array []), ("sentiment", .string "positive")]
    (validateLlmOutput (fun _ => "") (fun _ => "") (.ok doc)).isOk = true ∧ LLMSchemaJSON doc = false ∧
      ¬ Agrees (fun _ => "") (fun _ => "") doc := by
  intro doc
  have accepted : (validateLlmOutput (fun _ => "") (fun _ => "") (.ok doc)).isOk = true := by decide +kernel
  have refused : LLMSchemaJSON doc = false := by decide +kernel
  refine ⟨accepted, refused, fun agrees => ?_⟩
  cases passes : validateLlmOutput (fun _ => "") (fun _ => "") (.ok doc) with
  | error issues =>
    rw [passes] at accepted
    cases accepted
  | ok resp =>
    have holds := agrees.accepts.1 ⟨resp, passes⟩
    rw [refused] at holds
    cases holds

end NovoApex.Orchestrator
