import NovoApex.Db.Turns
import NovoApex.Domain.Safety
import NovoApex.Handlers.Vendor
import NovoApex.Lib.Crew
import NovoApex.Workers.Lifecycle

/-!
# The orchestrator

`HandleDebouncedConversation` (`orchestrator.go`, `orchestrator_context.go`): resolve the
conversation, process the media, stop at the safety guard, ask the LLM, then send the
images and the reply, move the conversation, and stage or confirm an order.

The escalation flag is read once, with the conversation. The media of a message is
processed before the guard looks at the flag, and a message whose media cannot be
processed is answered there.
-/

namespace NovoApex.Turns
set_option autoImplicit false
open Lib Program Db Workers

/-! ## Product ids in texts -/

/-- `\s` of a regular expression. -/
def reSpace (c : Char) : Bool := c == ' ' || c == '\t' || c == '\n' || c == '\r' || c == '\x0c'

/-- `unicode.IsSpace`. -/
def isSpace (c : Char) : Bool :=
  reSpace c || c == '\x0b' || c == '\x85' || c == '\xa0' || c == '\u1680' || ('\u2000' ≤ c && c ≤ '\u200a') ||
    c == '\u2028' || c == '\u2029' || c == '\u202f' || c == '\u205f' || c == '\u3000'

/-- What follows `[ID:`, in either case. -/
def afterOpening : List Char → Option (List Char)
  | '[' :: i :: d :: ':' :: rest => if i.toLower == 'i' && d.toLower == 'd' then some rest else none
  | _ => none

/-- What follows the next `]`. -/
def afterClosing : List Char → Option (List Char)
  | [] => none
  | c :: rest => if c == ']' then some rest else afterClosing rest

/-- What follows a tag; between its brackets stands at least one character. -/
def afterTag (text : List Char) : Option (List Char) :=
  match afterOpening text with
  | some (c :: rest) => if c == ']' then none else afterClosing rest
  | _ => none

/-- `reInternalProductID.ReplaceAllString(s, "")`: a tag goes with the white space before it. -/
def removeTags : Nat → List Char → List Char → List Char
  | 0, spaces, text => spaces ++ text
  | _ + 1, spaces, [] => spaces
  | fuel + 1, spaces, c :: rest =>
    if reSpace c then removeTags fuel (spaces ++ [c]) rest
    else
      match afterTag (c :: rest) with
      | some rest => removeTags fuel [] rest
      | none => spaces ++ c :: removeTags fuel [] rest

/-- `strings.ReplaceAll(s, "  ", " ")`. -/
def halveSpaces : List Char → List Char
  | ' ' :: ' ' :: rest => ' ' :: halveSpaces rest
  | c :: rest => c :: halveSpaces rest
  | [] => []

/-- `strings.Contains(s, "  ")`. -/
def hasDoubleSpace : List Char → Bool
  | ' ' :: ' ' :: _ => true
  | _ :: rest => hasDoubleSpace rest
  | [] => false

/-- The loop that replaces double spaces until there are none. -/
def collapseSpaces : Nat → List Char → List Char
  | 0, text => text
  | fuel + 1, text => if hasDoubleSpace text then collapseSpaces fuel (halveSpaces text) else text

/-- `strings.TrimSpace`. -/
def trimSpace (text : List Char) : List Char := ((text.dropWhile isSpace).reverse.dropWhile isSpace).reverse

/-- `stripInternalProductIDs`. Each round of either loop shortens the text, so its length is enough fuel. -/
def stripInternalProductIDs (s : String) : String :=
  let text := s.toList
  let untagged := removeTags (text.length + 1) [] text
  String.ofList (trimSpace (collapseSpaces untagged.length untagged))

/-! ## The turn -/

abbrev TurnHandler (α : Type) : Type := Program turnStore α

/-- `OrchestratorJob`, less the fields that only trace it. -/
structure OrchestratorJob where
  recipientPhone : String
  senderPhone : String
  deriving DecidableEq

/-- `LlmResponse`, less what only enriches the profile; the quantities are `int32` already. -/
structure LlmResponse where
  replyText : String
  internalConfidence : ℚ
  intent : Intent
  customerRequestedImages : Bool
  sendProductImageIDs : List String
  orderConfirmed : Bool
  detectedItems : List DetectedItem
  fulfillmentChoice : Option String
  pickupLocationID : Option String

/-- What a turn draws from elsewhere: the ids it generates, the customer's profile, the media service and the LLM. -/
structure TurnInput where
  customerID : String
  conversationID : String
  outboundID : Nat → String
  intentID : String
  /-- The customer's channel is still open, and a message carries a referral. -/
  organic : Bool
  referral : Bool
  /-- The customer has ordered before. -/
  returning : Bool
  /-- `deps.Media` is there. -/
  media : Bool
  /-- The size of what `Download` returns. -/
  download : Except String Nat
  transcript : Except String String
  response : Except String LlmResponse

/-- `orchContext`, less what only feeds the prompt. -/
structure OrchContext where
  businessID : String
  currency : String
  customerID : String
  customerPhone : String
  conversationID : String
  state : ConversationState
  escalated : Bool
  deriving DecidableEq

/-- `orch24hWindow`, in milliseconds. -/
def orch24hWindow : Nat := 24 * 60 * 60 * 1000

def orchMaxAudioBytes : Nat := 10 * 1024 * 1024

def orchConfidenceFloor : ℚ := 7 / 10

def orchKeywordReason : String := "KEYWORD_MATCH"

def orchLowConfReason : String := "LOW_CONFIDENCE"

def orchAudioLongReason : String := "AUDIO_TOO_LONG"

def orchMediaFailReason : String := "MEDIA_PROCESSING_FAILED"

def orchConnectingMsg : String := "You are being connected to a human agent. Please wait."

def orchAudioLongMsg : String := "Voice note too long, escalating..."

def orchMediaFailMsg : String := "I had trouble processing your media. Let me get a human to help."

/-- A statement, with the context of its error. -/
def wrapped (text : String) (op : TurnStmt) : TurnHandler op.Reply := mapErr (.context text) (call (I := turnStore) op)

/-- An `if` without an `else`. -/
def onlyIf (condition : Bool) (p : TurnHandler Unit) : TurnHandler Unit := if condition then p else pure ()

/-- `orchCaptureAcquisitionChannel`. -/
def orchCaptureAcquisitionChannel (x : TurnInput) : TurnHandler Unit := do
  wrapped "orchestrator: referral lookup" (.aside .referral)
  onlyIf x.referral (wrapped "crm: update acquisition channel" (.aside .acquisitionChannel))

/-- `orchResolveConversationContext`. -/
def orchResolveConversationContext (x : TurnInput) (job : OrchestratorJob) : TurnHandler (Option OrchContext) := do
  let business : Option (String × String) ←
    wrapped ("orchestrator: lookup business " ++ job.recipientPhone) (.lookupBusiness job.recipientPhone)
  match business with
  | none => pure none
  | some (businessID, currency) => do
    let customerID : String ← wrapped "orchestrator: upsert customer" (.upsertCustomer x.customerID businessID job.senderPhone)
    onlyIf x.organic (orchCaptureAcquisitionChannel x)
    wrapped "orchestrator: ensure customer profile" (.aside .ensureProfile)
    wrapped "orchestrator: read customer profile" (.aside .readProfile)
    let c : ConversationRead ←
      wrapped "orchestrator: upsert conversation" (.upsertConversation x.conversationID businessID job.senderPhone)
    wrapped "orchestrator: backfill inbound links" (.backfill job.recipientPhone job.senderPhone businessID c.id)
    pure (some ⟨businessID, currency, customerID, job.senderPhone, c.id, c.state, c.escalated⟩)

/-- `orchLatestMessage`. -/
def orchLatestMessage (conversationID : String) : TurnHandler (Option InboundMessage) :=
  wrapped ("orchestrator: latest inbound for " ++ conversationID) (.latestMessage conversationID)

/-- `orchWithin24hWindow`. -/
def orchWithin24hWindow (conversationID : String) : TurnHandler Bool := do
  let latest : Option Nat ← wrapped ("orchestrator: window check " ++ conversationID) (.latestInbound conversationID)
  let now : Nat ← call (I := turnStore) .now
  pure (latest.any fun t => decide (now < t + orch24hWindow))

/-- `orchInsertOutboundRow`. -/
def orchInsertOutboundRow (m : TurnMessage) : TurnHandler Unit := wrapped "orchestrator: insert outbound row" (.insertOutboundRow m)

/-- A message of a turn: outside the window its row is only kept. -/
def enqueueOutbound (m : OutboundStatus → TurnMessage) (conversationID : String) : TurnHandler Unit := do
  let within ← orchWithin24hWindow conversationID
  if within then do
    orchInsertOutboundRow (m .pending)
    call (I := turnStore) (.publishOutbound (m .pending).id)
  else orchInsertOutboundRow (m .failed24hWindowClosed)

/-- `orchEnqueueOutboundText`. -/
def orchEnqueueOutboundText (outID businessID conversationID textContent : String) : TurnHandler Unit :=
  enqueueOutbound (⟨outID, businessID, conversationID, "text", stripInternalProductIDs textContent, none, none, ·⟩) conversationID

/-- `orchEnqueueOutboundImage`. -/
def orchEnqueueOutboundImage (outID businessID conversationID imageURL caption productID : String) : TurnHandler Unit :=
  enqueueOutbound (⟨outID, businessID, conversationID, "image", caption, some imageURL, some productID, ·⟩) conversationID

/-- `orchSetEscalated`. -/
def orchSetEscalated (conversationID reason : String) : TurnHandler Unit :=
  wrapped ("orchestrator: escalate " ++ conversationID ++ " (" ++ reason ++ ")") (.setEscalated conversationID reason)

/-- `orchEscalate`. -/
def orchEscalate (x : TurnInput) (conversationID reason notice : String) : TurnHandler Unit := do
  orchSetEscalated conversationID reason
  let businessID : String ← wrapped ("orchestrator: escalate conversation lookup " ++ conversationID) (.businessOf conversationID)
  orchEnqueueOutboundText (x.outboundID 0) businessID conversationID notice

/-- What is left of a message once its media was looked at: its text, or nothing where the conversation was escalated. -/
def escalateBranch (x : TurnInput) (conversationID reason notice : String) : TurnHandler (Option String) := do
  orchEscalate x conversationID reason notice
  pure none

/-- A downloaded voice note: its transcript is persisted as the text of the message. -/
def transcribeAudio (x : TurnInput) (conversationID : String) (latest : InboundMessage) : TurnHandler (Option String) :=
  match x.transcript with
  | .error _ => escalateBranch x conversationID orchMediaFailReason orchMediaFailMsg
  | .ok text =>
    match latest.whatsappMessageID.bind crmText with
    | none => pure (some text)
    | some id => do
      wrapped "orchestrator: persist voice note transcript" (.persistTranscript id text)
      pure (some text)

/-- `orchProcessMediaPayload`. -/
def orchProcessMediaPayload (x : TurnInput) (conversationID : String) : Option InboundMessage → TurnHandler (Option String)
  | none => pure (some "")
  | some latest =>
    let mediaType := latest.messageType.getD ""
    if mediaType ≠ "audio" ∧ mediaType ≠ "image" then pure (some (latest.textContent.getD ""))
    else if x.media = false ∨ latest.mediaID.bind crmText = none then
      escalateBranch x conversationID orchMediaFailReason orchMediaFailMsg
    else
      match x.download with
      | .error _ => escalateBranch x conversationID orchMediaFailReason orchMediaFailMsg
      | .ok size =>
        if mediaType = "image" then pure (some (latest.textContent.getD ""))
        else if orchMaxAudioBytes < size then escalateBranch x conversationID orchAudioLongReason orchAudioLongMsg
        else transcribeAudio x conversationID latest

/-- `orchEnforceSafetyGuardrails`: whether the turn goes on. -/
def orchEnforceSafetyGuardrails (x : TurnInput) (oc : OrchContext) (textContent : String) : TurnHandler Bool :=
  if oc.escalated then pure false
  else if Domain.requiresEscalation textContent then do
    orchSetEscalated oc.conversationID orchKeywordReason
    ignore (attempt (call (I := turnStore) (.aside .push)))
    orchEnqueueOutboundText (x.outboundID 0) oc.businessID oc.conversationID orchConnectingMsg
    pure false
  else pure true

/-- `orchFetchConversationHistory`: the history only feeds the prompt. -/
def orchFetchConversationHistory : TurnHandler Unit := do
  wrapped "orchestrator: latest paid order lookup" (.aside .latestPaidOrder)
  wrapped "orchestrator: inbound history" (.aside .inboundHistory)
  wrapped "orchestrator: outbound history" (.aside .outboundHistory)

/-! ## The response -/

/-- `orchGateProductImageIDs`. -/
def orchGateProductImageIDs (resp : LlmResponse) : List String :=
  if resp.customerRequestedImages then resp.sendProductImageIDs else []

/-- The symbol of `orchCurrencyFor`. -/
def orchCurrencySymbol (code : String) : String := if code = "NGN" then "₦" else if code = "USD" then "$" else "GH₵"

/-- `orchSendProductImage`: a product or an image that cannot be found is skipped. -/
def orchSendProductImage (outID : String) (oc : OrchContext) (shortID : String) : TurnHandler Unit :=
  if crmValidShortID shortID then do
    let found ← attempt (call (I := turnStore) (.productForImage oc.businessID shortID))
    match (found : Except TurnErr Product) with
    | .error _ => pure ()
    | .ok p => do
      let image ← attempt (call (I := turnStore) (.primaryImage p.id))
      match (image : Except TurnErr (Option String)) with
      | .ok (some url) =>
        orchEnqueueOutboundImage outID oc.businessID oc.conversationID url
          (p.name ++ " — " ++ orchCurrencySymbol oc.currency ++ stringFixed2 p.price.units) p.id
      | _ => pure ()
  else pure ()

/-- The images go out one after the other. -/
def orchSendProductImages (x : TurnInput) (oc : OrchContext) : Nat → List String → TurnHandler Unit
  | _, [] => pure ()
  | n, shortID :: rest => do
    orchSendProductImage (x.outboundID n) oc shortID
    orchSendProductImages x oc (n + 1) rest

/-- `orchCheckoutJob`, with the intent of the turn. -/
def orchCheckoutJob (oc : OrchContext) (latest : Option InboundMessage) (resp : LlmResponse) (orderIntentID : Option String) :
    CheckoutJob where
  businessID := oc.businessID
  customerID := oc.customerID
  conversationID := oc.conversationID
  customerPhone := oc.customerPhone
  sourceMessageID := (latest.bind InboundMessage.whatsappMessageID).getD ""
  detectedItems := resp.detectedItems
  fulfillmentChoice := resp.fulfillmentChoice
  pickupLocationID := resp.pickupLocationID
  orderIntentID := orderIntentID

/-- An intent lives for 15 minutes. -/
def intentTTL : Nat := 15 * 60 * 1000

/-- Stage the intent of a conversation. -/
def stageIntent (x : TurnInput) (oc : OrchContext) : TurnHandler String :=
  call (I := turnStore) (.stageOrderIntent x.intentID oc.businessID oc.customerID oc.conversationID intentTTL)

/-- The intent of a confirming turn: the active one, or one staged now. Errors are logged. -/
def confirmedIntent (x : TurnInput) (oc : OrchContext) : TurnHandler (Option String) := do
  let active ← attempt (call (I := turnStore) (.getActiveOrderIntent oc.conversationID))
  match (active : Except TurnErr String) with
  | .ok id => pure (some id)
  | .error _ => do
    let staged ← attempt (stageIntent x oc)
    pure staged.toOption

/-- The states in which a turn stages an intent. -/
def stagingStates : List ConversationState := [.browsing, .checkout, .support, .lead]

/-- The end of a turn: a confirmed order goes to the checkout, detected items are staged. -/
def orchCheckout (x : TurnInput) (oc : OrchContext) (latest : Option InboundMessage) (resp : LlmResponse) : TurnHandler Unit :=
  if resp.detectedItems.isEmpty then pure ()
  else if resp.orderConfirmed then
    if oc.state = .paid ∨ oc.state = .invoicing then pure ()
    else do
      let orderIntentID ← confirmedIntent x oc
      ignore (attempt (call (I := turnStore) (.enqueueCheckout (orchCheckoutJob oc latest resp orderIntentID))))
  else if oc.state ∈ stagingStates then ignore (attempt (stageIntent x oc))
  else pure ()

/-- What a turn does with a confident response: the images go out before the text. -/
def handleResponse (x : TurnInput) (oc : OrchContext) (latest : Option InboundMessage) (resp : LlmResponse) : TurnHandler Unit := do
  orchSendProductImages x oc 1 (orchGateProductImageIDs resp)
  orchEnqueueOutboundText (x.outboundID 0) oc.businessID oc.conversationID (stripInternalProductIDs resp.replyText)
  embed sqlStatements (turnTransition oc.conversationID oc.state resp.intent)
  ignore (attempt (call (I := turnStore) (.aside .crmSignal)))
  orchCheckout x oc latest resp

/-- `orchGenerateAndHandleLlmResponse`. -/
def orchGenerateAndHandleLlmResponse (x : TurnInput) (oc : OrchContext) (latest : Option InboundMessage) : TurnHandler Unit := do
  wrapped "orchestrator: shown products" (.aside .alreadyShown)
  onlyIf x.returning (wrapped ("orchestrator: favorite product for customer " ++ oc.customerID) (.aside .favoriteProduct))
  match x.response with
  | .error message => raise (I := turnStore) (.context "orchestrator: llm generate" (.service message))
  | .ok resp =>
    if resp.internalConfidence < orchConfidenceFloor then do
      orchSetEscalated oc.conversationID orchLowConfReason
      ignore (attempt (call (I := turnStore) (.aside .push)))
      orchEnqueueOutboundText (x.outboundID 0) oc.businessID oc.conversationID orchConnectingMsg
    else handleResponse x oc latest resp

/-- The phases of a turn, once the conversation is known. -/
def converse (x : TurnInput) (oc : OrchContext) : TurnHandler Unit := do
  let latest ← orchLatestMessage oc.conversationID
  let text ← orchProcessMediaPayload x oc.conversationID latest
  match text with
  | none => pure ()
  | some textContent => do
    let proceed ← orchEnforceSafetyGuardrails x oc textContent
    if proceed then do
      orchFetchConversationHistory
      orchGenerateAndHandleLlmResponse x oc latest
    else pure ()

/-- `HandleDebouncedConversation`. -/
def handleDebouncedConversation (x : TurnInput) (job : OrchestratorJob) : TurnHandler Unit := do
  let resolved ← orchResolveConversationContext x job
  match resolved with
  | none => pure ()
  | some oc => converse x oc

/-- A turn and its end. -/
def turn (x : TurnInput) (job : OrchestratorJob) : TurnHandler Unit := do
  ignore (attempt (handleDebouncedConversation x job))
  call (I := turnStore) .finish

/-! ## The statements of a turn -/

/-- The statements that read, or write what only the prompt reads. -/
def Reads : TurnStmt → Prop
  | .now | .latestMessage .. | .persistTranscript .. | .businessOf .. | .latestInbound .. | .publishOutbound .. => True
  | .productForImage .. | .primaryImage .. | .aside .. => True
  | _ => False

/-- The statements of a turn before its conversation is known. -/
def Opens : TurnStmt → Prop
  | .lookupBusiness .. | .upsertCustomer .. | .upsertConversation .. | .backfill .. | .aside .. => True
  | _ => False

/-- The statements of a turn, once its conversation is known. -/
inductive Says (oc : OrchContext) : TurnStmt → Prop where
  | reads {op} (h : Reads op) : Says oc op
  | escalates {reason} : Says oc (.setEscalated oc.conversationID reason)
  | message {m} (own : m.conversationID = oc.conversationID) : Says oc (.insertOutboundRow m)
  | transition {dst} : Says oc (.sql (.transition oc.conversationID oc.state dst))
  | active : Says oc (.getActiveOrderIntent oc.conversationID)
  | stages {id ttl} : Says oc (.stageOrderIntent id oc.businessID oc.customerID oc.conversationID ttl)

/-- These, and the order at the end. -/
inductive Acts (oc : OrchContext) : TurnStmt → Prop where
  | speaks {op} (h : Says oc op) : Acts oc op
  | orders {job} (own : job.conversationID = oc.conversationID) : Acts oc (.enqueueCheckout job)

section Uses

variable {A : TurnStmt → Prop}

theorem uses_wrapped {text : String} {op : TurnStmt} (h : A op) : (wrapped text op).Uses A := Uses.mapErr (uses_call.2 h)

theorem uses_onlyIf {condition : Bool} {p : TurnHandler Unit} (h : p.Uses A) : (onlyIf condition p).Uses A := by
  unfold onlyIf
  split
  · exact h
  · trivial

/-- A statement whose failure is logged. -/
theorem uses_logged {op : TurnStmt} (h : A op) : (ignore (attempt (call (I := turnStore) op))).Uses A :=
  (uses_call.2 h).attempt.ignore

theorem uses_enqueueOutbound {m : OutboundStatus → TurnMessage} {conversationID : String} (reads : ∀ op, Reads op → A op)
    (inserts : ∀ status, A (.insertOutboundRow (m status))) : (enqueueOutbound m conversationID).Uses A := by
  unfold enqueueOutbound orchWithin24hWindow
  refine Uses.bind (Uses.bind (uses_wrapped (reads _ trivial)) fun _ => Uses.bind (uses_call.2 (reads _ trivial)) fun _ => trivial)
    fun within => ?_
  split
  · exact Uses.bind (uses_wrapped (inserts _)) fun _ => uses_call.2 (reads _ trivial)
  · exact uses_wrapped (inserts _)

theorem resolve_uses {x : TurnInput} {job : OrchestratorJob} : (orchResolveConversationContext x job).Uses Opens := by
  refine Uses.bind (uses_wrapped trivial) fun business => ?_
  cases business with
  | none => trivial
  | some business =>
    refine Uses.bind (uses_wrapped trivial) fun _ => Uses.bind (uses_onlyIf (Uses.bind (uses_wrapped trivial) fun _ =>
      uses_onlyIf (uses_wrapped trivial))) fun _ => ?_
    exact Uses.bind (uses_wrapped trivial) fun _ => Uses.bind (uses_wrapped trivial) fun _ => Uses.bind (uses_wrapped trivial) fun _ =>
      Uses.bind (uses_wrapped trivial) fun _ => trivial

variable {oc : OrchContext}

/-- A text in the conversation of the turn. -/
theorem uses_text {outID businessID textContent : String} :
    (orchEnqueueOutboundText outID businessID oc.conversationID textContent).Uses (Says oc) :=
  uses_enqueueOutbound (fun _ => .reads) fun _ => .message rfl

theorem uses_escalated {reason : String} {p : TurnHandler Unit} (uses : p.Uses (Says oc)) :
    (orchSetEscalated oc.conversationID reason >>= fun _ => p).Uses (Says oc) :=
  Uses.bind (uses_wrapped .escalates) fun _ => uses

theorem uses_escalateBranch {x : TurnInput} {reason notice : String} :
    (escalateBranch x oc.conversationID reason notice).Uses (Says oc) := by
  refine Uses.bind (uses_escalated (Uses.bind (uses_wrapped (.reads trivial)) fun _ => uses_text)) fun _ => trivial

theorem uses_media {x : TurnInput} {latest : Option InboundMessage} :
    (orchProcessMediaPayload x oc.conversationID latest).Uses (Says oc) := by
  unfold orchProcessMediaPayload
  split
  · trivial
  · rename_i latest
    simp only
    split
    · trivial
    · split
      · exact uses_escalateBranch
      · split
        · exact uses_escalateBranch
        · split
          · trivial
          · split
            · exact uses_escalateBranch
            · unfold transcribeAudio
              split
              · exact uses_escalateBranch
              · split
                · trivial
                · exact Uses.bind (uses_wrapped (.reads trivial)) fun _ => trivial

theorem uses_guardrails {x : TurnInput} {textContent : String} : (orchEnforceSafetyGuardrails x oc textContent).Uses (Says oc) := by
  unfold orchEnforceSafetyGuardrails
  split
  · trivial
  · split
    · exact Uses.bind (uses_wrapped .escalates) fun _ => Uses.bind (uses_logged (.reads trivial)) fun _ => Uses.bind uses_text fun _ => trivial
    · trivial

theorem uses_history : orchFetchConversationHistory.Uses (Says oc) :=
  Uses.bind (uses_wrapped (.reads trivial)) fun _ => Uses.bind (uses_wrapped (.reads trivial)) fun _ => uses_wrapped (.reads trivial)

theorem uses_image {outID shortID : String} : (orchSendProductImage outID oc shortID).Uses (Says oc) := by
  unfold orchSendProductImage
  split
  · refine Uses.bind (uses_call.2 (.reads trivial)).attempt fun found => ?_
    cases found with
    | error e => trivial
    | ok p =>
      refine Uses.bind (uses_call.2 (.reads trivial)).attempt fun image => ?_
      split
      · exact uses_enqueueOutbound (fun _ => .reads) fun _ => .message rfl
      · trivial
  · trivial

theorem uses_images {x : TurnInput} (n : Nat) (shortIDs : List String) : (orchSendProductImages x oc n shortIDs).Uses (Says oc) := by
  induction shortIDs generalizing n with
  | nil => trivial
  | cons shortID rest ih => exact Uses.bind uses_image fun _ => ih (n + 1)

theorem uses_transition {intent : Intent} :
    (embed sqlStatements (turnTransition oc.conversationID oc.state intent)).Uses (Says oc) := by
  refine Uses.embed ?_
  unfold turnTransition
  split
  · split
    · exact (uses_call.2 .transition).ignore
    · trivial
  · trivial

theorem uses_confirmedIntent {x : TurnInput} : (confirmedIntent x oc).Uses (Says oc) := by
  refine Uses.bind (uses_call.2 .active).attempt fun active => ?_
  cases active with
  | ok id => trivial
  | error e => exact Uses.bind (uses_call.2 .stages).attempt fun _ => trivial

theorem uses_checkout {x : TurnInput} {latest : Option InboundMessage} {resp : LlmResponse} :
    (orchCheckout x oc latest resp).Uses (Acts oc) := by
  unfold orchCheckout
  split
  · trivial
  · split
    · split
      · trivial
      · exact (uses_confirmedIntent.mono fun _ => .speaks).bind fun _ => uses_logged (.orders rfl)
    · split
      · exact (uses_call.2 (.speaks .stages)).attempt.ignore
      · trivial

theorem uses_response {x : TurnInput} {latest : Option InboundMessage} {resp : LlmResponse} :
    (handleResponse x oc latest resp).Uses (Acts oc) :=
  ((uses_images 1 _).mono fun _ => .speaks).bind fun _ => (uses_text.mono fun _ => .speaks).bind fun _ =>
    (uses_transition.mono fun _ => .speaks).bind fun _ => Uses.bind (uses_logged (.speaks (.reads trivial))) fun _ => uses_checkout

/-- The end of a turn that the LLM is not sure of. -/
theorem uses_unsure {x : TurnInput} {reason notice : String} : (do
    orchSetEscalated oc.conversationID reason
    ignore (attempt (call (I := turnStore) (.aside .push)))
    orchEnqueueOutboundText (x.outboundID 0) oc.businessID oc.conversationID notice : TurnHandler Unit).Uses (Says oc) :=
  Uses.bind (uses_wrapped .escalates) fun _ => Uses.bind (uses_logged (.reads trivial)) fun _ => uses_text

theorem uses_generate {x : TurnInput} {latest : Option InboundMessage} :
    (orchGenerateAndHandleLlmResponse x oc latest).Uses (Acts oc) := by
  refine Uses.bind (uses_wrapped (.speaks (.reads trivial))) fun _ => Uses.bind (uses_onlyIf (uses_wrapped (.speaks (.reads trivial)))) fun _ => ?_
  split
  · trivial
  · split
    · exact uses_unsure.mono fun _ => .speaks
    · exact uses_response

/-- A turn speaks in its conversation only. -/
theorem converse_uses {x : TurnInput} : (converse x oc).Uses (Acts oc) := by
  refine Uses.bind (uses_wrapped (.speaks (.reads trivial))) fun latest => (uses_media.mono fun _ => .speaks).bind fun text => ?_
  cases text with
  | none => trivial
  | some textContent =>
    refine (uses_guardrails.mono fun _ => .speaks).bind fun proceed => ?_
    split
    · exact (uses_history.mono fun _ => .speaks).bind fun _ => uses_generate
    · trivial

end Uses

/-! ## Runs -/

/-- A delivery of the `n`th checkout job. -/
def checkoutTask (n : Nat) (d : Delivery) : TurnHandler Unit := do
  let job : CheckoutJob ← call (I := turnStore) (.takeCheckout n)
  embed sqlStatements (handleCheckout job d)

/-- What others do: time passes and messages arrive. -/
def Outside : TurnStmt → Prop
  | .tick .. | .receive .. => True
  | _ => False

/-- The statements of payments, sweeps and the vendor's other requests. -/
def Beside : Stmt → Prop
  | .checkoutTx .. | .takeoverConversation .. | .releaseConversation .. => False
  | _ => True

/-- What a name may run. -/
inductive TurnJob : TurnName → Program (turnStore.signed TurnName) Unit → Prop where
  | turn (n x job) : TurnJob (.turn n) ((turn x job).signed (.turn n))
  /-- The turn of a worker that is gone has ended. -/
  | recover (n) : TurnJob (.turn n) ((call (I := turnStore) .finish).signed (.turn n))
  | checkout (n k) (d : Delivery) (generated : d.orderID ≠ "") : TurnJob (.checkout n) ((checkoutTask k d).signed (.checkout n))
  | takeover (n businessID id) :
      TurnJob (.vendor n) ((embed sqlStatements (ignore (Handlers.conversationTakeover businessID id))).signed (.vendor n))
  | release (n businessID id) :
      TurnJob (.vendor n) ((embed sqlStatements (ignore (Handlers.conversationRelease businessID id))).signed (.vendor n))
  | beside (n) (p : Handler Unit) (uses : p.Uses Beside) : TurnJob (.other n) ((embed sqlStatements p).signed (.other n))
  | outside (n) (op : TurnStmt) (outside : Outside op) :
      TurnJob (.other n) ((ignore (attempt (call (I := turnStore) op))).signed (.other n))

/-- The runs of a shop's conversations: any statement may fail, lose its reply or be the last of its handler. -/
def turnFlow (allow : TurnWorld → TurnName × TurnStmt → Prop) : Roster (turnStore.signed TurnName) TurnName TurnWorld where
  exec := turnExec
  job := TurnJob
  allow := allow

/-- Every statement proceeds. -/
def unhindered (_ : TurnWorld) (_ : TurnName × TurnStmt) : Prop := True

instance (w : TurnWorld) (op : TurnName × TurnStmt) : Decidable (unhindered w op) := isTrue trivial

end NovoApex.Turns
