import NovoApex.Handlers.Pagination
import NovoApex.Lib.Json
import NovoApex.Lib.Program

/-!
# HandleWebhookJob

`internal/workers/webhook.go`: one WhatsApp message becomes a row of
`inbound_messages`, and a debounced run of the orchestrator is asked for. The claim of
the idempotency key and the row commit together, so they are one statement; the enqueue
stands outside the transaction. Which store and which queue the handler works on is left
to its dependencies. A timestamp is in milliseconds.
-/

namespace NovoApex.Workers
set_option autoImplicit false
open Lib Program

/-- `WebhookJob`. -/
structure WebhookJob where
  idempotencyKey : String
  payload : Json
  receivedAt : String

/-- A row of `inbound_messages`, less the raw payload. -/
structure InboundMessage where
  id : String
  whatsappMessageID : String
  senderPhone : String
  recipientPhone : String
  messageType : String
  textContent : Option String
  timestamp : Int
  deriving DecidableEq

/-- `OrchestratorJob`, as the webhook publishes it. -/
structure OrchestratorJob where
  recipientPhone : String
  senderPhone : String
  deriving DecidableEq

/-- `OrchestratorDebounceTaskID`. -/
def orchestratorDebounceTaskID (job : OrchestratorJob) : String := "orchestrator:" ++ job.recipientPhone ++ ":" ++ job.senderPhone

/-! ## The message -/

/-- The members of a payload that is an object. -/
def decodeMessage : Json → Option (List (String × Json))
  | .object members => some members
  | _ => none

/-- `stringField`: a member that is missing or no string is empty. -/
def stringField (message : List (String × Json)) (key : String) : String :=
  match Json.member? key message with
  | some (.string s) => s
  | _ => ""

/-- A string within a nested object. -/
def nestedField (message : List (String × Json)) (key field : String) : Option String :=
  match Json.member? key message with
  | some (.object members) =>
    match Json.member? field members with
    | some (.string s) => some s
    | _ => none
  | _ => none

/-- `imageWithoutCaptionText`. -/
def imageWithoutCaptionText : String :=
  "[System: User uploaded an image without a text caption. Please analyze the image and ask how you can help.]"

/-- `inboundTextContent`. -/
def inboundTextContent (message : List (String × Json)) (messageType : String) : Option String :=
  if messageType = "image" then some ((nestedField message "image" "caption").getD imageWithoutCaptionText)
  else if messageType = "audio" then none
  else nestedField message "text" "body"

/-- `inboundTimestamp`: Meta's seconds, as a string or a number, or else now. -/
def inboundTimestamp (message : List (String × Json)) (now : Int) : Int :=
  match Json.member? "timestamp" message with
  | some (.string s) =>
    match Handlers.atoi s with
    | some secs => if 0 < secs.toInt then secs.toInt * 1000 else now
    | none => now
  | some (.number _ v) => if 0 < v then truncate v * 1000 else now
  | _ => now

/-- The row of a message. -/
def inboundRow (message : List (String × Json)) (id : String) (now : Int) : InboundMessage :=
  let type_ := stringField message "type"
  let messageType := if type_ = "" then "unknown" else type_
  { id := id
    whatsappMessageID := stringField message "id"
    senderPhone := stringField message "from"
    recipientPhone := stringField message "recipientPhone"
    messageType := messageType
    textContent := inboundTextContent message messageType
    timestamp := inboundTimestamp message now }

/-- The run the row asks for. -/
def InboundMessage.run (row : InboundMessage) : OrchestratorJob := ⟨row.recipientPhone, row.senderPhone⟩

/-! ## The handler -/

/-- `WebhookDeps`: the transaction that claims a key and inserts a row, which tells whether the row is new, and
`PublishOrchestratorDebounce`. -/
structure WebhookDeps (I : Interface) where
  persistInbound : String → InboundMessage → Program I Bool
  publishDebounce : OrchestratorJob → Program I Unit
  /-- The payload is not a JSON object; such a job is not retried. -/
  notAnObject : I.Err

/-- What one attempt generates: the id of the row and the clock. -/
structure WebhookAttempt where
  rowID : String
  now : Int
  deriving DecidableEq

/-- `HandleWebhookJob`. A row that is there already ends a first run; a retry asks for the orchestrator again. -/
def handleWebhookJob {I : Interface} (deps : WebhookDeps I) (job : WebhookJob) (isRetry : Bool) (a : WebhookAttempt) : Program I Unit :=
  match decodeMessage job.payload with
  | none => raise deps.notAnObject
  | some message => do
    let inserted ← deps.persistInbound job.idempotencyKey (inboundRow message a.rowID a.now)
    if !inserted && !isRetry then pure ()
    else deps.publishDebounce (inboundRow message a.rowID a.now).run

end NovoApex.Workers
