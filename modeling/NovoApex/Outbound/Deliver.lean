import NovoApex.Db.Outbound

/-!
# Deliver

`internal/outbound/outbound.go`: load the row, skip what is sent or has a verdict,
and under the conversation's advisory lock send every pending row of the conversation
up to this one in `seq` order. A failed status write after a send is logged only.
The asynq handler of `internal/workers/outbound.go` runs it as the task of the row.
-/

namespace NovoApex.Outbound
set_option autoImplicit false
open Lib Program Db

/-- A handler of the outbound queue. -/
abbrev OutboundHandler (α : Type) : Type := Program outboundStore α

/-- `Sender`: what WhatsApp does with each request of one call. -/
abbrev Sender : Type := QueuedMessage → SendRequest → SendOutcome

/-- A text column that is neither NULL nor empty. -/
def present (text : Option String) : Bool := text.any fun t => decide (t ≠ "")

/-- The request a row is sent as. -/
def sendRequest (m : QueuedMessage) : Option SendRequest :=
  if m.messageType = "text" ∧ present m.textContent then
    some (.text m.phoneNumberID m.recipient (m.textContent.getD ""))
  else if m.messageType = "image" ∧ present m.imageURL then
    some (.image m.phoneNumberID m.recipient (m.imageURL.getD "") (m.textContent.getD ""))
  else if m.messageType = "template" ∧ present m.templateName then
    some (.template m.phoneNumberID m.recipient (m.templateName.getD "") "en_US")
  else none

/-- `sendOutbound`. -/
def sendOutbound (wa : Option Sender) (m : QueuedMessage) : OutboundHandler MetaResponse :=
  match wa with
  | none => raise (.sender "whatsapp sender not configured")
  | some wa =>
    match sendRequest m with
    | some request => call (I := outboundStore) (.send m request (wa m request))
    | none => raise (.sender ("unsupported messageType or missing content: " ++ m.messageType))

/-- `extractWhatsAppMessageID`; the empty id is stored as NULL. -/
def extractWhatsAppMessageID (r : MetaResponse) : Option String := (r.messages.head?.getD none).filter fun id => decide (id ≠ "")

/-- The text of a send error. -/
def sendErrorText : OutboundErr → String
  | .sender message => message
  | _ => ""

/-- `deliverOutbound`: send one row and record the result. -/
def deliverOutbound (on : Option OutboundCall) (wa : Option Sender) (m : QueuedMessage) (markFailed : Bool) :
    OutboundHandler Unit := do
  let sent ← attempt (sendOutbound wa m)
  match sent with
  | .error e => do
    if markFailed then ignore (attempt (call (I := outboundStore) (.markFailed on m.id (sendErrorText e)))) else pure ()
    raise (.context ("outbound: send " ++ m.id) e)
  | .ok response =>
    ignore (attempt (call (I := outboundStore) (.markSent on m.id (extractWhatsAppMessageID response) response)))

/-- `skipOutbound`. -/
def skipOutbound (m : QueuedMessage) : Bool := decide (m.status = .sent) || m.status.isVerdict

/-- The loop over the backlog; only the error of the own row is kept. -/
def deliverBacklog (c : OutboundCall) (wa : Option Sender) (id : String) (finalAttempt : Bool) :
    Option OutboundErr → List QueuedMessage → OutboundHandler (Option OutboundErr)
  | ownErr, [] => pure ownErr
  | ownErr, msg :: rest => do
    let own := decide (msg.id = id)
    let delivered ← attempt (deliverOutbound (some c) wa msg (own && finalAttempt))
    match delivered with
    | .error e => deliverBacklog c wa id finalAttempt (if own then some e else ownErr) rest
    | .ok _ => deliverBacklog c wa id finalAttempt ownErr rest

/-- The key of a conversation's lock. -/
def lockKey (conversation : String) : String := "outbound-conversation:" ++ conversation

/-- What runs under the lock. -/
def flushConversation (c : OutboundCall) (wa : Option Sender) (id : String) (finalAttempt : Bool) (conversation : String) (seq : Int) :
    OutboundHandler (Option OutboundErr) := do
  let backlog : List QueuedMessage ← call (I := outboundStore) (.loadBacklog c conversation seq)
  deliverBacklog c wa id finalAttempt none backlog

/-- The deferred unlock: a connection that may still hold the lock is closed. -/
def unlockConversation (c : OutboundCall) (key : String) : OutboundHandler Unit := do
  let unlocked ← attempt (call (I := outboundStore) (.unlockConversation c key))
  match unlocked with
  | .error _ => ignore (attempt (call (I := outboundStore) (.close c)))
  | .ok _ => ignore (attempt (call (I := outboundStore) (.release c)))

/-- The result of a call under the lock. -/
def deliverResult : Except OutboundErr (Option OutboundErr) → Except OutboundErr Unit
  | .ok none => .ok ()
  | .ok (some e) => .error e
  | .error e => .error (.context "outbound: load conversation backlog" e)

/-- `Deliver` for a row of a conversation. -/
def deliverConversation (c : OutboundCall) (wa : Option Sender) (id : String) (finalAttempt : Bool) (conversation : String) (seq : Int) :
    OutboundHandler Unit := do
  let acquired ← attempt (call (I := outboundStore) (.acquire c))
  match acquired with
  | .error e => raise (.context "outbound: acquire connection" e)
  | .ok _ => do
    let locked ← attempt (call (I := outboundStore) (.lockConversation c (lockKey conversation)))
    match locked with
    | .error e => do
      ignore (attempt (call (I := outboundStore) (.release c)))
      raise (.context ("outbound: lock conversation " ++ conversation) e)
    | .ok _ => do
      let flushed ← attempt (flushConversation c wa id finalAttempt conversation seq)
      unlockConversation c (lockKey conversation)
      ret (deliverResult flushed)

/-- `Deliver`. -/
def deliver (c : OutboundCall) (wa : Option Sender) (id : String) (finalAttempt : Bool) : OutboundHandler Unit := do
  let loaded ← attempt (call (I := outboundStore) (.loadMessage id))
  match loaded with
  | .error e => raise (.context ("outbound: load message " ++ id) e)
  | .ok none => pure ()
  | .ok (some m) =>
    if skipOutbound m then pure ()
    else
      match m.conversation with
      | none => deliverOutbound none wa m finalAttempt
      | some conversation => deliverConversation c wa id finalAttempt conversation m.seq

/-- `HandleOutboundSend` as asynq runs it: under the task id of its row, which is free again when the handler is through. -/
def handleOutboundSend (c : OutboundCall) (wa : Option Sender) (finalAttempt : Bool) : OutboundHandler Unit := do
  let _ : Unit ← call (I := outboundStore) (.startTask c)
  ignore (attempt (deliver c wa c.row finalAttempt))
  call (I := outboundStore) (.finishTask c)

/-! ## Rows and messages -/

variable {w : OutboundWorld}

/-- What a message is scanned to. -/
theorem joined_eq {r : OutboundRow} {m : QueuedMessage} (h : joined w r = some m) :
    m.id = r.id ∧ m.seq = r.seq ∧ m.status = r.status ∧ m.conversation = r.conversation := by
  unfold joined at h
  obtain ⟨b, -, rfl⟩ := Option.map_eq_some_iff.1 h
  exact ⟨rfl, rfl, rfl, rfl⟩

theorem loadMessage_eq {id : String} {m : QueuedMessage} (h : loadMessage id w = some m) :
    ∃ row ∈ w.messages.rows, row.id = id ∧ joined w row = some m := by
  obtain ⟨row, found, scanned⟩ := Option.bind_eq_some_iff.1 h
  obtain ⟨mem, named⟩ := Table.find?_eq_some.1 found
  exact ⟨row, mem, named, scanned⟩

end NovoApex.Outbound
