import NovoApex.Db.Payouts
import NovoApex.Handlers.Vendor
import NovoApex.Outbound.Deliver

/-!
# Vendor replies

`conversationReply` (`internal/handlers/conversations_write.go`), from the decoded body
on: write the row, deliver it in the request, delete it again if that failed, and answer
with the row as it is then. What it answers is a statement of the store, so that the
answers of a run can be told.
-/

namespace NovoApex.Handlers
set_option autoImplicit false
open Lib Program Db Outbound

/-- What a vendor is answered. -/
inductive ReplyResponse where
  | invalid (issue : FieldIssue)
  | error (response : Response)
  | created (row : OutboundRow)
  deriving DecidableEq

/-- The queue, the conversations and the answers. -/
structure ReplyWorld where
  outbound : OutboundWorld
  conversations : Table Conversation.id
  responses : List ReplyResponse

/-- The statements of a reply: those of the queue, and its own. -/
inductive ReplyStmt where
  | outbound (op : OutboundStmt)
  | getConversationWithBusiness (id businessID : String)
  | deleteOutbound (id : String)
  | loadOutbound (id : String)
  | respond (response : ReplyResponse)

@[reducible] def ReplyStmt.Reply : ReplyStmt → Type
  | outbound op => op.Reply
  | getConversationWithBusiness .. => Option Conversation
  | loadOutbound .. => OutboundRow
  | _ => Unit

/-- The interface of a reply. -/
abbrev replyStore : Interface := ⟨ReplyStmt, ReplyStmt.Reply, OutboundErr, .db .transient⟩

/-- The queue as part of it. -/
def queueStatements : outboundStore.Embedding replyStore where
  op := .outbound
  reply _ r := r
  err e := e

/-- `GetConversationWithBusiness`. -/
def getConversationWithBusiness (id businessID : String) (w : ReplyWorld) : Option Conversation :=
  (w.conversations.find? id).filter fun c => decide (c.businessID = businessID) && (w.outbound.businesses.find? c.businessID).isSome

/-- `DELETE FROM outbound_messages WHERE id = $1`. -/
def deleteOutbound (id : String) (w : OutboundWorld) : OutboundWorld :=
  { w with messages := w.messages.delete fun r => decide (r.id = id) }

/-- Execute one statement. -/
def replyExec : replyStore.Exec ReplyWorld
  | .outbound op, w => ((outboundExec op w.outbound).1, { w with outbound := (outboundExec op w.outbound).2 })
  | .getConversationWithBusiness id businessID, w => (.ok (getConversationWithBusiness id businessID w), w)
  | .deleteOutbound id, w => (.ok (), { w with outbound := deleteOutbound id w.outbound })
  | .loadOutbound id, w =>
    match w.outbound.messages.find? id with
    | some row => (.ok row, w)
    | none => (.error (.db .noRows), w)
  | .respond response, w => (.ok (), { w with responses := w.responses ++ [response] })

/-- A vendor's reply: who asks, for which conversation, the text of the body if there is one, and the id, the place in the
send order and the time of the row it writes. -/
structure ReplyRequest where
  businessID : String
  conversationID : String
  text : Option String
  call : OutboundCall
  seq : Int
  createdAt : Int

/-- The row as it is written. -/
def replyRow (q : ReplyRequest) (text : String) (conv : Conversation) : OutboundRow where
  id := q.call.row
  seq := q.seq
  messageType := "text"
  recipient := conv.customerPhone
  status := .pending
  textContent := some text
  imageURL := none
  templateName := none
  businessID := some q.businessID
  conversation := some conv.id
  createdAt := q.createdAt
  whatsappMessageID := none
  metaResponse := none

def respond (response : ReplyResponse) : Program replyStore Unit := call (I := replyStore) (.respond response)

/-- `httpx.WriteError` with an error that has no status. -/
def internalError : ReplyResponse := .error ⟨500, "Internal server error"⟩

/-- The row is written: deliver it and answer. -/
def deliverReply (q : ReplyRequest) (wa : Option Sender) : Program replyStore Unit := do
  let sent ← attempt ((deliver q.call wa q.call.row true).embed queueStatements)
  match sent with
  | .error _ => do
    ignore (attempt (call (I := replyStore) (.deleteOutbound q.call.row)))
    respond internalError
  | .ok _ => do
    let loaded ← attempt (call (I := replyStore) (.loadOutbound q.call.row))
    match loaded with
    | .error _ => respond internalError
    | .ok row => respond (.created row)

/-- `conversationReply`. -/
def conversationReply (q : ReplyRequest) (wa : Option Sender) : Program replyStore Unit :=
  match q.text with
  | none => respond (.invalid ⟨"invalid_type", "text", "Required"⟩)
  | some text =>
    if text.utf8ByteSize < 1 then respond (.invalid ⟨"too_small", "text", "String must contain at least 1 character(s)"⟩)
    else do
      let found ← attempt (call (I := replyStore) (.getConversationWithBusiness q.conversationID q.businessID))
      match found with
      | .error _ => respond internalError
      | .ok none => respond (.error ⟨404, "Conversation not found"⟩)
      | .ok (some conv) => do
        let inserted ← attempt (call (I := replyStore) (.outbound (.insertOutbound (replyRow q text conv))))
        match inserted with
        | .error _ => respond internalError
        | .ok _ => deliverReply q wa

end NovoApex.Handlers
