import NovoApex.Handlers.Pagination
import NovoApex.Lib.Table
import NovoApex.Lib.Window
import Mathlib.Data.Int.ConditionallyCompleteOrder

/-!
# The messages of a conversation

`conversationMessages` (`internal/handlers/inbox.go`): the newest messages of either
direction, at most `limit` each, merged in ascending order and cut to the newest `limit`.
Nothing that is left out, by the queries or by the cut, is newer than what is answered.
Every table is read once, as it stands at its query.
-/

namespace NovoApex.Inbox
set_option autoImplicit false
open Lib

/-- A row of `inbound_messages`; times in milliseconds, JSON columns as text. -/
structure InboundRow where
  id : String
  whatsappMessageID : String
  senderPhone : String
  recipientPhone : String
  messageType : String
  textContent : Option String
  rawPayload : String
  timestamp : Int
  businessID : Option String
  conversationID : Option String
  createdAt : Int
  deriving DecidableEq

/-- A row of `outbound_messages`. -/
structure OutboundRow where
  id : String
  whatsappMessageID : Option String
  recipientPhone : String
  messageType : String
  textContent : Option String
  templateName : Option String
  imageUrl : Option String
  productID : Option String
  rawPayload : String
  metaResponse : Option String
  status : String
  businessID : Option String
  conversationID : Option String
  createdAt : Int
  deriving DecidableEq

/-- A row of `conversations`, as far as the endpoint asks for it. -/
structure ConversationRow where
  id : String
  businessID : String
  deriving DecidableEq

/-- `inboundMessageJSON` and `outboundMessageJSON`; the times as `epISO` spells them are left as times. -/
inductive MessageJSON where
  | inbound (id whatsappMessageID senderPhone recipientPhone messageType : String) (textContent : Option String) (rawPayload : String)
      (timestamp : Int) (businessID conversationID : Option String) (createdAt : Int) (type : String) (time : Int)
  | outbound (id : String) (whatsappMessageID : Option String) (recipientPhone messageType : String)
      (textContent templateName imageURL productID : Option String) (rawPayload : String) (metaResponse : Option String) (status : String)
      (businessID conversationID : Option String) (createdAt : Int) (type : String) (time : Int)
  deriving DecidableEq

def InboundRow.json (m : InboundRow) : MessageJSON :=
  .inbound m.id m.whatsappMessageID m.senderPhone m.recipientPhone m.messageType m.textContent m.rawPayload m.timestamp m.businessID
    m.conversationID m.createdAt "inbound" m.timestamp

def OutboundRow.json (m : OutboundRow) : MessageJSON :=
  .outbound m.id m.whatsappMessageID m.recipientPhone m.messageType m.textContent m.templateName m.imageUrl m.productID m.rawPayload
    m.metaResponse m.status m.businessID m.conversationID m.createdAt "outbound" m.createdAt

/-- The tables. -/
structure InboxWorld where
  conversations : Table ConversationRow.id
  inbound : Table InboundRow.id
  outbound : Table OutboundRow.id

/-- How the two queries order equal times. -/
structure QueryTies where
  inbound : Sorting fun a b : InboundRow => b.timestamp ≤ a.timestamp
  outbound : Sorting fun a b : OutboundRow => b.createdAt ≤ a.createdAt

/-- `ep_messagesLimit`. -/
def epMessagesLimit (raw : String) : Int64 :=
  if raw = "" then 50
  else
    match Handlers.atoi raw with
    | none => 50
    | some n => if n < 1 then 1 else if n > 200 then 200 else n

/-- `GetConversationIDForBusiness`. -/
def getConversationIDForBusiness (w : InboxWorld) (id businessID : String) : Option String :=
  ((w.conversations.find? id).filter fun c => decide (c.businessID = businessID)).map ConversationRow.id

/-- `ListRecentInboundMessages`. -/
def listRecentInboundMessages (ties : QueryTies) (w : InboxWorld) (conversationID : String) (limit : Int32) : List InboundRow :=
  (ties.inbound.sort (w.inbound.rows.filter fun m => decide (m.conversationID = some conversationID))).take limit.toInt.toNat

/-- `ListRecentOutboundMessages`. -/
def listRecentOutboundMessages (ties : QueryTies) (w : InboxWorld) (conversationID : String) (limit : Int32) : List OutboundRow :=
  (ties.outbound.sort (w.outbound.rows.filter fun m => decide (m.conversationID = some conversationID))).take limit.toInt.toNat

/-- `stamped`. -/
structure Stamped where
  t : Int
  v : MessageJSON

def InboundRow.stamped (m : InboundRow) : Stamped := ⟨m.timestamp, m.json⟩

def OutboundRow.stamped (m : OutboundRow) : Stamped := ⟨m.createdAt, m.json⟩

/-- What the endpoint answers. -/
inductive MessagesAnswer where
  | forbidden (message : String)
  | notFound (message : String)
  | messages (list : List MessageJSON)
  deriving DecidableEq

/-- `conversationMessages`; without a business the token names none. -/
def conversationMessages (ties : QueryTies) (w : InboxWorld) (businessID convID rawLimit : String) : MessagesAnswer :=
  if businessID = "" then .forbidden "No business is associated with this account. Create a business first."
  else
    let limit := epMessagesLimit rawLimit
    match getConversationIDForBusiness w convID businessID with
    | none => .notFound "Conversation not found"
    | some _ =>
      let inRows := listRecentInboundMessages ties w convID limit.toInt32
      let outRows := listRecentOutboundMessages ties w convID limit.toInt32
      let merged := (Sorting.stable fun a b : Stamped => a.t ≤ b.t).sort (inRows.map InboundRow.stamped ++ outRows.map OutboundRow.stamped)
      .messages ((newest limit.toInt.toNat merged).map Stamped.v)

/-! ## The newest messages -/

/-- The messages of a conversation, of both directions. -/
def messagesOf (w : InboxWorld) (conversationID : String) : List Stamped :=
  (w.inbound.rows.filter fun m => decide (m.conversationID = some conversationID)).map InboundRow.stamped ++
    (w.outbound.rows.filter fun m => decide (m.conversationID = some conversationID)).map OutboundRow.stamped

/-- The limit is between 1 and 200, and fits the query. -/
theorem epMessagesLimit_bounds (raw : String) : 1 ≤ (epMessagesLimit raw).toInt ∧ (epMessagesLimit raw).toInt ≤ 200 ∧
    (epMessagesLimit raw).toInt32.toInt = (epMessagesLimit raw).toInt := by
  have bounds : 1 ≤ (epMessagesLimit raw).toInt ∧ (epMessagesLimit raw).toInt ≤ 200 := by
    unfold epMessagesLimit
    split
    · decide
    · split
      · decide
      · rename_i n _
        split
        · decide
        · rename_i least
          split
          · decide
          · rename_i most
            exact ⟨Int64.le_iff_toInt_le.1 (Int64.not_lt.1 least), Int64.le_iff_toInt_le.1 (Int64.not_lt.1 most)⟩
  refine ⟨bounds.1, bounds.2, ?_⟩
  rw [Int64.toInt_toInt32]
  exact Int.bmod_eq_of_le (by omega) (by omega)

/-- No message occurs twice. -/
theorem messagesOf_nodup (w : InboxWorld) (conversationID : String) : ((messagesOf w conversationID).map Stamped.v).Nodup := by
  have inbound : (w.inbound.rows.map InboundRow.json).Nodup := by
    have apart := w.inbound.unique
    refine List.Nodup.of_map (fun j => match j with | .inbound id .. => id | .outbound id .. => id) ?_
    rwa [List.map_map]
  have outbound : (w.outbound.rows.map OutboundRow.json).Nodup := by
    have apart := w.outbound.unique
    refine List.Nodup.of_map (fun j => match j with | .inbound id .. => id | .outbound id .. => id) ?_
    rwa [List.map_map]
  unfold messagesOf
  rw [List.map_append, List.map_map, List.map_map]
  refine List.nodup_append.2 ⟨inbound.sublist (List.filter_sublist.map _), outbound.sublist (List.filter_sublist.map _), ?_⟩
  intro a ha b hb same
  obtain ⟨m, -, rfl⟩ := List.mem_map.1 ha
  obtain ⟨m', -, rfl⟩ := List.mem_map.1 hb
  cases same

/-- A member of a sorted list that is not among the newest is not newer than any of them. -/
theorem older_of_not_newest {all : List Stamped} {k : Nat} (sorted : all.Pairwise fun a b => a.t ≤ b.t) {m : Stamped} (mem : m ∈ all)
    (hidden : m ∉ newest k all) : ∀ s ∈ newest k all, m.t ≤ s.t := by
  intro s shown
  have split : all.take (all.length - k) ++ newest k all = all := List.take_append_drop _ _
  rw [← split, List.pairwise_append] at sorted
  rw [← split, List.mem_append] at mem
  exact sorted.2.2 m (mem.resolve_right hidden) s shown

/-- For a conversation of the business the endpoint answers `limit` of its messages, or all of them if there are fewer: each once, in
ascending order of their times, and none that it leaves out is newer than one that it answers. -/
theorem conversationMessages_newest (ties : QueryTies) (w : InboxWorld) {businessID convID : String} (rawLimit : String)
    (business : businessID ≠ "") (owned : (⟨convID, businessID⟩ : ConversationRow) ∈ w.conversations.rows) :
    ∃ shown : List Stamped, conversationMessages ties w businessID convID rawLimit = .messages (shown.map Stamped.v) ∧
      shown.length = min (epMessagesLimit rawLimit).toInt.toNat (messagesOf w convID).length ∧
      (∀ m ∈ shown, m ∈ messagesOf w convID) ∧ (shown.map Stamped.v).Nodup ∧ (shown.Pairwise fun a b => a.t ≤ b.t) ∧
      ∀ m ∈ messagesOf w convID, m ∉ shown → ∀ s ∈ shown, m.t ≤ s.t := by
  obtain ⟨least, most, narrow⟩ := epMessagesLimit_bounds rawLimit
  have found : getConversationIDForBusiness w convID businessID = some convID := by
    unfold getConversationIDForBusiness
    have row : w.conversations.find? convID = some ⟨convID, businessID⟩ := Table.find?_eq_some.2 ⟨owned, rfl⟩
    rw [row]
    simp [Option.filter]
  let k := (epMessagesLimit rawLimit).toInt.toNat
  let inbound := w.inbound.rows.filter fun m => decide (m.conversationID = some convID)
  let outbound := w.outbound.rows.filter fun m => decide (m.conversationID = some convID)
  let merged := (Sorting.stable fun a b : Stamped => a.t ≤ b.t).sort
    (((ties.inbound.sort inbound).map InboundRow.stamped).take k ++ ((ties.outbound.sort outbound).map OutboundRow.stamped).take k)
  have answer : conversationMessages ties w businessID convID rawLimit = .messages ((newest k merged).map Stamped.v) := by
    unfold conversationMessages listRecentInboundMessages listRecentOutboundMessages
    simp only [if_neg business, found, narrow, List.map_take]
    rfl
  have sortedIn : ((ties.inbound.sort inbound).map InboundRow.stamped).Pairwise fun a b => b.t ≤ a.t :=
    List.pairwise_map.2 (ties.inbound.sorted inbound)
  have sortedOut : ((ties.outbound.sort outbound).map OutboundRow.stamped).Pairwise fun a b => b.t ≤ a.t :=
    List.pairwise_map.2 (ties.outbound.sorted outbound)
  obtain ⟨all, perm, sorted, same⟩ := @newest_merge _ _ _ Stamped.t k _ _ _ _ merged ((ties.inbound.perm inbound).map InboundRow.stamped)
    ((ties.outbound.perm outbound).map OutboundRow.stamped) sortedIn sortedOut (Sorting.perm _ _) (Sorting.sorted _ _)
  have perm : all.Perm (messagesOf w convID) := perm
  have suffix := newest_suffix k all
  rw [← same] at answer
  refine ⟨newest k all, answer, ?_, fun m mem => perm.mem_iff.1 (suffix.subset mem), ?_, sorted.sublist suffix.sublist, fun m mem hidden => ?_⟩
  · unfold newest
    rw [List.length_drop, perm.length_eq]
    omega
  · exact (((perm.map Stamped.v).nodup_iff).2 (messagesOf_nodup w convID)).sublist (suffix.sublist.map _)
  · exact older_of_not_newest sorted (perm.mem_iff.2 mem) hidden

/-! ## A conversation -/

/-- A message of a customer, and the reply to it at the same time. -/
def shortTalk : InboxWorld where
  conversations := ⟨[⟨"conv1", "b1"⟩], List.nodup_singleton _⟩
  inbound := (Table.empty.insert ⟨"in1", "wamid1", "+233200000001", "+233300000001", "text", some "Hello", "\x7b\x7d", 1000, some "b1",
    some "conv1", 1001⟩).getD Table.empty
  outbound := (Table.empty.insert ⟨"out1", none, "+233200000001", "text", some "Hi", none, none, none, "\x7b\x7d", none, "sent", some "b1",
    some "conv1", 1000⟩).getD Table.empty

/-- With a limit of one the reply is answered, which was sent no earlier than the message. -/
theorem short_talk_newest : ∃ shown : List Stamped,
    conversationMessages ⟨Sorting.stable _, Sorting.stable _⟩ shortTalk "b1" "conv1" "1" = .messages (shown.map Stamped.v) ∧ shown.length = 1 := by
  have business : "b1" ≠ "" := by decide
  have owned : (⟨"conv1", "b1"⟩ : ConversationRow) ∈ shortTalk.conversations.rows := List.mem_singleton_self _
  obtain ⟨shown, answer, count, -⟩ := conversationMessages_newest ⟨Sorting.stable _, Sorting.stable _⟩ shortTalk "1" business owned
  have total : (messagesOf shortTalk "conv1").length = 2 := by decide +kernel
  have limit : (epMessagesLimit "1").toInt.toNat = 1 := by decide +kernel
  rw [limit, total] at count
  exact ⟨shown, answer, count⟩

end NovoApex.Inbox
