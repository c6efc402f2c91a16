import NovoApex.Db.Schema
import NovoApex.Lib.Program
import Mathlib.Data.List.Sort

/-!
# The store of the outbound queue

The statements of `outbound.go` and of the outbox sweep (`crons.go`), one by one.
Next to `outbound_messages` stand the connections that hold conversation locks, the
sweeps' transactions, the tasks asynq runs, and what was handed to the sender.

A connection remembers the rows it has read as its backlog and whose outcome it has
not recorded; nothing in the program reads that. A sweep's verdicts become visible at
its commit, and until then a status write on one of those rows waits.
-/

namespace NovoApex.Db
set_option autoImplicit false
open Lib

/-- `outbound_messages.status`. -/
inductive OutboundStatus where
  | pending | sent | failed | failedStale | failed24hWindowClosed
  deriving DecidableEq, Repr

/-- `strings.HasPrefix(status, "failed_")`: a compliance verdict. -/
def OutboundStatus.isVerdict : OutboundStatus → Bool
  | .failedStale => true
  | .failed24hWindowClosed => true
  | _ => false

/-- The columns of `businesses` that delivery reads. -/
structure OutboundBusiness where
  id : String
  whatsappPhoneNumberID : String
  deriving DecidableEq

/-- The answer of the Cloud API: the entries of `messages`, with their string ids. -/
structure MetaResponse where
  messages : List (Option String)
  deriving DecidableEq, Repr

/-- `outbound_messages.meta_response`. -/
inductive MetaRecord where
  | response (r : MetaResponse)
  | error (message : String)
  deriving DecidableEq, Repr

/-- A row of `outbound_messages`. -/
structure OutboundRow where
  id : String
  seq : Int
  messageType : String
  recipient : String
  status : OutboundStatus
  textContent : Option String
  imageURL : Option String
  templateName : Option String
  businessID : Option String
  conversation : Option String
  createdAt : Int
  whatsappMessageID : Option String
  metaResponse : Option MetaRecord
  deriving DecidableEq

/-- `outboundMessage`: a row with its business's phone number id. -/
structure QueuedMessage where
  id : String
  seq : Int
  messageType : String
  recipient : String
  status : OutboundStatus
  textContent : Option String
  imageURL : Option String
  templateName : Option String
  phoneNumberID : String
  conversation : Option String
  deriving DecidableEq

/-- `scanOutbound`. -/
def OutboundRow.scan (r : OutboundRow) (phoneNumberID : String) : QueuedMessage where
  id := r.id
  seq := r.seq
  messageType := r.messageType
  recipient := r.recipient
  status := r.status
  textContent := r.textContent
  imageURL := r.imageURL
  templateName := r.templateName
  phoneNumberID := phoneNumberID
  conversation := r.conversation

/-- What the sender is asked to send. -/
inductive SendRequest where
  | text (phoneNumberID recipient text : String)
  | image (phoneNumberID recipient imageURL caption : String)
  | template (phoneNumberID recipient templateName languageCode : String)
  deriving DecidableEq, Repr

/-- What WhatsApp does with a request: whether it accepts it, and what the sender returns. -/
structure SendOutcome where
  accepted : Bool
  answer : Except String MetaResponse

/-- A request that reached the sender. -/
structure Sending where
  id : String
  seq : Int
  conversation : Option String
  request : SendRequest
  accepted : Bool
  deriving DecidableEq, Repr

/-- One call of `Deliver`: the row it is for, and a number to tell it from the others. -/
structure OutboundCall where
  attempt : Nat
  row : String
  deriving DecidableEq, Repr

/-- The connection of a call, with the rows of its backlog that it has not recorded. -/
structure Connection where
  id : OutboundCall
  closed : Bool
  backlog : List String
  deriving DecidableEq

/-- The transaction of a sweep, with the rows it has marked `failed_stale`. -/
structure SweepTx where
  id : String
  ended : Bool
  locked : Bool
  stale : List String
  deriving DecidableEq

/-- A stranded row as the sweep reads it; a NULL conversation is the empty string. -/
structure StrandedRow where
  id : String
  conversationID : String
  deriving DecidableEq

/-- The errors of the outbound queue. -/
inductive OutboundErr where
  | db (e : Err)
  /-- The connection is closed. -/
  | connClosed
  /-- The transaction has ended. -/
  | txClosed
  /-- The send failed. -/
  | sender (message : String)
  /-- `fmt.Errorf("context: %w", cause)`. -/
  | context (text : String) (cause : OutboundErr)
  deriving DecidableEq, Repr

/-- The tables, sessions and tasks of the outbound queue, and the sender's log. -/
structure OutboundWorld where
  businesses : Table OutboundBusiness.id
  messages : Table OutboundRow.id
  connections : Table Connection.id
  /-- The session-level advisory locks, by key. -/
  locks : String → Option OutboundCall
  transactions : Table SweepTx.id
  /-- The send tasks asynq is running. -/
  tasks : List OutboundCall
  sends : List Sending

/-- The statements of the outbound queue, the sender's calls and the queue's. -/
inductive OutboundStmt where
  | loadMessage (id : String)
  | acquire (c : OutboundCall)
  | lockConversation (c : OutboundCall) (key : String)
  | loadBacklog (c : OutboundCall) (conversation : String) (seq : Int)
  | unlockConversation (c : OutboundCall) (key : String)
  /-- Give the connection back to the pool; the driver has closed it if a statement broke off. -/
  | release (c : OutboundCall)
  | close (c : OutboundCall)
  /-- The server loses the connection while its call may still run. -/
  | loseConnection (c : OutboundCall)
  | send (m : QueuedMessage) (request : SendRequest) (outcome : SendOutcome)
  | markSent (on : Option OutboundCall) (id : String) (whatsappMessageID : Option String) (response : MetaResponse)
  | markFailed (on : Option OutboundCall) (id : String) (error : String)
  | insertOutbound (row : OutboundRow)
  | begin (tx : String)
  | lockSweep (tx : String)
  | stranded (tx : String) (cutoff : Int)
  | newerSent (tx conversationID id : String)
  | markFailedStale (tx id : String)
  | commit (tx : String)
  | rollback (tx : String)
  | publishOutbound (id : String)
  | startTask (c : OutboundCall)
  | finishTask (c : OutboundCall)

/-- What a statement answers. -/
@[reducible] def OutboundStmt.Reply : OutboundStmt → Type
  | loadMessage .. => Option QueuedMessage
  | loadBacklog .. => List QueuedMessage
  | send .. => MetaResponse
  | stranded .. => List StrandedRow
  | newerSent .. => Option String
  | _ => Unit

/-- The interface of the outbound queue. -/
abbrev outboundStore : Interface := ⟨OutboundStmt, OutboundStmt.Reply, OutboundErr, .db .transient⟩

/-! ## Reading -/

/-- `JOIN businesses b ON b.id = o.business_id`, scanned. -/
def joined (w : OutboundWorld) (r : OutboundRow) : Option QueuedMessage :=
  (r.businessID.bind w.businesses.find?).map fun b => r.scan b.whatsappPhoneNumberID

/-- The row under an id, with its business. -/
def loadMessage (id : String) (w : OutboundWorld) : Option QueuedMessage := (w.messages.find? id).bind (joined w)

/-- The pending rows of a conversation up to `seq`, in order. -/
def loadBacklog (conversation : String) (seq : Int) (w : OutboundWorld) : List QueuedMessage :=
  ((w.messages.rows.filter fun r => decide (r.conversation = some conversation) && decide (r.status = .pending) &&
    decide (r.seq ≤ seq)).filterMap (joined w)).insertionSort fun a b => a.seq ≤ b.seq

/-- `LIMIT 100`. -/
def strandedLimit : Nat := 100

/-- The oldest pending rows from before the cutoff. -/
def stranded (cutoff : Int) (w : OutboundWorld) : List StrandedRow :=
  (((w.messages.rows.filter fun r => decide (r.status = .pending) && decide (r.createdAt < cutoff)).insertionSort
    fun a b => a.createdAt ≤ b.createdAt).take strandedLimit).map fun r => ⟨r.id, r.conversation.getD ""⟩

/-- A row of the conversation that was sent and is newer; the transaction sees its own verdicts. -/
def newerSent (stale : List String) (conversationID id : String) (w : OutboundWorld) : Option String :=
  (w.messages.find? id).bind fun r =>
    (w.messages.rows.find? fun n => decide (n.conversation = some conversationID) && decide (n.status = .sent) &&
      decide (n.id ∉ stale) && decide (r.createdAt < n.createdAt)).map OutboundRow.id

/-! ## Writing -/

/-- Write the status of one row. -/
def setOutbound (id : String) (f : OutboundRow → OutboundRow) (keeps : ∀ r, (f r).id = r.id) (w : OutboundWorld) :
    OutboundWorld :=
  { w with messages := w.messages.update (fun r => decide (r.id = id)) f keeps }

/-- `SET status = 'sent', whatsapp_message_id, meta_response`. -/
def OutboundRow.markSent (whatsappMessageID : Option String) (response : MetaResponse) (r : OutboundRow) : OutboundRow :=
  { r with status := .sent, whatsappMessageID := whatsappMessageID, metaResponse := some (.response response) }

theorem OutboundRow.markSent_id (whatsappMessageID : Option String) (response : MetaResponse) (r : OutboundRow) :
    (r.markSent whatsappMessageID response).id = r.id := rfl

/-- `SET status = 'failed', meta_response`. -/
def OutboundRow.markFailed (error : String) (r : OutboundRow) : OutboundRow :=
  { r with status := .failed, metaResponse := some (.error error) }

/-- The connection of a call, while it is open. -/
def openConnection (c : OutboundCall) (w : OutboundWorld) : Option Connection :=
  (w.connections.find? c).filter fun conn => !conn.closed

/-- Rewrite one connection. -/
def setConnection (c : OutboundCall) (f : Connection → Connection) (keeps : ∀ x, (f x).id = x.id) (w : OutboundWorld) :
    OutboundWorld :=
  { w with connections := w.connections.update (fun x => decide (x.id = c)) f keeps }

/-- A statement on the connection of a call, or on the pool. -/
def onConnection {α : Type} (on : Option OutboundCall) (w : OutboundWorld) (f : Except OutboundErr α × OutboundWorld) :
    Except OutboundErr α × OutboundWorld :=
  match on with
  | none => f
  | some c =>
    match openConnection c w with
    | some _ => f
    | none => (.error .connClosed, w)

/-- The connection has recorded the outcome of a row. -/
def recorded (on : Option OutboundCall) (id : String) (w : OutboundWorld) : OutboundWorld :=
  match on with
  | none => w
  | some c => setConnection c (fun x => { x with backlog := x.backlog.erase id }) (fun _ => rfl) w

/-- Close a connection: its advisory locks are released. -/
def closeConnection (c : OutboundCall) (w : OutboundWorld) : OutboundWorld :=
  { setConnection c (fun x => { x with closed := true, backlog := [] }) (fun _ => rfl) w with
    locks := fun k => if w.locks k = some c then none else w.locks k }

/-- The sweep's transaction, while it is open. -/
def openSweep (tx : String) (w : OutboundWorld) : Option SweepTx := (w.transactions.find? tx).filter fun t => !t.ended

/-- Rewrite one transaction. -/
def setSweep (tx : String) (f : SweepTx → SweepTx) (keeps : ∀ t, (f t).id = t.id) (w : OutboundWorld) : OutboundWorld :=
  { w with transactions := w.transactions.update (fun t => decide (t.id = tx)) f keeps }

/-- A statement of an open transaction. -/
def withinSweep {α : Type} (tx : String) (w : OutboundWorld) (f : SweepTx → Except OutboundErr α × OutboundWorld) :
    Except OutboundErr α × OutboundWorld :=
  match openSweep tx w with
  | some t => f t
  | none => (.error .txClosed, w)

/-- End a sweep's transaction. -/
def endSweep (tx : String) (w : OutboundWorld) : OutboundWorld :=
  setSweep tx (fun t => { t with ended := true }) (fun _ => rfl) w

/-- Make a sweep's verdicts visible. -/
def applyStale (stale : List String) (w : OutboundWorld) : OutboundWorld :=
  { w with
    messages := w.messages.update (fun r => decide (r.id ∈ stale)) (fun r => { r with status := .failedStale }) fun _ => rfl }

/-- `INSERT INTO outbound_messages`, with the constraints of the table. -/
def insertOutbound (row : OutboundRow) (w : OutboundWorld) : Except OutboundErr OutboundWorld :=
  if row.businessID.any fun b => (w.businesses.find? b).isNone then
    .error (.db (.foreignKeyViolation "outbound_messages_business_id_fkey"))
  else
    match w.messages.insert row with
    | some messages => .ok { w with messages := messages }
    | none => .error (.db (.uniqueViolation "outbound_messages_pkey"))

/-- Execute one statement. -/
def outboundExec : outboundStore.Exec OutboundWorld
  | .loadMessage id, w => (.ok (loadMessage id w), w)
  | .acquire c, w =>
    match w.connections.insert ⟨c, false, []⟩ with
    | some connections => (.ok (), { w with connections := connections })
    | none => (.error .connClosed, w)
  | .lockConversation c key, w =>
    onConnection (some c) w (.ok (), { w with locks := Function.update w.locks key (some c) })
  | .loadBacklog c conversation seq, w =>
    onConnection (some c) w (.ok (loadBacklog conversation seq w),
      setConnection c (fun x => { x with backlog := (loadBacklog conversation seq w).map QueuedMessage.id }) (fun _ => rfl) w)
  | .unlockConversation c key, w =>
    onConnection (some c) w (.ok (), setConnection c (fun x => { x with backlog := [] }) (fun _ => rfl)
      { w with locks := fun k => if k = key ∧ w.locks k = some c then none else w.locks k })
  | .release c, w => (.ok (), closeConnection c w)
  | .close c, w => (.ok (), closeConnection c w)
  | .loseConnection c, w => (.ok (), closeConnection c w)
  | .send m request outcome, w =>
    (outcome.answer.mapError .sender, { w with sends := w.sends ++ [⟨m.id, m.seq, m.conversation, request, outcome.accepted⟩] })
  | .markSent on id whatsappMessageID response, w =>
    onConnection on w (.ok (), recorded on id (setOutbound id (.markSent whatsappMessageID response) (OutboundRow.markSent_id whatsappMessageID response) w))
  | .markFailed on id error, w =>
    onConnection on w (.ok (), recorded on id (setOutbound id (.markFailed error) (fun _ => rfl) w))
  | .insertOutbound row, w =>
    match insertOutbound row w with
    | .ok w' => (.ok (), w')
    | .error e => (.error e, w)
  | .begin tx, w =>
    match w.transactions.insert ⟨tx, false, false, []⟩ with
    | some transactions => (.ok (), { w with transactions := transactions })
    | none => (.error .txClosed, w)
  | .lockSweep tx, w => withinSweep tx w fun _ => (.ok (), setSweep tx (fun t => { t with locked := true }) (fun _ => rfl) w)
  | .stranded tx cutoff, w => withinSweep tx w fun _ => (.ok (stranded cutoff w), w)
  | .newerSent tx conversationID id, w => withinSweep tx w fun t => (.ok (newerSent t.stale conversationID id w), w)
  | .markFailedStale tx id, w =>
    withinSweep tx w fun _ => (.ok (), setSweep tx (fun t => { t with stale := id :: t.stale }) (fun _ => rfl) w)
  | .commit tx, w => withinSweep tx w fun t => (.ok (), endSweep tx (applyStale t.stale w))
  | .rollback tx, w => (.ok (), endSweep tx w)
  | .publishOutbound _, w => (.ok (), w)
  | .startTask c, w => (.ok (), { w with tasks := c :: w.tasks })
  | .finishTask c, w => (.ok (), { w with tasks := w.tasks.filter fun t => decide (t ≠ c) })

/-- No open sweep other than `tx` has written the row. -/
def unwritten (tx : Option String) (id : String) (w : OutboundWorld) : Prop :=
  ∀ t ∈ w.transactions.rows, tx ≠ some t.id → t.ended = false → id ∉ t.stale

instance (tx : Option String) (id : String) (w : OutboundWorld) : Decidable (unwritten tx id w) := by
  unfold unwritten
  infer_instance

/-- When a statement proceeds: an advisory lock waits for its holder, a status write for the sweep that wrote the row,
and asynq runs one task per task id. -/
def outboundProceeds (w : OutboundWorld) : OutboundStmt → Prop
  | .lockConversation _ key => w.locks key = none
  | .lockSweep tx => ∀ t ∈ w.transactions.rows, t.id ≠ tx → t.ended = false → t.locked = false
  | .markSent _ id _ _ => unwritten none id w
  | .markFailed _ id _ => unwritten none id w
  | .markFailedStale tx id => unwritten (some tx) id w
  | .startTask c => ∀ t ∈ w.tasks, t.row ≠ c.row
  | _ => True

instance (w : OutboundWorld) : DecidablePred (outboundProceeds w) := fun op => by
  unfold outboundProceeds
  split <;> infer_instance

end NovoApex.Db
