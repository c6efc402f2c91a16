import NovoApex.Db.Schema
import NovoApex.Lib.TaskQueue
import NovoApex.Workers.Webhook

/-!
# The ingest of WhatsApp messages

`ww_ingestMessage` (`internal/handlers/webhooks_whatsapp.go`) and the claims of
`internal/idempotency`: a delivery claims the idempotency key of its message in an open
transaction, publishes the job and commits. The worker takes the job from the queue and
records the key once more, with the row.

An insert under a key that another open transaction has inserted waits for it. The server
may end an open transaction at any time; its connection then finds nothing to commit. One
part of the state is history that no statement reads: the delivery whose commit made a
claim.
-/

namespace NovoApex.Handlers
set_option autoImplicit false
open Lib Program Workers

/-- The parties: the deliveries of messages, with the keys of theirs, the attempts of the worker, and the database server. -/
inductive IngestName where
  | delivery (n : Nat) (key : String)
  | worker (n : Nat)
  | server
  deriving DecidableEq

/-- The two stores and the history. -/
structure IngestWorld where
  /-- `webhook_events.idempotency_key`, with its unique index. -/
  claims : Table (id : String → String)
  /-- The keys that open transactions of the ingest have inserted. -/
  open_ : IngestName → Option String
  /-- `inbound_messages`, with the unique index on `whatsapp_message_id`. -/
  inbound : Table InboundMessage.whatsappMessageID
  tasks : TaskQueue WebhookJob
  /-- The delivery whose commit made the claim. -/
  claimedBy : String → Option IngestName

inductive IngestStmt where
  | seen (key : String)
  /-- `BEGIN` and `Record`. -/
  | claim (key : String)
  | enqueue (job : WebhookJob)
  | commit
  | rollback
  /-- The server ends a transaction. -/
  | abort (who : IngestName)
  | dequeue (taskID : String)
  /-- The worker's transaction. -/
  | persistInbound (key : String) (row : InboundMessage)
  | publishDebounce (job : OrchestratorJob)
  /-- The attempt at a task has ended, without an error or with one, which may skip the retries. -/
  | finish (taskID : String) (error : Option Bool)

/-- What a statement answers. -/
@[reducible] def IngestStmt.Reply : IngestStmt → Type
  | seen .. => Bool
  | claim .. => Bool
  | enqueue .. => Unit
  | commit => Unit
  | rollback => Unit
  | abort .. => Unit
  | dequeue .. => Option (WebhookJob × Nat)
  | persistInbound .. => Bool
  | publishDebounce .. => Unit
  | finish .. => Unit

inductive IngestErr where
  | db (e : Err)
  /-- The publish of a job failed. -/
  | publish (e : IngestErr)
  /-- The transaction is gone. -/
  | noTransaction
  | notAnObject
  deriving DecidableEq

/-- The interface of the two stores. -/
abbrev ingestStore : Interface := ⟨IngestStmt, IngestStmt.Reply, IngestErr, .db .transient⟩

/-- Nobody else's open transaction has inserted the key. -/
def unlocked (key : String) (i : IngestName) (w : IngestWorld) : Prop := ∀ j, w.open_ j = some key → j = i

/-- The claims, with one more key unless it is there. -/
def record (key : String) (claims : Table (id : String → String)) : Table (id : String → String) := (claims.insert key).getD claims

/-- `MaxRetry` of the job. -/
def webhookMaxRetry : Nat := 2

/-- The worker's transaction: `Record`, and the row unless the message is there. -/
def persistInbound (key : String) (row : InboundMessage) (w : IngestWorld) : Bool × IngestWorld :=
  let claims := if key = "" then w.claims else record key w.claims
  match w.inbound.insert row with
  | some inbound => (true, { w with claims := claims, inbound := inbound })
  | none => (false, { w with claims := claims })

/-- Execute one statement. -/
def ingestExec : (ingestStore.signed IngestName).Exec IngestWorld
  | (_, .seen key), w => (.ok (decide (key ∈ w.claims.rows)), w)
  | (i, .claim key), w =>
    if key ∈ w.claims.rows then (.ok false, { w with open_ := Function.update w.open_ i none })
    else (.ok true, { w with open_ := Function.update w.open_ i (some key) })
  | (_, .enqueue job), w => (.ok (), { w with tasks := w.tasks.enqueue job.idempotencyKey job })
  | (i, .commit), w =>
    match w.open_ i with
    | none => (.error .noTransaction, w)
    | some key =>
      (.ok (), { w with
        claims := record key w.claims
        open_ := Function.update w.open_ i none
        claimedBy := Function.update w.claimedBy key (some i) })
  | (i, .rollback), w => (.ok (), { w with open_ := Function.update w.open_ i none })
  | (_, .abort who), w => (.ok (), { w with open_ := Function.update w.open_ who none })
  | (_, .dequeue taskID), w =>
    match w.tasks.slot taskID with
    | .live job retried => (.ok (some (job, retried)), w)
    | _ => (.ok none, w)
  | (_, .persistInbound key row), w => (.ok (persistInbound key row w).1, (persistInbound key row w).2)
  | (_, .publishDebounce _), w => (.ok (), w)
  | (_, .finish taskID error), w =>
    match error, w.tasks.slot taskID with
    | none, .live _ _ => (.ok (), { w with tasks := w.tasks.complete taskID })
    | some skip, .live job retried =>
      (.ok (), { w with tasks := w.tasks.fail (if skip then 0 else webhookMaxRetry) taskID job retried })
    | _, _ => (.ok (), w)

/-! ## The ingest -/

/-- What a delivery logs. -/
inductive IngestOutcome where
  | published
  | duplicate
  deriving DecidableEq

/-- `ProcessOnce` around the publish of the job; false is a claim that another one made. -/
def processOnce (job : WebhookJob) : Program ingestStore Bool := do
  let claimed : Bool ← call (I := ingestStore) (.claim job.idempotencyKey)
  if claimed then
    let published ← attempt (mapErr IngestErr.publish (call (I := ingestStore) (.enqueue job)))
    match published with
    | .error e => do
      let _ ← attempt (call (I := ingestStore) .rollback)
      raise e
    | .ok _ => do
      let _ : Unit ← call (I := ingestStore) .commit
      pure true
  else pure false

/-- `ww_ingestMessage`: its outcome, or its error, is what it logs. -/
def wwIngestMessage (job : WebhookJob) : Program ingestStore IngestOutcome := do
  -- a failed look is not a duplicate
  let seen ← attempt (call (I := ingestStore) (.seen job.idempotencyKey))
  if seen = .ok true then pure .duplicate
  else do
    let processed ← processOnce job
    pure (if processed then .published else .duplicate)

/-! ## The worker -/

/-- The worker's store and queue. -/
def ingestDeps : WebhookDeps ingestStore where
  persistInbound key row := call (I := ingestStore) (.persistInbound key row)
  publishDebounce job := call (I := ingestStore) (.publishDebounce job)
  notAnObject := .notAnObject

/-- One attempt of the worker at the task under an id. -/
def workWebhook (taskID : String) (a : WebhookAttempt) : Program ingestStore Unit := do
  let task : Option (WebhookJob × Nat) ← call (I := ingestStore) (.dequeue taskID)
  match task with
  | none => pure ()
  | some (job, retried) => do
    let result ← attempt (handleWebhookJob ingestDeps job (decide (0 < retried)) a)
    match result with
    | .ok _ => call (I := ingestStore) (.finish taskID none)
    | .error e => call (I := ingestStore) (.finish taskID (some (decide (e = .notAnObject))))

end NovoApex.Handlers
