import NovoApex.Db.Schema
import NovoApex.Lib.Program
import Mathlib.Data.List.Sort

/-!
# The store of the event dispatcher

`domain_events` (migration `0004_domain_events.sql`) as the dispatcher reads and
writes it, statement by statement: what a drain writes becomes visible at its commit,
and the advisory lock it took is held until its transaction ends. The log records what
producers committed, which calls of `Enqueue` returned nil and which failed publishes
a committed drain has recorded; the code never reads it.
-/

namespace NovoApex.Db
set_option autoImplicit false
open Lib

/-- `"EventStatus"`. -/
inductive EventStatus where
  | pending
  | published
  | dead
  deriving DecidableEq, Repr

/-- A row of `domain_events`; the payload as text. -/
structure EventRow where
  id : String
  aggregateType : String
  aggregateID : String
  eventType : String
  payload : String
  occurredAt : Int
  publishedAt : Option Int
  attempts : Int
  lastError : Option String
  status : EventStatus
  deriving DecidableEq, Repr

/-- `Subscription`. -/
structure Subscription where
  queue : String
  taskType : String
  deriving DecidableEq, Repr

/-- A pending event as a drain reads it. -/
structure PendingEvent where
  id : String
  aggregateID : String
  eventType : String
  payload : String
  attempts : Int
  deriving DecidableEq, Repr

/-- What a drain writes about one event. -/
inductive EventOutcome where
  | failed (attempts : Int) (lastError : String) (status : EventStatus)
  | published
  deriving DecidableEq, Repr

/-- A write that waits for the commit of its drain. -/
structure EventWrite where
  id : String
  outcome : EventOutcome
  deriving DecidableEq, Repr

/-- The transaction of a drain: when it began, whether it has the dispatcher's lock, and what it wrote. -/
structure DrainTx where
  id : String
  ended : Bool
  locked : Bool
  now : Int
  writes : List EventWrite
  deriving DecidableEq

/-- What the log records. -/
inductive EventEntry where
  | committed (id : String)
  | enqueued (id : String) (sub : Subscription) (payload : String)
  | failed (id tx : String)
  deriving DecidableEq, Repr

/-- The errors of a drain. -/
inductive EventErr where
  | db (e : Err)
  /-- The transaction has ended. -/
  | txClosed
  | message (text : String)
  /-- `fmt.Errorf("context: %w", cause)`. -/
  | context (text : String) (cause : EventErr)
  deriving DecidableEq, Repr

/-- `err.Error()`; the texts of the driver are not told apart. -/
def EventErr.text : EventErr → String
  | .db _ => "database or queue error"
  | .txClosed => "tx is closed"
  | .message text => text
  | .context text cause => text ++ ": " ++ cause.text

/-- The table, the transactions of the drains and the log. -/
structure EventWorld where
  events : Table EventRow.id
  drains : Table DrainTx.id
  log : List EventEntry

/-- The statements of the dispatcher, the publisher's calls and the producers' commits. -/
inductive EventStmt where
  | begin (tx : String) (now : Int)
  | lockDispatcher (tx : String)
  | queryPending (tx : String) (limit : Nat)
  /-- The id is the event's that is published. -/
  | enqueue (id : String) (sub : Subscription) (payload : String)
  | recordFailed (tx id : String) (attempts : Int) (lastError : String) (status : EventStatus)
  | markPublished (tx id : String)
  | commit (tx : String)
  | rollback (tx : String)
  /-- A producer's transaction commits an event. -/
  | insertEvent (id aggregateType aggregateID eventType payload : String) (now : Int)

/-- What a statement answers. -/
@[reducible] def EventStmt.Reply : EventStmt → Type
  | queryPending .. => List PendingEvent
  | insertEvent .. => Bool
  | _ => Unit

/-- The interface of the dispatcher. -/
abbrev eventStore : Interface := ⟨EventStmt, EventStmt.Reply, EventErr, .db .transient⟩

/-- The largest value of an `INTEGER` column. -/
def maxInteger : Int := 2147483647

/-- What a drain reads of a row. -/
def EventRow.scan (r : EventRow) : PendingEvent := ⟨r.id, r.aggregateID, r.eventType, r.payload, r.attempts⟩

/-- The oldest pending rows. -/
def pendingRows (limit : Nat) (w : EventWorld) : List EventRow :=
  ((w.events.rows.filter fun r => decide (r.status = .pending)).insertionSort fun a b => a.occurredAt ≤ b.occurredAt).take limit

/-- The transaction of a drain, while it is open. -/
def openDrain (tx : String) (w : EventWorld) : Option DrainTx := (w.drains.find? tx).filter fun t => !t.ended

/-- Rewrite one transaction. -/
def setDrain (tx : String) (f : DrainTx → DrainTx) (keeps : ∀ t, (f t).id = t.id) (w : EventWorld) : EventWorld :=
  { w with drains := w.drains.update (fun t => decide (t.id = tx)) f keeps }

/-- A statement of an open transaction. -/
def withinDrain {α : Type} (tx : String) (w : EventWorld) (f : DrainTx → Except EventErr α × EventWorld) :
    Except EventErr α × EventWorld :=
  match openDrain tx w with
  | some t => f t
  | none => (.error .txClosed, w)

/-- A write of an open transaction. -/
def writeEvent (tx : String) (write : EventWrite) (w : EventWorld) : EventWorld :=
  setDrain tx (fun t => { t with writes := t.writes ++ [write] }) (fun _ => rfl) w

/-- The row after a write. -/
def EventOutcome.apply (now : Int) (outcome : EventOutcome) (r : EventRow) : EventRow :=
  match outcome with
  | .failed attempts lastError status => { r with attempts := attempts, lastError := some lastError, status := status }
  | .published => { r with status := .published, publishedAt := some now }

theorem EventOutcome.apply_id (now : Int) (outcome : EventOutcome) (r : EventRow) : (outcome.apply now r).id = r.id := by
  cases outcome <;> rfl

/-- Make the writes of a drain visible. -/
def applyWrites (now : Int) (writes : List EventWrite) (events : Table EventRow.id) : Table EventRow.id :=
  writes.foldl (fun events write =>
    events.update (fun r => decide (r.id = write.id)) (write.outcome.apply now) (write.outcome.apply_id now)) events

/-- The failed publishes a drain has recorded. -/
def failuresOf (tx : String) (writes : List EventWrite) : List EventEntry :=
  writes.filterMap fun write =>
    match write.outcome with
    | .failed .. => some (.failed write.id tx)
    | .published => none

/-- End the transaction of a drain. -/
def endDrain (tx : String) (w : EventWorld) : EventWorld := setDrain tx (fun t => { t with ended := true }) (fun _ => rfl) w

/-- `INSERT INTO domain_events ... ON CONFLICT (aggregate_type, aggregate_id, event_type) DO NOTHING`, and its commit. -/
def insertEvent (row : EventRow) (w : EventWorld) : Except EventErr Bool × EventWorld :=
  if w.events.rows.any fun r => decide (r.aggregateType = row.aggregateType) && decide (r.aggregateID = row.aggregateID) &&
      decide (r.eventType = row.eventType) then (.ok false, w)
  else
    match w.events.insert row with
    | some events => (.ok true, { w with events := events, log := w.log ++ [.committed row.id] })
    | none => (.error (.db (.uniqueViolation "domain_events_pkey")), w)

/-- Execute one statement. -/
def eventExec : eventStore.Exec EventWorld
  | .begin tx now, w =>
    match w.drains.insert ⟨tx, false, false, now, []⟩ with
    | some drains => (.ok (), { w with drains := drains })
    | none => (.error .txClosed, w)
  | .lockDispatcher tx, w => withinDrain tx w fun _ => (.ok (), setDrain tx (fun t => { t with locked := true }) (fun _ => rfl) w)
  | .queryPending tx limit, w => withinDrain tx w fun _ => (.ok ((pendingRows limit w).map EventRow.scan), w)
  | .enqueue id sub payload, w => (.ok (), { w with log := w.log ++ [.enqueued id sub payload] })
  | .recordFailed tx id attempts lastError status, w => withinDrain tx w fun _ =>
    if maxInteger < attempts then (.error (.db .outOfRange), w)
    else (.ok (), writeEvent tx ⟨id, .failed attempts lastError status⟩ w)
  | .markPublished tx id, w => withinDrain tx w fun _ => (.ok (), writeEvent tx ⟨id, .published⟩ w)
  | .commit tx, w => withinDrain tx w fun t =>
    (.ok (), endDrain tx { w with events := applyWrites t.now t.writes w.events, log := w.log ++ failuresOf tx t.writes })
  | .rollback tx, w => (.ok (), endDrain tx w)
  | .insertEvent id aggregateType aggregateID eventType payload now, w =>
    insertEvent ⟨id, aggregateType, aggregateID, eventType, payload, now, none, 0, none, .pending⟩ w

/-- When a statement proceeds: the advisory lock waits for its holder. -/
def eventProceeds (w : EventWorld) : EventStmt → Prop
  | .lockDispatcher tx => ∀ t ∈ w.drains.rows, t.id ≠ tx → t.ended = false → t.locked = false
  | _ => True

instance (w : EventWorld) : DecidablePred (eventProceeds w) := fun op => by
  unfold eventProceeds
  split <;> infer_instance

end NovoApex.Db
