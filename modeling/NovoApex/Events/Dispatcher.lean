import NovoApex.Db.DomainEvents
import NovoApex.Lib.Crew

/-!
# The dispatcher

`internal/events/dispatcher.go`: `Drain` publishes the pending events to their
subscribers and records the outcome, in one transaction under an advisory lock. The
queue's side effects are not part of the transaction. Logging and the dead-letter hook
are left out.
-/

namespace NovoApex.Events
set_option autoImplicit false
open Lib Program Db

/-- A handler of the event store. -/
abbrev EventHandler (α : Type) : Type := Program eventStore α

/-- `Dispatcher`; a payload is decoded to the value that is enqueued. -/
structure Dispatcher where
  publisher : Bool
  subscriptions : String → List Subscription
  maxAttemptsSetting : Int
  batchSizeSetting : Int
  decodePayload : String → Except String String

/-- `defaultMaxAttempts`. -/
def defaultMaxAttempts : Int := 5

/-- `defaultBatchSize`. -/
def defaultBatchSize : Int := 100

/-- `maxAttempts`. -/
def Dispatcher.maxAttempts (d : Dispatcher) : Int := if 0 < d.maxAttemptsSetting then d.maxAttemptsSetting else defaultMaxAttempts

/-- `batchSize`. -/
def Dispatcher.batchSize (d : Dispatcher) : Int := if 0 < d.batchSizeSetting then d.batchSizeSetting else defaultBatchSize

/-- `fmt.Errorf("text: %w", err)` around the error of `p`. -/
def wrapError {α : Type} (text : String) (p : EventHandler α) : EventHandler α := do
  let r ← attempt p
  match r with
  | .error e => raise (.context text e)
  | .ok a => pure a

/-- The loop over the subscribers of an event. -/
def enqueueAll (id eventType payload : String) : List Subscription → EventHandler Unit
  | [] => pure ()
  | sub :: rest => do
    wrapError ("events: enqueue " ++ eventType ++ " to " ++ sub.taskType) (call (I := eventStore) (.enqueue id sub payload))
    enqueueAll id eventType payload rest

/-- `publish`; an event without subscribers is handled. -/
def publish (d : Dispatcher) (id eventType payload : String) : EventHandler Unit :=
  let subs := d.subscriptions eventType
  if subs = [] then pure ()
  else if d.publisher = false then raise (.message "events: dispatcher has no publisher")
  else
    match d.decodePayload payload with
    | .error e => raise (.context ("events: decode " ++ eventType ++ " payload") (.message e))
    | .ok v => enqueueAll id eventType v subs

/-- The status after a failed publish. -/
def failedStatus (d : Dispatcher) (attempts : Int) : EventStatus := if d.maxAttempts ≤ attempts then .dead else .pending

/-- One event: published, or its failed attempt recorded. -/
def drainEvent (d : Dispatcher) (tx : String) (ev : PendingEvent) : EventHandler Bool := do
  let published ← attempt (publish d ev.id ev.eventType ev.payload)
  match published with
  | .error e => do
    wrapError "events: record failed publish"
      (call (I := eventStore) (.recordFailed tx ev.id (ev.attempts + 1) e.text (failedStatus d (ev.attempts + 1))))
    pure false
  | .ok _ => do
    wrapError "events: mark published" (call (I := eventStore) (.markPublished tx ev.id))
    pure true

/-- The loop over the events. -/
def drainEvents (d : Dispatcher) (tx : String) : Nat → List PendingEvent → EventHandler Nat
  | published, [] => pure published
  | published, ev :: rest => do
    let done ← drainEvent d tx ev
    drainEvents d tx (if done then published + 1 else published) rest

/-- The body of the transaction; without a pending event it commits at once. -/
def drainWithin (d : Dispatcher) (tx : String) : EventHandler Nat := do
  wrapError "events: advisory lock" (call (I := eventStore) (.lockDispatcher tx))
  let events : List PendingEvent ← wrapError "events: query pending" (call (I := eventStore) (.queryPending tx d.batchSize.toNat))
  if events = [] then do
    let _ : Unit ← call (I := eventStore) (.commit tx)
    pure 0
  else do
    let published ← drainEvents d tx 0 events
    wrapError "events: commit drain" (call (I := eventStore) (.commit tx))
    pure published

/-- `Drain`: any error rolls the transaction back. -/
def drain (d : Dispatcher) (tx : String) (now : Int) : EventHandler Nat := do
  wrapError "events: begin drain tx" (call (I := eventStore) (.begin tx now))
  let drained ← attempt (drainWithin d tx)
  match drained with
  | .ok published => pure published
  | .error e => do
    ignore (attempt (call (I := eventStore) (.rollback tx)))
    raise e

/-! ## Runs -/

/-- Who acts on the events. -/
inductive EventName where
  | drain (tx : String)
  | producer (n : Nat)
  | server (n : Nat)
  /-- Somebody who only looks on. -/
  | observer
  deriving DecidableEq

/-- What a name may run: a drain of any replica, a producer's commit, or the end of a transaction whose connection is gone. -/
inductive EventJob (d : Dispatcher) : EventName → EventHandler Unit → Prop where
  | drain (tx now) : EventJob d (.drain tx) (ignore (drain d tx now))
  | produce (n id aggregateType aggregateID eventType payload now) : EventJob d (.producer n)
      (ignore (call (I := eventStore) (.insertEvent id aggregateType aggregateID eventType payload now)))
  | rollback (n tx) : EventJob d (.server n) (call (I := eventStore) (.rollback tx))

/-- A call of `Enqueue` counts as one that succeeded only when it returned. -/
def returnsNil : EventStmt → Prop
  | .enqueue .. => True
  | _ => False

/-- The runs of the dispatcher: any statement may fail, lose its reply or be the last of its handler. -/
def eventFlow (d : Dispatcher) : Roster eventStore EventName EventWorld where
  exec := eventExec
  job := EventJob d
  allow := eventProceeds
  loses _ op := ¬ returnsNil op

instance (d : Dispatcher) (w : EventWorld) (op : EventStmt) : Decidable ((eventFlow d).allow w op) :=
  inferInstanceAs (Decidable (eventProceeds w op))

end NovoApex.Events
