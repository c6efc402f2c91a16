import NovoApex.Workers.Webhook

/-!
# The debounced orchestrator

`internal/workers/orchestrator.go`, `RegisterOrchestrator` and what surrounds a turn: the
count of the conversation's messages before it, the count after it, and the re-enqueue
under a fresh id when there are more. All messages and runs are of one pair of recipient
and sender, whose fixed task id the webhook enqueues under.

The queue drops an enqueue under an id that is scheduled or active; the id of an active
task is free again once its handler has returned. How far an active run has come is
history that no statement reads, and so are the number of messages there were when a run
last began its turn and when a webhook last asked for one, and the message that a webhook
has stored and still has to ask for.
-/

namespace NovoApex.Workers
set_option autoImplicit false
open Lib Program

/-- How far a run has come. -/
inductive RunPhase where
  | started
  | marked (mark : Nat)
  | begun (mark : Nat)
  | counted (newer : Bool)
  deriving DecidableEq

/-- What the queue holds under a task id. -/
inductive RunTask where
  | free
  | scheduled
  | active (phase : RunPhase)
  deriving DecidableEq

/-- The parties: the webhook jobs, and the runs, by the ids of their tasks. -/
inductive DebounceName where
  | webhook (n : Nat)
  | run (taskID : String)
  deriving DecidableEq

/-- The messages, the tasks and the history. -/
structure DebounceWorld where
  inbound : Table InboundMessage.whatsappMessageID
  tasks : String → RunTask
  /-- The number of messages when a run last began its turn. -/
  begun : Nat
  /-- The number of messages when a webhook last asked for a run. -/
  asked : Nat
  /-- The place of the message that a webhook has stored and not asked for yet. -/
  owing : DebounceName → Option Nat

inductive DebounceStmt where
  | persistInbound (row : InboundMessage)
  | publish (taskID : String)
  /-- The queue hands a scheduled task to a worker. -/
  | start (taskID : String)
  | inboundMark (job : OrchestratorJob)
  /-- `HandleDebouncedConversation`, which fails or does not. -/
  | turn (job : OrchestratorJob) (fails : Bool)
  /-- The count after the turn. -/
  | recheck (job : OrchestratorJob)
  | reenqueue (taskID : String)
  /-- The handler has returned, with or without an error: the task is done or discarded. -/
  | finish (taskID : String)

/-- What a statement answers. -/
@[reducible] def DebounceStmt.Reply : DebounceStmt → Type
  | persistInbound .. => Bool
  | publish .. => Unit
  | start .. => Bool
  | inboundMark .. => Nat
  | turn .. => Unit
  | recheck .. => Nat
  | reenqueue .. => Unit
  | finish .. => Unit

inductive DebounceErr where
  | unavailable
  | notAnObject
  | turn
  deriving DecidableEq

/-- The interface of the database and the queue. -/
abbrev debounceStore : Interface := ⟨DebounceStmt, DebounceStmt.Reply, DebounceErr, .unavailable⟩

/-- The messages of a pair, in the order they were committed. -/
def messagesOf (job : OrchestratorJob) (w : DebounceWorld) : List InboundMessage :=
  w.inbound.rows.filter fun m => decide (m.run = job)

/-- Schedule a task, unless its id is in use. -/
def schedule (taskID : String) (tasks : String → RunTask) : String → RunTask :=
  if tasks taskID = .free then Function.update tasks taskID .scheduled else tasks

/-- Note how far a run has come. -/
def advance (i : DebounceName) (next : RunPhase → RunPhase) (tasks : String → RunTask) : String → RunTask :=
  match i with
  | .run taskID =>
    match tasks taskID with
    | .active phase => Function.update tasks taskID (.active (next phase))
    | _ => tasks
  | .webhook _ => tasks

/-- The phase after the second count. -/
def RunPhase.count (n : Nat) : RunPhase → RunPhase
  | .begun mark => .counted (decide (mark < n))
  | phase => phase

/-- The phase at the beginning of the turn. -/
def RunPhase.begin : RunPhase → RunPhase
  | .marked mark => .begun mark
  | phase => phase

/-- Execute one statement, of the pair's. -/
def debounceExec (pair : OrchestratorJob) : (debounceStore.signed DebounceName).Exec DebounceWorld
  | (i, .persistInbound row), w =>
    match w.inbound.insert row with
    | some inbound => (.ok true, { w with inbound := inbound, owing := Function.update w.owing i (some (messagesOf pair w).length) })
    | none => (.ok false, w)
  | (i, .publish taskID), w =>
    (.ok (), { w with
      tasks := schedule taskID w.tasks
      asked := (messagesOf pair w).length
      owing := Function.update w.owing i none })
  | (_, .start taskID), w =>
    if w.tasks taskID = .scheduled then (.ok true, { w with tasks := Function.update w.tasks taskID (.active .started) })
    else (.ok false, w)
  | (i, .inboundMark job), w =>
    (.ok (messagesOf job w).length, { w with tasks := advance i (fun _ => .marked (messagesOf job w).length) w.tasks })
  | (i, .turn _ fails), w =>
    (if fails then .error .turn else .ok (),
      { w with tasks := advance i RunPhase.begin w.tasks, begun := (messagesOf pair w).length })
  | (i, .recheck job), w =>
    (.ok (messagesOf job w).length, { w with tasks := advance i (RunPhase.count (messagesOf job w).length) w.tasks })
  | (i, .reenqueue taskID), w =>
    (.ok (), { w with tasks := schedule taskID (advance i (fun _ => .counted false) w.tasks) })
  | (_, .finish taskID), w => (.ok (), { w with tasks := Function.update w.tasks taskID .free })

/-! ## The handlers -/

/-- The webhook's database and `PublishOrchestratorDebounce`. -/
def debounceDeps : WebhookDeps debounceStore where
  persistInbound _ row := call (I := debounceStore) (.persistInbound row)
  publishDebounce job := call (I := debounceStore) (.publish (orchestratorDebounceTaskID job))
  notAnObject := .notAnObject

/-- The id of a re-enqueue: the fixed one and the clock. -/
def freshTaskID (job : OrchestratorJob) (millis : Nat) : String := orchestratorDebounceTaskID job ++ ":" ++ toString millis

/-- `reenqueueIfNewerInbound`; its errors are swallowed. -/
def reenqueueIfNewerInbound (job : OrchestratorJob) (mark millis : Nat) : Program debounceStore Unit := do
  let current ← attempt (call (I := debounceStore) (.recheck job))
  match current with
  | .error _ => pure ()
  | .ok n =>
    if n ≤ mark then pure ()
    else do
      let _ ← attempt (call (I := debounceStore) (.reenqueue (freshTaskID job millis)))

/-- The handler of a run, from the first count on. A failed turn is discarded without the second count. -/
def handleOrchestrator (job : OrchestratorJob) (fails : Bool) (millis : Nat) : Program debounceStore Unit := do
  let mark ← attempt (call (I := debounceStore) (.inboundMark job))
  let turned ← attempt (call (I := debounceStore) (.turn job fails))
  match turned with
  | .error e => raise e
  | .ok _ =>
    match mark with
    | .error _ => pure ()
    | .ok mark => reenqueueIfNewerInbound job mark millis

/-- A run of the task under an id: the worker takes it, handles it and gives the id back. -/
def orchestratorRun (taskID : String) (job : OrchestratorJob) (fails : Bool) (millis : Nat) : Program debounceStore Unit := do
  let started : Bool ← call (I := debounceStore) (.start taskID)
  if started then do
    let _ ← attempt (handleOrchestrator job fails millis)
    call (I := debounceStore) (.finish taskID)
  else pure ()

end NovoApex.Workers
