import NovoApex.Outbound.Deliver
import NovoApex.Lib.Crew

/-!
# SweepOutbox

`internal/workers/crons.go`: rows that are pending for more than two minutes are
published again, or marked `failed_stale` when a newer message of the conversation
went out. The runs of the outbound queue are those of sweeps, deliveries and the
writers of new rows.
-/

namespace NovoApex.Workers
set_option autoImplicit false
open Lib Program Db Outbound

/-- Two minutes before now, in milliseconds. -/
def sweepCutoff (now : Int) : Int := now - 120000

/-- One stranded row: it is stale when a newer message of its conversation went out. -/
def markStale (tx : String) (msg : StrandedRow) : OutboundHandler Bool :=
  if msg.conversationID = "" then pure false
  else do
    let newer : Option String ← call (I := outboundStore) (.newerSent tx msg.conversationID msg.id)
    match newer with
    | none => pure false
    | some _ => do
      let _ : Unit ← call (I := outboundStore) (.markFailedStale tx msg.id)
      pure true

/-- The loop over the stranded rows; a publish that fails is logged, and without a publisher there is none. -/
def sweepRows (tx : String) (publisher : Bool) : List StrandedRow → OutboundHandler Unit
  | [] => pure ()
  | msg :: rest => do
    let stale ← markStale tx msg
    if stale || !publisher then sweepRows tx publisher rest
    else do
      ignore (attempt (call (I := outboundStore) (.publishOutbound msg.id)))
      sweepRows tx publisher rest

/-- The body of the sweep's transaction; with no stranded row it commits at once. -/
def sweepWithin (tx : String) (now : Int) (publisher : Bool) : OutboundHandler Unit := do
  let _ : Unit ← call (I := outboundStore) (.lockSweep tx)
  let rows : List StrandedRow ← call (I := outboundStore) (.stranded tx (sweepCutoff now))
  sweepRows tx publisher rows
  call (I := outboundStore) (.commit tx)

/-- `SweepOutbox`: any error rolls the transaction back. -/
def sweepOutbox (tx : String) (now : Int) (publisher : Bool) : OutboundHandler Unit := do
  let _ : Unit ← call (I := outboundStore) (.begin tx)
  let swept ← attempt (sweepWithin tx now publisher)
  match swept with
  | .ok _ => pure ()
  | .error e => do
    ignore (attempt (call (I := outboundStore) (.rollback tx)))
    raise e

/-! ## Runs -/

/-- Who acts on the outbound queue. -/
inductive OutboundName where
  | call (c : OutboundCall)
  | sweep (tx : String)
  | writer (n : Nat)
  | server (n : Nat)
  /-- Somebody who only looks on. -/
  | observer
  deriving DecidableEq

/-- What runs: the tasks of rows, calls of `Deliver` outside of them, sweeps, and how the senders behave. -/
structure OutboundSetup where
  tasks : Prop
  calls : Prop
  sweeps : Prop
  sender : Option Sender → Prop

/-- The server notices that a call is gone, of which there is no result. -/
def disconnect (c : OutboundCall) : OutboundHandler Unit := do
  ignore (attempt (call (I := outboundStore) (.close c)))
  raise .connClosed

/-- Asynq takes back the task of a worker that is gone. -/
def recoverTask (c : OutboundCall) : OutboundHandler Unit := do
  ignore (attempt (call (I := outboundStore) (.finishTask c)))
  raise .connClosed

/-- What a name may run. What a crashed call leaves behind is cleaned up under its own name, so only once it is gone. -/
inductive OutboundJob (u : OutboundSetup) : OutboundName → OutboundHandler Unit → Prop where
  | task (c wa finalAttempt) (may : u.tasks) (sender : u.sender wa) : OutboundJob u (.call c) (handleOutboundSend c wa finalAttempt)
  | deliver (c wa finalAttempt) (may : u.calls) (sender : u.sender wa) : OutboundJob u (.call c) (deliver c wa c.row finalAttempt)
  | disconnect (c) : OutboundJob u (.call c) (disconnect c)
  | recover (c) : OutboundJob u (.call c) (recoverTask c)
  | sweep (tx now publisher) (may : u.sweeps) : OutboundJob u (.sweep tx) (sweepOutbox tx now publisher)
  | insert (n row) : OutboundJob u (.writer n) (call (I := outboundStore) (.insertOutbound row))
  | rollback (n tx) : OutboundJob u (.server n) (call (I := outboundStore) (.rollback tx))
  | loseConnection (n c) : OutboundJob u (.server n) (call (I := outboundStore) (.loseConnection c))

/-- What a send does is up to the sender; every other statement may fail. -/
def mayFail : OutboundStmt → Prop
  | .send .. => False
  | _ => True

instance : DecidablePred mayFail := fun op => by
  unfold mayFail
  split <;> infer_instance

/-- The runs of a setup: any statement may fail, lose its reply or be the last of its handler. -/
def outboundFlow (u : OutboundSetup) : Roster outboundStore OutboundName OutboundWorld where
  exec := outboundExec
  job := OutboundJob u
  allow := outboundProceeds
  faults _ op := mayFail op
  loses _ op := mayFail op

instance (u : OutboundSetup) (w : OutboundWorld) (op : OutboundStmt) : Decidable ((outboundFlow u).allow w op) :=
  inferInstanceAs (Decidable (outboundProceeds w op))

instance (u : OutboundSetup) (w : OutboundWorld) (op : OutboundStmt) : Decidable ((outboundFlow u).faults w op) :=
  inferInstanceAs (Decidable (mayFail op))

end NovoApex.Workers
