import NovoApex.Db.Retention
import NovoApex.Lib.Crew

/-!
# SweepRetention

`internal/workers/crons.go`: customers who have not ordered for a while get a
re-engagement task, and their profiles are stamped for the cooldown. Durations are exact
where the code divides floats.
-/

namespace NovoApex.Workers
set_option autoImplicit false
open Lib Program Db

/-- The two settings of the scan in `Deps`. -/
structure RetentionDeps where
  reengagementThresholdMultiplier : ℚ
  reengagementCooldownDays : Nat
  deriving DecidableEq

/-- `thresholdMultiplier`; 0 is the default. -/
def RetentionDeps.thresholdMultiplier (deps : RetentionDeps) : ℚ :=
  if deps.reengagementThresholdMultiplier = 0 then 3 / 2 else deps.reengagementThresholdMultiplier

/-- `cooldownDays`; 0 is the default. -/
def RetentionDeps.cooldownDays (deps : RetentionDeps) : Nat :=
  if deps.reengagementCooldownDays = 0 then 30 else deps.reengagementCooldownDays

/-- A day in milliseconds. -/
def dayMillis : Int := 86400000

/-- `now.Sub(t).Hours() / 24`. -/
def daysSince (now t : Int) : ℚ := ((now - t : Int) : ℚ) / dayMillis

/-- Within the threshold, or still cooling down. -/
def RetentionDeps.skips (deps : RetentionDeps) (now : Int) (p : ProfileRow) : Bool :=
  decide (daysSince now p.lastOrderAt ≤ p.frequencyDays * deps.thresholdMultiplier) ||
    p.lastReengagement.any fun t => decide (daysSince now t < deps.cooldownDays)

abbrev RetentionHandler (α : Type) : Type := Program retentionStore α

/-- One profile that is due; without a publisher it is passed over. -/
def reengage (tx : String) (publisher : Bool) (now : Int) (p : ProfileRow) : RetentionHandler Unit := do
  let lastOrderID : Option String ← mapErr (.context "retention-scanner: last order lookup")
    (call (I := retentionStore) (.lastOrder tx p.customerID))
  if !publisher then pure ()
  else do
    let _ : Unit ← mapErr (.context "retention-scanner: enqueue re-engagement")
      (call (I := retentionStore) (.enqueue tx ⟨"re-engagement", p.businessID, p.customerID, lastOrderID.getD ""⟩ now))
    mapErr (.context "retention-scanner: stamp cooldown") (call (I := retentionStore) (.stamp tx p.customerID now))

/-- The loop over the profiles. -/
def reengageAll (deps : RetentionDeps) (tx : String) (publisher : Bool) (now : Int) : List ProfileRow → RetentionHandler Unit
  | [] => pure ()
  | p :: rest => do
    if deps.skips now p then reengageAll deps tx publisher now rest
    else do
      reengage tx publisher now p
      reengageAll deps tx publisher now rest

/-- The body of the scan's transaction. -/
def scanWithin (deps : RetentionDeps) (tx : String) (publisher : Bool) : RetentionHandler Unit := do
  let _ : Unit ← mapErr (.context "retention-scanner: advisory lock") (call (I := retentionStore) (.lockScanner tx))
  let profiles : List ProfileRow ← mapErr (.context "retention-scanner: profiles query") (call (I := retentionStore) (.profiles tx))
  let now : Int ← call (I := retentionStore) .now
  reengageAll deps tx publisher now profiles
  mapErr (.context "retention-scanner: commit") (call (I := retentionStore) (.commit tx))

/-- `SweepRetention`: any error rolls the transaction back. -/
def sweepRetention (deps : RetentionDeps) (tx : String) (publisher : Bool) : RetentionHandler Unit := do
  let _ : Unit ← mapErr (.context "retention-scanner: begin tx") (call (I := retentionStore) (.begin tx))
  let scanned ← attempt (scanWithin deps tx publisher)
  ignore (attempt (call (I := retentionStore) (.rollback tx)))
  match scanned with
  | .ok _ => pure ()
  | .error e => raise e

/-! ## Runs -/

/-- Who acts on the profiles. -/
inductive RetentionName where
  | scan (tx : String)
  | server (n : Nat)
  | other (n : Nat)
  deriving DecidableEq

/-- What a name may run: the scans of one configuration, the server that gives up the transaction of a connection it
has lost, and the clock and the writers of profiles and orders. -/
inductive RetentionJob (deps : RetentionDeps) : RetentionName → RetentionHandler Unit → Prop where
  | scan (tx publisher) : RetentionJob deps (.scan tx) (sweepRetention deps tx publisher)
  | disconnect (n tx) : RetentionJob deps (.server n) (call (I := retentionStore) (.rollback tx))
  | tick (n later) : RetentionJob deps (.other n) (call (I := retentionStore) (.tick later))
  | insertProfile (n customerID) : RetentionJob deps (.other n) (call (I := retentionStore) (.insertProfile customerID))
  | setStats (n customerID lastOrderAt orderFrequencyDays) :
      RetentionJob deps (.other n) (call (I := retentionStore) (.setStats customerID lastOrderAt orderFrequencyDays))
  | insertOrder (n row) : RetentionJob deps (.other n) (call (I := retentionStore) (.insertOrder row))

/-- The runs of the retention scanner in which only the given statements are executed; any statement may fail, lose its
reply or be the last of its scan. -/
def retentionFlow (deps : RetentionDeps) (allow : RetentionWorld → RetentionStmt → Prop) :
    Roster retentionStore RetentionName RetentionWorld where
  exec := retentionExec
  job := RetentionJob deps
  allow w op := retentionProceeds w op ∧ allow w op

end NovoApex.Workers
