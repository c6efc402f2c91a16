import NovoApex.Db.NewArrivals
import NovoApex.Lib.Crew

/-!
# SweepNewArrivals

`internal/workers/new_arrivals.go`: a business with a template sends a digest to its
opted-in customers when it has new products and the interval is over. What is published
is published after the commit.
-/

namespace NovoApex.Workers
set_option autoImplicit false
open Lib Program Db

/-- The setting of the scan in `Deps`; the configuration refuses a negative one. -/
structure NewArrivalsDeps where
  newArrivalsIntervalDays : Int64
  nonnegative : 0 ≤ newArrivalsIntervalDays.toInt

/-- `intervalDays`; 0 is the default. -/
def NewArrivalsDeps.intervalDays (deps : NewArrivalsDeps) : Int64 :=
  if deps.newArrivalsIntervalDays = 0 then 14 else deps.newArrivalsIntervalDays

/-- An hour in nanoseconds. -/
def hour : Int64 := 3600000000000

/-- `time.Duration(intervalDays)*24*time.Hour`. -/
def NewArrivalsDeps.interval (deps : NewArrivalsDeps) : Int64 := deps.intervalDays * 24 * hour

/-- `now.Sub(t)`, in nanoseconds, of times in milliseconds; the longest and the shortest duration are the last ones. -/
def subTime (now t : Int) : Int := max (-2 ^ 63) (min (2 ^ 63 - 1) ((now - t) * 1000000))

/-- The last digest is not long enough ago. -/
def NewArrivalsDeps.notDue (deps : NewArrivalsDeps) (now : Int) (b : BusinessRow) : Bool :=
  b.lastNotifiedAt.any fun last => decide (subTime now last < deps.interval.toInt)

/-- `json.Unmarshal` into `[]string`, its error ignored: an element that is no string is the empty one. -/
def unmarshalPreferences (preferences : Option (List (Option String))) : List String :=
  (preferences.getD []).map fun p => p.getD ""

/-- `matchesNewArrivalsInterest`. -/
def matchesNewArrivalsInterest (toLower : String → String) (preferences newCategories : List String) : Bool :=
  if newCategories.isEmpty then true
  else if preferences.isEmpty then true
  else newCategories.any fun cat => (preferences.map toLower).contains cat

/-- The categories that are set, in lower case. -/
def lowerCategories (toLower : String → String) (rows : List (Option String)) : List String :=
  rows.filterMap fun
    | some cat => if cat = "" then none else some (toLower cat)
    | none => none

abbrev NewArrivalsHandler (α : Type) : Type := Program newArrivalsStore α

/-- What a scan runs with: its transaction, `strings.ToLower`, and the id of the row for a customer. -/
structure DigestScan where
  tx : String
  toLower : String → String
  newID : String → String

/-- One customer: the ids to publish. -/
def digestCustomer (s : DigestScan) (b : BusinessRow) (newCategories : List String) (c : CustomerRow) :
    NewArrivalsHandler (List String) :=
  if !matchesNewArrivalsInterest s.toLower (unmarshalPreferences c.preferences) newCategories then pure []
  else do
    let conversation : Option String ← mapErr (.context "new-arrivals-scanner: conversation lookup")
      (call (I := newArrivalsStore) (.conversation s.tx b.id c.phone))
    match conversation with
    | none => pure []
    | some conversationID => do
      let _ : Unit ← mapErr (.context "new-arrivals-scanner: persist digest outbound") (call (I := newArrivalsStore)
        (.insertTemplate s.tx ⟨s.newID c.id, b.id, conversationID, c.phone, b.templateName, c.id, some s.tx⟩))
      pure [s.newID c.id]

/-- The loop over the customers. -/
def digestCustomers (s : DigestScan) (b : BusinessRow) (newCategories : List String) :
    List CustomerRow → NewArrivalsHandler (List String)
  | [] => pure []
  | c :: rest => do
    let ids ← digestCustomer s b newCategories c
    let more ← digestCustomers s b newCategories rest
    pure (ids ++ more)

/-- A business that has something new, and is due. -/
def digestBusiness (s : DigestScan) (now : Int) (b : BusinessRow) (categories : List (Option String)) :
    NewArrivalsHandler (List String) := do
  let customers : List CustomerRow ← mapErr (.context "new-arrivals-scanner: opted-in customers query")
    (call (I := newArrivalsStore) (.optedIn s.tx b.id))
  let ids ← digestCustomers s b (lowerCategories s.toLower categories) customers
  let _ : Unit ← mapErr (.context "new-arrivals-scanner: stamp notified")
    (call (I := newArrivalsStore) (.stampNotified s.tx b.id now))
  pure ids

/-- The loop over the businesses; a business that was never notified is asked for everything since the epoch. -/
def digestBusinesses (deps : NewArrivalsDeps) (s : DigestScan) (now : Int) : List BusinessRow → NewArrivalsHandler (List String)
  | [] => pure []
  | b :: rest =>
    if deps.notDue now b then digestBusinesses deps s now rest
    else do
      let categories : List (Option String) ← mapErr (.context "new-arrivals-scanner: new products query")
        (call (I := newArrivalsStore) (.newCategories s.tx b.id (b.lastNotifiedAt.getD 0)))
      if categories.isEmpty then digestBusinesses deps s now rest
      else do
        let ids ← digestBusiness s now b categories
        let more ← digestBusinesses deps s now rest
        pure (ids ++ more)

/-- The body of the scan's transaction: the ids to publish. -/
def digestWithin (deps : NewArrivalsDeps) (s : DigestScan) : NewArrivalsHandler (List String) := do
  let _ : Unit ← mapErr (.context "new-arrivals-scanner: advisory lock") (call (I := newArrivalsStore) (.lockScanner s.tx))
  let businesses : List BusinessRow ← mapErr (.context "new-arrivals-scanner: businesses query")
    (call (I := newArrivalsStore) (.businesses s.tx))
  let now : Int ← call (I := newArrivalsStore) .now
  let toPublish ← digestBusinesses deps s now businesses
  let _ : Unit ← mapErr (.context "new-arrivals-scanner: commit") (call (I := newArrivalsStore) (.commit s.tx))
  pure toPublish

/-- The loop over the ids; a publish that fails is logged, and without a publisher there is none. -/
def publishAll (publisher : Bool) : List String → NewArrivalsHandler Unit
  | [] => pure ()
  | id :: rest =>
    if !publisher then publishAll publisher rest
    else do
      ignore (attempt (call (I := newArrivalsStore) (.publishOutbound id)))
      publishAll publisher rest

/-- `SweepNewArrivals`: any error rolls the transaction back, and so does the end, when it has no effect. -/
def sweepNewArrivals (deps : NewArrivalsDeps) (s : DigestScan) (publisher : Bool) : NewArrivalsHandler Unit := do
  let _ : Unit ← mapErr (.context "new-arrivals-scanner: begin tx") (call (I := newArrivalsStore) (.begin s.tx))
  let scanned ← attempt (digestWithin deps s)
  match scanned with
  | .ok toPublish => do
    publishAll publisher toPublish
    ignore (attempt (call (I := newArrivalsStore) (.rollback s.tx)))
  | .error e => do
    ignore (attempt (call (I := newArrivalsStore) (.rollback s.tx)))
    raise e

/-! ## Runs -/

/-- Who acts on the digests. -/
inductive NewArrivalsName where
  | scan (tx : String)
  | server (n : Nat)
  | other (n : Nat)
  deriving DecidableEq

/-- What a name may run: the scans of one configuration, the server that gives up the transaction of a connection it
has lost, the clock, and the rest of the program. -/
inductive NewArrivalsJob (deps : NewArrivalsDeps) : NewArrivalsName → NewArrivalsHandler Unit → Prop where
  | scan (s publisher) : NewArrivalsJob deps (.scan s.tx) (sweepNewArrivals deps s publisher)
  | disconnect (n tx) : NewArrivalsJob deps (.server n) (call (I := newArrivalsStore) (.rollback tx))
  | tick (n later) : NewArrivalsJob deps (.other n) (call (I := newArrivalsStore) (.tick later))
  | insertBusiness (n id) : NewArrivalsJob deps (.other n) (call (I := newArrivalsStore) (.insertBusiness id))
  | setTemplate (n id templateName) : NewArrivalsJob deps (.other n) (call (I := newArrivalsStore) (.setTemplate id templateName))
  | insertOutbound (n row) : NewArrivalsJob deps (.other n) (call (I := newArrivalsStore) (.insertOutbound row))
  | change (n audience) : NewArrivalsJob deps (.other n) (call (I := newArrivalsStore) (.change audience))

/-- The runs of the new-arrivals scanner: any statement may fail, lose its reply or be the last of its scan. -/
def newArrivalsFlow (deps : NewArrivalsDeps) : Roster newArrivalsStore NewArrivalsName NewArrivalsWorld where
  exec := newArrivalsExec
  job := NewArrivalsJob deps
  allow := newArrivalsProceeds

end NovoApex.Workers
