import NovoApex.Db.Schema
import NovoApex.Lib.Crew

/-!
# HandleProfileStats

`internal/workers/profile_stats.go`, statement by statement at READ COMMITTED: claim the
order's marker, read the profile, write the new totals back as absolute values. What a
transaction wrote becomes visible at its commit, and until then its rows are locked; a
read takes no lock. `seen` and `stale` record what a transaction read and whether another
one has committed that row since; the code never reads them. The order frequency, a
floating-point column that nothing here reads, is left out.
-/

namespace NovoApex.ProfileStats
set_option autoImplicit false
open Lib Program

/-- The order counters of `customer_profiles`; `total_orders` is an `int32`. -/
structure Profile where
  customerID : String
  totalOrders : Int32
  totalSpent : Money
  averageOrderValue : Option Money
  deriving DecidableEq

/-- An order and its marker. -/
structure CountedOrder where
  id : String
  statsRecordedAt : Option Nat
  deriving DecidableEq

/-- The transaction of a delivery: the order it claimed and the profile it wrote. -/
structure StatsTx where
  id : String
  ended : Bool
  now : Nat
  claimed : Option String
  seen : Option Profile
  stale : Bool
  write : Option Profile
  deriving DecidableEq

/-- The errors of the consumer. -/
inductive StatsErr where
  | db (e : Err)
  /-- The transaction has ended. -/
  | txClosed
  /-- `errStatsAlreadyRecorded`. -/
  | statsAlreadyRecorded
  /-- The panic of a division by zero. -/
  | divisionByZero
  deriving DecidableEq, Repr

/-- The tables and the transactions. -/
structure StatsWorld where
  orders : Table CountedOrder.id
  profiles : Table Profile.customerID
  transactions : Table StatsTx.id

/-- The statements of the consumer. -/
inductive StatsStmt where
  | begin (tx : String) (now : Nat)
  | claim (tx orderID : String)
  | getCustomerProfile (tx customerID : String)
  | getCustomerFirstContactAt (tx customerID : String)
  | updateProfileOrderStats (tx customerID : String) (totalOrders : Int32) (totalSpent averageOrderValue : ℚ)
  | commit (tx : String)
  | rollback (tx : String)

/-- What a statement answers; the writes, how many rows they changed. -/
@[reducible] def StatsStmt.Reply : StatsStmt → Type
  | claim .. => Nat
  | getCustomerProfile .. => Option Profile
  | updateProfileOrderStats .. => Nat
  | _ => Unit

/-- The interface of the consumer. -/
abbrev statsStore : Interface := ⟨StatsStmt, StatsStmt.Reply, StatsErr, .db .transient⟩

/-- A handler of the consumer. -/
abbrev StatsHandler (α : Type) : Type := Program statsStore α

/-! ## Execution -/

/-- The transaction of a delivery, while it is open. -/
def openStats (tx : String) (w : StatsWorld) : Option StatsTx := (w.transactions.find? tx).filter fun t => !t.ended

/-- Rewrite one transaction. -/
def setStats (tx : String) (f : StatsTx → StatsTx) (keeps : ∀ t, (f t).id = t.id) (w : StatsWorld) : StatsWorld :=
  { w with transactions := w.transactions.update (fun t => decide (t.id = tx)) f keeps }

/-- A statement of an open transaction. -/
def withinStats {α : Type} (tx : String) (w : StatsWorld) (f : StatsTx → Except StatsErr α × StatsWorld) : Except StatsErr α × StatsWorld :=
  match openStats tx w with
  | some t => f t
  | none => (.error .txClosed, w)

/-- The rows the claim may mark: the order, while it is not counted. -/
def uncounted (orderID : String) (o : CountedOrder) : Bool := decide (o.id = orderID) && o.statsRecordedAt.isNone

/-- The row `UpdateProfileOrderStats` writes, if its values fit their columns. -/
def profileRow (customerID : String) (totalOrders : Int32) (totalSpent averageOrderValue : ℚ) : Option Profile :=
  match (Numeric.ofDecimal totalSpent : Option Money), (Numeric.ofDecimal averageOrderValue : Option Money) with
  | some spent, some average => some ⟨customerID, totalOrders, spent, some average⟩
  | _, _ => none

/-- The transaction has seen the profile that another one writes. -/
def outdated (tx : String) (write : Profile) (t : StatsTx) : Bool :=
  decide (t.id ≠ tx) && t.seen.any fun p => decide (p.customerID = write.customerID)

/-- Make a profile visible, if one was written; the others have seen an old row then. -/
def applyWrite (tx : String) (write : Option Profile) (w : StatsWorld) : StatsWorld :=
  match write with
  | none => w
  | some write => { w with
      profiles := w.profiles.update (fun p => decide (p.customerID = write.customerID)) (fun p => { write with customerID := p.customerID })
        fun _ => rfl
      transactions := w.transactions.update (outdated tx write) (fun t => { t with stale := true }) fun _ => rfl }

/-- Make the marker visible. -/
def applyClaim (claimed : Option String) (now : Nat) (w : StatsWorld) : StatsWorld :=
  { w with orders := w.orders.update (fun o => decide (claimed = some o.id)) (fun o => { o with statsRecordedAt := some now }) fun _ => rfl }

/-- End a transaction. -/
def endStats (tx : String) (w : StatsWorld) : StatsWorld := setStats tx (fun t => { t with ended := true }) (fun _ => rfl) w

/-- Execute one statement. -/
def statsExec : statsStore.Exec StatsWorld
  | .begin tx now, w =>
    match w.transactions.insert ⟨tx, false, now, none, none, false, none⟩ with
    | some transactions => (.ok (), { w with transactions := transactions })
    | none => (.error .txClosed, w)
  | .claim tx orderID, w => withinStats tx w fun _ =>
    let affected := w.orders.affected (uncounted orderID)
    (.ok affected, if affected = 0 then w else setStats tx (fun t => { t with claimed := some orderID }) (fun _ => rfl) w)
  | .getCustomerProfile tx customerID, w => withinStats tx w fun _ =>
    (.ok (w.profiles.find? customerID),
      setStats tx (fun t => { t with seen := w.profiles.find? customerID, stale := false }) (fun _ => rfl) w)
  | .getCustomerFirstContactAt tx _, w => withinStats tx w fun _ => (.ok (), w)
  | .updateProfileOrderStats tx customerID totalOrders totalSpent averageOrderValue, w => withinStats tx w fun _ =>
    match w.profiles.find? customerID with
    | none => (.ok 0, w)
    | some _ =>
      match profileRow customerID totalOrders totalSpent averageOrderValue with
      | none => (.error (.db .outOfRange), w)
      | some row => (.ok 1, setStats tx (fun t => { t with write := some row }) (fun _ => rfl) w)
  | .commit tx, w => withinStats tx w fun t => (.ok (), endStats tx (applyWrite tx t.write (applyClaim t.claimed t.now w)))
  | .rollback tx, w => (.ok (), endStats tx w)

/-- When a statement proceeds: a row waits for the transaction that wrote it. -/
def statsProceeds (w : StatsWorld) : StatsStmt → Prop
  | .claim tx orderID => ∀ t ∈ w.transactions.rows, t.id ≠ tx → t.ended = false → t.claimed ≠ some orderID
  | .updateProfileOrderStats tx customerID _ _ _ =>
    ∀ t ∈ w.transactions.rows, t.id ≠ tx → t.ended = false → ∀ p ∈ t.write, p.customerID ≠ customerID
  | _ => True

instance (w : StatsWorld) : DecidablePred (statsProceeds w) := fun op => by
  unfold statsProceeds
  split <;> infer_instance

/-! ## The handler -/

/-- `Div` of `shopspring/decimal`: rounded to 16 digits. -/
def divide (a : ℚ) (b : Int) : ℚ := roundHalfAway (a / b * 10 ^ 16) / 10 ^ 16

/-- The body of the transaction. -/
def recordStats (tx : String) (evt : OrderCreated) : StatsHandler Unit := do
  let affected : Nat ← call (I := statsStore) (.claim tx evt.orderID)
  if affected = 0 then raise .statsAlreadyRecorded
  else do
    let profile : Option Profile ← call (I := statsStore) (.getCustomerProfile tx evt.customerID)
    match profile with
    | none => pure ()
    | some profile =>
      let newTotalOrders := profile.totalOrders + 1
      let newTotalSpent := profile.totalSpent.toDecimal + evt.totalAmount
      if newTotalOrders = 0 then raise .divisionByZero
      else do
        if 1 < newTotalOrders then call (I := statsStore) (.getCustomerFirstContactAt tx evt.customerID) else pure ()
        ignore (call (I := statsStore) (.updateProfileOrderStats tx evt.customerID newTotalOrders newTotalSpent
          (divide newTotalSpent newTotalOrders.toInt)))

/-- `pgx.BeginFunc`. -/
def statsTransaction (tx : String) (evt : OrderCreated) (now : Nat) : StatsHandler Unit := do
  let _ : Unit ← call (I := statsStore) (.begin tx now)
  let done ← attempt (recordStats tx evt)
  match done with
  | .ok _ => call (I := statsStore) (.commit tx)
  | .error e => do
    ignore (attempt (call (I := statsStore) (.rollback tx)))
    raise e

/-- `HandleProfileStats`: a redelivery for an order already counted is not an error. -/
def handleProfileStats (tx : String) (evt : OrderCreated) (now : Nat) : StatsHandler Unit := do
  let outcome ← attempt (statsTransaction tx evt now)
  match outcome with
  | .ok _ => pure ()
  | .error .statsAlreadyRecorded => pure ()
  | .error e => raise e

/-! ## Runs -/

/-- Who acts: a delivery by the name of its transaction, and the database server. -/
inductive StatsName where
  | deliver (tx : String)
  | server (n : Nat)
  deriving DecidableEq

/-- What a name may run: a delivery of one of the events, or the end of a transaction whose connection is gone. -/
inductive StatsJob (evts : List OrderCreated) : StatsName → StatsHandler Unit → Prop where
  | deliver (tx evt now) (one : evt ∈ evts) : StatsJob evts (.deliver tx) (handleProfileStats tx evt now)
  | rollback (n tx) : StatsJob evts (.server n) (call (I := statsStore) (.rollback tx))

/-- The runs of deliveries: any statement may fail, lose its reply or be the last of its handler. -/
def statsFlow (evts : List OrderCreated) : Roster statsStore StatsName StatsWorld where
  exec := statsExec
  job := StatsJob evts
  allow := statsProceeds

instance (evts : List OrderCreated) (w : StatsWorld) (op : StatsStmt) : Decidable ((statsFlow evts).allow w op) :=
  inferInstanceAs (Decidable (statsProceeds w op))

end NovoApex.ProfileStats
