import NovoApex.Db.FollowUps
import NovoApex.Lib.Transactions
import Mathlib.Data.Rat.Defs

/-!
# The store of the retention scanner

The statements of `SweepRetention`, one by one, and those that change what it reads.
The stamps of a scan become visible at its commit; a task that it enqueues is in the
queue at once. The tasks carry the scan that enqueued them and the time it read, which
no statement asks for.
-/

namespace NovoApex.Db
set_option autoImplicit false
open Lib

/-- The columns of `customer_profiles` that the scan reads, and `last_reengagement_at`. -/
structure RetentionProfile where
  customerID : String
  lastOrderAt : Option Int
  orderFrequencyDays : Option ℚ
  lastReengagementAt : Option Int
  deriving DecidableEq

/-- The columns of `orders` that the scan reads. -/
structure PlacedOrder where
  id : String
  customerID : String
  createdAt : Int
  deriving DecidableEq

/-- `profileRow`. -/
structure ProfileRow where
  customerID : String
  businessID : String
  lastOrderAt : Int
  frequencyDays : ℚ
  lastReengagement : Option Int
  deriving DecidableEq

/-- `SET last_reengagement_at = … WHERE customer_id = …`. -/
structure Stamp where
  customerID : String
  time : Int
  deriving DecidableEq

/-- A re-engagement task in the follow-up queue, the scan that enqueued it and the time it had read. -/
structure Reengagement where
  tx : String
  payload : FollowUpPayload
  time : Int
  deriving DecidableEq, Repr

/-- The errors of the scan. -/
inductive ScanErr where
  | db (e : Err)
  /-- The transaction has ended. -/
  | txClosed
  /-- `fmt.Errorf("context: %w", cause)`. -/
  | context (text : String) (cause : ScanErr)
  deriving DecidableEq, Repr

/-- The clock, the tables, the scans' transactions and the tasks. -/
structure RetentionWorld where
  clock : Int
  customers : Table Customer.id
  profiles : Table RetentionProfile.customerID
  orders : Table PlacedOrder.id
  scans : Transactions Stamp
  tasks : List Reengagement

inductive RetentionStmt where
  | begin (tx : String)
  | lockScanner (tx : String)
  | profiles (tx : String)
  | now
  | lastOrder (tx customerID : String)
  | enqueue (tx : String) (payload : FollowUpPayload) (time : Int)
  | stamp (tx customerID : String) (time : Int)
  | commit (tx : String)
  | rollback (tx : String)
  | tick (later : Nat)
  | insertProfile (customerID : String)
  | setStats (customerID : String) (lastOrderAt : Option Int) (orderFrequencyDays : Option ℚ)
  | insertOrder (row : PlacedOrder)

/-- What a statement answers. -/
@[reducible] def RetentionStmt.Reply : RetentionStmt → Type
  | profiles .. => List ProfileRow
  | now => Int
  | lastOrder .. => Option String
  | _ => Unit

/-- The interface of the retention scanner. -/
abbrev retentionStore : Interface := ⟨RetentionStmt, RetentionStmt.Reply, ScanErr, .db .transient⟩

/-! ## Reading -/

/-- `customer_profiles JOIN customers`, for a profile with an order and a frequency. -/
def profileRow (w : RetentionWorld) (p : RetentionProfile) : Option ProfileRow :=
  match w.customers.find? p.customerID, p.lastOrderAt, p.orderFrequencyDays with
  | some c, some lastOrderAt, some frequencyDays =>
    some ⟨p.customerID, c.businessID, lastOrderAt, frequencyDays, p.lastReengagementAt⟩
  | _, _, _ => none

/-- `ORDER BY created_at DESC LIMIT 1`. -/
def lastOrder (customerID : String) (w : RetentionWorld) : Option String :=
  (((w.orders.rows.filter fun o => decide (o.customerID = customerID)).insertionSort
    fun a b => b.createdAt ≤ a.createdAt).head?).map PlacedOrder.id

/-! ## Writing -/

/-- Make one stamp visible. -/
def Stamp.apply (profiles : Table RetentionProfile.customerID) (s : Stamp) : Table RetentionProfile.customerID :=
  profiles.update (fun p => decide (p.customerID = s.customerID)) (fun p => { p with lastReengagementAt := some s.time }) fun _ => rfl

/-- Make the stamps of a scan visible. -/
def applyStamps (profiles : Table RetentionProfile.customerID) (stamps : List Stamp) : Table RetentionProfile.customerID :=
  stamps.foldl Stamp.apply profiles

/-- A statement of an open transaction. -/
def withinScan {α : Type} (tx : String) (w : RetentionWorld)
    (f : (stamps : List Stamp) → w.scans.state tx = .active stamps → Except ScanErr α × RetentionWorld) :
    Except ScanErr α × RetentionWorld :=
  match active : w.scans.state tx with
  | .active stamps => f stamps active
  | _ => (.error .txClosed, w)

theorem withinScan_active {α : Type} {tx : String} {w : RetentionWorld} {stamps : List Stamp}
    {f : (stamps : List Stamp) → w.scans.state tx = .active stamps → Except ScanErr α × RetentionWorld}
    (active : w.scans.state tx = .active stamps) : withinScan tx w f = f stamps active := by
  unfold withinScan
  split
  · rename_i writes here
    obtain rfl : stamps = writes := TxState.active.inj (active.symm.trans here)
    rfl
  · rename_i ended
    exact (ended stamps active).elim

theorem withinScan_ended {α : Type} {tx : String} {w : RetentionWorld}
    {f : (stamps : List Stamp) → w.scans.state tx = .active stamps → Except ScanErr α × RetentionWorld}
    (ended : ∀ stamps, w.scans.state tx ≠ .active stamps) : withinScan tx w f = (.error .txClosed, w) := by
  unfold withinScan
  split
  · rename_i stamps active
    exact (ended stamps active).elim
  · rfl

/-- A statement that only reads. -/
theorem withinScan_reads {α : Type} (tx : String) (w : RetentionWorld) (f : List Stamp → Except ScanErr α) :
    (withinScan tx w fun stamps _ => (f stamps, w)).2 = w := by
  unfold withinScan
  split <;> rfl

/-- End a transaction that is still open. -/
def rollbackScan (tx : String) (w : RetentionWorld) : RetentionWorld :=
  match w.scans.state tx with
  | .active _ => { w with scans := w.scans.finish tx .rolledBack }
  | _ => w

/-- Execute one statement. -/
def retentionExec : retentionStore.Exec RetentionWorld
  | .begin tx, w =>
    if unused : w.scans.state tx = .unused then (.ok (), { w with scans := w.scans.start tx unused })
    else (.error .txClosed, w)
  | .lockScanner tx, w => withinScan tx w fun _ active => (.ok (), { w with scans := w.scans.acquire tx active })
  | .profiles tx, w => withinScan tx w fun _ _ => (.ok (w.profiles.rows.filterMap (profileRow w)), w)
  | .now, w => (.ok w.clock, w)
  | .lastOrder tx customerID, w => withinScan tx w fun _ _ => (.ok (lastOrder customerID w), w)
  | .enqueue tx payload time, w => (.ok (), { w with tasks := w.tasks ++ [⟨tx, payload, time⟩] })
  | .stamp tx customerID time, w =>
    withinScan tx w fun stamps _ => (.ok (), { w with scans := w.scans.write tx stamps ⟨customerID, time⟩ })
  | .commit tx, w =>
    withinScan tx w fun stamps _ =>
      (.ok (), { w with profiles := applyStamps w.profiles stamps, scans := w.scans.finish tx (.committed stamps) })
  | .rollback tx, w => (.ok (), rollbackScan tx w)
  | .tick later, w => (.ok (), { w with clock := w.clock + later })
  | .insertProfile customerID, w =>
    match w.profiles.insert ⟨customerID, none, none, none⟩ with
    | some profiles => (.ok (), { w with profiles := profiles })
    | none => (.error (.db (.uniqueViolation "customer_profiles_customer_id_key")), w)
  | .setStats customerID lastOrderAt orderFrequencyDays, w =>
    (.ok (), { w with
      profiles := w.profiles.update (fun p => decide (p.customerID = customerID))
        (fun p => { p with lastOrderAt := lastOrderAt, orderFrequencyDays := orderFrequencyDays }) fun _ => rfl })
  | .insertOrder row, w =>
    match w.orders.insert row with
    | some orders => (.ok (), { w with orders := orders })
    | none => (.error (.db (.uniqueViolation "orders_pkey")), w)

/-- When a statement proceeds: the advisory lock waits for its holder. -/
def retentionProceeds (w : RetentionWorld) : RetentionStmt → Prop
  | .lockScanner tx => w.scans.holder = none ∨ w.scans.holder = some tx
  | _ => True

end NovoApex.Db
