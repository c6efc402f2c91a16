import NovoApex.Db.Payouts

/-!
# The store of the locations endpoints

The statements of `locations_write.go` and `queries/locations.sql`, one by one. Each
carries the number of the request that issues it.

Some of the state is history that no statement reads: the locations created through the
endpoint, and the row that a request has read.
-/

namespace NovoApex.Db
set_option autoImplicit false
open Lib

/-- A row of `business_locations`, less its timestamps. -/
structure Location where
  id : String
  businessID : String
  name : String
  address : String
  shopNumber : Option String
  landmark : Option String
  openingTime : String
  closingTime : String
  offersDelivery : Bool
  offersPickup : Bool
  isActive : Bool
  deriving DecidableEq

/-- A column of a partial update, with its value. -/
inductive LocationSet where
  | name (v : String)
  | address (v : String)
  | shopNumber (v : String)
  | landmark (v : String)
  | openingTime (v : String)
  | closingTime (v : String)
  | offersDelivery (v : Bool)
  | offersPickup (v : Bool)
  deriving DecidableEq

/-- Write one column. -/
def LocationSet.apply (l : Location) : LocationSet → Location
  | .name v => { l with name := v }
  | .address v => { l with address := v }
  | .shopNumber v => { l with shopNumber := some v }
  | .landmark v => { l with landmark := some v }
  | .openingTime v => { l with openingTime := v }
  | .closingTime v => { l with closingTime := v }
  | .offersDelivery v => { l with offersDelivery := v }
  | .offersPickup v => { l with offersPickup := v }

/-- Write the columns of a partial update. -/
def Location.write (sets : List LocationSet) (l : Location) : Location := sets.foldl LocationSet.apply l

theorem LocationSet.apply_owner (l : Location) (s : LocationSet) :
    (s.apply l).id = l.id ∧ (s.apply l).businessID = l.businessID := by
  cases s <;> exact ⟨rfl, rfl⟩

/-- A partial update leaves the id and the business alone. -/
theorem Location.write_owner (sets : List LocationSet) (l : Location) :
    (l.write sets).id = l.id ∧ (l.write sets).businessID = l.businessID := by
  induction sets generalizing l with
  | nil => exact ⟨rfl, rfl⟩
  | cons s rest ih =>
    obtain ⟨id, business⟩ := ih (s.apply l)
    obtain ⟨id', business'⟩ := s.apply_owner l
    exact ⟨id.trans id', business.trans business'⟩

/-- The errors of the vendor's endpoints. -/
inductive VendorErr where
  | db (e : Err)
  /-- SQLSTATE 42601: a partial update without columns is no statement. -/
  | syntaxError
  deriving DecidableEq, Repr

/-- The tables of the locations endpoints, and the history. -/
structure LocationWorld where
  businesses : Table Business.id
  locations : Table Location.id
  created : List String
  read : Nat → Option Location

inductive LocationStmt where
  | createLocation (row : Location)
  | getLocationByIDAndBusiness (id businessID : String)
  | updateLocation (id : String) (sets : List LocationSet)
  | deleteLocationByIDAndBusiness (id businessID : String)

/-- What a statement answers. -/
@[reducible] def LocationStmt.Reply : LocationStmt → Type
  | createLocation .. => Location
  | getLocationByIDAndBusiness .. => Option Location
  | updateLocation .. => Option Location
  | deleteLocationByIDAndBusiness .. => Nat

/-- The interface of the locations endpoints. -/
abbrev locationStore : Interface := ⟨LocationStmt, LocationStmt.Reply, VendorErr, .db .transient⟩

/-- The row of a location, if it is the business's. -/
def getLocation (id businessID : String) (w : LocationWorld) : Option Location :=
  (w.locations.find? id).filter fun l => decide (l.businessID = businessID)

/-- `INSERT INTO business_locations`, with the constraints of the table. -/
def createLocation (row : Location) (w : LocationWorld) : Except VendorErr LocationWorld :=
  if (w.businesses.find? row.businessID).isNone then
    .error (.db (.foreignKeyViolation "business_locations_business_id_fkey"))
  else
    match w.locations.insert row with
    | some locations => .ok { w with locations := locations, created := row.id :: w.created }
    | none => .error (.db (.uniqueViolation "business_locations_pkey"))

/-- `UPDATE business_locations SET … WHERE id = …`. -/
def updateLocation (id : String) (sets : List LocationSet) (w : LocationWorld) : LocationWorld :=
  { w with
    locations := w.locations.update (fun l => decide (l.id = id)) (Location.write sets) fun l => (l.write_owner sets).1 }

theorem mem_updateLocation {id : String} {sets : List LocationSet} {w : LocationWorld} {l : Location} :
    l ∈ (updateLocation id sets w).locations.rows ↔
      (l ∈ w.locations.rows ∧ l.id ≠ id) ∨ ∃ old ∈ w.locations.rows, old.id = id ∧ l = old.write sets :=
  @Table.mem_update_keyed _ _ _ _ w.locations id (Location.write sets) (fun l => (l.write_owner sets).1) l

/-- The rows without those selected. -/
def deleteRows {R K : Type} {key : R → K} (t : Table key) (p : R → Bool) : Table key where
  rows := t.rows.filter fun r => !p r
  unique := t.unique_delete p

/-- Execute one statement. -/
def locationExec : (locationStore.signed Nat).Exec LocationWorld
  | (_, .createLocation row), w =>
    match createLocation row w with
    | .ok w' => (.ok row, w')
    | .error e => (.error e, w)
  | (i, .getLocationByIDAndBusiness id businessID), w =>
    (.ok (getLocation id businessID w), { w with read := Function.update w.read i (getLocation id businessID w) })
  | (_, .updateLocation id sets), w =>
    if sets.isEmpty then (.error .syntaxError, w)
    else (.ok ((updateLocation id sets w).locations.find? id), updateLocation id sets w)
  | (_, .deleteLocationByIDAndBusiness id businessID), w =>
    (.ok (w.locations.affected fun l => decide (l.id = id) && decide (l.businessID = businessID)),
      { w with locations := deleteRows w.locations fun l => decide (l.id = id) && decide (l.businessID = businessID) })

end NovoApex.Db
