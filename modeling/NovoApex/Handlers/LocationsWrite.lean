import NovoApex.Db.Locations
import NovoApex.Handlers.Validation

/-!
# POST, PATCH and DELETE /locations

`internal/handlers/locations_write.go`. A location must offer delivery, pickup, or both:
the create checks the flags with their defaults, and the patch those of its body merged
with the row it has read, of which it then writes only the columns of the body.
-/

namespace NovoApex.Handlers
set_option autoImplicit false
open Lib Program Db

/-- A program of the locations endpoints. -/
abbrev LocationHandler (α : Type) : Type := Program locationStore α

/-! ## Bodies -/

/-- `s4l_timeRegex`. -/
def isTime (s : String) : Bool :=
  match s.toList with
  | [a, b, ':', c, d] =>
    (((a == '0' || a == '1') && b.isDigit) || (a == '2' && '0' ≤ b && b ≤ '3')) && '0' ≤ c && c ≤ '5' && d.isDigit
  | _ => false

/-- `s4l_checkTime`. -/
def checkTime (key : String) (raw : Option RawValue) (required : Bool) (customMessage : String) : Checked String :=
  match raw with
  | none => absent key "string" required
  | some (.string s) => if isTime s then (some s, []) else (none, [⟨"invalid_format", key, customMessage⟩])
  | some v => (none, [invalidType key "string" (some v)])

/-- `s4l_locationInput`. -/
structure LocationInput where
  name : Option String
  address : Option String
  shopNumber : Option String
  landmark : Option String
  openingTime : Option String
  closingTime : Option String
  offersDelivery : Option Bool
  offersPickup : Option Bool
  deriving DecidableEq

/-- `s4l_validateLocation`: all issues, in the order of the fields. -/
def validateLocation (m : String → Option RawValue) (required : Bool) : Except (List FieldIssue) LocationInput :=
  let name := checkString "name" (m "name") required 2
  let address := checkString "address" (m "address") required 2
  let shopNumber := optString "shopNumber" (m "shopNumber")
  let landmark := optString "landmark" (m "landmark")
  let openingTime := checkTime "openingTime" (m "openingTime") required "openingTime must be in 24-hour HH:mm format"
  let closingTime := checkTime "closingTime" (m "closingTime") required "closingTime must be in 24-hour HH:mm format"
  let offersDelivery := checkBool "offersDelivery" (m "offersDelivery") false
  let offersPickup := checkBool "offersPickup" (m "offersPickup") false
  let issues := name.2 ++ address.2 ++ shopNumber.2 ++ landmark.2 ++ openingTime.2 ++ closingTime.2 ++
    offersDelivery.2 ++ offersPickup.2
  if issues.isEmpty then
    .ok ⟨name.1, address.1, shopNumber.1, landmark.1, openingTime.1, closingTime.1, offersDelivery.1, offersPickup.1⟩
  else .error issues

/-- `s4l_fulfillmentRefine`. -/
def fulfillmentRefine (offersDelivery offersPickup : Bool) : List FieldIssue :=
  if offersDelivery || offersPickup then [] else [⟨"custom", "", "A location must offer delivery, pickup, or both"⟩]

/-- The columns a patch writes, in their order. -/
def LocationInput.sets (i : LocationInput) : List LocationSet :=
  (i.name.map .name).toList ++ (i.address.map .address).toList ++ (i.shopNumber.map .shopNumber).toList ++
    (i.landmark.map .landmark).toList ++ (i.openingTime.map .openingTime).toList ++ (i.closingTime.map .closingTime).toList ++
    (i.offersDelivery.map .offersDelivery).toList ++ (i.offersPickup.map .offersPickup).toList

/-! ## The endpoints -/

/-- The row a create inserts: both flags default to true. -/
def newLocation (id businessID : String) (i : LocationInput) : Location where
  id := id
  businessID := businessID
  name := i.name.getD ""
  address := i.address.getD ""
  shopNumber := i.shopNumber
  landmark := i.landmark
  openingTime := i.openingTime.getD ""
  closingTime := i.closingTime.getD ""
  offersDelivery := i.offersDelivery.getD true
  offersPickup := i.offersPickup.getD true
  isActive := true

/-- A body that does not parse. -/
def badBody : Answer Location := .refused 400 "Unexpected token in JSON"

/-- `s4l_locationCreate`, of the business that the token claims. -/
def locationCreate (businessID id : String) (body : Body) : LocationHandler (Answer Location) :=
  match body with
  | none => pure badBody
  | some m =>
    match validateLocation m true with
    | .error issues => pure (.invalid issues)
    | .ok i =>
      match fulfillmentRefine (i.offersDelivery.getD true) (i.offersPickup.getD true) with
      | [] => do
        let created : Location ← call (I := locationStore) (.createLocation (newLocation id businessID i))
        pure (.found 201 created)
      | issues => pure (.invalid issues)

/-- From the row that was read on: its flags, merged with those of the body, are checked again. -/
def patchExisting (id : String) (i : LocationInput) (existing : Location) : LocationHandler (Answer Location) :=
  match fulfillmentRefine (i.offersDelivery.getD existing.offersDelivery) (i.offersPickup.getD existing.offersPickup) with
  | [] => do
    let row : Option Location ← call (I := locationStore) (.updateLocation id i.sets)
    match row with
    | some row => pure (.found 200 row)
    | none => raise (.db .noRows)
  | issues => pure (.invalid issues)

/-- `s4l_locationPatch`. -/
def locationPatch (businessID id : String) (body : Body) : LocationHandler (Answer Location) :=
  match body with
  | none => pure badBody
  | some m =>
    match validateLocation m false with
    | .error issues => pure (.invalid issues)
    | .ok i => do
      let existing : Option Location ← call (I := locationStore) (.getLocationByIDAndBusiness id businessID)
      match existing with
      | none => pure (.refused 404 "Location not found")
      | some existing => patchExisting id i existing

/-- `s4l_locationDelete`. -/
def locationDelete (businessID id : String) : LocationHandler (Answer Unit) := do
  let affected : Nat ← call (I := locationStore) (.deleteLocationByIDAndBusiness id businessID)
  pure (if affected = 0 then .refused 404 "Location not found" else .found 200 ())

end NovoApex.Handlers
