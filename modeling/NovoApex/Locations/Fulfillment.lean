import NovoApex.Handlers.LocationsWrite
import NovoApex.Lib.Crew

/-!
# A location offers delivery, pickup, or both

A patch checks the flags of its body merged with the row it has read, and then writes
only the columns of the body. Between the two the flag that it leaves alone may change:
of two overlapping patches one turns off the delivery and the other one the pickup, and
each sees the other flag still on. As long as no patch turns a flag off after the other
one has changed under it, every location created through the endpoint keeps one.
-/

namespace NovoApex.Locations
set_option autoImplicit false
open Lib Program Db Handlers

/-- The location offers delivery, pickup, or both. -/
def Served (l : Location) : Prop := l.offersDelivery = true ∨ l.offersPickup = true

instance (l : Location) : Decidable (Served l) := inferInstanceAs (Decidable (_ ∨ _))

/-! ## The flags of an update -/

/-- The flag after one more column. -/
def deliveryStep (d : Option Bool) : LocationSet → Option Bool
  | .offersDelivery v => some v
  | _ => d

def pickupStep (d : Option Bool) : LocationSet → Option Bool
  | .offersPickup v => some v
  | _ => d

/-- What an update writes to `offers_delivery`. -/
def writtenDelivery (sets : List LocationSet) : Option Bool := sets.foldl deliveryStep none

/-- What an update writes to `offers_pickup`. -/
def writtenPickup (sets : List LocationSet) : Option Bool := sets.foldl pickupStep none

theorem foldl_delivery (sets : List LocationSet) (l : Location) (d : Option Bool) (b : Bool) (h : l.offersDelivery = d.getD b) :
    (l.write sets).offersDelivery = (sets.foldl deliveryStep d).getD b := by
  induction sets generalizing l d with
  | nil => exact h
  | cons s rest ih =>
    apply ih
    cases s with
    | offersDelivery v => rfl
    | _ => exact h

theorem foldl_pickup (sets : List LocationSet) (l : Location) (d : Option Bool) (b : Bool) (h : l.offersPickup = d.getD b) :
    (l.write sets).offersPickup = (sets.foldl pickupStep d).getD b := by
  induction sets generalizing l d with
  | nil => exact h
  | cons s rest ih =>
    apply ih
    cases s with
    | offersPickup v => rfl
    | _ => exact h

/-- An update writes its flags and keeps the others. -/
theorem write_flags (sets : List LocationSet) (l : Location) :
    (l.write sets).offersDelivery = (writtenDelivery sets).getD l.offersDelivery ∧
      (l.write sets).offersPickup = (writtenPickup sets).getD l.offersPickup :=
  ⟨foldl_delivery sets l none l.offersDelivery rfl, foldl_pickup sets l none l.offersPickup rfl⟩

theorem foldl_column {d : Option Bool} {α : Type} (step : Option Bool → LocationSet → Option Bool) (o : Option α)
    (column : α → LocationSet) (other : ∀ v, step d (column v) = d) : (o.map column).toList.foldl step d = d := by
  cases o with
  | none => rfl
  | some v => exact other v

/-- A patch writes the flags of its body. -/
theorem written_sets (i : LocationInput) :
    writtenDelivery i.sets = i.offersDelivery ∧ writtenPickup i.sets = i.offersPickup := by
  obtain ⟨name, address, shopNumber, landmark, openingTime, closingTime, delivery, pickup⟩ := i
  unfold writtenDelivery writtenPickup LocationInput.sets
  simp only [List.foldl_append, foldl_column deliveryStep _ LocationSet.name fun _ => rfl,
    foldl_column deliveryStep _ LocationSet.address fun _ => rfl, foldl_column deliveryStep _ LocationSet.shopNumber fun _ => rfl,
    foldl_column deliveryStep _ LocationSet.landmark fun _ => rfl, foldl_column deliveryStep _ LocationSet.openingTime fun _ => rfl,
    foldl_column deliveryStep _ LocationSet.closingTime fun _ => rfl, foldl_column pickupStep _ LocationSet.name fun _ => rfl,
    foldl_column pickupStep _ LocationSet.address fun _ => rfl, foldl_column pickupStep _ LocationSet.shopNumber fun _ => rfl,
    foldl_column pickupStep _ LocationSet.landmark fun _ => rfl, foldl_column pickupStep _ LocationSet.openingTime fun _ => rfl,
    foldl_column pickupStep _ LocationSet.closingTime fun _ => rfl]
  constructor
  · cases delivery <;> cases pickup <;> rfl
  · cases delivery <;> cases pickup <;> rfl

/-! ## Requests -/

/-- What a request may be. -/
inductive LocationJob : Nat → Program (locationStore.signed Nat) Unit → Prop where
  | create (n businessID id body) : LocationJob n ((ignore (locationCreate businessID id body)).signed n)
  | patch (n businessID id body) : LocationJob n ((ignore (locationPatch businessID id body)).signed n)
  | delete (n businessID id) : LocationJob n ((ignore (locationDelete businessID id)).signed n)

/-- The runs of the locations endpoints in which only the given statements are executed. -/
def locationFlow (allow : LocationWorld → Nat × LocationStmt → Prop) : Roster (locationStore.signed Nat) Nat LocationWorld where
  exec := locationExec
  job := LocationJob
  allow := allow

/-- A patch that turns one flag off finds the other one as it has read it. -/
def keepsFlags (w : LocationWorld) : Nat × LocationStmt → Prop
  | (i, .updateLocation id sets) => ∀ l ∈ w.locations.rows, l.id = id → ∀ r, w.read i = some r →
    (writtenDelivery sets = some false → writtenPickup sets = none → l.offersPickup = r.offersPickup) ∧
      (writtenPickup sets = some false → writtenDelivery sets = none → l.offersDelivery = r.offersDelivery)
  | _ => True

/-- Every location created through the endpoint offers one of the two. -/
def CreatedServed (w : LocationWorld) : Prop := ∀ l ∈ w.locations.rows, l.id ∈ w.created → Served l

/-- Nobody else changes what a request has read. -/
def locationProtocol : Protocol Nat LocationWorld where
  inv := CreatedServed
  rely i w w' := w'.read i = w.read i
  refl _ _ := rfl
  trans _ _ _ _ first second := second.trans first

section Safety

variable {i : Nat} {w : LocationWorld}

theorem fulfillmentRefine_nil {delivery pickup : Bool} (h : fulfillmentRefine delivery pickup = []) :
    delivery = true ∨ pickup = true := by
  unfold fulfillmentRefine at h
  split at h
  · rename_i served
    exact Bool.or_eq_true _ _ ▸ served
  · cases h

/-- An insert: the new row is sound, the old ones stay. -/
theorem createdServed_insert {row : Location} {locations : Table Location.id} (h : CreatedServed w) (served : Served row)
    (inserted : w.locations.insert row = some locations) :
    CreatedServed { w with locations := locations, created := row.id :: w.created } := by
  obtain ⟨fresh, rows⟩ := Table.insert_eq_some.1 inserted
  intro l mem created
  have mem : l ∈ w.locations.rows ++ [row] := rows ▸ mem
  rcases List.mem_append.1 mem with old | new
  · apply h l old
    rcases List.mem_cons.1 created with same | before
    · exact absurd same (fresh l old)
    · exact before
  · rw [List.mem_singleton.1 new]
    exact served

/-- An update of flags that were checked. -/
theorem createdServed_update {id : String} {input : LocationInput} {r : Location} (h : CreatedServed w) (read : w.read i = some r)
    (checked : input.offersDelivery.getD r.offersDelivery = true ∨ input.offersPickup.getD r.offersPickup = true)
    (may : keepsFlags w (i, .updateLocation id input.sets)) : CreatedServed (updateLocation id input.sets w) := by
  intro l mem created
  rcases mem_updateLocation.1 mem with ⟨was, -⟩ | ⟨old, was, own, rfl⟩
  · exact h l was created
  · have before : Served old := h old was ((old.write_owner input.sets).1 ▸ created)
    obtain ⟨delivery, pickup⟩ := write_flags input.sets old
    obtain ⟨offDelivery, offPickup⟩ := may old was own r read
    obtain ⟨written, written'⟩ := written_sets input
    rw [written, written'] at offDelivery offPickup
    unfold Served at before ⊢
    rw [delivery, pickup, written, written']
    cases d : input.offersDelivery with
    | none =>
      cases p : input.offersPickup with
      | none => exact before
      | some p' =>
        cases p' with
        | true => exact .inr rfl
        | false =>
          rw [d, p] at checked
          have still := offPickup p d
          simp only [Option.getD_none, Option.getD_some, Bool.false_eq_true, or_false] at checked
          exact .inl (still.trans checked)
    | some d' =>
      cases d' with
      | true => exact .inl rfl
      | false =>
        cases p : input.offersPickup with
        | none =>
          rw [d, p] at checked
          have still := offDelivery d p
          simp only [Option.getD_none, Option.getD_some, Bool.false_eq_true, false_or] at checked
          exact .inr (still.trans checked)
        | some p' =>
          rw [d, p] at checked
          simp only [Option.getD_some, Bool.false_eq_true, false_or] at checked
          exact .inr checked

/-! ## Safe requests -/

/-- The row of a create has been checked. -/
theorem safe_create {row : Location} (served : Served row) :
    Safe (locationFlow keepsFlags) locationProtocol i (fun _ _ => True)
      (call (I := locationStore.signed Nat) (i, .createLocation row)) w := by
  apply Safe.call
  · intro t _ inv _
    simp only [locationFlow, locationExec, createLocation]
    split
    · rename_i w' created
      split at created
      · cases created
      · split at created
        · rename_i locations inserted
          obtain rfl := Except.ok.inj created
          exact ⟨createdServed_insert inv served inserted, fun j _ => rfl, trivial, fun _ => trivial⟩
        · cases created
    · exact ⟨inv, fun j _ => rfl, trivial, fun _ => trivial⟩
  · intro t _ _ _
    trivial
  · intro t _ _ _
    trivial

/-- The row a request reads is the one that is noted. -/
theorem safe_get {id businessID : String} :
    Safe (locationFlow keepsFlags) locationProtocol i (Replied (fun reply t => t.read i = reply) fun _ => True)
      (call (I := locationStore.signed Nat) (i, .getLocationByIDAndBusiness id businessID)) w := by
  apply Safe.call
  · intro t _ inv _
    have others : ∀ j, j ≠ i → Function.update t.read i (getLocation id businessID t) j = t.read j :=
      fun j other => Function.update_of_ne other _ _
    exact ⟨inv, others, Function.update_self .., fun _ => trivial⟩
  · intro t _ _ _
    trivial
  · intro t _ _ _
    trivial

/-- The update of a request that has checked its flags against the row it has read. -/
theorem safe_update {id : String} {input : LocationInput} {r : Location} (read : w.read i = some r)
    (checked : input.offersDelivery.getD r.offersDelivery = true ∨ input.offersPickup.getD r.offersPickup = true) :
    Safe (locationFlow keepsFlags) locationProtocol i (fun _ _ => True)
      (call (I := locationStore.signed Nat) (i, .updateLocation id input.sets)) w := by
  apply Safe.call
  · intro t rely inv may
    have read' : t.read i = some r := rely.trans read
    simp only [locationFlow, locationExec]
    split
    · exact ⟨inv, fun j _ => rfl, trivial, fun _ => trivial⟩
    · exact ⟨createdServed_update inv read' checked may, fun j _ => rfl, trivial, fun _ => trivial⟩
  · intro t _ _ _
    trivial
  · intro t _ _ _
    trivial

/-- A delete only takes rows away. -/
theorem safe_delete {id businessID : String} :
    Safe (locationFlow keepsFlags) locationProtocol i (fun _ _ => True)
      (call (I := locationStore.signed Nat) (i, .deleteLocationByIDAndBusiness id businessID)) w := by
  apply Safe.call
  · intro t _ inv _
    exact ⟨fun l mem created => inv l (List.mem_of_mem_filter mem) created, fun j _ => rfl, trivial, fun _ => trivial⟩
  · intro t _ _ _
    trivial
  · intro t _ _ _
    trivial

theorem safe_locationCreate {businessID id : String} {body : Body} :
    Safe (locationFlow keepsFlags) locationProtocol i (fun _ _ => True) ((locationCreate businessID id body).signed i) w := by
  unfold locationCreate
  cases body with
  | none => trivial
  | some m =>
    simp only
    cases validateLocation m true with
    | error issues => trivial
    | ok input =>
      simp only
      cases refined : fulfillmentRefine (input.offersDelivery.getD true) (input.offersPickup.getD true) with
      | cons _ _ => trivial
      | nil =>
        have served : Served (newLocation id businessID input) := fulfillmentRefine_nil refined
        refine Safe.bind_signed ((safe_create served).mono fun reply t _ => ?_)
        cases reply <;> trivial

theorem safe_patchExisting {id : String} {input : LocationInput} {r : Location} (read : w.read i = some r) :
    Safe (locationFlow keepsFlags) locationProtocol i (fun _ _ => True) ((patchExisting id input r).signed i) w := by
  unfold patchExisting
  cases refined : fulfillmentRefine (input.offersDelivery.getD r.offersDelivery) (input.offersPickup.getD r.offersPickup) with
  | cons _ _ => trivial
  | nil =>
    refine Safe.bind_signed ((safe_update read (fulfillmentRefine_nil refined)).mono fun row u _ => ?_)
    cases row with
    | error e => trivial
    | ok row => cases row <;> trivial

theorem safe_locationPatch {businessID id : String} {body : Body} :
    Safe (locationFlow keepsFlags) locationProtocol i (fun _ _ => True) ((locationPatch businessID id body).signed i) w := by
  unfold locationPatch
  cases body with
  | none => trivial
  | some m =>
    simp only
    cases validateLocation m false with
    | error issues => trivial
    | ok input =>
      refine Safe.bind_signed (safe_get.mono fun reply t read => ?_)
      cases reply with
      | error e => trivial
      | ok existing =>
        cases existing with
        | none => trivial
        | some r => exact safe_patchExisting read

theorem safe_locationDelete {businessID id : String} :
    Safe (locationFlow keepsFlags) locationProtocol i (fun _ _ => True) ((locationDelete businessID id).signed i) w := by
  refine Safe.bind_signed (safe_delete.mono fun reply t _ => ?_)
  cases reply <;> trivial

theorem safe_ignored {α : Type} {p : LocationHandler α}
    (h : Safe (locationFlow keepsFlags) locationProtocol i (fun _ _ => True) (p.signed i) w) :
    Safe (locationFlow keepsFlags) locationProtocol i (fun _ => locationProtocol.idle i) ((ignore p).signed i) w := by
  refine Safe.bind_signed (h.mono fun reply t _ => ?_)
  cases reply <;> trivial

theorem safe_job {p : Program (locationStore.signed Nat) Unit} (job : LocationJob i p) :
    Safe (locationFlow keepsFlags) locationProtocol i (fun _ => locationProtocol.idle i) p w := by
  cases job with
  | create businessID id body => exact safe_ignored safe_locationCreate
  | patch businessID id body => exact safe_ignored safe_locationPatch
  | delete businessID id => exact safe_ignored safe_locationDelete

end Safety

/-- In every run in which no patch turns a flag off after the other one has changed under it, every location created
through the endpoint offers delivery, pickup, or both. -/
theorem created_locations_served {w : LocationWorld} {c : Crew (locationStore.signed Nat) Nat LocationWorld} (start : w.created = [])
    (reach : (locationFlow keepsFlags).Reach ⟨w, []⟩ c) : CreatedServed c.state := by
  have first : CreatedServed w := by
    intro l _ created
    rw [start] at created
    cases created
  exact Protocol.invariant (R := locationFlow keepsFlags) (P := locationProtocol) (fun i p s job _ _ => safe_job job) reach first
    fun _ => trivial

/-! ## Overlapping patches -/

/-- `keepsFlags`, computed. -/
def keepsFlagsNow (w : LocationWorld) : Nat × LocationStmt → Bool
  | (i, .updateLocation id sets) => w.locations.rows.all fun l => l.id != id || (w.read i).all fun r =>
    (writtenDelivery sets != some false || (writtenPickup sets).isSome || l.offersPickup == r.offersPickup) &&
      (writtenPickup sets != some false || (writtenDelivery sets).isSome || l.offersDelivery == r.offersDelivery)
  | _ => true

theorem keepsFlagsNow_iff (w : LocationWorld) (op : Nat × LocationStmt) : keepsFlagsNow w op = true ↔ keepsFlags w op := by
  unfold keepsFlagsNow keepsFlags
  split
  · simp only [List.all_eq_true, Bool.or_eq_true, bne_iff_ne, ne_eq, Option.all_eq_true, Bool.and_eq_true, beq_iff_eq,
      Option.isSome_iff_ne_none, imp_iff_not_or, or_assoc]
  · simp

instance (w : LocationWorld) (op : Nat × LocationStmt) : Decidable ((locationFlow keepsFlags).allow w op) :=
  decidable_of_iff _ (keepsFlagsNow_iff w op)

instance (w : LocationWorld) (op : Nat × LocationStmt) : Decidable ((locationFlow fun _ _ => True).allow w op) := isTrue trivial

instance (w : LocationWorld) : Decidable (CreatedServed w) := inferInstanceAs (Decidable (∀ l ∈ w.locations.rows, _))

/-- A business without locations. -/
def unopened : LocationWorld where
  businesses := ⟨[⟨"biz", "GHS", some "RCP_locations"⟩], by decide⟩
  locations := Table.empty
  created := []
  read _ := none

/-- A body with the fields. -/
def bodyOf (fields : List (String × RawValue)) : Body := some fun key => fields.lookup key

/-- A shop that delivers and lets its customers pick up. -/
def openShop : Program (locationStore.signed Nat) Unit :=
  (ignore (locationCreate "biz" "loc" (bodyOf [("name", .string "Osu"), ("address", .string "Oxford Street"),
    ("openingTime", .string "08:00"), ("closingTime", .string "18:00")]))).signed 0

def noDelivery : Program (locationStore.signed Nat) Unit :=
  (ignore (locationPatch "biz" "loc" (bodyOf [("offersDelivery", .boolean false)]))).signed 1

def noPickup : Program (locationStore.signed Nat) Unit :=
  (ignore (locationPatch "biz" "loc" (bodyOf [("offersPickup", .boolean false)]))).signed 2

def opened : LocationWorld := (openShop.run locationExec unopened).2

def pickupOnly : LocationWorld := (noDelivery.run locationExec opened).2

/-- One patch after the other: the second one is refused. -/
theorem created_locations_served_in_turn : ∃ c : Crew (locationStore.signed Nat) Nat LocationWorld,
    c.state.created = ["loc"] ∧ CreatedServed c.state := by
  have opens : (locationFlow keepsFlags).Reach ⟨unopened, []⟩ ⟨opened, []⟩ :=
    (locationFlow keepsFlags).reach_job (i := 0) (p := openShop) (.create 0 ..) (by decide +kernel)
  have delivers : (locationFlow keepsFlags).Reach ⟨opened, []⟩ ⟨pickupOnly, []⟩ :=
    (locationFlow keepsFlags).reach_job (i := 1) (p := noDelivery) (.patch 1 ..) (by decide +kernel)
  have refuses := (locationFlow keepsFlags).reach_job (i := 2) (p := noPickup) (s := pickupOnly) (.patch 2 ..) (by decide +kernel)
  exact ⟨_, by decide +kernel, created_locations_served rfl (opens.trans (delivers.trans refuses))⟩

/-- Two patches that overlap leave a location that offers neither. -/
theorem overlapping_patches_close_location : ¬ ∀ c : Crew (locationStore.signed Nat) Nat LocationWorld,
    (locationFlow fun _ _ => True).Reach ⟨unopened, []⟩ c → CreatedServed c.state := by
  intro whole
  have opens : (locationFlow fun _ _ => True).Reach ⟨unopened, []⟩ ⟨opened, []⟩ :=
    (locationFlow fun _ _ => True).reach_job (i := 0) (p := openShop) (.create 0 ..) (by decide +kernel)
  have first : (locationFlow fun _ _ => True).Step ⟨opened, []⟩ ⟨opened, [] ++ (1, noDelivery) :: []⟩ :=
    .spawn (.patch 1 ..) List.not_mem_nil
  have reads := (locationFlow fun _ _ => True).reach_steps (i := 1) (p := noDelivery) (s := opened) 1 [] [] (by decide +kernel)
  have second : (locationFlow fun _ _ => True).Step
      ⟨(noDelivery.steps locationExec 1 opened).2, [] ++ (1, (noDelivery.steps locationExec 1 opened).1) :: []⟩
      ⟨(noDelivery.steps locationExec 1 opened).2, [] ++ (2, noPickup) :: [(1, (noDelivery.steps locationExec 1 opened).1)]⟩ :=
    .spawn (.patch 2 ..) (by decide)
  have readsToo := (locationFlow fun _ _ => True).reach_end (i := 2) (p := noPickup) (s := (noDelivery.steps locationExec 1 opened).2) []
    [(1, (noDelivery.steps locationExec 1 opened).1)] (by decide +kernel)
  have writes := (locationFlow fun _ _ => True).reach_end (i := 1) (p := (noDelivery.steps locationExec 1 opened).1)
    (s := (noPickup.run locationExec (noDelivery.steps locationExec 1 opened).2).2)
    [(2, .ret (noPickup.run locationExec (noDelivery.steps locationExec 1 opened).2).1)] [] (by decide +kernel)
  have closed := whole _ (opens.trans ((Relation.ReflTransGen.head first reads).trans (.head second (readsToo.trans writes))))
  exact absurd closed (by decide +kernel)

end NovoApex.Locations
