import NovoApex.Lib.Answered
import NovoApex.Lib.Shares
import NovoApex.Vendors.Requests
import Mathlib.Data.List.Dedup

/-!
# A request writes the images of its own product only

The writes of a request on images name rows by their ids alone. It takes them from what
it reads: the image it removes is looked up under its product, the rows it moves up are
those of its product, and a submitted order has to be the product's complete set. So if
the product is not one of the others, the images of the others stay as they are, whatever
transactions are in flight.
-/

namespace NovoApex.Vendors
set_option autoImplicit false
open Lib Program Images

variable {others : ImageRow → Bool} {theirs : List ImageRow}

/-- Nobody else's image has the id. -/
def OwnImage (theirs : List ImageRow) (id : String) : Prop := ∀ r ∈ theirs, r.id ≠ id

/-- A write that leaves the images of the others alone. -/
def Harmless (others : ImageRow → Bool) (theirs : List ImageRow) : ImageWrite → Prop
  | .insert row => others row = false
  | .delete id => OwnImage theirs id
  | .setPosition id _ => OwnImage theirs id

/-- The images of the others are these, and no transaction in flight writes one. -/
structure ImagesKept (others : ImageRow → Bool) (theirs : List ImageRow) (w : ImageWorld) : Prop where
  share : w.images.share others = theirs
  pending : ∀ i writes, w.tx i = some writes → ∀ x ∈ writes, Harmless others theirs x

/-- What a request may issue, on the images of a product. -/
def ImageAble (others : ImageRow → Bool) (theirs : List ImageRow) (productID : String) : ImageStmt → Prop
  | .insertProductImage row => others row = false
  | .deleteImageByID id => OwnImage theirs id
  | .updateImagePosition id _ => OwnImage theirs id
  | .parkImagePositions _ => ∀ r, r.productID = productID → others r = false
  | _ => True

/-! ## The statements -/

theorem own_of_share {t : ImageTable} {r : ImageRow} (kept : t.share others = theirs) (mem : r ∈ t.rows) (own : others r = false) :
    OwnImage theirs r.id := by
  rw [← kept]
  exact Table.not_mem_share_of_key mem own

/-- A row under an id that nobody else has is nobody else's. -/
theorem OwnImage.row {t : ImageTable} {id : String} (own : OwnImage theirs id) (kept : t.share others = theirs) {r : ImageRow}
    (mem : r ∈ t.rows) (same : r.id = id) : others r = false := by
  cases foreign : others r with
  | false => rfl
  | true =>
    rw [← kept] at own
    exact absurd same (own r (Table.mem_share.2 ⟨mem, foreign⟩))

section Writes

variable (byProduct : ∀ r s : ImageRow, r.productID = s.productID → others r = others s)
include byProduct

theorem Harmless.apply {t u : ImageTable} {x : ImageWrite} (harmless : Harmless others theirs x) (kept : t.share others = theirs)
    (applied : x.apply t = some u) : u.share others = theirs := by
  cases x with
  | insert row => exact (Table.share_insert applied harmless).trans kept
  | delete id =>
    obtain rfl := Option.some.inj applied
    refine (Table.share_delete fun r mem selected => ?_).trans kept
    exact OwnImage.row harmless kept mem (of_decide_eq_true selected)
  | setPosition id position =>
    obtain rfl := Option.some.inj applied
    refine (Table.share_update fun r mem selected => ?_).trans kept
    have own := OwnImage.row harmless kept mem (of_decide_eq_true selected)
    have moved : others { r with position := position } = others r := byProduct _ r rfl
    exact ⟨own, moved.trans own⟩

theorem applyWrites_kept {writes : List ImageWrite} {t u : ImageTable} (harmless : ∀ x ∈ writes, Harmless others theirs x)
    (kept : t.share others = theirs) (applied : applyWrites writes t = some u) : u.share others = theirs := by
  induction writes generalizing t with
  | nil =>
    obtain rfl := Option.some.inj applied
    exact kept
  | cons x rest ih =>
    obtain ⟨t', first, rest'⟩ := Option.bind_eq_some_iff.1 applied
    have kept' := (harmless x List.mem_cons_self).apply byProduct kept first
    exact ih (fun y mem => harmless y (List.mem_cons_of_mem _ mem)) kept' rest'

/-- What a request sees has the same images of the others. -/
theorem ImagesKept.visible {w : ImageWorld} (inv : ImagesKept others theirs w) {i : Nat} {t : ImageTable} (seen : visible i w = some t) :
    t.share others = theirs := by
  unfold Images.visible at seen
  refine applyWrites_kept byProduct (fun x mem => ?_) inv.share seen
  cases tx : w.tx i with
  | none => simp [tx] at mem
  | some writes =>
    rw [tx, Option.getD_some] at mem
    exact inv.pending i writes tx x mem

/-- The rows of a product that is nobody else's, as a request sees them. -/
theorem ImagesKept.listed {w : ImageWorld} (inv : ImagesKept others theirs w) {i : Nat} {t : ImageTable} (seen : Images.visible i w = some t)
    {productID : String} (own : ∀ r, r.productID = productID → others r = false) {r : ImageRow} (mem : r ∈ imagesOf t productID) :
    OwnImage theirs r.id := by
  unfold imagesOf at mem
  obtain ⟨there, named⟩ := List.mem_filter.1 mem
  exact own_of_share (inv.visible byProduct seen) there (own r (of_decide_eq_true named))

end Writes

/-- Other writes of a transaction. -/
theorem ImagesKept.withTx {w : ImageWorld} (inv : ImagesKept others theirs w) {i : Nat} {state : Option (List ImageWrite)}
    (harmless : ∀ writes, state = some writes → ∀ x ∈ writes, Harmless others theirs x) :
    ImagesKept others theirs { w with tx := Function.update w.tx i state } := by
  refine ⟨inv.share, fun j writes tx => ?_⟩
  by_cases mine : j = i
  · subst mine
    simp only [Function.update_self] at tx
    exact harmless writes tx
  · simp only [Function.update_of_ne mine] at tx
    exact inv.pending j writes tx

theorem ImagesKept.locked {w : ImageWorld} (inv : ImagesKept others theirs w) (i : Nat) (ids : List String) :
    ImagesKept others theirs (lockRows i ids w) := ⟨inv.share, inv.pending⟩

theorem ImagesKept.wrote {w : ImageWorld} (inv : ImagesKept others theirs w) {i : Nat} {writes : List ImageWrite}
    (harmless : ∀ x ∈ writes, Harmless others theirs x) : ImagesKept others theirs (writeRows i writes w).2 := by
  unfold writeRows
  split
  · exact inv
  · rename_i before tx
    split
    · exact inv
    · split
      · refine inv.withTx fun all same x mem => ?_
        obtain rfl := Option.some.inj same
        rcases List.mem_append.1 mem with mem | mem
        · exact inv.pending i before tx x mem
        · exact harmless x mem
      · exact inv

theorem ImagesKept.ended {w : ImageWorld} (inv : ImagesKept others theirs w) (i : Nat) {t : ImageTable} (kept : t.share others = theirs) :
    ImagesKept others theirs (endTx i t w) := by
  refine ⟨kept, (inv.withTx ?_ : ImagesKept others theirs { w with tx := Function.update w.tx i none }).pending⟩
  intro writes none
  cases none

/-- The writes of `ParkImagePositions` are on the product's images. -/
theorem mem_parkWrites {t : ImageTable} {productID : String} {offset : Int32} {writes : List ImageWrite}
    (parked : parkWrites t productID offset = some writes) {x : ImageWrite} (mem : x ∈ writes) :
    ∃ r ∈ imagesOf t productID, ∃ position, x = .setPosition r.id position := by
  unfold parkWrites at parked
  generalize imagesOf t productID = rows at parked
  induction rows generalizing writes with
  | nil =>
    obtain rfl := Option.some.inj parked
    cases mem
  | cons r rest ih =>
    rw [List.mapM_cons] at parked
    obtain ⟨first, here, more⟩ := Option.bind_eq_some_iff.1 parked
    obtain ⟨writes', there, same⟩ := Option.bind_eq_some_iff.1 more
    obtain rfl := Option.some.inj same
    obtain ⟨position, -, rfl⟩ := Option.map_eq_some_iff.1 here
    rcases List.mem_cons.1 mem with rfl | later
    · exact ⟨r, List.mem_cons_self, position, rfl⟩
    · obtain ⟨r', mem', position', same'⟩ := ih later there
      exact ⟨r', List.mem_cons_of_mem _ mem', position', same'⟩

/-- An able statement keeps the images of the others. -/
theorem ImagesKept.exec (byProduct : ∀ r s : ImageRow, r.productID = s.productID → others r = others s) {productID : String}
    {w : ImageWorld} {i : Nat} {op : ImageStmt} (inv : ImagesKept others theirs w) (able : ImageAble others theirs productID op) :
    ImagesKept others theirs (imageExec productID (i, op) w).2 := by
  cases op with
  | findStoredImageHashes hashes => exact inv
  | findImageByIDAndProduct imageID => exact inv
  | listImageIDPositions =>
    simp only [imageExec]
    split <;> exact inv
  | begin => exact inv.withTx fun writes same x mem => by cases same; cases mem
  | aggregateProductImages =>
    simp only [imageExec]
    split <;> exact inv
  | insertProductImage row =>
    refine inv.wrote fun x mem => ?_
    rw [List.mem_singleton.1 mem]
    exact able
  | lockImageRowsByProduct => exact inv.locked i _
  | deleteImageByID imageID =>
    refine (inv.locked i [imageID]).wrote fun x mem => ?_
    rw [List.mem_singleton.1 mem]
    exact able
  | updateImagePosition imageID position =>
    refine (inv.locked i [imageID]).wrote fun x mem => ?_
    rw [List.mem_singleton.1 mem]
    exact able
  | parkImagePositions offset =>
    simp only [imageExec]
    split
    · rename_i t seen
      split
      · rename_i writes parked
        refine (inv.locked i _).wrote fun x mem => ?_
        obtain ⟨r, there, position, rfl⟩ := mem_parkWrites parked mem
        exact inv.listed byProduct seen able there
      · exact inv
    · exact inv
  | commit basis =>
    simp only [imageExec]
    split
    · rename_i t tx seen
      exact inv.ended i (inv.visible byProduct seen)
    · exact inv
  | rollback => exact inv.ended i inv.share

/-! ## The requests -/

/-- A request on the images of a product, answered by stores whose images of the others are these, only writes its own. -/
def OwnRequest (others : ImageRow → Bool) (theirs : List ImageRow) (request : Nat) (productID : String) {α : Type}
    (Q : Except ImageErr α → Prop) (p : Program imageStore α) : Prop :=
  p.Finds (fun op w => imageExec productID (request, op) w) (ImagesKept others theirs) (ImageAble others theirs productID) Q

section Requests

variable {productID : String} {request : Nat}

/-- A transaction whose body only writes its own images. -/
theorem own_inTx {fn : Program imageStore Basis} (body : OwnRequest others theirs request productID (fun _ => True) fn) :
    OwnRequest others theirs request productID (fun _ => True) (s4pInTx fn) := by
  refine Finds.call_bind_any trivial fun _ _ _ _ => ?_
  have whole : OwnRequest others theirs request productID (fun _ => True)
      (fn.bind fun basis => call (I := imageStore) (.commit basis)) :=
    Finds.bind_any body fun basis => ⟨trivial, fun _ _ => trivial, trivial⟩
  refine Finds.attempt_bind whole fun result _ => ?_
  have rollback : OwnRequest others theirs request productID (fun _ => True) (call (I := imageStore) .rollback) :=
    ⟨trivial, fun _ _ => trivial, trivial⟩
  refine Finds.attempt_bind rollback fun _ _ => ?_
  cases result with
  | error e => trivial
  | ok _ => trivial

theorem own_insertRows (own : ∀ r, r.productID = productID → others r = false) (next : Int32) (i : Nat) (files : List UploadFile) :
    (insertRows productID next i files).Uses (ImageAble others theirs productID) := by
  induction files generalizing i with
  | nil => trivial
  | cons h rest ih =>
    have row : ImageAble others theirs productID (.insertProductImage ⟨h.id, productID, next + Int32.ofNat i, some h.contentHash⟩) :=
      own _ rfl
    exact Uses.bind (uses_call.2 row) fun _ => ih (i + 1)

/-- An upload inserts images of its product. -/
theorem own_upload (own : ∀ r, r.productID = productID → others r = false) (files : List UploadFile) (uploaded : Bool) :
    OwnRequest others theirs request productID (fun _ => True) (s4pUploadImages productID files uploaded) := by
  refine Finds.call_bind_any trivial fun _ stored _ _ => ?_
  simp only
  split
  · trivial
  · split
    · trivial
    · have insert : OwnRequest others theirs request productID (fun _ => True)
          (s4pInsertImageRows productID ((distinctBy UploadFile.contentHash files).filter fun h =>
            decide (h.contentHash ∉ stored.filter (· ≠ "")))) := by
        refine own_inTx (Finds.call_bind_any trivial fun _ agg _ _ => ?_)
        split
        · trivial
        · exact Finds.bind_any (Finds.of_uses (own_insertRows own _ _ _)) fun _ => trivial
      refine Finds.attempt_bind insert fun inserted _ => ?_
      split <;> trivial

theorem own_redensifyRows {rows : List (ImageRow × Nat)} (own : ∀ x ∈ rows, OwnImage theirs x.1.id) :
    (redensifyRows rows).Uses (ImageAble others theirs productID) := by
  induction rows with
  | nil => trivial
  | cons x rest ih =>
    obtain ⟨row, index⟩ := x
    have rest' := ih fun y mem => own y (List.mem_cons_of_mem _ mem)
    unfold redensifyRows
    split
    · exact Uses.bind (uses_call.2 (own _ List.mem_cons_self)) fun _ => rest'
    · exact rest'

theorem own_placeRows {placed : List (String × Nat)} (own : ∀ x ∈ placed, OwnImage theirs x.1) :
    (placeRows placed).Uses (ImageAble others theirs productID) := by
  induction placed with
  | nil => trivial
  | cons x rest ih =>
    obtain ⟨imageID, index⟩ := x
    exact Uses.bind (uses_call.2 (own _ List.mem_cons_self)) fun _ => ih fun y mem => own y (List.mem_cons_of_mem _ mem)

variable (byProduct : ∀ r s : ImageRow, r.productID = s.productID → others r = others s)
  (own : ∀ r, r.productID = productID → others r = false)
include byProduct own

/-- What a listing of the product's images answers. -/
theorem listed_own {w : ImageWorld} {rows : List ImageRow} (kept : ImagesKept others theirs w)
    (answered : (imageExec productID (request, .listImageIDPositions) w).1 = .ok rows) : ∀ r ∈ rows, OwnImage theirs r.id := by
  intro r mem
  simp only [imageExec] at answered
  split at answered
  · rename_i t seen
    obtain rfl := Except.ok.inj answered
    exact kept.listed byProduct seen own ((List.mem_insertionSort _).1 mem)
  · cases answered

/-- A remove deletes an image that it has found under its product. -/
theorem own_remove (imageID : String) : OwnRequest others theirs request productID (fun _ => True) (s4pImageRemove imageID) := by
  refine Finds.call_bind_any trivial fun w found kept answered => ?_
  cases found with
  | none => trivial
  | some r =>
    have mine : OwnImage theirs imageID := by
      have looked := Except.ok.inj answered
      obtain ⟨there, named⟩ := List.mem_filter.1 (List.mem_of_find?_eq_some looked)
      have same : r.id = imageID := by simpa using List.find?_some looked
      rw [← same]
      exact own_of_share kept.share there (own r (of_decide_eq_true named))
    refine own_inTx (Finds.call_bind_any trivial fun _ _ _ _ => Finds.call_bind_any mine fun _ _ _ _ => ?_)
    refine Finds.call_bind_any trivial fun v remaining kept' answered' => ?_
    have ours := listed_own byProduct own kept' answered'
    refine Finds.bind_any (Finds.of_uses (own_redensifyRows fun x mem => ?_)) fun _ => trivial
    exact ours _ (List.fst_mem_of_mem_zipIdx mem)

/-- A submitted order that lists every image of the product lists no others. -/
theorem own_reorder (imageIDs : List String) : OwnRequest others theirs request productID (fun _ => True) (s4pImageReorder imageIDs) := by
  unfold s4pImageReorder
  split
  · trivial
  · refine Finds.call_bind_any trivial fun w current kept answered => ?_
    have ours := listed_own byProduct own kept answered
    simp only
    split
    · trivial
    · rename_i complete
      simp only [not_or, not_not] at complete
      -- as many ids as the product has images, and all of those among them
      have every := (List.subperm_of_subset (List.nodup_dedup (current.map ImageRow.id)) fun id mem =>
        List.mem_dedup.2 (complete.2 id mem)).perm_of_length_le (le_of_eq complete.1.symm)
      have listed : ∀ id ∈ imageIDs, OwnImage theirs id := by
        intro id mem
        obtain ⟨r, there, rfl⟩ := List.mem_map.1 (List.mem_dedup.1 (every.mem_iff.2 (List.mem_dedup.2 mem)))
        exact ours r there
      refine own_inTx (Finds.call_bind_any trivial fun _ _ _ _ => Finds.call_bind_any own fun _ _ _ _ => ?_)
      refine Finds.bind_any (Finds.of_uses (own_placeRows fun x mem => ?_)) fun _ => trivial
      exact listed _ (List.fst_mem_of_mem_zipIdx mem)

end Requests

end NovoApex.Vendors
