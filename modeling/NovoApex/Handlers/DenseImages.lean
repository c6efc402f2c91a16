import NovoApex.Handlers.ImagePositions
import NovoApex.Handlers.ImageRequests
import NovoApex.Lib.Crew

/-!
# The positions of a product's images

An upload appends behind the last position it has read, a removal closes the gap among the
images it has listed, a reorder places the images it was sent. None of them locks out the
rows that another request is about to insert, and an upload locks nothing at all: what it
has read may be over when it commits. As long as what a transaction rests on still stands
when it commits, the positions stay dense (`images_dense`).
-/

namespace NovoApex.Images
set_option autoImplicit false
open Lib Program

section

variable (p : String)

/-- What a transaction rests on still stands: the aggregate is the same, the images beside the removed one are the same, and the
images are the first of the submitted ones. -/
def Stands (t : ImageTable) : Basis → Prop
  | .aggregate total max => (imagesOf t p).length = total ∧ maxPosition t p = max
  | .remaining imageID rows => listImageIDPositions (t.delete fun r => decide (r.id = imageID)) p = rows
  | .submitted imageIDs => ∃ m ∈ List.range (imageIDs.length + 1), (imageIDs.take m).Perm ((imagesOf t p).map ImageRow.id)

instance (t : ImageTable) : (basis : Basis) → Decidable (Stands p t basis)
  | .aggregate total max => inferInstanceAs (Decidable ((imagesOf t p).length = total ∧ maxPosition t p = max))
  | .remaining imageID rows =>
    inferInstanceAs (Decidable (listImageIDPositions (t.delete fun r => decide (r.id = imageID)) p = rows))
  | .submitted imageIDs =>
    inferInstanceAs (Decidable (∃ m ∈ List.range (imageIDs.length + 1), (imageIDs.take m).Perm ((imagesOf t p).map ImageRow.id)))

/-- A row that no other transaction has locked. -/
def free (i : Nat) (w : ImageWorld) (id : String) : Bool := w.lockedBy id == none || w.lockedBy id == some i

/-- When a statement proceeds: the rows it locks are free, and a commit does not break an index. -/
def proceeds : ImageWorld → Nat × ImageStmt → Bool
  | w, (i, .lockImageRowsByProduct) | w, (i, .parkImagePositions _) => (imagesOf w.images p).all fun r => free i w r.id
  | w, (i, .deleteImageByID imageID) | w, (i, .updateImagePosition imageID _) => free i w imageID
  | w, (i, .commit _) => (visible i w).all fun t => decide (Indexed t)
  | _, _ => true

/-- A commit whose basis stands, or which changes nothing. -/
def basisStands : ImageWorld → Nat × ImageStmt → Prop
  | w, (i, .commit basis) => Stands p w.images basis ∨ (visible i w).map Table.rows = some w.images.rows
  | _, _ => True

instance (w : ImageWorld) : DecidablePred (basisStands p w)
  | (i, .commit basis) => inferInstanceAs (Decidable (Stands p w.images basis ∨ (visible i w).map Table.rows = some w.images.rows))
  | (_, .findStoredImageHashes _) | (_, .findImageByIDAndProduct _) | (_, .listImageIDPositions) | (_, .begin)
  | (_, .aggregateProductImages) | (_, .insertProductImage _) | (_, .lockImageRowsByProduct) | (_, .deleteImageByID _)
  | (_, .updateImagePosition _ _) | (_, .parkImagePositions _) | (_, .rollback) => isTrue trivial

/-- The requests on the product, and the rollback of one whose connection is gone. -/
inductive ImageJob : Nat → Program (imageStore.signed Nat) Unit → Prop where
  | upload (i : Nat) (files : List UploadFile) (uploaded : Bool) : ImageJob i ((s4pUploadImages p files uploaded).signed i)
  | remove (i : Nat) (imageID : String) : ImageJob i ((s4pImageRemove imageID).signed i)
  | reorder (i : Nat) (imageIDs : List String) : ImageJob i ((s4pImageReorder imageIDs).signed i)
  | abandoned (i : Nat) : ImageJob i ((call (I := imageStore) .rollback).signed i)

/-- The runs of the requests: statements fail, lose their replies and requests stop anywhere. -/
def imageFlow : Roster (imageStore.signed Nat) Nat ImageWorld where
  exec := imageExec p
  job := ImageJob p
  allow w op := proceeds p w op = true

/-- The runs in which every transaction commits on a basis that stands. -/
def imageCareful : Roster (imageStore.signed Nat) Nat ImageWorld :=
  { imageFlow p with allow := fun w op => proceeds p w op = true ∧ basisStands p w op }

/-- The positions are exactly those from zero, there are at most five images and no two have one hash. -/
structure DenseImages (t : ImageTable) : Prop where
  positions : ((imagesOf t p).map fun r => r.position.toInt).Perm ((List.range (imagesOf t p).length).map Int.ofNat)
  few : (imagesOf t p).length ≤ s4pMaxImages
  hashes : ((imagesOf t p).map ImageRow.contentHash).Nodup

/-- What every commit keeps. -/
structure ImageInv (t : ImageTable) : Prop where
  positions : ((imagesOf t p).map fun r => r.position.toInt).Perm ((List.range (imagesOf t p).length).map Int.ofNat)
  few : (imagesOf t p).length ≤ s4pMaxImages
  hashed : ∀ r ∈ imagesOf t p, r.contentHash ≠ none
  indexed : Indexed t

/-- The images dense and the indexes kept; a request relies on nobody to touch its transaction. -/
def imageProtocol : Protocol Nat ImageWorld where
  inv w := ImageInv p w.images
  rely i w w' := w'.tx i = w.tx i
  refl _ _ := rfl
  trans _ _ _ _ first second := second.trans first

/-- The writes lead from dense images to dense images, where their basis stands. -/
def Sound (writes : List ImageWrite) (basis : Basis) : Prop :=
  ∀ t t', ImageInv p t → Stands p t basis → applyWrites writes t = some t' → Indexed t' → ImageInv p t'

end

section Inv

variable {p : String} {t : ImageTable}

theorem ImageInv.dense (inv : ImageInv p t) : DenseImages p t := by
  refine ⟨inv.positions, inv.few, ?_⟩
  refine List.pairwise_map.2 ?_
  refine (inv.indexed.2.filter _).imp_of_mem fun {a b} ha hb apart => ?_
  exact apart ((mem_imagesOf.1 ha).2.trans (mem_imagesOf.1 hb).2.symm) (inv.hashed a ha)

/-! ## Rows that are moved -/

/-- The positions after some have been set. -/
def settle (at_ : String → Int32) (sets : List (String × Int32)) : String → Int32 :=
  sets.foldl (fun at_ s => Function.update at_ s.1 s.2) at_

/-- The writes that set them. -/
def setWrites (sets : List (String × Int32)) : List ImageWrite := sets.map fun s => .setPosition s.1 s.2

/-- Where the writes agree with `f`, and so does what they leave out. -/
theorem settle_eq {f at_ : String → Int32} {sets : List (String × Int32)} (agree : ∀ s ∈ sets, s.2 = f s.1) {id : String}
    (h : id ∈ sets.map Prod.fst ∨ at_ id = f id) : settle at_ sets id = f id := by
  induction sets generalizing at_ with
  | nil =>
    rcases h with mem | same
    · exact absurd mem List.not_mem_nil
    · exact same
  | cons s rest ih =>
    refine ih (fun s mem => agree s (List.mem_cons_of_mem _ mem)) ?_
    by_cases later : id ∈ rest.map Prod.fst
    · exact .inl later
    · right
      show Function.update at_ s.1 s.2 id = f id
      by_cases here : id = s.1
      · rw [here, Function.update_self]
        exact agree s List.mem_cons_self
      · rw [Function.update_of_ne here]
        rcases h with mem | same
        · rcases List.mem_cons.1 mem with first | mem
          · exact absurd first here
          · exact absurd mem later
        · exact same

theorem settle_append (at_ : String → Int32) (sets more : List (String × Int32)) :
    settle at_ (sets ++ more) = settle (settle at_ sets) more := List.foldl_append

theorem applyWrites_place (at_ : String → Int32) (sets : List (String × Int32)) :
    applyWrites (setWrites sets) (place t at_) = some (place t (settle at_ sets)) := by
  induction sets generalizing at_ with
  | nil => rfl
  | cons s rest ih =>
    have first := ih (Function.update at_ s.1 s.2)
    rw [← setPosition_place] at first
    exact first

theorem applyWrites_sets (sets : List (String × Int32)) :
    applyWrites (setWrites sets) t = some (place t (settle (positionOf t) sets)) := by
  have placed := applyWrites_place (t := t) (positionOf t) sets
  rwa [place_positionOf] at placed

theorem imagesOf_place (at_ : String → Int32) :
    imagesOf (place t at_) p = (imagesOf t p).map fun r => { r with position := at_ r.id } := by
  unfold imagesOf place
  rw [List.filter_map]
  rfl

/-- Images at the positions of an order are dense. -/
theorem inv_place {ids : List String} {at_ : String → Int32} (perm : ids.Perm ((imagesOf t p).map ImageRow.id))
    (few : (imagesOf t p).length ≤ s4pMaxImages) (hashed : ∀ r ∈ imagesOf t p, r.contentHash ≠ none)
    (placed : ∀ id ∈ ids, at_ id = newPosition ids id) (indexed : Indexed (place t at_)) : ImageInv p (place t at_) := by
  have count : ids.length = (imagesOf t p).length := by rw [perm.length_eq, List.length_map]
  have length : (imagesOf (place t at_) p).length = (imagesOf t p).length := by rw [imagesOf_place, List.length_map]
  refine ⟨?_, length ▸ few, fun r mem => ?_, indexed⟩
  · have limit : s4pMaxImages ≤ 2 ^ 31 := by decide
    have listed := congrArg (List.map Prod.snd) (listed_place perm (by omega) placed)
    rw [List.map_map, List.map_map] at listed
    have order : (ids.zipIdx.map (Prod.snd ∘ fun x : String × Nat => (x.1, (x.2 : Int)))) = (List.range ids.length).map Int.ofNat := by
      have indexes := congrArg (List.map Int.ofNat) (List.zipIdx_map_snd 0 ids)
      rw [List.map_map, ← List.range_eq_range'] at indexes
      exact indexes
    rw [order, count, ← length] at listed
    rw [← listed]
    exact ((listed_perm (place t at_) p).map _).symm
  · rw [imagesOf_place] at mem
    obtain ⟨old, here, rfl⟩ := List.mem_map.1 mem
    exact hashed old here

/-! ## The three transactions -/

theorem imagesOf_delete (imageID : String) : imagesOf (t.delete fun r => decide (r.id = imageID)) p =
    (imagesOf t p).filter fun r => !decide (r.id = imageID) := by
  unfold imagesOf Table.delete
  rw [List.filter_comm]

/-- The positions that `s4p_redensify` sets. -/
def redensifySets (rows : List (ImageRow × Nat)) : List (String × Int32) :=
  (rows.filter fun x => decide (x.1.position ≠ Int32.ofNat x.2)).map fun x => (x.1.id, Int32.ofNat x.2)

theorem sound_remove (imageID : String) (rows : List ImageRow) :
    Sound p (.delete imageID :: setWrites (redensifySets rows.zipIdx)) (.remaining imageID rows) := by
  intro t t' inv stands applied indexed
  generalize deleted : (t.delete fun r => decide (r.id = imageID)) = u
  have stands : listImageIDPositions u p = rows := by
    rw [← deleted]
    exact stands
  have after : applyWrites (setWrites (redensifySets rows.zipIdx)) u = some t' := by
    rw [← deleted]
    exact applied
  rw [applyWrites_sets] at after
  obtain rfl := Option.some.inj after
  have images : imagesOf u p = (imagesOf t p).filter fun r => !decide (r.id = imageID) := by
    rw [← deleted]
    exact imagesOf_delete imageID
  have index : ∀ x ∈ rows.zipIdx, newPosition (listedIDs u p) x.1.id = Int32.ofNat x.2 := by
    intro x mem
    have pair : (x.1.id, x.2) ∈ (listedIDs u p).zipIdx := by
      unfold listedIDs
      rw [stands, List.zipIdx_map]
      exact List.mem_map_of_mem mem
    rw [zipIdx_idxOf (nodup_listedIDs u p)] at pair
    obtain ⟨id, -, same⟩ := List.mem_map.1 pair
    obtain ⟨rfl, index⟩ := Prod.mk.inj same
    unfold newPosition
    rw [← index]
  refine inv_place (listedIDs_perm u p) ?_ (fun r mem => ?_) (fun id mem => ?_) indexed
  · rw [images]
    exact le_trans (List.length_filter_le _ _) inv.few
  · rw [images] at mem
    exact inv.hashed r (List.mem_filter.1 mem).1
  · refine settle_eq (fun s mem => ?_) ?_
    · obtain ⟨x, here, rfl⟩ := List.mem_map.1 mem
      exact (index x (List.mem_filter.1 here).1).symm
    · obtain ⟨r, image, rfl⟩ := mem_listedIDs.1 mem
      obtain ⟨h, entry⟩ := listed_index image
      have pair : (r, (listedIDs u p).idxOf r.id) ∈ rows.zipIdx := by
        rw [List.mem_zipIdx_iff_getElem?, ← stands, List.getElem?_eq_getElem h, entry]
      by_cases already : r.position = Int32.ofNat ((listedIDs u p).idxOf r.id)
      · right
        rw [positionOf_row (mem_imagesOf.1 image).1]
        exact already
      · left
        refine List.mem_map.2 ⟨(r.id, Int32.ofNat ((listedIDs u p).idxOf r.id)), ?_, rfl⟩
        exact List.mem_map.2 ⟨_, List.mem_filter.2 ⟨pair, decide_eq_true already⟩, rfl⟩

/-- The positions that the last loop of `s4p_imageReorder` sets. -/
def placeSets (images : List (String × Nat)) : List (String × Int32) := images.map fun x => (x.1, Int32.ofNat x.2)

theorem sound_reorder (parks : List (String × Int32)) {imageIDs : List String} (nodup : imageIDs.Nodup) :
    Sound p (setWrites parks ++ setWrites (placeSets imageIDs.zipIdx)) (.submitted imageIDs) := by
  intro t t' inv stands applied indexed
  obtain ⟨m, -, perm⟩ := stands
  rw [setWrites, setWrites, ← List.map_append, ← setWrites, applyWrites_sets] at applied
  obtain rfl := Option.some.inj applied
  refine inv_place perm inv.few inv.hashed (fun id mem => ?_) indexed
  have index : imageIDs.idxOf id = (imageIDs.take m).idxOf id := by
    calc imageIDs.idxOf id = (imageIDs.take m ++ imageIDs.drop m).idxOf id := by rw [List.take_append_drop]
      _ = (imageIDs.take m).idxOf id := List.idxOf_append_of_mem mem
  have whole : newPosition (imageIDs.take m) id = newPosition imageIDs id := by
    unfold newPosition
    rw [index]
  rw [settle_append, whole]
  refine settle_eq (fun s mem => ?_) (.inl ?_)
  · obtain ⟨x, here, rfl⟩ := List.mem_map.1 mem
    rw [zipIdx_idxOf nodup] at here
    obtain ⟨id, -, rfl⟩ := List.mem_map.1 here
    rfl
  · unfold placeSets
    rw [List.map_map]
    have keys : imageIDs.zipIdx.map (Prod.fst ∘ fun x : String × Nat => (x.1, Int32.ofNat x.2)) = imageIDs := List.zipIdx_map_fst 0 imageIDs
    rw [keys]
    exact List.mem_of_mem_take mem

/-- The rows of an upload. -/
def uploadRows (p : String) (nextPosition : Int32) (i : Nat) (fresh : List UploadFile) : List ImageRow :=
  (fresh.zipIdx i).map fun x => ⟨x.1.id, p, nextPosition + Int32.ofNat x.2, some x.1.contentHash⟩

theorem applyWrites_inserts {rows : List ImageRow} {t' : ImageTable} (h : applyWrites (rows.map ImageWrite.insert) t = some t') :
    t'.rows = t.rows ++ rows := by
  induction rows generalizing t with
  | nil =>
    obtain rfl := Option.some.inj h
    exact (List.append_nil _).symm
  | cons r rest ih =>
    obtain ⟨u, first, h⟩ := Option.bind_eq_some_iff.1 h
    rw [ih h, (Table.insert_eq_some.1 first).2, List.append_assoc]
    rfl

/-- The last position of dense images. -/
theorem maxPosition_dense (inv : ImageInv p t) : maxPosition t p = Int32.ofInt ((imagesOf t p).length - 1) := by
  unfold maxPosition
  have positions := inv.positions
  generalize (imagesOf t p).map (fun r => r.position.toInt) = l at positions ⊢
  generalize (imagesOf t p).length = n at positions ⊢
  cases n with
  | zero =>
    rw [List.range_zero, List.map_nil] at positions
    rw [positions.eq_nil]
    decide
  | succ n =>
    have last : l.max? = some (n : Int) := by
      rw [List.max?_eq_some_iff]
      refine ⟨positions.mem_iff.2 (List.mem_map.2 ⟨n, List.mem_range.2 (Nat.lt_succ_self n), rfl⟩), fun x mem => ?_⟩
      obtain ⟨k, below, rfl⟩ := List.mem_map.1 (positions.mem_iff.1 mem)
      have below := List.mem_range.1 below
      show (k : Int) ≤ n
      omega
    simp only [last]
    congr 1
    push_cast
    omega

theorem sound_upload {total : Nat} {max : Int32} {fresh : List UploadFile} (few : total + fresh.length ≤ s4pMaxImages) :
    Sound p ((uploadRows p (max + 1) 0 fresh).map ImageWrite.insert) (.aggregate total max) := by
  rintro t t' inv ⟨count, last⟩ applied indexed
  have rows := applyWrites_inserts applied
  have length : (uploadRows p (max + 1) 0 fresh).length = fresh.length := by rw [uploadRows, List.length_map, List.length_zipIdx]
  have own : (uploadRows p (max + 1) 0 fresh).filter (fun r => decide (r.productID = p)) = uploadRows p (max + 1) 0 fresh := by
    refine List.filter_eq_self.2 fun r mem => ?_
    obtain ⟨x, -, rfl⟩ := List.mem_map.1 mem
    exact decide_eq_true rfl
  have images : imagesOf t' p = imagesOf t p ++ uploadRows p (max + 1) 0 fresh := by
    unfold imagesOf
    rw [rows, List.filter_append, own]
  have next : ∀ n : Nat, n < 6 → ∀ i : Nat, i < 6 → (Int32.ofInt ((n : Int) - 1) + 1 + Int32.ofNat i).toInt = n + i := by decide
  have positions : (uploadRows p (max + 1) 0 fresh).map (fun r => r.position.toInt) = (List.range fresh.length).map fun i => Int.ofNat (total + i) := by
    have limit : s4pMaxImages = 5 := rfl
    unfold uploadRows
    rw [List.map_map, ← last, maxPosition_dense inv, count, List.range_eq_range', ← List.zipIdx_map_snd 0 fresh, List.map_map]
    refine List.map_congr_left fun x mem => ?_
    have below := List.snd_lt_of_mem_zipIdx mem
    exact next total (by omega) x.2 (by omega)
  refine ⟨?_, ?_, fun r mem => ?_, indexed⟩
  · rw [images, List.map_append, List.length_append, length, positions, List.range_add, List.map_append, List.map_map, count]
    exact (count ▸ inv.positions).append_right _
  · rw [images, List.length_append, length, count]
    exact few
  · rw [images] at mem
    rcases List.mem_append.1 mem with old | new
    · exact inv.hashed r old
    · obtain ⟨x, -, rfl⟩ := List.mem_map.1 new
      exact Option.some_ne_none _

end Inv

/-! ## Statements -/

section Safety

variable {p : String} {i : Nat} {w : ImageWorld}

/-- A program of a request in the runs whose transactions commit on a basis that stands. -/
abbrev SafeImages (p : String) {α : Type} (i : Nat) (Q : Except ImageErr α → ImageWorld → Prop) :
    Program (imageStore.signed Nat) α → ImageWorld → Prop :=
  Safe (imageCareful p) (imageProtocol p) i Q

theorem writeRows_keeps (writes : List ImageWrite) (w : ImageWorld) :
    (writeRows i writes w).2.images = w.images ∧ ∀ j, j ≠ i → (writeRows i writes w).2.tx j = w.tx j := by
  unfold writeRows
  split
  · exact ⟨rfl, fun _ _ => rfl⟩
  · split
    · exact ⟨rfl, fun _ _ => rfl⟩
    · split
      · exact ⟨rfl, fun j other => Function.update_of_ne other _ _⟩
      · exact ⟨rfl, fun _ _ => rfl⟩

/-- Rows that were written are among the writes of the transaction. -/
theorem writeRows_ok {writes before : List ImageWrite} (own : w.tx i = some before) (ok : (writeRows i writes w).1 = .ok ()) :
    (writeRows i writes w).2.tx i = some (before ++ writes) := by
  unfold writeRows at ok ⊢
  rw [own] at ok ⊢
  simp only at ok ⊢
  cases after : applyWrites (before ++ writes) w.images with
  | none =>
    rw [after] at ok
    cases ok
  | some t =>
    rw [after] at ok
    simp only at ok ⊢
    by_cases indexed : Indexed t
    · rw [if_pos indexed]
      exact Function.update_self ..
    · rw [if_neg indexed] at ok
      cases ok

/-- A statement touches no transaction but its own, and no row before the commit. -/
theorem imageExec_keeps (p : String) (i : Nat) (op : ImageStmt) (w : ImageWorld) :
    ((∀ basis, op ≠ .commit basis) → (imageExec p (i, op) w).2.images = w.images) ∧
      ∀ j, j ≠ i → (imageExec p (i, op) w).2.tx j = w.tx j := by
  cases op with
  | begin => exact ⟨fun _ => rfl, fun j other => Function.update_of_ne other _ _⟩
  | rollback => exact ⟨fun _ => rfl, fun j other => Function.update_of_ne other _ _⟩
  | insertProductImage row => exact ⟨fun _ => (writeRows_keeps _ w).1, (writeRows_keeps _ w).2⟩
  | deleteImageByID imageID => exact ⟨fun _ => (writeRows_keeps _ (lockRows i [imageID] w)).1, (writeRows_keeps _ (lockRows i [imageID] w)).2⟩
  | updateImagePosition imageID position =>
    exact ⟨fun _ => (writeRows_keeps _ (lockRows i [imageID] w)).1, (writeRows_keeps _ (lockRows i [imageID] w)).2⟩
  | parkImagePositions offset =>
    simp only [imageExec]
    split
    · split
      · exact ⟨fun _ => (writeRows_keeps _ _).1, (writeRows_keeps _ _).2⟩
      · exact ⟨fun _ => rfl, fun _ _ => rfl⟩
    · exact ⟨fun _ => rfl, fun _ _ => rfl⟩
  | commit basis =>
    refine ⟨fun other => absurd rfl (other basis), fun j other => ?_⟩
    simp only [imageExec]
    split
    · exact Function.update_of_ne other _ _
    · rfl
  | listImageIDPositions =>
    simp only [imageExec]
    split <;> exact ⟨fun _ => rfl, fun _ _ => rfl⟩
  | aggregateProductImages =>
    simp only [imageExec]
    split <;> exact ⟨fun _ => rfl, fun _ _ => rfl⟩
  | _ => exact ⟨fun _ => rfl, fun _ _ => rfl⟩

/-- A statement before the commit, by what it does to the writes of its transaction. -/
theorem safe_stmt (op : ImageStmt) (K : Option (List ImageWrite) → Prop) (A : op.Reply → Option (List ImageWrite) → Prop)
    (quiet : ∀ basis, op ≠ .commit basis) (known : K (w.tx i))
    (answers : ∀ t : ImageWorld, K (t.tx i) → ∀ a, (imageExec p (i, op) t).1 = .ok a → A a ((imageExec p (i, op) t).2.tx i)) :
    SafeImages p i (Replied (fun a t => A a (t.tx i)) fun _ => True) ((call (I := imageStore) op).signed i) w := by
  refine Safe.call (fun t rely inv _ => ?_) (fun _ _ _ _ => trivial) (fun _ _ _ _ => trivial)
  have keeps := imageExec_keeps p i op t
  have same : t.tx i = w.tx i := rely
  have after := answers t (same ▸ known)
  refine ⟨?_, keeps.2, ?_, fun _ => trivial⟩
  · show ImageInv p (imageExec p (i, op) t).2.images
    rw [keeps.1 quiet]
    exact inv
  · show Replied _ _ (imageExec p (i, op) t).1 (imageExec p (i, op) t).2
    cases reply : (imageExec p (i, op) t).1 with
    | ok a => exact after a reply
    | error e => trivial

/-- A statement of which nothing is asked. -/
theorem safe_plainStmt (op : ImageStmt) (quiet : ∀ basis, op ≠ .commit basis) :
    SafeImages p i (fun _ _ => True) ((call (I := imageStore) op).signed i) w :=
  (safe_stmt op (fun _ => True) (fun _ _ => True) quiet trivial fun _ _ _ _ => trivial).mono fun _ _ _ => trivial

/-- The commit of sound writes. -/
theorem safe_commit {writes : List ImageWrite} {basis : Basis} (own : w.tx i = some writes) (sound : Sound p writes basis) :
    SafeImages p i (fun _ _ => True) ((call (I := imageStore) (.commit basis)).signed i) w := by
  refine Safe.call (fun t rely inv may => ?_) (fun _ _ _ _ => trivial) (fun _ _ _ _ => trivial)
  refine ⟨?_, (imageExec_keeps p i (.commit basis) t).2, trivial, fun _ => trivial⟩
  have own' : t.tx i = some writes := (rely : t.tx i = w.tx i).trans own
  obtain ⟨proceeds, stands⟩ := may
  show ImageInv p (imageExec p (i, .commit basis) t).2.images
  have seen : visible i t = applyWrites writes t.images := by
    unfold visible
    rw [own']
    rfl
  simp only [imageExec, own']
  cases after : visible i t with
  | none => exact inv
  | some u =>
    have indexed : Indexed u := by
      have all : (visible i t).all (fun t => decide (Indexed t)) = true := proceeds
      rw [after] at all
      exact of_decide_eq_true all
    show ImageInv p u
    rcases stands with stands | same
    · exact sound t.images u inv stands (seen ▸ after) indexed
    · rw [after] at same
      have rows : u = t.images := Table.ext (Option.some.inj same)
      rw [rows]
      exact inv

/-! ## Handlers -/

/-- What the body of a transaction leaves: sound writes for the basis it returns. -/
def Prepared (p : String) (i : Nat) (basis : Basis) (w : ImageWorld) : Prop := ∃ writes, w.tx i = some writes ∧ Sound p writes basis

/-- A transaction whose body prepares sound writes. -/
theorem safe_inTx {fn : Program imageStore Basis}
    (body : ∀ t : ImageWorld, t.tx i = some [] → SafeImages p i (Replied (Prepared p i) fun _ => True) (fn.signed i) t) :
    SafeImages p i (fun _ _ => True) ((s4pInTx fn).signed i) w := by
  unfold s4pInTx
  refine Safe.bind_signed ((safe_stmt .begin (fun _ => True) (fun _ tx => tx = some []) (fun _ h => by cases h) trivial
    fun t _ _ _ => Function.update_self ..).mono fun r t known => ?_)
  cases r with
  | error e => trivial
  | ok _ =>
    simp only
    refine Safe.bind_signed (Safe.attempt_signed (Q := fun r _ => ∃ result, r = .ok result) ?_ |>.mono fun r u known => ?_)
    · refine Safe.bind_signed ((body t known).mono fun r u prepared => ?_)
      cases r with
      | error e => exact ⟨_, rfl⟩
      | ok basis =>
        obtain ⟨writes, own, sound⟩ := prepared
        exact (safe_commit own sound).mono fun r _ _ => ⟨r, rfl⟩
    · obtain ⟨result, rfl⟩ := known
      simp only
      refine Safe.bind_signed (Safe.attempt_signed (Q := fun r _ => ∃ result, r = .ok result)
        ((safe_plainStmt .rollback fun _ h => by cases h).mono fun r _ _ => ⟨r, rfl⟩) |>.mono fun r v known => ?_)
      obtain ⟨rolledBack, rfl⟩ := known
      cases result with
      | error e => trivial
      | ok _ => trivial

/-- One row more. -/
theorem safe_writeStmt {before : List ImageWrite} (writes : List ImageWrite) (op : ImageStmt) (quiet : ∀ basis, op ≠ .commit basis)
    (exec : ∀ t : ImageWorld, ∃ u : ImageWorld, u.tx = t.tx ∧ (imageExec p (i, op) t).2 = (writeRows i writes u).2 ∧
      ((∃ a, (imageExec p (i, op) t).1 = .ok a) → (writeRows i writes u).1 = .ok ()))
    (own : w.tx i = some before) :
    SafeImages p i (Replied (fun _ t => t.tx i = some (before ++ writes)) fun _ => True) ((call (I := imageStore) op).signed i) w := by
  refine safe_stmt op (fun tx => tx = some before) (fun _ tx => tx = some (before ++ writes)) quiet own fun t known a replied => ?_
  obtain ⟨u, same, moved, ok⟩ := exec t
  rw [moved]
  exact writeRows_ok (by rw [same]; exact known) (ok ⟨a, replied⟩)

theorem safe_insertRows (next : Int32) (k : Nat) (fresh : List UploadFile) {before : List ImageWrite} (own : w.tx i = some before) :
    SafeImages p i (Replied (fun _ t => t.tx i = some (before ++ (uploadRows p next k fresh).map ImageWrite.insert)) fun _ => True)
      ((insertRows p next k fresh).signed i) w := by
  induction fresh generalizing k before w with
  | nil =>
    show w.tx i = some (before ++ [])
    rw [List.append_nil]
    exact own
  | cons h rest ih =>
    unfold insertRows
    refine Safe.bind_signed ((safe_writeStmt [.insert ⟨h.id, p, next + Int32.ofNat k, some h.contentHash⟩]
      (.insertProductImage ⟨h.id, p, next + Int32.ofNat k, some h.contentHash⟩) (fun _ h => by cases h)
      (fun t => ⟨t, rfl, rfl, fun ok => ok.elim fun _ h => h⟩) own).mono fun r t known => ?_)
    cases r with
    | error e => trivial
    | ok _ =>
      refine (ih (k + 1) known).mono fun r u known => ?_
      cases r with
      | error e => trivial
      | ok _ =>
        have known : u.tx i = _ := known
        rw [List.append_assoc] at known
        exact known

theorem safe_redensifyRows {rows : List (ImageRow × Nat)} {before : List ImageWrite} (own : w.tx i = some before) :
    SafeImages p i (Replied (fun _ t => t.tx i = some (before ++ setWrites (redensifySets rows))) fun _ => True)
      ((redensifyRows rows).signed i) w := by
  induction rows generalizing before w with
  | nil =>
    show w.tx i = some (before ++ [])
    rw [List.append_nil]
    exact own
  | cons x rest ih =>
    obtain ⟨row, index⟩ := x
    unfold redensifyRows
    by_cases already : row.position = Int32.ofNat index
    · have sets : redensifySets ((row, index) :: rest) = redensifySets rest := by
        unfold redensifySets
        rw [List.filter_cons_of_neg (by simpa using already)]
      rw [if_neg (not_not_intro already), sets]
      exact ih own
    · have sets : redensifySets ((row, index) :: rest) = (row.id, Int32.ofNat index) :: redensifySets rest := by
        unfold redensifySets
        rw [List.filter_cons_of_pos (by simpa using already), List.map_cons]
      rw [if_pos already, sets]
      refine Safe.bind_signed ((safe_writeStmt [.setPosition row.id (Int32.ofNat index)] (.updateImagePosition row.id (Int32.ofNat index))
        (fun _ h => by cases h) (fun t => ⟨lockRows i [row.id] t, rfl, rfl, fun ok => ok.elim fun _ h => h⟩) own).mono fun r t known => ?_)
      cases r with
      | error e => trivial
      | ok _ =>
        refine (ih known).mono fun r u known => ?_
        cases r with
        | error e => trivial
        | ok _ =>
          have known : u.tx i = _ := known
          rw [List.append_assoc] at known
          exact known

theorem safe_placeRows {images : List (String × Nat)} {before : List ImageWrite} (own : w.tx i = some before) :
    SafeImages p i (Replied (fun _ t => t.tx i = some (before ++ setWrites (placeSets images))) fun _ => True)
      ((placeRows images).signed i) w := by
  induction images generalizing before w with
  | nil =>
    show w.tx i = some (before ++ [])
    rw [List.append_nil]
    exact own
  | cons x rest ih =>
    obtain ⟨imageID, index⟩ := x
    unfold placeRows
    refine Safe.bind_signed ((safe_writeStmt [.setPosition imageID (Int32.ofNat index)] (.updateImagePosition imageID (Int32.ofNat index))
      (fun _ h => by cases h) (fun t => ⟨lockRows i [imageID] t, rfl, rfl, fun ok => ok.elim fun _ h => h⟩) own).mono fun r t known => ?_)
    cases r with
    | error e => trivial
    | ok _ =>
      refine (ih known).mono fun r u known => ?_
      cases r with
      | error e => trivial
      | ok _ =>
        have known : u.tx i = _ := known
        rw [List.append_assoc] at known
        exact known

/-- An upload. -/
theorem safe_upload (files : List UploadFile) (uploaded : Bool) :
    SafeImages p i (fun _ _ => True) ((s4pUploadImages p files uploaded).signed i) w := by
  unfold s4pUploadImages
  refine Safe.bind_signed ((safe_plainStmt _ fun _ h => by cases h).mono fun r t _ => ?_)
  cases r with
  | error e => trivial
  | ok stored =>
    simp only
    generalize ((distinctBy UploadFile.contentHash files).filter fun h => decide (h.contentHash ∉ stored.filter (· ≠ ""))) = fresh
    split
    · trivial
    · split
      · trivial
      · refine Safe.bind_signed (Safe.attempt_signed (Q := fun _ _ => True) ((safe_inTx fun u own => ?_).mono fun _ _ _ => trivial)
          |>.mono fun r u _ => ?_)
        · refine Safe.bind_signed ((safe_stmt .aggregateProductImages (fun tx => tx = some []) (fun _ tx => tx = some [])
            (fun _ h => by cases h) own fun v known a _ => ?_).mono fun r v known => ?_)
          · have same : (imageExec p (i, .aggregateProductImages) v).2 = v := by
              simp only [imageExec]
              split <;> rfl
            rw [same]
            exact known
          · cases r with
            | error e => trivial
            | ok agg =>
              obtain ⟨total, last⟩ := agg
              simp only
              split
              · trivial
              · rename_i few
                refine Safe.bind_signed ((safe_insertRows (last + 1) 0 fresh known).mono fun r x known => ?_)
                cases r with
                | error e => trivial
                | ok _ => exact ⟨_, known, sound_upload (Nat.not_lt.1 few)⟩
        · cases r with
          | error e => trivial
          | ok result =>
            cases result with
            | ok _ => trivial
            | error e => cases e <;> trivial

/-- A removal. -/
theorem safe_remove (imageID : String) : SafeImages p i (fun _ _ => True) ((s4pImageRemove imageID).signed i) w := by
  unfold s4pImageRemove
  refine Safe.bind_signed ((safe_plainStmt _ fun _ h => by cases h).mono fun r t _ => ?_)
  cases r with
  | error e => trivial
  | ok img =>
    cases img with
    | none => trivial
    | some row =>
      simp only
      refine safe_inTx fun u own => ?_
      refine Safe.bind_signed ((safe_stmt .lockImageRowsByProduct (fun tx => tx = some []) (fun _ tx => tx = some [])
        (fun _ h => by cases h) own fun v known _ _ => known).mono fun r v known => ?_)
      cases r with
      | error e => trivial
      | ok _ =>
        refine Safe.bind_signed ((safe_writeStmt [.delete imageID] (.deleteImageByID imageID) (fun _ h => by cases h)
          (fun t => ⟨lockRows i [imageID] t, rfl, rfl, fun ok => ok.elim fun _ h => h⟩) known).mono fun r x known => ?_)
        cases r with
        | error e => trivial
        | ok _ =>
          refine Safe.bind_signed ((safe_stmt .listImageIDPositions (fun tx => tx = some [.delete imageID])
            (fun _ tx => tx = some [.delete imageID]) (fun _ h => by cases h) known fun y known _ _ => ?_).mono fun r y known => ?_)
          · have same : (imageExec p (i, .listImageIDPositions) y).2 = y := by
              simp only [imageExec]
              split <;> rfl
            rw [same]
            exact known
          · cases r with
            | error e => trivial
            | ok remaining =>
              refine Safe.bind_signed ((safe_redensifyRows known).mono fun r z known => ?_)
              cases r with
              | error e => trivial
              | ok _ => exact ⟨_, known, sound_remove imageID remaining⟩

theorem parkWrites_sets {t : ImageTable} {offset : Int32} {writes : List ImageWrite} (h : parkWrites t p offset = some writes) :
    ∃ sets, writes = setWrites sets := by
  unfold parkWrites at h
  generalize imagesOf t p = rows at h
  induction rows generalizing writes with
  | nil =>
    obtain rfl := Option.some.inj h
    exact ⟨[], rfl⟩
  | cons r rest ih =>
    rw [List.mapM_cons] at h
    obtain ⟨write, first, h⟩ := Option.bind_eq_some_iff.1 h
    obtain ⟨more, later, h⟩ := Option.bind_eq_some_iff.1 h
    obtain rfl := Option.some.inj h
    obtain ⟨position, -, rfl⟩ := Option.map_eq_some_iff.1 first
    obtain ⟨sets, rfl⟩ := ih later
    exact ⟨(r.id, position) :: sets, rfl⟩

/-- A reorder. -/
theorem safe_reorder (imageIDs : List String) : SafeImages p i (fun _ _ => True) ((s4pImageReorder imageIDs).signed i) w := by
  unfold s4pImageReorder
  by_cases valid : s4pValidateReorder imageIDs = true
  · have nodup : imageIDs.Nodup := by
      unfold s4pValidateReorder at valid
      simp only [Bool.and_eq_true, decide_eq_true_eq] at valid
      exact valid.2
    rw [valid]
    simp only [Bool.not_true, Bool.false_eq_true, if_false]
    refine Safe.bind_signed ((safe_plainStmt _ fun _ h => by cases h).mono fun r t _ => ?_)
    cases r with
    | error e => trivial
    | ok current =>
      simp only
      split
      · trivial
      · refine safe_inTx fun u own => ?_
        refine Safe.bind_signed ((safe_stmt .lockImageRowsByProduct (fun tx => tx = some []) (fun _ tx => tx = some [])
          (fun _ h => by cases h) own fun v known _ _ => known).mono fun r v known => ?_)
        cases r with
        | error e => trivial
        | ok _ =>
          refine Safe.bind_signed ((safe_stmt (.parkImagePositions s4pReorderOffset) (fun tx => tx = some [])
            (fun _ tx => ∃ sets, tx = some (setWrites sets)) (fun _ h => by cases h) known fun x known a replied => ?_).mono fun r x known => ?_)
          · simp only [imageExec] at replied ⊢
            cases seen : visible i x with
            | none =>
              rw [seen] at replied
              cases replied
            | some t =>
              simp only [seen] at replied ⊢
              cases parks : parkWrites t p s4pReorderOffset with
              | none =>
                rw [parks] at replied
                cases replied
              | some writes =>
                simp only [parks] at replied ⊢
                obtain ⟨sets, rfl⟩ := parkWrites_sets parks
                have own : (lockRows i ((imagesOf t p).map ImageRow.id) x).tx i = some [] := known
                exact ⟨sets, writeRows_ok own replied⟩
          · cases r with
            | error e => trivial
            | ok _ =>
              obtain ⟨sets, known⟩ := known
              refine Safe.bind_signed ((safe_placeRows known).mono fun r y known => ?_)
              cases r with
              | error e => trivial
              | ok _ => exact ⟨_, known, sound_reorder sets nodup⟩
  · rw [Bool.eq_false_iff.2 valid]
    trivial

theorem safe_imageJob {prog : Program (imageStore.signed Nat) Unit} (job : ImageJob p i prog) : SafeImages p i (fun _ _ => True) prog w := by
  cases job with
  | upload files uploaded => exact safe_upload files uploaded
  | remove imageID => exact safe_remove imageID
  | reorder imageIDs => exact safe_reorder imageIDs
  | abandoned => exact safe_plainStmt .rollback fun _ h => by cases h

end Safety

/-! ## Runs -/

/-- A product without images. -/
theorem inv_empty {p : String} {t : ImageTable} (none : imagesOf t p = []) (indexed : Indexed t) : ImageInv p t := by
  refine ⟨?_, ?_, fun r mem => ?_, indexed⟩
  · rw [none]
    exact .refl _
  · rw [none]
    exact Nat.zero_le _
  · rw [none] at mem
    exact absurd mem List.not_mem_nil

/-- In every run of requests on a product that has no images at first, with failures and crashes anywhere, whose transactions commit on
a basis that stands, the images stay dense. -/
theorem images_dense {p : String} {w : ImageWorld} {c : Crew (imageStore.signed Nat) Nat ImageWorld} (none : imagesOf w.images p = [])
    (indexed : Indexed w.images) (reach : (imageCareful p).Reach ⟨w, []⟩ c) : DenseImages p c.state.images := by
  have inv : ImageInv p c.state.images := Protocol.invariant (P := imageProtocol p)
    (fun i prog s job _ _ => (safe_imageJob job).mono fun _ _ _ => trivial) reach (inv_empty none indexed) fun _ => trivial
  exact inv.dense

instance (p : String) (w : ImageWorld) : DecidablePred ((imageFlow p).allow w) := fun op => inferInstanceAs (Decidable (proceeds p w op = true))

instance (p : String) (w : ImageWorld) : DecidablePred ((imageCareful p).allow w) :=
  fun op => inferInstanceAs (Decidable (proceeds p w op = true ∧ basisStands p w op))

/-- No image and no request. -/
def noImages : ImageWorld := ⟨Table.empty, fun _ => none, fun _ => none⟩

/-- An upload of the product. -/
def uploadOf (i : Nat) (files : List UploadFile) : Program (imageStore.signed Nat) Unit := (s4pUploadImages "p1" files true).signed i

/-- The files of the first upload. -/
def twoFiles : List UploadFile := [⟨"i1", "h1"⟩, ⟨"i2", "h2"⟩]

/-- The images of one upload. -/
theorem upload_dense : (imagesOf ((uploadOf 1 twoFiles).run (imageExec "p1") noImages).2.images "p1").length = 2 ∧
    DenseImages "p1" ((uploadOf 1 twoFiles).run (imageExec "p1") noImages).2.images := by
  have follows : (imageCareful "p1").Follows (uploadOf 1 twoFiles) noImages := by decide +kernel
  have reach := Roster.reach_job (R := imageCareful "p1") (.upload 1 twoFiles true) follows
  have none : imagesOf noImages.images "p1" = [] := rfl
  have indexed : Indexed noImages.images := by decide
  exact ⟨by decide +kernel, images_dense none indexed reach⟩

/-- The world after it. -/
def twoImages : ImageWorld := ((uploadOf 1 twoFiles).run (imageExec "p1") noImages).2

/-- An upload of a third file, and the removal of the first image. -/
def thirdUpload : Program (imageStore.signed Nat) Unit := uploadOf 2 [⟨"i3", "h3"⟩]

def firstRemoval : Program (imageStore.signed Nat) Unit := (s4pImageRemove "i1").signed 3

/-- The upload has read that there are two images. -/
def readTwo : Program (imageStore.signed Nat) Unit × ImageWorld := thirdUpload.steps (imageExec "p1") 3 twoImages

def removedFirst : ImageWorld := (firstRemoval.run (imageExec "p1") readTwo.2).2

def leftGap : ImageWorld := (readTwo.1.run (imageExec "p1") removedFirst).2

/-- An upload has read that there are two images; the first one is removed; the upload commits its own behind a gap. -/
theorem gap_left : imagesOf noImages.images "p1" = [] ∧ Indexed noImages.images ∧
    ∃ c, (imageFlow "p1").Reach ⟨noImages, []⟩ c ∧ ¬ DenseImages "p1" c.state.images := by
  have follows1 : (imageFlow "p1").Follows (uploadOf 1 twoFiles) noImages := by decide +kernel
  have follows2 : (imageFlow "p1").FollowsFor 3 thirdUpload twoImages := by decide +kernel
  have follows3 : (imageFlow "p1").Follows firstRemoval readTwo.2 := by decide +kernel
  have follows4 : (imageFlow "p1").Follows readTwo.1 removedFirst := by decide +kernel
  have first : (imageFlow "p1").Reach ⟨noImages, []⟩ ⟨twoImages, []⟩ := Roster.reach_job (.upload 1 twoFiles true) follows1
  have reads : (imageFlow "p1").Reach ⟨twoImages, []⟩ ⟨readTwo.2, [(2, readTwo.1)]⟩ :=
    .head (.spawn (.upload 2 [⟨"i3", "h3"⟩] true) List.not_mem_nil) (Roster.reach_steps 3 [] [] follows2)
  have unused : 3 ∉ [(2, readTwo.1)].map Prod.fst := fun mem => absurd (List.mem_singleton.1 mem) (by decide)
  have leaves : (imageFlow "p1").Step ⟨removedFirst, [] ++ (3, .ret (firstRemoval.run (imageExec "p1") readTwo.2).1) :: [(2, readTwo.1)]⟩
      ⟨removedFirst, [] ++ [(2, readTwo.1)]⟩ := .drop trivial
  have removes : (imageFlow "p1").Reach ⟨readTwo.2, [(2, readTwo.1)]⟩ ⟨removedFirst, [(2, readTwo.1)]⟩ :=
    .head (.spawn (.remove 3 "i1") unused) ((Roster.reach_end [] [(2, readTwo.1)] follows3).tail leaves)
  have commits : (imageFlow "p1").Reach ⟨removedFirst, [(2, readTwo.1)]⟩ ⟨leftGap, [(2, .ret (readTwo.1.run (imageExec "p1") removedFirst).1)]⟩ :=
    Roster.reach_end [] [] follows4
  refine ⟨rfl, by decide, _, first.trans (reads.trans (removes.trans commits)), fun dense => ?_⟩
  have gap : ¬ ((imagesOf leftGap.images "p1").map fun r => r.position.toInt).Perm
      ((List.range (imagesOf leftGap.images "p1").length).map Int.ofNat) := by decide +kernel
  exact gap dense.positions

end NovoApex.Images
