import NovoApex.Handlers.Images
import Mathlib.Algebra.Order.Ring.Int
import Mathlib.Data.List.Pairwise

/-!
# Every position on the way

Rows are moved one after another, each from its old position to its new one. In between
the rows that have been moved are at their new positions and the others at their old
ones (`moved`), and no two of a product meet as long as no new position is an old one
of a row that has not been moved yet.
-/

namespace NovoApex.Images
set_option autoImplicit false
open Lib

variable {t : ImageTable} {old new : String → Int32} {done : List String} {p : String}

/-! ## Rows at given positions -/

/-- The rows at the positions that `at_` gives them. -/
def place (t : ImageTable) (at_ : String → Int32) : ImageTable where
  rows := t.rows.map fun r => { r with position := at_ r.id }
  unique := by
    rw [List.map_map]
    exact t.unique

/-- The position of a row in the table. -/
def positionOf (t : ImageTable) (id : String) : Int32 := ((t.find? id).map ImageRow.position).getD 0

/-- Some rows at their new positions, the others at their old ones. -/
def moved (old new : String → Int32) (done : List String) (id : String) : Int32 := if id ∈ done then new id else old id

theorem moved_nil (old new : String → Int32) : moved old new [] = old := by
  funext id
  simp [moved]

theorem positionOf_row {r : ImageRow} (mem : r ∈ t.rows) : positionOf t r.id = r.position := by
  unfold positionOf
  rw [Table.find?_eq_some.2 ⟨mem, rfl⟩]
  rfl

theorem place_positionOf (t : ImageTable) : place t (positionOf t) = t := by
  apply Table.ext
  unfold place
  simp only
  calc (t.rows.map fun r => { r with position := positionOf t r.id })
      = t.rows.map id := List.map_congr_left fun r mem => by rw [positionOf_row mem]; rfl
    _ = t.rows := List.map_id _

theorem place_congr {f g : String → Int32} (same : ∀ r ∈ t.rows, f r.id = g r.id) : place t f = place t g := by
  apply Table.ext
  exact List.map_congr_left fun r mem => by rw [same r mem]

theorem setPosition_place (t : ImageTable) (at_ : String → Int32) (id : String) (position : Int32) :
    setPosition (place t at_) id position = place t (Function.update at_ id position) := by
  apply Table.ext
  unfold setPosition place
  rw [Table.update_rows, List.map_map]
  apply List.map_congr_left
  intro r _
  by_cases same : r.id = id
  · simp [Table.rewrite, same]
  · simp [Table.rewrite, same]

/-- No two rows of a product meet. -/
theorem uniquePositions_place {at_ : String → Int32} (apart : ∀ a ∈ t.rows, ∀ b ∈ t.rows, a.productID = b.productID → a.id ≠ b.id → at_ a.id ≠ at_ b.id) :
    UniquePositions (place t at_) := by
  have keys : t.rows.Pairwise fun a b => a.id ≠ b.id := List.pairwise_map.1 t.unique
  unfold UniquePositions place
  rw [List.pairwise_map]
  refine keys.imp_of_mem fun ha hb ne same => ?_
  exact apart _ ha _ hb same ne

theorem apart_of_unique (unique : UniquePositions t) {a b : ImageRow} (ha : a ∈ t.rows) (hb : b ∈ t.rows) (same : a.productID = b.productID)
    (ne : a.id ≠ b.id) : a.position ≠ b.position := by
  have symmetric : Std.Symm fun a b : ImageRow => a.productID = b.productID → a.position ≠ b.position :=
    ⟨fun _ _ apart same => (apart same.symm).symm⟩
  exact List.Pairwise.forall unique ha hb (fun both => ne (congrArg ImageRow.id both)) same

/-- The rows that have been moved do not meet, nor the others, nor one of these one of those. -/
theorem apart_moved (before : ∀ a ∈ t.rows, ∀ b ∈ t.rows, a.productID = b.productID → a.id ≠ b.id → old a.id ≠ old b.id)
    (after : ∀ a ∈ t.rows, ∀ b ∈ t.rows, a.id ∈ done → b.id ∈ done → a.id ≠ b.id → new a.id ≠ new b.id)
    (across : ∀ a ∈ t.rows, ∀ b ∈ t.rows, a.productID = b.productID → a.id ∈ done → b.id ∉ done → new a.id ≠ old b.id) :
    ∀ a ∈ t.rows, ∀ b ∈ t.rows, a.productID = b.productID → a.id ≠ b.id → moved old new done a.id ≠ moved old new done b.id := by
  intro a ha b hb same ne
  unfold moved
  by_cases first : a.id ∈ done
  · by_cases second : b.id ∈ done
    · rw [if_pos first, if_pos second]
      exact after a ha b hb first second ne
    · rw [if_pos first, if_neg second]
      exact across a ha b hb same first second
  · by_cases second : b.id ∈ done
    · rw [if_neg first, if_pos second]
      exact (across b hb a ha same.symm second first).symm
    · rw [if_neg first, if_neg second]
      exact before a ha b hb same ne

theorem apart_positionOf (unique : UniquePositions t) :
    ∀ a ∈ t.rows, ∀ b ∈ t.rows, a.productID = b.productID → a.id ≠ b.id → positionOf t a.id ≠ positionOf t b.id := by
  intro a ha b hb same ne
  rw [positionOf_row ha, positionOf_row hb]
  exact apart_of_unique unique ha hb same ne

/-- One more row is moved. -/
theorem update_moved {id : String} (unique : UniquePositions (place t (moved old new (done ++ [id])))) :
    updateImagePosition (place t (moved old new done)) id (new id) = some (place t (moved old new (done ++ [id]))) := by
  have more : Function.update (moved old new done) id (new id) = moved old new (done ++ [id]) := by
    funext other
    by_cases same : other = id
    · subst same
      simp [moved]
    · simp [moved, same]
  unfold updateImagePosition
  rw [setPosition_place, more, if_pos unique]

/-- A loop that moves a row at a time. -/
theorem loop_moved {A : Type} {ids : List String} {step : ImageTable → A → Option ImageTable} {l : List A} (length : l.length = ids.length)
    (each : ∀ k (h : k < l.length) (h' : k < ids.length), step (place t (moved old new (ids.take k))) l[k] =
      some (place t (moved old new (ids.take k ++ [ids[k]])))) (k : Nat) :
    (l.take k).foldlM step (place t old) = some (place t (moved old new (ids.take k))) := by
  induction k with
  | zero =>
    rw [List.take_zero, List.take_zero, moved_nil]
    rfl
  | succ k ih =>
    rw [List.take_add_one, List.foldlM_append, ih, List.take_add_one]
    by_cases within : k < l.length
    · have one := each k within (by omega)
      rw [List.getElem?_eq_getElem within, List.getElem?_eq_getElem (by omega)]
      simp only [Option.toList_some, List.foldlM_cons, List.foldlM_nil, Option.bind_eq_bind, Option.bind_some, one]
      rfl
    · rw [List.getElem?_eq_none (by omega), List.getElem?_eq_none (by omega)]
      simp only [Option.toList_none, List.append_nil]
      rfl

/-! ## The order of the images -/

theorem mem_imagesOf {r : ImageRow} : r ∈ imagesOf t p ↔ r ∈ t.rows ∧ r.productID = p := by
  unfold imagesOf
  rw [List.mem_filter, decide_eq_true_eq]

theorem listed_perm (t : ImageTable) (p : String) : (listImageIDPositions t p).Perm (imagesOf t p) := List.perm_insertionSort _ _

theorem nodup_images (t : ImageTable) (p : String) : ((imagesOf t p).map ImageRow.id).Nodup :=
  t.unique.sublist (List.filter_sublist.map ImageRow.id)

/-- The images are listed by their positions, each above the one before. -/
theorem listed_sorted (unique : UniquePositions t) : (listImageIDPositions t p).Pairwise fun a b => a.position.toInt < b.position.toInt := by
  have total : Std.Total fun a b : ImageRow => a.position.toInt ≤ b.position.toInt := ⟨fun a b => Int.le_total _ _⟩
  have trans : IsTrans ImageRow fun a b => a.position.toInt ≤ b.position.toInt := ⟨fun _ _ _ => Int.le_trans⟩
  have sorted : (listImageIDPositions t p).Pairwise fun a b => a.position.toInt ≤ b.position.toInt := List.pairwise_insertionSort _ _
  have keys : (listImageIDPositions t p).Pairwise fun a b => a.id ≠ b.id :=
    List.pairwise_map.1 (((listed_perm t p).map ImageRow.id).nodup_iff.2 (nodup_images t p))
  refine (sorted.and keys).imp_of_mem fun {a b} ha hb both => ?_
  obtain ⟨rowA, productA⟩ := mem_imagesOf.1 ((listed_perm t p).mem_iff.1 ha)
  obtain ⟨rowB, productB⟩ := mem_imagesOf.1 ((listed_perm t p).mem_iff.1 hb)
  have ne := apart_of_unique unique rowA rowB (productA.trans productB.symm) both.2
  exact lt_of_le_of_ne both.1 fun same => ne (Int32.toInt_inj.1 same)

/-- In an ascending list of positions that are not negative, none is below its index. -/
theorem index_le {l : List Int} (sorted : l.Pairwise (· < ·)) (nonneg : ∀ x ∈ l, 0 ≤ x) (i : Nat) (h : i < l.length) : (i : Int) ≤ l[i] := by
  induction i with
  | zero => exact nonneg _ (List.getElem_mem h)
  | succ i ih =>
    have before := ih (by omega)
    have less := List.pairwise_iff_getElem.1 sorted i (i + 1) (by omega) h (by omega)
    push_cast
    omega

/-- The position of an image in a new order. -/
def newPosition (ids : List String) (id : String) : Int32 := Int32.ofNat (ids.idxOf id)

variable {ids : List String}

theorem newPosition_toInt (few : ids.length ≤ 2 ^ 31) {id : String} (mem : id ∈ ids) : (newPosition ids id).toInt = ids.idxOf id := by
  have within := List.idxOf_lt_length_of_mem mem
  exact Int32.toInt_ofNat_of_lt (by omega)

theorem newPosition_apart (few : ids.length ≤ 2 ^ 31) {a b : String} (ha : a ∈ ids) (hb : b ∈ ids) (ne : a ≠ b) :
    newPosition ids a ≠ newPosition ids b := by
  intro same
  have index : (ids.idxOf a : Int) = ids.idxOf b := by
    rw [← newPosition_toInt few ha, ← newPosition_toInt few hb, same]
  exact ne ((List.idxOf_inj ha).1 (by omega))

/-- The entries of a list without repetition and their indexes. -/
theorem zipIdx_idxOf (nodup : ids.Nodup) : ids.zipIdx = ids.map fun id => (id, ids.idxOf id) := by
  apply List.ext_getElem
  · rw [List.length_zipIdx, List.length_map]
  · intro i h h'
    rw [List.getElem_zipIdx, List.getElem_map, nodup.idxOf_getElem]
    simp

/-- The images of a product that are at the positions of a new order are listed in that order. -/
theorem listed_place (perm : ids.Perm ((imagesOf t p).map ImageRow.id)) (few : ids.length ≤ 2 ^ 31) {at_ : String → Int32}
    (placed : ∀ id ∈ ids, at_ id = newPosition ids id) :
    (listImageIDPositions (place t at_) p).map (fun r => (r.id, r.position.toInt)) = ids.zipIdx.map fun x => (x.1, (x.2 : Int)) := by
  have nodup : ids.Nodup := perm.nodup_iff.2 (nodup_images t p)
  have order : ids.zipIdx.map (fun x => (x.1, (x.2 : Int))) = ids.map fun id => (id, (ids.idxOf id : Int)) := by
    rw [zipIdx_idxOf nodup, List.map_map]
    rfl
  have images : imagesOf (place t at_) p = (imagesOf t p).map fun r => { r with position := at_ r.id } := by
    unfold imagesOf place
    rw [List.filter_map]
    rfl
  have same : ((listImageIDPositions (place t at_) p).map fun r => (r.id, r.position.toInt)).Perm (ids.map fun id => (id, (ids.idxOf id : Int))) := by
    have values : ids.map (fun id => (id, (ids.idxOf id : Int))) = ids.map fun id => (id, (at_ id).toInt) :=
      List.map_congr_left fun id mem => by rw [placed id mem, newPosition_toInt few mem]
    rw [values]
    refine ((listed_perm _ p).map _).trans ?_
    rw [images, List.map_map]
    have keyed : (imagesOf t p).map ((fun r : ImageRow => (r.id, r.position.toInt)) ∘ fun r => { r with position := at_ r.id }) =
        ((imagesOf t p).map ImageRow.id).map fun id => (id, (at_ id).toInt) := by
      rw [List.map_map]
      rfl
    rw [keyed]
    exact (perm.map _).symm
  have total : Std.Total fun a b : ImageRow => a.position.toInt ≤ b.position.toInt := ⟨fun a b => Int.le_total _ _⟩
  have trans : IsTrans ImageRow fun a b => a.position.toInt ≤ b.position.toInt := ⟨fun _ _ _ => Int.le_trans⟩
  rw [order]
  have sorted : ((listImageIDPositions (place t at_) p).map fun r => (r.id, r.position.toInt)).Pairwise fun a b => a.2 ≤ b.2 :=
    List.pairwise_map.2 (List.pairwise_insertionSort _ _)
  have ascending : (ids.map fun id => (id, (ids.idxOf id : Int))).Pairwise fun a b => a.2 ≤ b.2 := by
    rw [← order, List.pairwise_map, List.pairwise_iff_getElem]
    intro i j hi hj less
    rw [List.getElem_zipIdx, List.getElem_zipIdx]
    simp only
    omega
  refine List.Perm.eq_of_pairwise (fun a b ha hb le ge => ?_) sorted ascending same
  -- the index determines the image
  obtain ⟨i, memI, rfl⟩ := List.mem_map.1 (same.mem_iff.1 ha)
  obtain ⟨j, memJ, rfl⟩ := List.mem_map.1 hb
  have index : ids.idxOf i = ids.idxOf j := Int.ofNat_inj.1 (Int.le_antisymm le ge)
  rw [(List.idxOf_inj memI).1 index]

/-! ## Closing the gaps -/

section Redensify

/-- The images as they are listed. -/
def listedIDs (t : ImageTable) (p : String) : List String := (listImageIDPositions t p).map ImageRow.id

theorem listedIDs_perm (t : ImageTable) (p : String) : (listedIDs t p).Perm ((imagesOf t p).map ImageRow.id) := (listed_perm t p).map _

theorem nodup_listedIDs (t : ImageTable) (p : String) : (listedIDs t p).Nodup := (listedIDs_perm t p).nodup_iff.2 (nodup_images t p)

/-- Where an image stands in the list. -/
theorem listed_index {r : ImageRow} (mem : r ∈ imagesOf t p) :
    ∃ h : (listedIDs t p).idxOf r.id < (listImageIDPositions t p).length, (listImageIDPositions t p)[(listedIDs t p).idxOf r.id] = r := by
  obtain ⟨i, h, rfl⟩ := List.getElem_of_mem ((listed_perm t p).mem_iff.2 mem)
  have named : i < (listedIDs t p).length := by rwa [listedIDs, List.length_map]
  have index : (listedIDs t p).idxOf ((listImageIDPositions t p)[i]).id = i := by
    have entry : ((listImageIDPositions t p)[i]).id = (listedIDs t p)[i] := by simp [listedIDs]
    rw [entry, (nodup_listedIDs t p).idxOf_getElem]
  refine ⟨by rwa [index], ?_⟩
  simp only [index]

/-- No image is at a position below its index. -/
theorem idxOf_le (unique : UniquePositions t) (nonneg : ∀ r ∈ imagesOf t p, 0 ≤ r.position.toInt) {r : ImageRow} (mem : r ∈ imagesOf t p) :
    ((listedIDs t p).idxOf r.id : Int) ≤ r.position.toInt := by
  obtain ⟨h, entry⟩ := listed_index mem
  have sorted : ((listImageIDPositions t p).map fun r => r.position.toInt).Pairwise (· < ·) := List.pairwise_map.2 (listed_sorted unique)
  have low := index_le sorted (fun x mem => by
    obtain ⟨r, here, rfl⟩ := List.mem_map.1 mem
    exact nonneg r ((listed_perm t p).mem_iff.1 here)) _ (by rwa [List.length_map])
  rw [List.getElem_map, entry] at low
  exact low

/-- There are no more images than positions for them. -/
theorem images_few (unique : UniquePositions t) (nonneg : ∀ r ∈ imagesOf t p, 0 ≤ r.position.toInt) {limit : Nat}
    (below : ∀ r ∈ imagesOf t p, r.position.toInt < limit) : (listedIDs t p).length ≤ limit := by
  have count : (listedIDs t p).length = (listImageIDPositions t p).length := by rw [listedIDs, List.length_map]
  cases n : (listedIDs t p).length with
  | zero => omega
  | succ m =>
    have within : m < (listImageIDPositions t p).length := by omega
    have sorted : ((listImageIDPositions t p).map fun r => r.position.toInt).Pairwise (· < ·) := List.pairwise_map.2 (listed_sorted unique)
    have low := index_le sorted (fun x mem => by
      obtain ⟨r, here, rfl⟩ := List.mem_map.1 mem
      exact nonneg r ((listed_perm t p).mem_iff.1 here)) m (by rwa [List.length_map])
    have high := below _ ((listed_perm t p).mem_iff.1 (List.getElem_mem within))
    rw [List.getElem_map] at low
    omega

theorem mem_listedIDs {id : String} : id ∈ listedIDs t p ↔ ∃ r ∈ imagesOf t p, r.id = id := by
  rw [(listedIDs_perm t p).mem_iff, List.mem_map]

/-- The row of a listed id is an image of the product. -/
theorem image_of_listed {r : ImageRow} (mem : r ∈ t.rows) (named : r.id ∈ listedIDs t p) : r ∈ imagesOf t p := by
  obtain ⟨u, here, same⟩ := mem_listedIDs.1 named
  rw [← Table.eq_of_key (mem_imagesOf.1 here).1 mem same]
  exact here

/-- No two images meet while the first of them are moved down. -/
theorem unique_redensify (unique : UniquePositions t) (nonneg : ∀ r ∈ imagesOf t p, 0 ≤ r.position.toInt) (k : Nat) :
    UniquePositions (place t (moved (positionOf t) (newPosition (listedIDs t p)) ((listedIDs t p).take k))) := by
  have few : (listedIDs t p).length ≤ 2 ^ 31 := images_few unique nonneg fun r _ => r.position.toInt_lt
  apply uniquePositions_place
  refine apart_moved (apart_positionOf unique) (fun a _ b _ ha hb ne => ?_) (fun a rowA b rowB same ha hb meet => ?_)
  · exact newPosition_apart few (List.mem_of_mem_take ha) (List.mem_of_mem_take hb) ne
  · have named := List.mem_of_mem_take ha
    have imageB : b ∈ imagesOf t p := mem_imagesOf.2 ⟨rowB, same.symm.trans (mem_imagesOf.1 (image_of_listed rowA named)).2⟩
    have before := (List.mem_take_iff_idxOf_lt named).1 ha
    have later : k ≤ (listedIDs t p).idxOf b.id := by
      by_contra less
      exact hb ((List.mem_take_iff_idxOf_lt (mem_listedIDs.2 ⟨b, imageB, rfl⟩)).2 (by omega))
    have low := idxOf_le unique nonneg imageB
    rw [positionOf_row rowB] at meet
    rw [← meet, newPosition_toInt few named] at low
    omega

/-- The number of images is the number of their ids. -/
theorem listed_length (t : ImageTable) (p : String) : (listImageIDPositions t p).zipIdx.length = (listedIDs t p).length := by
  rw [List.length_zipIdx, listedIDs, List.length_map]

/-- The loop after any number of its iterations. -/
theorem redensify_loop (unique : UniquePositions t) (nonneg : ∀ r ∈ imagesOf t p, 0 ≤ r.position.toInt) (k : Nat) :
    ((listImageIDPositions t p).zipIdx.take k).foldlM redensifyRow t =
      some (place t (moved (positionOf t) (newPosition (listedIDs t p)) ((listedIDs t p).take k))) := by
  have start := @loop_moved t (positionOf t) (newPosition (listedIDs t p)) _ (listedIDs t p) redensifyRow _ (listed_length t p)
    (fun k h h' => ?_) k
  · rwa [place_positionOf] at start
  · have within : k < (listImageIDPositions t p).length := by simpa using h
    have entry : (listImageIDPositions t p).zipIdx[k] = ((listImageIDPositions t p)[k], k) := by
      rw [List.getElem_zipIdx]
      simp
    have named : ((listImageIDPositions t p)[k]).id = (listedIDs t p)[k] := by simp [listedIDs]
    have target : newPosition (listedIDs t p) (listedIDs t p)[k] = Int32.ofNat k := by
      unfold newPosition
      rw [(nodup_listedIDs t p).idxOf_getElem]
    rw [entry]
    unfold redensifyRow
    simp only [named]
    split
    · rw [← target]
      apply update_moved
      have next := unique_redensify unique nonneg (k + 1)
      rwa [List.take_add_one, List.getElem?_eq_getElem h'] at next
    · -- the image is where it belongs
      rename_i stays
      have same : positionOf t (listedIDs t p)[k] = Int32.ofNat k := by
        have row := (mem_imagesOf.1 ((listed_perm t p).mem_iff.1 (List.getElem_mem within))).1
        rw [← named, positionOf_row row]
        exact Decidable.not_not.1 stays
      congr 1
      apply place_congr
      intro r _
      unfold moved
      by_cases this : r.id = (listedIDs t p)[k]
      · simp [this, same, target]
      · simp only [List.mem_append, List.mem_singleton, this, or_false]

/-- The rows of the other products. -/
def othersOf (t : ImageTable) (p : String) : List ImageRow := t.rows.filter fun r => decide (r.productID ≠ p)

theorem others_place {at_ : String → Int32} (stays : ∀ r ∈ t.rows, r.productID ≠ p → at_ r.id = r.position) : othersOf (place t at_) p = othersOf t p := by
  unfold othersOf place
  rw [List.filter_map]
  calc (t.rows.filter fun r => decide (r.productID ≠ p)).map (fun r => { r with position := at_ r.id })
      = (t.rows.filter fun r => decide (r.productID ≠ p)).map id := by
        apply List.map_congr_left
        intro r mem
        obtain ⟨row, foreign⟩ := List.mem_filter.1 mem
        rw [stays r row (of_decide_eq_true foreign)]
        rfl
    _ = t.rows.filter fun r => decide (r.productID ≠ p) := List.map_id _

/-- `s4p_redensify` succeeds at every update, and leaves the images in their order at the positions from zero. -/
theorem redensify_dense (unique : UniquePositions t) (nonneg : ∀ r ∈ imagesOf t p, 0 ≤ r.position.toInt) :
    (∀ k, ∃ mid, ((listImageIDPositions t p).zipIdx.take k).foldlM redensifyRow t = some mid ∧ UniquePositions mid) ∧
    ∃ after, s4pRedensify t p = some after ∧
      (listImageIDPositions after p).map (fun r => (r.id, r.position.toInt)) = (listedIDs t p).zipIdx.map (fun x => (x.1, (x.2 : Int))) ∧
      othersOf after p = othersOf t p := by
  refine ⟨fun k => ⟨_, redensify_loop unique nonneg k, unique_redensify unique nonneg k⟩, ?_⟩
  have whole := redensify_loop unique nonneg (listImageIDPositions t p).zipIdx.length
  rw [List.take_length, listed_length, List.take_length] at whole
  refine ⟨_, whole, ?_, ?_⟩
  · apply listed_place (listedIDs_perm t p) (images_few unique nonneg fun r _ => r.position.toInt_lt)
    exact fun id mem => if_pos mem
  · apply others_place
    intro r row foreign
    have unnamed : r.id ∉ listedIDs t p := fun named => foreign (mem_imagesOf.1 (image_of_listed row named)).2
    rw [moved, if_neg unnamed, positionOf_row row]

end Redensify

/-! ## A new order -/

section Reorder

variable {scan ids : List String}

/-- Where an image is parked. -/
def parkedAt (t : ImageTable) (id : String) : Int32 := positionOf t id + s4pReorderOffset

theorem integerAdd_park {position : Int32} (nonneg : 0 ≤ position.toInt) (below : position.toInt < 1000) :
    integerAdd position s4pReorderOffset = some (position + s4pReorderOffset) ∧ (position + s4pReorderOffset).toInt = position.toInt + 1000 := by
  have offset : s4pReorderOffset.toInt = 1000 := by decide
  constructor
  · unfold integerAdd
    rw [if_pos]
    omega
  · rw [Int32.toInt_add, offset]
    exact Int.bmod_eq_of_le (by omega) (by omega)

/-- The positions of a product before it is put in another order. -/
structure Parkable (t : ImageTable) (p : String) (scan : List String) : Prop where
  unique : UniquePositions t
  within : ∀ r ∈ imagesOf t p, 0 ≤ r.position.toInt ∧ r.position.toInt < 1000
  scan : scan.Perm ((imagesOf t p).map ImageRow.id)

theorem image_of_perm {order : List String} (perm : order.Perm ((imagesOf t p).map ImageRow.id)) {r : ImageRow} (mem : r ∈ t.rows) (named : r.id ∈ order) :
    r ∈ imagesOf t p :=
  image_of_listed mem ((listedIDs_perm t p).mem_iff.2 (perm.mem_iff.1 named))

theorem parkedAt_image (parkable : Parkable t p scan) {r : ImageRow} (image : r ∈ imagesOf t p) : (parkedAt t r.id).toInt = r.position.toInt + 1000 := by
  obtain ⟨nonneg, below⟩ := parkable.within r image
  rw [parkedAt, positionOf_row (mem_imagesOf.1 image).1]
  exact (integerAdd_park nonneg below).2

/-- No two images meet while they are parked. -/
theorem apart_park (parkable : Parkable t p scan) (k : Nat) : ∀ a ∈ t.rows, ∀ b ∈ t.rows, a.productID = b.productID → a.id ≠ b.id →
    moved (positionOf t) (parkedAt t) (scan.take k) a.id ≠ moved (positionOf t) (parkedAt t) (scan.take k) b.id := by
  refine apart_moved (apart_positionOf parkable.unique) (fun a rowA b rowB ha hb ne meet => ?_) (fun a rowA b rowB same ha hb meet => ?_)
  · have imageA := image_of_perm parkable.scan rowA (List.mem_of_mem_take ha)
    have imageB := image_of_perm parkable.scan rowB (List.mem_of_mem_take hb)
    have apart := apart_of_unique parkable.unique rowA rowB ((mem_imagesOf.1 imageA).2.trans (mem_imagesOf.1 imageB).2.symm) ne
    have value := congrArg Int32.toInt meet
    rw [parkedAt_image parkable imageA, parkedAt_image parkable imageB] at value
    exact apart (Int32.toInt_inj.1 (by omega))
  · have imageA := image_of_perm parkable.scan rowA (List.mem_of_mem_take ha)
    have imageB : b ∈ imagesOf t p := mem_imagesOf.2 ⟨rowB, same.symm.trans (mem_imagesOf.1 imageA).2⟩
    have value := congrArg Int32.toInt meet
    rw [parkedAt_image parkable imageA, positionOf_row rowB] at value
    have low := (parkable.within a imageA).1
    have high := (parkable.within b imageB).2
    omega

/-- The rows after any number of them were parked. -/
theorem park_loop (parkable : Parkable t p scan) (k : Nat) : (scan.take k).foldlM (parkImagePosition s4pReorderOffset) t =
    some (place t (moved (positionOf t) (parkedAt t) (scan.take k))) := by
  have nodup : scan.Nodup := parkable.scan.nodup_iff.2 (nodup_images t p)
  have start := @loop_moved t (positionOf t) (parkedAt t) _ scan (parkImagePosition s4pReorderOffset) scan rfl (fun k h _ => ?_) k
  · rwa [place_positionOf] at start
  · obtain ⟨r, image, named⟩ := List.mem_map.1 (parkable.scan.mem_iff.1 (List.getElem_mem h))
    have row := (mem_imagesOf.1 image).1
    have waiting : scan[k] ∉ scan.take k := by
      intro before
      have index := (List.mem_take_iff_idxOf_lt (List.getElem_mem h)).1 before
      rw [nodup.idxOf_getElem] at index
      omega
    have found : (place t (moved (positionOf t) (parkedAt t) (scan.take k))).find? scan[k] = some r := by
      refine Table.find?_eq_some.2 ⟨List.mem_map.2 ⟨r, row, ?_⟩, named⟩
      rw [moved, named, if_neg waiting, ← named, positionOf_row row]
    obtain ⟨nonneg, below⟩ := parkable.within r image
    have parked : r.position + s4pReorderOffset = parkedAt t scan[k] := by rw [parkedAt, ← named, positionOf_row row]
    unfold parkImagePosition
    rw [found]
    simp only [(integerAdd_park nonneg below).1, Option.bind_some, parked]
    apply update_moved
    have next := uniquePositions_place (apart_park parkable (k + 1))
    rwa [List.take_add_one, List.getElem?_eq_getElem h] at next

/-- No two images meet while they are placed. -/
theorem unique_place (parkable : Parkable t p scan) (perm : ids.Perm ((imagesOf t p).map ImageRow.id)) (k : Nat) :
    UniquePositions (place t (moved (moved (positionOf t) (parkedAt t) scan) (newPosition ids) (ids.take k))) := by
  have count : ids.length = (listedIDs t p).length := (perm.trans (listedIDs_perm t p).symm).length_eq
  have few : ids.length ≤ 1000 := by
    rw [count]
    exact images_few parkable.unique (fun r image => (parkable.within r image).1) fun r image => (parkable.within r image).2
  have parked := apart_park parkable scan.length
  rw [List.take_length] at parked
  apply uniquePositions_place
  refine apart_moved parked (fun a _ b _ ha hb ne => ?_) (fun a rowA b rowB same ha hb meet => ?_)
  · exact newPosition_apart (by omega) (List.mem_of_mem_take ha) (List.mem_of_mem_take hb) ne
  · have named := List.mem_of_mem_take ha
    have imageB : b ∈ imagesOf t p := mem_imagesOf.2 ⟨rowB, same.symm.trans (mem_imagesOf.1 (image_of_perm perm rowA named)).2⟩
    have scanned : b.id ∈ scan := parkable.scan.mem_iff.2 (List.mem_map_of_mem imageB)
    have value := congrArg Int32.toInt meet
    have index := List.idxOf_lt_length_of_mem named
    have low := (parkable.within b imageB).1
    rw [newPosition_toInt (by omega) named, moved, if_pos scanned, parkedAt_image parkable imageB] at value
    omega

/-- The rows after any number of them were placed. -/
theorem place_loop (parkable : Parkable t p scan) (perm : ids.Perm ((imagesOf t p).map ImageRow.id)) (k : Nat) :
    (ids.zipIdx.take k).foldlM placeImage (place t (moved (positionOf t) (parkedAt t) scan)) =
      some (place t (moved (moved (positionOf t) (parkedAt t) scan) (newPosition ids) (ids.take k))) := by
  have nodup : ids.Nodup := perm.nodup_iff.2 (nodup_images t p)
  refine loop_moved List.length_zipIdx (fun k h h' => ?_) k
  have entry : ids.zipIdx[k] = (ids[k], k) := by
    rw [List.getElem_zipIdx]
    simp
  have target : newPosition ids ids[k] = Int32.ofNat k := by
    unfold newPosition
    rw [nodup.idxOf_getElem]
  rw [entry]
  unfold placeImage
  simp only [← target]
  apply update_moved
  have next := unique_place parkable perm (k + 1)
  rwa [List.take_add_one, List.getElem?_eq_getElem h'] at next

/-- The writes of a reorder succeed at every row, and leave the images in the submitted order at the positions from zero. -/
theorem reorder_order (parkable : Parkable t p scan) (perm : ids.Perm ((imagesOf t p).map ImageRow.id)) :
    (∀ k, ∃ mid, (scan.take k).foldlM (parkImagePosition s4pReorderOffset) t = some mid ∧ UniquePositions mid) ∧
    ∃ parked, scan.foldlM (parkImagePosition s4pReorderOffset) t = some parked ∧
      (∀ k, ∃ mid, (ids.zipIdx.take k).foldlM placeImage parked = some mid ∧ UniquePositions mid) ∧
      ∃ after, s4pReorderWrites t scan ids = some after ∧
        (listImageIDPositions after p).map (fun r => (r.id, r.position.toInt)) = ids.zipIdx.map (fun x => (x.1, (x.2 : Int))) ∧
        othersOf after p = othersOf t p := by
  have parked := park_loop parkable scan.length
  have placed := place_loop parkable perm ids.zipIdx.length
  rw [List.take_length] at parked
  rw [List.take_length, List.length_zipIdx, List.take_length] at placed
  have written : s4pReorderWrites t scan ids = some (place t (moved (moved (positionOf t) (parkedAt t) scan) (newPosition ids) ids)) := by
    rw [s4pReorderWrites, parked]
    exact placed
  refine ⟨fun k => ⟨_, park_loop parkable k, uniquePositions_place (apart_park parkable k)⟩, _, parked,
    fun k => ⟨_, place_loop parkable perm k, unique_place parkable perm k⟩, _, written, ?_, ?_⟩
  · have count : ids.length = (listedIDs t p).length := (perm.trans (listedIDs_perm t p).symm).length_eq
    have few : (listedIDs t p).length ≤ 2 ^ 31 :=
      images_few parkable.unique (fun r image => (parkable.within r image).1) fun r _ => r.position.toInt_lt
    exact listed_place perm (count ▸ few) fun id mem => if_pos mem
  · apply others_place
    intro r row foreign
    have unnamed : ∀ {order : List String}, order.Perm ((imagesOf t p).map ImageRow.id) → r.id ∉ order :=
      fun perm named => foreign (mem_imagesOf.1 (image_of_perm perm row named)).2
    rw [moved, if_neg (unnamed perm), moved, if_neg (unnamed parkable.scan), positionOf_row row]

end Reorder

/-- For images at positions that are not negative: closing the gaps succeeds at every update and leaves them in their order, and below the
offset a reorder succeeds at every row it writes, in whatever order it parks them, and leaves them in the submitted order. -/
theorem image_positions (unique : UniquePositions t) (nonneg : ∀ r ∈ imagesOf t p, 0 ≤ r.position.toInt) :
    ((∀ k, ∃ mid, ((listImageIDPositions t p).zipIdx.take k).foldlM redensifyRow t = some mid ∧ UniquePositions mid) ∧
      ∃ after, s4pRedensify t p = some after ∧
        (listImageIDPositions after p).map (fun r => (r.id, r.position.toInt)) = (listedIDs t p).zipIdx.map (fun x => (x.1, (x.2 : Int))) ∧
        othersOf after p = othersOf t p) ∧
    ((∀ r ∈ imagesOf t p, r.position.toInt < s4pReorderOffset.toInt) → ∀ scan ids : List String,
      scan.Perm ((imagesOf t p).map ImageRow.id) → ids.Perm ((imagesOf t p).map ImageRow.id) →
      (∀ k, ∃ mid, (scan.take k).foldlM (parkImagePosition s4pReorderOffset) t = some mid ∧ UniquePositions mid) ∧
      ∃ parked, scan.foldlM (parkImagePosition s4pReorderOffset) t = some parked ∧
        (∀ k, ∃ mid, (ids.zipIdx.take k).foldlM placeImage parked = some mid ∧ UniquePositions mid) ∧
        ∃ after, s4pReorderWrites t scan ids = some after ∧
          (listImageIDPositions after p).map (fun r => (r.id, r.position.toInt)) = ids.zipIdx.map (fun x => (x.1, (x.2 : Int))) ∧
          othersOf after p = othersOf t p) := by
  refine ⟨redensify_dense unique nonneg, fun below scan ids scanned submitted => ?_⟩
  have offset : s4pReorderOffset.toInt = 1000 := by decide
  exact reorder_order ⟨unique, fun r image => ⟨nonneg r image, offset ▸ below r image⟩, scanned⟩ submitted

/-- Two images with a gap, beside one of another product. -/
def gappedImages : ImageTable :=
  ⟨[⟨"i1", "p1", 2, some "h1"⟩, ⟨"i2", "p2", 2, some "h1"⟩, ⟨"i3", "p1", 7, none⟩], by decide⟩

/-- The gaps are closed, and a reorder swaps the two. -/
theorem gap_closed : (∃ after, s4pRedensify gappedImages "p1" = some after ∧
      (listImageIDPositions after "p1").map (fun r => (r.id, r.position.toInt)) = [("i1", 0), ("i3", 1)]) ∧
    ∃ after, s4pReorderWrites gappedImages ["i1", "i3"] ["i3", "i1"] = some after ∧
      (listImageIDPositions after "p1").map (fun r => (r.id, r.position.toInt)) = [("i3", 0), ("i1", 1)] := by
  obtain ⟨⟨-, after, closed, order, -⟩, reorders⟩ := @image_positions gappedImages "p1" (by decide +kernel) (by decide +kernel)
  have listed : listedIDs gappedImages "p1" = ["i1", "i3"] := by decide +kernel
  rw [listed] at order
  obtain ⟨-, parked, -, -, swapped, writes, order', -⟩ := reorders (by decide +kernel) ["i1", "i3"] ["i3", "i1"] (by decide +kernel)
    (by decide +kernel)
  exact ⟨⟨after, closed, order⟩, swapped, writes, order'⟩

/-- An image at -1000. -/
def negativeImages : ImageTable := ⟨[⟨"i1", "p1", -1000, none⟩, ⟨"i2", "p1", 0, none⟩], by decide⟩

/-- It is parked where the other one still is. -/
theorem negative_meets : UniquePositions negativeImages ∧ (∀ r ∈ imagesOf negativeImages "p1", r.position.toInt < s4pReorderOffset.toInt) ∧
    ["i1", "i2"].Perm ((imagesOf negativeImages "p1").map ImageRow.id) ∧ s4pReorderWrites negativeImages ["i1", "i2"] ["i1", "i2"] = none := by
  decide +kernel

end NovoApex.Images
