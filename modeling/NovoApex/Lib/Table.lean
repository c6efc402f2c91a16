import Mathlib.Data.List.Nodup

/-!
# Keyed tables

A table is a list of rows under a primary key that no two rows share. The
writes are those of SQL: `update` rewrites every row a predicate selects,
`insert` refuses a key that is taken. Row order is the scan order, so a query
without an `ORDER BY` is a query over an arbitrary list.
-/

namespace NovoApex.Lib
set_option autoImplicit false

/-- Rows under a primary key. -/
structure Table {R K : Type} (key : R → K) where
  rows : List R
  unique : (rows.map key).Nodup

namespace Table

variable {R K : Type} {key : R → K}

/-- The table without rows. -/
def empty : Table key := ⟨[], List.nodup_nil⟩

/-- The rows an `UPDATE … WHERE p` rewrites by `f`. -/
def rewrite (p : R → Bool) (f : R → R) (r : R) : R := if p r then f r else r

theorem rewrite_key {p : R → Bool} {f : R → R} (keeps : ∀ r, key (f r) = key r) (r : R) :
    key (rewrite p f r) = key r := by
  unfold rewrite
  split
  · exact keeps r
  · rfl

/-- `UPDATE … SET f WHERE p`, for a write that leaves the key alone. -/
def update (t : Table key) (p : R → Bool) (f : R → R) (keeps : ∀ r, key (f r) = key r) : Table key where
  rows := t.rows.map (rewrite p f)
  unique := by
    have same : (t.rows.map (rewrite p f)).map key = t.rows.map key := by
      rw [List.map_map]
      exact List.map_congr_left fun r _ => rewrite_key keeps r
    rw [same]
    exact t.unique

/-- The number of rows an `UPDATE … WHERE p` affects. -/
def affected (t : Table key) (p : R → Bool) : Nat := t.rows.countP p

/-- `INSERT`; `none` when the key is taken. -/
def insert [DecidableEq K] (t : Table key) (r : R) : Option (Table key) :=
  if fresh : key r ∈ t.rows.map key then none
  else some ⟨t.rows ++ [r], by
    rw [List.map_append, List.map_singleton]
    exact List.nodup_append.2 ⟨t.unique, List.nodup_singleton _, fun k hk k' hk' h =>
      fresh (List.mem_singleton.1 hk' ▸ h ▸ hk)⟩⟩

theorem unique_delete (t : Table key) (p : R → Bool) : ((t.rows.filter fun r => !p r).map key).Nodup :=
  (List.filter_sublist.map key).nodup t.unique

/-- `DELETE … WHERE p`. -/
def delete (t : Table key) (p : R → Bool) : Table key where
  rows := t.rows.filter fun r => !p r
  unique := t.unique_delete p

/-- The row under a key. -/
def find? [DecidableEq K] (t : Table key) (k : K) : Option R := t.rows.find? fun r => decide (key r = k)

theorem ext {t u : Table key} (h : t.rows = u.rows) : t = u := by
  cases t; cases u; cases h; rfl

@[simp] theorem update_rows (t : Table key) (p : R → Bool) (f : R → R) (keeps : ∀ r, key (f r) = key r) :
    (t.update p f keeps).rows = t.rows.map (rewrite p f) := rfl

theorem mem_update {t : Table key} {p : R → Bool} {f : R → R} {keeps : ∀ r, key (f r) = key r} {r : R} :
    r ∈ (t.update p f keeps).rows ↔ ∃ old ∈ t.rows, rewrite p f old = r := by
  rw [update_rows, List.mem_map]

theorem mem_delete {t : Table key} {p : R → Bool} {r : R} : r ∈ (t.delete p).rows ↔ r ∈ t.rows ∧ p r = false := by
  unfold delete
  rw [List.mem_filter, Bool.not_eq_true']

theorem rewrite_of_pos {p : R → Bool} {f : R → R} {r : R} (h : p r = true) : rewrite p f r = f r := if_pos h

theorem rewrite_of_neg {p : R → Bool} {f : R → R} {r : R} (h : p r = false) : rewrite p f r = r := by
  simp [rewrite, h]

/-- An update that selects no row changes nothing. -/
theorem update_none {t : Table key} {p : R → Bool} {f : R → R} {keeps : ∀ r, key (f r) = key r}
    (none : ∀ r ∈ t.rows, p r = false) : t.update p f keeps = t := by
  refine ext ?_
  rw [update_rows]
  exact (List.map_congr_left fun r mem => rewrite_of_neg (none r mem)).trans (List.map_id' t.rows)

/-- An update leaves the other rows where they are. -/
theorem mem_rewrite_of_neg {p : R → Bool} {f : R → R} {rows : List R} {r : R} (mem : r ∈ rows) (h : p r = false) :
    r ∈ rows.map (rewrite p f) :=
  List.mem_map.2 ⟨r, mem, rewrite_of_neg h⟩

/-- Rewriting again changes nothing when the write is a fixed one. -/
theorem map_rewrite_again {p : R → Bool} {f : R → R} (again : ∀ r, f (f r) = f r) (rows : List R) :
    (rows.map (rewrite p f)).map (rewrite p f) = rows.map (rewrite p f) := by
  rw [List.map_map]
  refine List.map_congr_left fun r _ => ?_
  simp only [Function.comp_apply, rewrite]
  by_cases selected : p r = true
  · simp only [if_pos selected, again, ite_self]
  · simp only [if_neg selected]

/-- A projection that the selection does not see commutes with a rewrite. -/
theorem map_map_rewrite {p : R → Bool} {f g h : R → R} (unseen : ∀ r, p (h r) = p r) (commutes : ∀ r, h (f r) = g (h r))
    (rows : List R) : (rows.map (rewrite p f)).map h = (rows.map h).map (rewrite p g) := by
  rw [List.map_map, List.map_map]
  refine List.map_congr_left fun r _ => ?_
  simp only [Function.comp_apply, rewrite, unseen]
  by_cases selected : p r = true
  · simp only [if_pos selected, commutes]
  · simp only [if_neg selected]

theorem affected_eq_zero {t : Table key} {p : R → Bool} : t.affected p = 0 ↔ ∀ r ∈ t.rows, p r = false := by
  simp [affected, List.countP_eq_zero]

theorem affected_ne_zero {t : Table key} {p : R → Bool} : t.affected p ≠ 0 ↔ ∃ r ∈ t.rows, p r = true := by
  simp [affected, List.countP_eq_zero]

/-- The key determines the row. -/
theorem eq_of_key {t : Table key} {r u : R} (hr : r ∈ t.rows) (hu : u ∈ t.rows) (h : key r = key u) : r = u :=
  List.inj_on_of_nodup_map t.unique hr hu h

theorem keys_sublist {S : Type} {select : R → Option S} {key' : S → K} (same : ∀ r s, select r = some s → key' s = key r)
    (rows : List R) : ((rows.filterMap select).map key').Sublist (rows.map key) := by
  induction rows with
  | nil => exact List.Sublist.slnil
  | cons r rest ih =>
    cases found : select r with
    | none =>
      rw [List.filterMap_cons_none found]
      exact ih.cons _
    | some s =>
      rw [List.filterMap_cons_some found, List.map_cons, List.map_cons, same r s found]
      exact ih.cons_cons _

/-- The rows of a query that keeps the key have it as theirs. -/
theorem nodup_filterMap (t : Table key) {S : Type} {select : R → Option S} {key' : S → K}
    (same : ∀ r s, select r = some s → key' s = key r) : ((t.rows.filterMap select).map key').Nodup :=
  t.unique.sublist (keys_sublist same t.rows)

/-- A predicate that fixes the key selects at most one row. -/
theorem affected_le_one [DecidableEq R] {t : Table key} {p : R → Bool} {k : K}
    (fixes : ∀ r, p r = true → key r = k) : t.affected p ≤ 1 := by
  rw [affected, List.countP_eq_length_filter]
  have nodup : (t.rows.filter p).Nodup := (List.Nodup.of_map key t.unique).filter p
  rcases hl : t.rows.filter p with _ | ⟨a, _ | ⟨b, rest⟩⟩
  · simp
  · simp
  · have ha : a ∈ t.rows.filter p := by rw [hl]; simp
    have hb : b ∈ t.rows.filter p := by rw [hl]; simp
    have same : a = b := eq_of_key (List.mem_filter.1 ha).1 (List.mem_filter.1 hb).1
      ((fixes a (List.mem_filter.1 ha).2).trans (fixes b (List.mem_filter.1 hb).2).symm)
    rw [hl, same] at nodup
    simp at nodup

section Keyed

variable [DecidableEq K]

theorem insert_eq_none {t : Table key} {r : R} : t.insert r = none ↔ ∃ u ∈ t.rows, key u = key r := by
  simp [insert]

theorem insert_eq_some {t t' : Table key} {r : R} :
    t.insert r = some t' ↔ (∀ u ∈ t.rows, key u ≠ key r) ∧ t'.rows = t.rows ++ [r] := by
  unfold insert
  split
  · rename_i taken
    obtain ⟨u, hu, same⟩ := List.mem_map.1 taken
    exact ⟨fun h => (by cases h), fun h => (h.1 u hu same).elim⟩
  · rename_i fresh
    constructor
    · intro h
      obtain rfl := Option.some.inj h
      exact ⟨fun u hu same => fresh (List.mem_map.2 ⟨u, hu, same⟩), rfl⟩
    · rintro ⟨-, rows⟩
      exact congrArg some (ext rows.symm)

theorem find?_eq_some {t : Table key} {k : K} {r : R} : t.find? k = some r ↔ r ∈ t.rows ∧ key r = k := by
  constructor
  · intro h
    exact ⟨List.mem_of_find?_eq_some h, by simpa using List.find?_some h⟩
  · rintro ⟨hr, rfl⟩
    cases found : t.find? (key r) with
    | none => simpa using List.find?_eq_none.1 found r hr
    | some u =>
      have hu : key u = key r := by simpa using List.find?_some found
      rw [eq_of_key (List.mem_of_find?_eq_some found) hr hu]

theorem find?_insert {t t' : Table key} {r : R} (h : t.insert r = some t') : t'.find? (key r) = some r := by
  refine find?_eq_some.2 ⟨?_, rfl⟩
  rw [(insert_eq_some.1 h).2]
  exact List.mem_append_right _ (List.mem_singleton_self r)

theorem find?_insert_of_ne {t t' : Table key} {r : R} {k : K} (h : t.insert r = some t') (other : k ≠ key r) :
    t'.find? k = t.find? k := by
  unfold find?
  rw [(insert_eq_some.1 h).2, List.find?_append]
  simp [Ne.symm other]

/-- Rows under other keys do not matter. -/
theorem find?_append_of_ne {t u : Table key} {added : List R} {k : K} (rows : u.rows = t.rows ++ added) (others : ∀ r ∈ added, key r ≠ k) :
    u.find? k = t.find? k := by
  have nothing : (added.find? fun r => decide (key r = k)) = none := by
    refine List.find?_eq_none.2 fun r mem => ?_
    simpa using others r mem
  unfold find?
  rw [rows, List.find?_append, nothing, Option.or_none]

/-- A delete leaves the row under a key, unless it selects that. -/
theorem find?_delete (t : Table key) (p : R → Bool) (k : K) : (t.delete p).find? k = (t.find? k).filter fun r => !p r := by
  ext r
  rw [find?_eq_some, mem_delete, Option.filter_eq_some_iff, find?_eq_some, Bool.not_eq_true', and_right_comm]

/-- An update rewrites the row under each key and moves none. -/
theorem find?_update (t : Table key) (p : R → Bool) (f : R → R) (keeps : ∀ r, key (f r) = key r) (k : K) :
    (t.update p f keeps).find? k = (t.find? k).map (rewrite p f) := by
  unfold find?
  rw [update_rows, List.find?_map]
  congr 2
  funext r
  simp [rewrite_key keeps r]

/-- `UPDATE … WHERE key = k` on the row it names and on the others. -/
theorem find?_update_keyed (t : Table key) (k : K) (f : R → R) (keeps : ∀ r, key (f r) = key r) :
    (t.update (fun r => decide (key r = k)) f keeps).find? k = (t.find? k).map f := by
  rw [find?_update]
  cases h : t.find? k with
  | none => rfl
  | some r => simp [rewrite, (find?_eq_some.1 h).2]

theorem find?_update_of_ne (t : Table key) {j k : K} (f : R → R) (keeps : ∀ r, key (f r) = key r) (other : j ≠ k) :
    (t.update (fun r => decide (key r = k)) f keeps).find? j = t.find? j := by
  rw [find?_update]
  cases h : t.find? j with
  | none => rfl
  | some r => simp [rewrite, (find?_eq_some.1 h).2, other]

theorem mem_update_keyed {t : Table key} {k : K} {f : R → R} {keeps : ∀ r, key (f r) = key r} {u : R} :
    u ∈ (t.update (fun r => decide (key r = k)) f keeps).rows ↔
      (u ∈ t.rows ∧ key u ≠ k) ∨ ∃ r ∈ t.rows, key r = k ∧ u = f r := by
  rw [mem_update]
  constructor
  · rintro ⟨r, hr, rfl⟩
    by_cases same : key r = k
    · exact .inr ⟨r, hr, same, by simp [rewrite, same]⟩
    · exact .inl (by simp [rewrite, same, hr])
  · rintro (⟨hu, other⟩ | ⟨r, hr, same, rfl⟩)
    · exact ⟨u, hu, by simp [rewrite, other]⟩
    · exact ⟨r, hr, by simp [rewrite, same]⟩

/-- A predicate on the row under one key affects one row or none. -/
theorem affected_keyed [DecidableEq R] (t : Table key) (k : K) (q : R → Bool) :
    t.affected (fun r => decide (key r = k) && q r) = if (t.find? k).any q then 1 else 0 := by
  split
  · rename_i h
    obtain ⟨r, found, hq⟩ : ∃ r, t.find? k = some r ∧ q r = true := by
      cases hf : t.find? k with
      | none => simp [hf] at h
      | some r => exact ⟨r, rfl, by simpa [hf] using h⟩
    obtain ⟨hr, hk⟩ := find?_eq_some.1 found
    have le : t.affected (fun r => decide (key r = k) && q r) ≤ 1 :=
      affected_le_one (k := k) fun r h => by simp at h; exact h.1
    have ne : t.affected (fun r => decide (key r = k) && q r) ≠ 0 :=
      affected_ne_zero.2 ⟨_, hr, by simp [hk, hq]⟩
    omega
  · rename_i h
    rw [affected_eq_zero]
    intro r hr
    by_cases hk : key r = k
    · have found : t.find? k = some r := find?_eq_some.2 ⟨hr, hk⟩
      simpa [found, hk] using h
    · simp [hk]

end Keyed

end Table

end NovoApex.Lib
