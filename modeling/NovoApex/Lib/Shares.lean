import NovoApex.Lib.Table

/-!
# The rows of others

A table whose rows have owners: the `share` of an owner's predicate is what the table
holds of it, in the table's order. A write that selects none of these rows and makes none
leaves the share as it is.
-/

namespace NovoApex.Lib.Table
set_option autoImplicit false

variable {R K : Type} {key : R → K} {mine : R → Bool}

/-- The rows that are somebody's. -/
def share (mine : R → Bool) (t : Table key) : List R := t.rows.filter mine

theorem mem_share {t : Table key} {r : R} : r ∈ t.share mine ↔ r ∈ t.rows ∧ mine r = true := List.mem_filter

/-- Rewriting rows of others into rows of others. -/
theorem filter_rewrite {p : R → Bool} {f : R → R} {rows : List R} (others : ∀ r ∈ rows, p r = true → mine r = false ∧ mine (f r) = false) :
    (rows.map (rewrite p f)).filter mine = rows.filter mine := by
  induction rows with
  | nil => rfl
  | cons r rest ih =>
    have rest' := ih fun r' mem => others r' (List.mem_cons_of_mem _ mem)
    rw [List.map_cons]
    by_cases selected : p r = true
    · obtain ⟨before, after⟩ := others r List.mem_cons_self selected
      rw [rewrite_of_pos selected, List.filter_cons_of_neg (by simp [after]), List.filter_cons_of_neg (by simp [before]), rest']
    · rw [rewrite_of_neg (by simpa using selected)]
      by_cases owned : mine r = true
      · rw [List.filter_cons_of_pos owned, List.filter_cons_of_pos owned, rest']
      · rw [List.filter_cons_of_neg owned, List.filter_cons_of_neg owned, rest']

/-- Deleting rows of others. -/
theorem filter_kept {keep : R → Bool} {rows : List R} (others : ∀ r ∈ rows, mine r = true → keep r = true) :
    (rows.filter keep).filter mine = rows.filter mine := by
  rw [List.filter_filter]
  refine List.filter_congr fun r mem => ?_
  cases owned : mine r with
  | true => rw [others r mem owned]; rfl
  | false => rfl

theorem share_update {t : Table key} {p : R → Bool} {f : R → R} {keeps : ∀ r, key (f r) = key r}
    (others : ∀ r ∈ t.rows, p r = true → mine r = false ∧ mine (f r) = false) : (t.update p f keeps).share mine = t.share mine :=
  filter_rewrite others

theorem share_delete {t : Table key} {p : R → Bool} (others : ∀ r ∈ t.rows, p r = true → mine r = false) :
    (t.delete p).share mine = t.share mine := by
  refine filter_kept fun r mem owned => ?_
  cases selected : p r with
  | false => rfl
  | true =>
    have foreign := others r mem selected
    rw [owned] at foreign
    cases foreign

/-- A key that some row of others has is no key of the share. -/
theorem not_mem_share_of_key {t : Table key} {r : R} (mem : r ∈ t.rows) (other : mine r = false) : ∀ u ∈ t.share mine, key u ≠ key r := by
  intro u there same
  obtain ⟨mem', owned⟩ := mem_share.1 there
  rw [t.eq_of_key mem' mem same, other] at owned
  cases owned

theorem share_insert [DecidableEq K] {t u : Table key} {r : R} (inserted : t.insert r = some u) (other : mine r = false) :
    u.share mine = t.share mine := by
  unfold share
  rw [(insert_eq_some.1 inserted).2, List.filter_append, List.filter_cons_of_neg (by simp [other]), List.filter_nil, List.append_nil]

end NovoApex.Lib.Table
