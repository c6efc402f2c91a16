import NovoApex.Lib.Table
import Mathlib.Algebra.BigOperators.Group.List.Basic

/-!
# Sums over tables

An aggregate over the rows of a table, and what a write to the row under one key does
to it.
-/

namespace NovoApex.Lib.Table
set_option autoImplicit false

variable {R K M : Type} {key : R → K} [AddCommGroup M]

/-- An aggregate over the rows a predicate selects counts the others as zero. -/
theorem sum_map_filter {α : Type} (p : α → Bool) (g : α → M) (rows : List α) :
    ((rows.filter p).map g).sum = (rows.map fun r => if p r = true then g r else 0).sum := by
  rw [List.sum_map_ite (fun r => p r = true) g (fun _ => 0) rows]
  simp

/-- An aggregate to which one row contributes. -/
theorem sum_map_keyed (t : Table key) {r : R} (mem : r ∈ t.rows) (g : R → M) (zero : ∀ u ∈ t.rows, key u ≠ key r → g u = 0) :
    (t.rows.map g).sum = g r := by
  classical
  have nodup : t.rows.Nodup := List.Nodup.of_map key t.unique
  rw [List.sum_map_eq_nsmul_single r g fun u other mem' => zero u mem' fun same => other (eq_of_key mem' mem same),
    List.count_eq_one_of_mem nodup mem, one_nsmul]

variable [DecidableEq K]

/-- An aggregate after a write to the row under one key. -/
theorem sum_update_keyed (t : Table key) {r : R} (mem : r ∈ t.rows) (f : R → R) (keeps : ∀ r, key (f r) = key r) (g : R → M) :
    ((t.update (fun u => decide (key u = key r)) f keeps).rows.map g).sum = (t.rows.map g).sum + (g (f r) - g r) := by
  have split : ∀ u ∈ t.rows, (g ∘ rewrite (fun u => decide (key u = key r)) f) u =
      g u + if key u = key r then g (f u) - g u else 0 := by
    intro u _
    rw [Function.comp_apply]
    by_cases same : key u = key r
    · rw [rewrite_of_pos (p := fun u => decide (key u = key r)) (decide_eq_true same), if_pos same, add_sub_cancel]
    · rw [rewrite_of_neg (p := fun u => decide (key u = key r)) (decide_eq_false same), if_neg same, add_zero]
  rw [update_rows, List.map_map, List.map_congr_left split, List.sum_map_add,
    sum_map_keyed t mem (fun u => if key u = key r then g (f u) - g u else 0) fun u _ other => if_neg other, if_pos rfl]

end NovoApex.Lib.Table
