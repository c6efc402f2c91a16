import Mathlib.Data.List.Infix
import Mathlib.Data.List.Nodup

/-!
# The first element of every key

`distinctBy` keeps of each key the element that comes first. A list that is built up in
pieces, each piece filtered against the keys that are there and cut to a length, is the
same as the cut of the whole (`take_distinctBy_append`): what was cut off may come again,
but then the list is full.
-/

namespace NovoApex.Lib
set_option autoImplicit false

variable {α β : Type} [DecidableEq β] (key : α → β)

/-- The first element of every key, in order. -/
def distinctBy : List α → List α
  | [] => []
  | a :: rest => a :: (distinctBy rest).filter fun b => decide (key b ≠ key a)

variable {key}

/-- No key is lost. -/
theorem mem_map_distinctBy {xs : List α} {k : β} : k ∈ (distinctBy key xs).map key ↔ k ∈ xs.map key := by
  induction xs with
  | nil => exact Iff.rfl
  | cons a rest ih =>
    simp only [distinctBy, List.map_cons, List.mem_cons]
    constructor
    · rintro (here | later)
      · exact .inl here
      · obtain ⟨b, mem, rfl⟩ := List.mem_map.1 later
        exact .inr (ih.1 (List.mem_map_of_mem (List.mem_filter.1 mem).1))
    · rintro (here | later)
      · exact .inl here
      · by_cases same : k = key a
        · exact .inl same
        · obtain ⟨b, mem, rfl⟩ := List.mem_map.1 (ih.2 later)
          exact .inr (List.mem_map_of_mem (List.mem_filter.2 ⟨mem, decide_eq_true same⟩))

/-- No key comes twice. -/
theorem nodup_distinctBy (xs : List α) : ((distinctBy key xs).map key).Nodup := by
  induction xs with
  | nil => exact List.nodup_nil
  | cons a rest ih =>
    refine List.nodup_cons.2 ⟨fun again => ?_, ih.sublist (List.filter_sublist.map key)⟩
    obtain ⟨b, mem, same⟩ := List.mem_map.1 again
    exact of_decide_eq_true (List.mem_filter.1 mem).2 same

/-- What comes later adds the keys that are new. -/
theorem distinctBy_append (xs ys : List α) :
    distinctBy key (xs ++ ys) = distinctBy key xs ++ (distinctBy key ys).filter fun b => decide (key b ∉ xs.map key) := by
  induction xs with
  | nil => simp [distinctBy]
  | cons a rest ih =>
    simp only [List.cons_append, distinctBy, ih, List.filter_append, List.filter_filter]
    refine congrArg (a :: ·) (congrArg _ (List.filter_congr fun b _ => ?_))
    simp only [List.map_cons, List.mem_cons, not_or, Bool.decide_and]

variable {n : Nat} {xs ys : List α}

/-- A list that is cut at `n` and filled up with the keys that are new to it is the cut of the whole. -/
theorem take_distinctBy_append :
    ((distinctBy key xs).take n ++ (distinctBy key ys).filter fun b => decide (key b ∉ ((distinctBy key xs).take n).map key)).take n =
      (distinctBy key (xs ++ ys)).take n := by
  rw [distinctBy_append]
  by_cases fits : (distinctBy key xs).length ≤ n
  · rw [List.take_of_length_le fits]
    refine congrArg (fun new => (distinctBy key xs ++ new).take n) (List.filter_congr fun b _ => ?_)
    exact decide_eq_decide.2 (not_congr mem_map_distinctBy)
  · have full : ((distinctBy key xs).take n).length = n := by
      rw [List.length_take]
      omega
    rw [List.take_left' full, List.take_append_of_le_length (by omega)]

/-- What is there stays where it is. -/
theorem take_distinctBy_prefix (xs ys : List α) : (distinctBy key xs).take n <+: (distinctBy key (xs ++ ys)).take n := by
  rw [distinctBy_append]
  exact List.IsPrefix.take (List.prefix_append ..) n

end NovoApex.Lib
