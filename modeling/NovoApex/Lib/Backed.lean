import Mathlib.Data.List.Count
import Mathlib.Data.List.Infix

/-!
# Permits and their use

A log in which permits are granted and used. It is `Backed` when every use finds a
permit of its own that was granted before: up to there more of its kind were granted
than used. So no more are used than granted, of every kind and of all kinds together
that a test selects. An interval of a timeline that meets two windows holds at most
twice what one window may hold.
-/

namespace NovoApex.Lib
set_option autoImplicit false

variable {E K : Type} [BEq K] [LawfulBEq K] {granted used : E → Option K} {l : List E}

/-- Every entry that uses a permit finds one that was granted before and not used. -/
def Backed (granted used : E → Option K) (l : List E) : Prop :=
  ∀ before e k, before ++ [e] <+: l → used e = some k → (before.filterMap used).count k < (before.filterMap granted).count k

omit [LawfulBEq K] in
theorem backed_nil : Backed granted used ([] : List E) := by
  intro before e k front
  have length := front.length_le
  simp at length

/-- How often a kind occurs with one more entry. -/
theorem count_snoc (f : E → Option K) (l : List E) (e : E) (k : K) :
    ((l ++ [e]).filterMap f).count k = (l.filterMap f).count k + if f e == some k then 1 else 0 := by
  rw [List.filterMap_append, List.count_append]
  congr 1
  cases found : f e with
  | none => simp [found]
  | some k' =>
    by_cases same : k' = k
    · simp [found, same]
    · simp [found, same]

omit [LawfulBEq K] in
/-- One more entry. -/
theorem Backed.snoc (backed : Backed granted used l) {e : E}
    (unused : ∀ k, used e = some k → (l.filterMap used).count k < (l.filterMap granted).count k) : Backed granted used (l ++ [e]) := by
  intro before b k front uses
  rcases List.prefix_concat_iff.1 front with whole | earlier
  · obtain ⟨rfl, same⟩ := List.append_inj' whole rfl
    obtain rfl : b = e := by simpa using same
    exact unused k uses
  · exact backed before b k earlier uses

omit [LawfulBEq K] in
theorem Backed.front {l' : List E} (backed : Backed granted used (l ++ l')) : Backed granted used l :=
  fun before b k front => backed before b k (front.trans (List.prefix_append l l'))

/-- No kind of permit is used more often than it is granted. -/
theorem Backed.count_le (backed : Backed granted used l) (k : K) : (l.filterMap used).count k ≤ (l.filterMap granted).count k := by
  induction l using List.reverseRecOn with
  | nil => exact Nat.le_refl _
  | append_singleton l e ih =>
    have before := ih backed.front
    rw [count_snoc, count_snoc]
    by_cases uses : used e = some k
    · have unused := backed l e k (List.prefix_refl _) uses
      rw [if_pos (beq_iff_eq.2 uses)]
      omega
    · rw [if_neg (fun same => uses (beq_iff_eq.1 same))]
      omega

/-- Nor are those that a test selects. -/
theorem Backed.countP_le (backed : Backed granted used l) (among : K → Bool) :
    (l.filterMap used).countP among ≤ (l.filterMap granted).countP among :=
  (List.subperm_ext_iff.2 fun k _ => backed.count_le k).countP_le among

/-- What meets two windows holds at most twice what a window may hold. -/
theorem countP_two_windows {A : Type} {l : List A} {index : A → Int} {limit : Nat}
    (few : ∀ i, l.countP (fun a => decide (index a = i)) ≤ limit) {among : A → Bool} (i : Int)
    (meets : ∀ a ∈ l, among a = true → index a = i ∨ index a = i + 1) : l.countP among ≤ 2 * limit := by
  have either : ∀ m : List A, m.countP (fun a => decide (index a = i ∨ index a = i + 1)) ≤
      m.countP (fun a => decide (index a = i)) + m.countP (fun a => decide (index a = i + 1)) := by
    intro m
    induction m with
    | nil => exact Nat.le_refl _
    | cons a rest ih =>
      simp only [List.countP_cons, decide_eq_true_eq]
      split_ifs <;> omega
  calc l.countP among
      ≤ l.countP (fun a => decide (index a = i ∨ index a = i + 1)) := List.countP_mono_left fun a mem selected =>
        decide_eq_true (meets a mem selected)
    _ ≤ l.countP (fun a => decide (index a = i)) + l.countP (fun a => decide (index a = i + 1)) := either l
    _ ≤ limit + limit := Nat.add_le_add (few i) (few (i + 1))
    _ = 2 * limit := (Nat.two_mul limit).symm

end NovoApex.Lib
