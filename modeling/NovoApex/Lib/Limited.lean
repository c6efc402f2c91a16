import Mathlib.Data.List.Infix
import Mathlib.Data.List.Count

/-!
# At most so many at a time

A log in which every entry, when it came, found few enough recent ones has few enough
entries in every set whose members are recent to one another.
-/

namespace NovoApex.Lib
set_option autoImplicit false

variable {A : Type} {recent : A → A → Bool} {limit : Nat} {l : List A}

/-- Whenever an entry came, at most `limit` of those so far, itself included, were recent. -/
def Limited (recent : A → A → Bool) (limit : Nat) (l : List A) : Prop :=
  ∀ before a, before ++ [a] <+: l → (before ++ [a]).countP (recent a) ≤ limit

theorem limited_nil : Limited recent limit ([] : List A) := by
  intro before a front
  have length := front.length_le
  simp at length

/-- One more entry. -/
theorem Limited.snoc (limited : Limited recent limit l) {a : A} (few : (l ++ [a]).countP (recent a) ≤ limit) :
    Limited recent limit (l ++ [a]) := by
  intro before b front
  rcases List.prefix_concat_iff.1 front with whole | earlier
  · obtain ⟨rfl, same⟩ := List.append_inj' whole rfl
    obtain rfl : b = a := by simpa using same
    exact few
  · exact limited before b earlier

/-- Few entries lie in a set whose members are recent to one another. -/
theorem Limited.count_le (limited : Limited recent limit l) (among : A → Bool)
    (close : ∀ a b, among a = true → among b = true → recent a b = true) : l.countP among ≤ limit := by
  induction l using List.reverseRecOn with
  | nil => exact Nat.zero_le _
  | append_singleton l a ih =>
    by_cases last : among a = true
    · -- the last of them found the others recent
      refine (List.countP_mono_left fun b _ hb => ?_).trans (limited l a (List.prefix_refl _))
      exact close a b last hb
    · have earlier : Limited recent limit l := fun before b front => limited before b (front.trans (List.prefix_append l [a]))
      rw [List.countP_append, List.countP_singleton, if_neg last, Nat.add_zero]
      exact ih earlier

end NovoApex.Lib
