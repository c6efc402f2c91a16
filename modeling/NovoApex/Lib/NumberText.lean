import Mathlib.Data.List.DropRight
import Mathlib.Data.Rat.Defs
import Mathlib.Tactic.FieldSimp
import Mathlib.Tactic.Positivity
import Mathlib.Tactic.Ring

/-!
# Numbers in decimal notation

An optional sign, one or more digits, and an optional point with more digits. The number
such a text denotes does not change with the zeros at the end of its fraction.
-/

namespace NovoApex.Lib
set_option autoImplicit false

/-- What a sign is written as. -/
def signText : Option Bool → List Char
  | none => []
  | some true => ['-']
  | some false => ['+']

/-- The text without its sign. -/
def unsigned : List Char → List Char
  | '-' :: rest => rest
  | '+' :: rest => rest
  | text => text

/-- The number of the digits before and after the point. -/
def digitsValue (whole frac : List Char) : ℚ := Nat.ofDigitChars 10 (whole ++ frac) 0 / 10 ^ frac.length

/-- The number with its sign. -/
def signedValue (negative : Bool) (value : ℚ) : ℚ := if negative then -value else value

/-- The number a text denotes. -/
def numberOf (text : List Char) : Option ℚ :=
  let whole := (unsigned text).takeWhile (· != '.')
  let frac := ((unsigned text).dropWhile (· != '.')).drop 1
  if whole ≠ [] ∧ whole.all Char.isDigit = true ∧ frac.all Char.isDigit = true then
    some (signedValue (decide (text.head? = some '-')) (digitsValue whole frac))
  else none

/-! ## Values -/

/-- Zeros at the end of the fraction. -/
theorem digitsValue_zeros (whole frac : List Char) (n : Nat) : digitsValue whole (frac ++ List.replicate n '0') = digitsValue whole frac := by
  unfold digitsValue
  rw [← List.append_assoc, Nat.ofDigitChars_append, Nat.ofDigitChars_replicate_zero, List.length_append, List.length_replicate]
  push_cast
  rw [pow_add]
  field_simp

/-- The zeros at the end of the fraction may be left out. -/
theorem digitsValue_trim (whole frac : List Char) : digitsValue whole (frac.rdropWhile (· == '0')) = digitsValue whole frac := by
  have zeros : frac.rtakeWhile (· == '0') = List.replicate (frac.rtakeWhile (· == '0')).length '0' := by
    rw [List.eq_replicate_iff]
    refine ⟨rfl, fun c mem => ?_⟩
    have zero := List.mem_rtakeWhile_imp mem
    exact beq_iff_eq.1 zero
  have split : frac = frac.rdropWhile (· == '0') ++ List.replicate (frac.rtakeWhile (· == '0')).length '0' := by
    rw [← zeros, List.rdropWhile_append_rtakeWhile]
  conv_rhs => rw [split]
  exact (digitsValue_zeros whole _ _).symm

theorem digitsValue_zero : digitsValue ['0'] [] = 0 := by
  simp [digitsValue, Nat.ofDigitChars]

/-! ## Texts -/

section Texts

variable {text whole frac rest : List Char} {sign : Option Bool}

/-- A text in decimal notation and its parts. -/
structure Notates (text : List Char) (sign : Option Bool) (whole frac : List Char) : Prop where
  some_ : whole ≠ []
  digits : ∀ c ∈ whole, c.isDigit = true
  decimals : ∀ c ∈ frac, c.isDigit = true
  parts : text = signText sign ++ (whole ++ '.' :: frac) ∨ text = signText sign ++ whole ∧ frac = []

theorem isDigit_ne {c : Char} (h : c.isDigit = true) : c ≠ '.' ∧ c ≠ '-' ∧ c ≠ '+' ∧ c ≠ ',' := by
  refine ⟨?_, ?_, ?_, ?_⟩ <;> rintro rfl <;> exact absurd h (by decide)

theorem unsigned_digits (some_ : whole ≠ []) (digits : ∀ c ∈ whole, c.isDigit = true) :
    unsigned (signText sign ++ (whole ++ rest)) = whole ++ rest := by
  obtain ⟨d, ds, rfl⟩ := List.exists_cons_of_ne_nil some_
  obtain ⟨-, minus, plus, -⟩ := isDigit_ne (digits d List.mem_cons_self)
  cases sign with
  | none => simp [signText, unsigned, minus, plus]
  | some negative => cases negative <;> rfl

theorem head_minus (some_ : whole ≠ []) (digits : ∀ c ∈ whole, c.isDigit = true) :
    (signText sign ++ (whole ++ rest)).head? = some '-' ↔ sign = some true := by
  obtain ⟨d, ds, rfl⟩ := List.exists_cons_of_ne_nil some_
  obtain ⟨-, minus, -, -⟩ := isDigit_ne (digits d List.mem_cons_self)
  cases sign with
  | none => simp [signText, minus]
  | some negative => cases negative <;> simp [signText]

theorem takeWhile_whole (digits : ∀ c ∈ whole, c.isDigit = true) :
    (whole ++ '.' :: frac).takeWhile (· != '.') = whole ∧ (whole ++ '.' :: frac).dropWhile (· != '.') = '.' :: frac ∧
      whole.takeWhile (· != '.') = whole ∧ whole.dropWhile (· != '.') = [] := by
  have plain : ∀ c ∈ whole, (c != '.') = true := fun c mem => bne_iff_ne.2 (isDigit_ne (digits c mem)).1
  refine ⟨?_, ?_, ?_, ?_⟩
  · rw [List.takeWhile_append_of_pos plain]
    simp
  · rw [List.dropWhile_append_of_pos plain]
    rfl
  · exact List.takeWhile_eq_self_iff.2 plain
  · exact List.dropWhile_eq_nil_iff.2 plain

/-- The number of a text in decimal notation. -/
theorem Notates.number (notates : Notates text sign whole frac) :
    numberOf text = some (signedValue (decide (sign = some true)) (digitsValue whole frac)) := by
  have all : whole ≠ [] ∧ whole.all Char.isDigit = true ∧ frac.all Char.isDigit = true :=
    ⟨notates.some_, List.all_eq_true.2 notates.digits, List.all_eq_true.2 notates.decimals⟩
  obtain ⟨taken, dropped, taken', dropped'⟩ := @takeWhile_whole whole frac notates.digits
  rcases notates.parts with rfl | ⟨rfl, none_⟩
  · unfold numberOf
    simp only [unsigned_digits notates.some_ notates.digits, taken, dropped, head_minus notates.some_ notates.digits, List.drop_succ_cons,
      List.drop_zero]
    rw [if_pos all]
  · subst none_
    have bare := @unsigned_digits whole [] sign notates.some_ notates.digits
    have head := @head_minus whole [] sign notates.some_ notates.digits
    rw [List.append_nil] at bare head
    unfold numberOf
    simp only [bare, taken', dropped', head, List.drop_nil]
    rw [if_pos all]

theorem sign_split (text : List Char) : ∃ sign, text = signText sign ++ unsigned text := by
  cases text with
  | nil => exact ⟨none, rfl⟩
  | cons c rest =>
    by_cases minus : c = '-'
    · subst minus
      exact ⟨some true, rfl⟩
    · by_cases plus : c = '+'
      · subst plus
        exact ⟨some false, rfl⟩
      · refine ⟨none, ?_⟩
        simp [signText, unsigned, minus, plus]

/-- A text that denotes a number is in decimal notation. -/
theorem notates_of_number {q : ℚ} (number : numberOf text = some q) : ∃ sign whole frac, Notates text sign whole frac := by
  obtain ⟨sign, signed⟩ := sign_split text
  unfold numberOf at number
  simp only at number
  split at number
  · rename_i all
    obtain ⟨some_, digits, decimals⟩ := all
    refine ⟨sign, _, _, some_, List.all_eq_true.1 digits, List.all_eq_true.1 decimals, ?_⟩
    have body := (@List.takeWhile_append_dropWhile _ (· != '.') (unsigned text)).symm
    cases tail : (unsigned text).dropWhile (· != '.') with
    | nil =>
      rw [tail, List.append_nil] at body
      rw [← body]
      exact .inr ⟨signed, rfl⟩
    | cons c frac =>
      obtain rfl : c = '.' := by
        have stops := @List.head_dropWhile_not _ (· != '.') (unsigned text) (by rw [tail]; simp)
        simpa [tail] using stops
      rw [tail] at body
      rw [List.drop_succ_cons, List.drop_zero, ← body]
      exact .inl signed
  · cases number

end Texts

end NovoApex.Lib
