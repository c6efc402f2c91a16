import Mathlib.Data.List.DropRight
import Mathlib.Data.Rat.Defs
import Mathlib.Tactic.FieldSimp
import Mathlib.Tactic.Linarith
import Mathlib.Tactic.Positivity
import Mathlib.Tactic.Ring

/-!
# Decimals and their texts

A decimal is an integer and a power of ten. Its text is plain notation without
trailing zeros; the parser also takes a sign, a missing fraction and an exponent.
A text parses back to the same number (`newFromString_string`), in general to
another representation of it.
-/

namespace NovoApex.Lib
set_option autoImplicit false

/-- `value * 10 ^ exp`; the exponent has 32 bits. -/
structure Decimal where
  value : Int
  exp : Int
  deriving DecidableEq

namespace Decimal

/-- The number a decimal denotes. -/
def toRat (d : Decimal) : ℚ := d.value * 10 ^ d.exp

/-- The value at an exponent that is not above its own. -/
def scaled (d : Decimal) (exp : Int) : Int := d.value * 10 ^ (d.exp - exp).toNat

/-- The sum, at the lower of the exponents. -/
def add (d e : Decimal) : Decimal := ⟨d.scaled (min d.exp e.exp) + e.scaled (min d.exp e.exp), min d.exp e.exp⟩

def mul (d e : Decimal) : Decimal := ⟨d.value * e.value, d.exp + e.exp⟩

/-- An integer. -/
def ofInt (n : Int) : Decimal := ⟨n, 0⟩

/-- The constant zero, which has exponent 1. -/
def zero : Decimal := ⟨0, 1⟩

theorem scaled_mul {d : Decimal} {exp : Int} (low : exp ≤ d.exp) : (d.scaled exp : ℚ) * 10 ^ exp = d.toRat := by
  obtain ⟨k, shift⟩ := Int.eq_ofNat_of_zero_le (Int.sub_nonneg.2 low)
  have place : d.exp = (k : ℤ) + exp := by omega
  unfold scaled toRat
  rw [place, zpow_add₀ (by norm_num), zpow_natCast]
  have steps : ((k : ℤ) + exp - exp).toNat = k := by omega
  rw [steps]
  push_cast
  ring

@[simp] theorem toRat_add (d e : Decimal) : (d.add e).toRat = d.toRat + e.toRat := by
  rw [← scaled_mul (min_le_left d.exp e.exp), ← scaled_mul (min_le_right d.exp e.exp)]
  unfold add toRat
  push_cast
  ring

@[simp] theorem toRat_mul (d e : Decimal) : (d.mul e).toRat = d.toRat * e.toRat := by
  unfold mul toRat
  rw [zpow_add₀ (by norm_num)]
  push_cast
  ring

@[simp] theorem toRat_ofInt (n : Int) : (ofInt n).toRat = n := by simp [ofInt, toRat]

@[simp] theorem toRat_zero : zero.toRat = 0 := by simp [zero, toRat]

/-! ## Printing -/

/-- The digits before and after the point, of a value with `places` digits after it. -/
def split (digits : List Char) (places : Nat) : List Char × List Char :=
  if places < digits.length then (digits.take (digits.length - places), digits.drop (digits.length - places))
  else (['0'], List.replicate (places - digits.length) '0' ++ digits)

/-- The text without a sign. -/
def magnitude (value : Nat) (places : Nat) : List Char :=
  let parts := split (Nat.toDigits 10 value) places
  let fraction := parts.2.rdropWhile (· == '0')
  if fraction = [] then parts.1 else parts.1 ++ '.' :: fraction

/-- The text of a decimal: an integer when the exponent is not negative. -/
def chars (d : Decimal) : List Char :=
  let sign := if d.value < 0 then ['-'] else []
  if 0 ≤ d.exp then sign ++ Nat.toDigits 10 (d.value.natAbs * 10 ^ d.exp.toNat) else sign ++ magnitude d.value.natAbs (-d.exp).toNat

def string (d : Decimal) : String := String.ofList d.chars

/-! ## Parsing -/

/-- Digits, at least one. -/
def parseNat (s : List Char) : Option Nat := if s ≠ [] ∧ s.all Char.isDigit then some (Nat.ofDigitChars 10 s 0) else none

/-- Digits behind a sign. -/
def parseInt : List Char → Option Int
  | '-' :: s => (parseNat s).map fun n => -(n : Int)
  | '+' :: s => (parseNat s).map fun n => (n : Int)
  | s => (parseNat s).map fun n => (n : Int)

/-- The exponent fits 32 bits. -/
def validExp (exp : Int) : Bool := decide (-2 ^ 31 ≤ exp) && decide (exp < 2 ^ 31)

def isExponentMark (c : Char) : Bool := c == 'e' || c == 'E'

/-- What follows the first exponent mark; no mark is exponent 0. -/
def parseExponent : List Char → Option Int
  | [] => some 0
  | _ :: s => (parseInt s).filter validExp

/-- Parse a text without exponent, whose digits stand `exp` places higher. -/
def parseMantissa (s : List Char) (exp : Int) : Option Decimal :=
  match s.dropWhile (· != '.') with
  | [] => (parseInt s).bind fun value => if validExp exp then some ⟨value, exp⟩ else none
  | _ :: fraction =>
    if '.' ∈ fraction then none
    else (parseInt (s.takeWhile (· != '.') ++ fraction)).bind fun value =>
      if validExp (exp - fraction.length) then some ⟨value, exp - fraction.length⟩ else none

/-- `NewFromString`. -/
def parse (s : List Char) : Option Decimal :=
  (parseExponent (s.dropWhile fun c => !isExponentMark c)).bind (parseMantissa (s.takeWhile fun c => !isExponentMark c))

def newFromString (s : String) : Option Decimal := parse s.toList

/-! ## The round trip -/

theorem digit_plain {c : Char} (digit : c.isDigit = true) : c ≠ '.' ∧ isExponentMark c = false ∧ c ≠ '-' ∧ c ≠ '+' := by
  refine ⟨?_, ?_, ?_, ?_⟩
  · rintro rfl
    exact absurd digit (by decide)
  · unfold isExponentMark
    rw [Bool.or_eq_false_iff]
    constructor
    · rw [beq_eq_false_iff_ne]
      rintro rfl
      exact absurd digit (by decide)
    · rw [beq_eq_false_iff_ne]
      rintro rfl
      exact absurd digit (by decide)
  · rintro rfl
    exact absurd digit (by decide)
  · rintro rfl
    exact absurd digit (by decide)

theorem parseNat_digits {s : List Char} (some_ : s ≠ []) (digits : ∀ c ∈ s, c.isDigit = true) :
    parseNat s = some (Nat.ofDigitChars 10 s 0) := by
  unfold parseNat
  rw [if_pos ⟨some_, List.all_eq_true.2 digits⟩]

/-- Digits with or without a minus sign. -/
theorem parseInt_signed {s : List Char} (negative : Bool) (some_ : s ≠ []) (digits : ∀ c ∈ s, c.isDigit = true) :
    parseInt ((if negative then ['-'] else []) ++ s) =
      some (if negative then -(Nat.ofDigitChars 10 s 0 : Int) else (Nat.ofDigitChars 10 s 0 : Int)) := by
  cases negative with
  | true =>
    show (parseNat s).map (fun n => -(n : Int)) = _
    rw [parseNat_digits some_ digits]
    rfl
  | false =>
    show parseInt s = _
    cases s with
    | nil => exact absurd rfl some_
    | cons c rest =>
      obtain ⟨-, -, minus, plus⟩ := digit_plain (digits c List.mem_cons_self)
      unfold parseInt
      split
      · rename_i same
        exact absurd (List.cons.inj same).1 minus
      · rename_i same
        exact absurd (List.cons.inj same).1 plus
      · rw [parseNat_digits some_ digits]
        rfl

/-- A text of plain digits, with a point or without. -/
theorem parse_plain {s : List Char} (plain : ∀ c ∈ s, isExponentMark c = false) : parse s = parseMantissa s 0 := by
  unfold parse
  have none : s.dropWhile (fun c => !isExponentMark c) = [] := List.dropWhile_eq_nil_iff.2 fun c mem => by rw [plain c mem]; rfl
  have all : s.takeWhile (fun c => !isExponentMark c) = s :=
    List.takeWhile_eq_self_iff.2 fun c mem => by rw [plain c mem]; rfl
  rw [none, all]
  rfl

theorem parseMantissa_integer {s : List Char} (exp : Int) (plain : '.' ∉ s) :
    parseMantissa s exp = (parseInt s).bind fun value => if validExp exp then some ⟨value, exp⟩ else none := by
  have none : s.dropWhile (· != '.') = [] := by
    refine List.dropWhile_eq_nil_iff.2 fun c mem => ?_
    rw [bne_iff_ne]
    rintro rfl
    exact plain mem
  unfold parseMantissa
  rw [none]

theorem parseMantissa_point {s fraction : List Char} (exp : Int) (plain : '.' ∉ s) (plain' : '.' ∉ fraction) :
    parseMantissa (s ++ '.' :: fraction) exp = (parseInt (s ++ fraction)).bind fun value =>
      if validExp (exp - fraction.length) then some ⟨value, exp - fraction.length⟩ else none := by
  have keeps : ∀ c ∈ s, (c != '.') = true := by
    intro c mem
    rw [bne_iff_ne]
    rintro rfl
    exact plain mem
  have dropped : (s ++ '.' :: fraction).dropWhile (· != '.') = '.' :: fraction := by
    rw [List.dropWhile_append_of_pos keeps]
    rfl
  have taken : (s ++ '.' :: fraction).takeWhile (· != '.') = s := by
    rw [List.takeWhile_append_of_pos keeps]
    simp
  unfold parseMantissa
  rw [dropped, taken]
  simp only [if_neg plain']

/-- The parts hold the digits of the value. -/
theorem split_spec (value places : Nat) :
    (split (Nat.toDigits 10 value) places).1 ≠ [] ∧ (split (Nat.toDigits 10 value) places).2.length = places ∧
      (∀ c ∈ (split (Nat.toDigits 10 value) places).1 ++ (split (Nat.toDigits 10 value) places).2, c.isDigit = true) ∧
      Nat.ofDigitChars 10 ((split (Nat.toDigits 10 value) places).1 ++ (split (Nat.toDigits 10 value) places).2) 0 = value := by
  have digits : ∀ c ∈ Nat.toDigits 10 value, c.isDigit = true := fun c mem => Nat.isDigit_of_mem_toDigits (by decide) (by decide) mem
  unfold split
  split
  · rename_i long
    refine ⟨?_, ?_, ?_, ?_⟩
    · intro none
      have := congrArg List.length none
      rw [List.length_take, List.length_nil] at this
      omega
    · simp only [List.length_drop]
      omega
    · rw [List.take_append_drop]
      exact digits
    · rw [List.take_append_drop, Nat.ofDigitChars_ten_toDigits]
  · rename_i short
    refine ⟨by simp, ?_, ?_, ?_⟩
    · simp only [List.length_append, List.length_replicate]
      omega
    · intro c mem
      simp only [List.mem_append, List.mem_singleton, List.mem_replicate] at mem
      rcases mem with rfl | ⟨-, rfl⟩ | mem
      · decide
      · decide
      · exact digits c mem
    · have zeros : ['0'] ++ (List.replicate (places - (Nat.toDigits 10 value).length) '0' ++ Nat.toDigits 10 value) =
          List.replicate (places - (Nat.toDigits 10 value).length + 1) '0' ++ Nat.toDigits 10 value := by
        rw [List.replicate_succ]
        rfl
      rw [zeros, Nat.ofDigitChars_append, Nat.ofDigitChars_replicate_zero, Nat.mul_zero, Nat.ofDigitChars_ten_toDigits]

/-- What trimming takes away is zeros. -/
theorem rdropWhile_zeros (s : List Char) :
    ∃ k, s = s.rdropWhile (· == '0') ++ List.replicate k '0' ∧ (s.rdropWhile (· == '0')).length + k = s.length := by
  induction s using List.reverseRecOn with
  | nil => exact ⟨0, by simp, by simp⟩
  | append_singleton s c ih =>
    by_cases zero : (c == '0') = true
    · obtain ⟨k, same, length⟩ := ih
      have trimmed : (s ++ [c]).rdropWhile (· == '0') = s.rdropWhile (· == '0') :=
        List.rdropWhile_concat_pos (fun x => x == '0') s c zero
      rw [trimmed]
      refine ⟨k + 1, ?_, ?_⟩
      · rw [List.replicate_succ', ← List.append_assoc, ← same, beq_iff_eq.1 zero]
      · rw [List.length_append, List.length_singleton]
        omega
    · have kept : (s ++ [c]).rdropWhile (· == '0') = s ++ [c] := List.rdropWhile_concat_neg (fun x => x == '0') s c zero
      rw [kept]
      exact ⟨0, by simp, by simp⟩

/-- The signed value of a magnitude. -/
def signed (negative : Bool) (n : Nat) : Int := if negative then -(n : Int) else n

theorem signed_scaled (negative : Bool) (n k : Nat) : signed negative n * 10 ^ k = signed negative (n * 10 ^ k) := by
  unfold signed
  split <;> push_cast <;> ring

/-- A printed magnitude parses to a value whose trailing zeros went into the exponent. -/
theorem parse_magnitude (negative : Bool) (value places : Nat) (inRange : places ≤ 2 ^ 31) :
    ∃ m k : Nat, parse ((if negative then ['-'] else []) ++ magnitude value places) =
      some ⟨signed negative m, (k : Int) - places⟩ ∧ m * 10 ^ k = value ∧ k ≤ places := by
  obtain ⟨some_, length, digits, total⟩ := split_spec value places
  obtain ⟨k, trimmed, lengths⟩ := rdropWhile_zeros (split (Nat.toDigits 10 value) places).2
  unfold magnitude
  simp only
  generalize (split (Nat.toDigits 10 value) places).1 = whole at *
  generalize (split (Nat.toDigits 10 value) places).2 = fraction at *
  generalize fraction.rdropWhile (· == '0') = short at *
  have digits' : ∀ c ∈ whole ++ short, c.isDigit = true := by
    intro c mem
    refine digits c ?_
    rw [trimmed, ← List.append_assoc]
    exact List.mem_append_left _ mem
  have noPoint : ∀ {s : List Char}, (∀ c ∈ s, c ∈ whole ++ short) → '.' ∉ s := fun within mem =>
    (digit_plain ( digits' '.' (within '.' mem))).1 rfl
  have signPlain : ∀ c ∈ (if negative then ['-'] else [] : List Char), c = '-' := by
    cases negative <;> simp
  have value' : Nat.ofDigitChars 10 (whole ++ short) 0 * 10 ^ k = value := by
    rw [trimmed, ← List.append_assoc, Nat.ofDigitChars_append, Nat.ofDigitChars_replicate_zero] at total
    rw [← total, Nat.mul_comm]
  have inRange' : validExp ((k : Int) - places) = true := by
    simp only [validExp, Bool.and_eq_true, decide_eq_true_eq]
    omega
  refine ⟨Nat.ofDigitChars 10 (whole ++ short) 0, k, ?_, value', by omega⟩
  have nonempty : whole ++ short ≠ [] := fun none => some_ (List.append_eq_nil_iff.1 none).1
  have parsed := parseInt_signed negative nonempty digits'
  have signFree : '.' ∉ (if negative then ['-'] else [] : List Char) := fun mem => absurd (signPlain '.' mem) (by decide)
  by_cases integer : short = []
  · subst integer
    rw [if_pos rfl]
    rw [List.append_nil] at parsed digits' ⊢
    have plain : ∀ c ∈ (if negative then ['-'] else []) ++ whole, isExponentMark c = false := by
      intro c mem
      rcases List.mem_append.1 mem with mem | mem
      · rw [signPlain c mem]
        decide
      · exact (digit_plain (digits' c mem)).2.1
    have free : '.' ∉ (if negative then ['-'] else []) ++ whole := by
      intro mem
      rcases List.mem_append.1 mem with mem | mem
      · exact signFree mem
      · exact noPoint (fun c mem => List.mem_append_left _ mem) mem
    have places' : (k : Int) - places = 0 := by
      rw [List.length_nil] at lengths
      omega
    rw [parse_plain plain, parseMantissa_integer 0 free, parsed, Option.bind_some, places']
    cases negative <;> rfl
  · rw [if_neg integer]
    have plain : ∀ c ∈ (if negative then ['-'] else []) ++ (whole ++ '.' :: short), isExponentMark c = false := by
      intro c mem
      rcases List.mem_append.1 mem with mem | mem
      · rw [signPlain c mem]
        decide
      · rcases List.mem_append.1 mem with mem | mem
        · exact (digit_plain (digits' c (List.mem_append_left _ mem))).2.1
        · rcases List.mem_cons.1 mem with rfl | mem
          · decide
          · exact (digit_plain (digits' c (List.mem_append_right _ mem))).2.1
    have free : '.' ∉ (if negative then ['-'] else []) ++ whole := by
      intro mem
      rcases List.mem_append.1 mem with mem | mem
      · exact signFree mem
      · exact noPoint (fun c mem => List.mem_append_left _ mem) mem
    have free' : '.' ∉ short := noPoint fun c mem => List.mem_append_right _ mem
    have places' : (0 : Int) - short.length = k - places := by omega
    rw [parse_plain plain, ← List.append_assoc, parseMantissa_point 0 free free', List.append_assoc, parsed, Option.bind_some,
      places', if_pos inRange']
    cases negative <;> rfl

/-- A text parses back to the number it was printed from. -/
theorem newFromString_string (d : Decimal) (inRange : -2 ^ 31 ≤ d.exp) :
    ∃ e, newFromString d.string = some e ∧ e.toRat = d.toRat := by
  have signs : signed (decide (d.value < 0)) d.value.natAbs = d.value := by
    unfold signed
    by_cases negative : d.value < 0
    · simp only [negative, decide_true, if_true]
      omega
    · simp only [negative, decide_false, Bool.false_eq_true, if_false]
      omega
  have text : (if d.value < 0 then ['-'] else [] : List Char) = if decide (d.value < 0) = true then ['-'] else [] := by
    by_cases negative : d.value < 0 <;> simp [negative]
  unfold newFromString string
  rw [String.toList_ofList]
  unfold chars
  simp only
  split
  · rename_i whole
    have digits : ∀ c ∈ Nat.toDigits 10 (d.value.natAbs * 10 ^ d.exp.toNat), c.isDigit = true :=
      fun c mem => Nat.isDigit_of_mem_toDigits (by decide) (by decide) mem
    have plain : ∀ c ∈ (if decide (d.value < 0) = true then ['-'] else []) ++ Nat.toDigits 10 (d.value.natAbs * 10 ^ d.exp.toNat),
        isExponentMark c = false ∧ c ≠ '.' := by
      intro c mem
      rcases List.mem_append.1 mem with mem | mem
      · have : c = '-' := by
          split at mem
          · exact List.mem_singleton.1 mem
          · cases mem
        rw [this]
        decide
      · obtain ⟨point, mark, -⟩ := digit_plain (digits c mem)
        exact ⟨mark, point⟩
    have valid : validExp 0 = true := by decide
    rw [text, parse_plain fun c mem => (plain c mem).1, parseMantissa_integer 0 fun mem => (plain '.' mem).2 rfl,
      parseInt_signed _ Nat.toDigits_ne_nil digits, Nat.ofDigitChars_ten_toDigits, Option.bind_some, if_pos valid]
    refine ⟨_, rfl, ?_⟩
    obtain ⟨n, exp⟩ := Int.eq_ofNat_of_zero_le whole
    have value : signed (decide (d.value < 0)) (d.value.natAbs * 10 ^ d.exp.toNat) = d.value * 10 ^ n := by
      rw [← signed_scaled, signs, exp, Int.toNat_natCast]
    unfold signed at value
    unfold toRat
    simp only
    rw [value, exp, zpow_natCast]
    push_cast
    ring
  · rename_i fractional
    have places : ((-d.exp).toNat : Int) = -d.exp := Int.toNat_of_nonneg (by omega)
    obtain ⟨m, k, parsed, value, -⟩ := parse_magnitude (decide (d.value < 0)) d.value.natAbs (-d.exp).toNat (by omega)
    rw [text, parsed]
    refine ⟨_, rfl, ?_⟩
    have back : signed (decide (d.value < 0)) m * 10 ^ k = d.value := by rw [signed_scaled, value, signs]
    have back' : (signed (decide (d.value < 0)) m : ℚ) * 10 ^ k = d.value := by exact_mod_cast back
    unfold toRat
    simp only
    rw [places, sub_neg_eq_add, zpow_add₀ (by norm_num), zpow_natCast, ← mul_assoc, back']

end Decimal

end NovoApex.Lib
