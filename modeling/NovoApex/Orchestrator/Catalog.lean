import NovoApex.Lib.NumberText
import NovoApex.Money
import NovoApex.Turns.ProductIds
import Mathlib.Data.List.DropRight
import Mathlib.Tactic.IntervalCases

/-!
# Catalog lines

`internal/orchestrator/catalog.go`: a product as the line the LLM reads. The price is
printed the way JavaScript prints a number in an English locale, with grouped digits
and without trailing zeros in its fraction.
-/

namespace NovoApex.Orchestrator
set_option autoImplicit false
open Lib Turns

/-- `ProductRow`. The price is the text of its `NUMERIC` column. -/
structure ProductRow where
  id : String
  name : String
  price : Option String
  stock : Int
  description : Option String
  hasImage : Bool
  deriving DecidableEq

/-- The symbol of `currencyFor`; a currency that is not configured falls back to GHS. -/
def currencySymbol (code : String) : List Char :=
  if code = "NGN" then ['₦'] else if code = "USD" then ['$'] else ['G', 'H', '₵']

/-- The characters `catalogJsTrim` trims. -/
def isJsSpace (c : Char) : Bool :=
  c == '\ufeff' || c == ' ' || c == '\t' || c == '\n' || c == '\x0b' || c == '\x0c' || c == '\r' || c == '\xa0' || c == '\u1680' ||
    ('\u2000' ≤ c && c ≤ '\u200a') || c == '\u2028' || c == '\u2029' || c == '\u202f' || c == '\u3000'

def catalogJsTrim (s : List Char) : List Char := ((s.dropWhile isJsSpace).reverse.dropWhile isJsSpace).reverse

/-- Append the digits by threes; a comma stands before a group that is not the first. -/
def groupDigits (grouped : List Char) : List Char → List Char
  | a :: b :: c :: rest => groupDigits (grouped ++ (if grouped = [] then [] else [',']) ++ [a, b, c]) rest
  | _ => grouped

/-- `strings.TrimPrefix` of one character. -/
def trimSign (sign : Char) : List Char → List Char
  | c :: rest => if c = sign then rest else c :: rest
  | [] => []

/-- `formatJSAmount`. -/
def formatJSAmount (decimalText : List Char) : List Char :=
  let text := trimSpace decimalText
  if text = [] then ['0']
  else
    let neg := decide (text.head? = some '-')
    let text := trimSign '-' (trimSign '+' text)
    let frac := ((text.dropWhile (· != '.')).drop 1).rdropWhile (· == '0')
    let intPart := trimSpace (text.takeWhile (· != '.'))
    let intPart := if intPart = [] then ['0'] else intPart
    let grouped := groupDigits (intPart.take (intPart.length % 3)) (intPart.drop (intPart.length % 3))
    let out := if frac = [] then grouped else grouped ++ '.' :: frac
    if neg && decide (out ≠ ['0']) then '-' :: out else out

/-- `formatPrice`. -/
def formatPrice (price : Option String) (currency : String) : List Char :=
  currencySymbol currency ++
    match price with
    | none => ['0']
    | some text => formatJSAmount text.toList

/-- The first `n` bytes; the bytes of a character that is cut are read as U+FFFD, one each. -/
def takeBytes : Nat → List Char → List Char
  | _, [] => []
  | n, c :: rest => if c.utf8Size ≤ n then c :: takeBytes (n - c.utf8Size) rest else List.replicate n '\ufffd'

/-- `shortProductID`. -/
def shortProductID (id : String) : List Char := takeBytes 8 id.toList

/-- What follows the price of a product: its stock, the image marker and the description. -/
def productTail (p : ProductRow) : List Char :=
  let stock := if 0 < p.stock then " (".toList ++ (toString p.stock).toList ++ " available)".toList else []
  let hasImage := if p.hasImage then " [HAS_IMAGE]".toList else []
  let description := catalogJsTrim (p.description.getD "").toList
  let desc := if description = [] then [] else ": ".toList ++ description
  stock ++ hasImage ++ desc

/-- `FormatProduct`. -/
def formatProduct (p : ProductRow) (currency : String) : List Char :=
  "[ID: ".toList ++ shortProductID p.id ++ "] ".toList ++ p.name.toList ++ " — ".toList ++ formatPrice p.price currency ++
    productTail p

/-- The lines, joined by newlines. -/
def joinLines : List (List Char) → List Char
  | [] => []
  | [line] => line
  | line :: rest => line ++ '\n' :: joinLines rest

/-- `[ID: abc12345] Nike Air Max — GH₵45,000 (12 available) [HAS_IMAGE]: Comfortable shoes`. -/
example : String.ofList (formatProduct ⟨"abc12345-6", "Nike Air Max", some "45000.00", 12, some " Comfortable shoes ", true⟩ "GHS") =
    "[ID: abc12345] Nike Air Max — GH₵45,000 (12 available) [HAS_IMAGE]: Comfortable shoes" := by decide +kernel

/-! ## The price of a column -/

/-- The text of a `NUMERIC(14,2)` that is not negative. -/
def numericText (m : Money) : String := stringFixed2 m.units

/-- The digits of a fraction, without trailing zeros. -/
def fraction (cents : Nat) : List Char :=
  if cents = 0 then [] else if cents % 10 = 0 then [Nat.digitChar (cents / 10)]
  else [Nat.digitChar (cents / 10), Nat.digitChar (cents % 10)]

/-- Digits in groups. -/
def grouped (n : Nat) : List Char :=
  groupDigits ((Nat.toDigits 10 n).take ((Nat.toDigits 10 n).length % 3)) ((Nat.toDigits 10 n).drop ((Nat.toDigits 10 n).length % 3))

theorem groupDigits_chars {front digits : List Char} (h : ∀ c ∈ front, c.isDigit = true ∨ c = ',')
    (digit : ∀ c ∈ digits, c.isDigit = true) : ∀ c ∈ groupDigits front digits, c.isDigit = true ∨ c = ',' := by
  fun_induction groupDigits front digits with
  | case1 front a b c rest ih =>
    refine ih (fun d mem => ?_) fun d mem => digit d (by simp [mem])
    simp only [List.mem_append, List.mem_cons, List.not_mem_nil, or_false] at mem
    rcases mem with (mem | mem) | mem
    · exact h d mem
    · split at mem
      · cases mem
      · exact .inr (List.mem_singleton.1 mem)
    · exact .inl (digit d (by rcases mem with rfl | rfl | rfl <;> simp))
  | case2 => exact h

theorem groupDigits_ne_nil {front digits : List Char} (h : front ≠ [] ∨ 3 ≤ digits.length) : groupDigits front digits ≠ [] := by
  fun_induction groupDigits front digits with
  | case1 front a b c rest ih => exact ih (.inl (by simp))
  | case2 digits front short =>
    rcases h with h | h
    · exact h
    · rcases digits with _ | ⟨a, _ | ⟨b, _ | ⟨c, rest⟩⟩⟩
      · exact absurd h (by decide)
      · exact absurd h (by simp)
      · exact absurd h (by simp)
      · exact (short a b c rest rfl).elim

theorem grouped_chars (n : Nat) : ∀ c ∈ grouped n, c.isDigit = true ∨ c = ',' := by
  have digit : ∀ c ∈ Nat.toDigits 10 n, c.isDigit = true := fun c mem => Nat.isDigit_of_mem_toDigits (by decide) (by decide) mem
  exact groupDigits_chars (fun c mem => .inl (digit c (List.mem_of_mem_take mem))) fun c mem => digit c (List.mem_of_mem_drop mem)

theorem grouped_ne_nil (n : Nat) : grouped n ≠ [] := by
  have some_ : 0 < (Nat.toDigits 10 n).length := List.length_pos_of_ne_nil Nat.toDigits_ne_nil
  refine groupDigits_ne_nil ?_
  by_cases whole : (Nat.toDigits 10 n).length % 3 = 0
  · refine .inr ?_
    rw [List.length_drop]
    omega
  · refine .inl fun none => ?_
    have := congrArg List.length none
    rw [List.length_take, List.length_nil] at this
    omega

theorem digit_visible {c : Char} (h : c.isDigit = true) : isSpace c = false ∧ c ≠ '.' ∧ c ≠ '-' ∧ c ≠ '+' := by
  obtain ⟨low, high⟩ := Char.isDigit_iff_toNat.1 h
  have low : 48 ≤ c.toNat := low
  have high : c.toNat ≤ 57 := high
  rw [← Char.ofNat_toNat c]
  interval_cases c.toNat <;> decide

/-- The text of a column: digits, a point and two digits. -/
theorem toList_numericText {m : Money} (nonneg : 0 ≤ m.units) :
    (numericText m).toList = Nat.toDigits 10 (m.units.natAbs / 100) ++
      ['.', Nat.digitChar (m.units.natAbs % 100 / 10), Nat.digitChar (m.units.natAbs % 100 % 10)] := by
  have two : ∀ c < 100, ((if (toString c).length < 2 then "0" else "") ++ toString c).toList =
      [Nat.digitChar (c / 10), Nat.digitChar (c % 10)] := by decide +kernel
  have sign : ¬ m.units < 0 := by omega
  unfold numericText stringFixed2
  simp only [if_neg sign]
  have digits : (toString (m.units.natAbs / 100)).toList = Nat.toDigits 10 (m.units.natAbs / 100) := by
    simp [toString, Nat.repr]
  have cents := two _ (Nat.mod_lt m.units.natAbs (by decide : 100 > 0))
  rw [String.toList_append] at cents
  simp only [String.toList_append, digits, List.append_assoc, cents]
  rfl

/-- Digits in groups, and the fraction if there is one. -/
def formatDigits (whole frac : List Char) : List Char :=
  let grouped := groupDigits (whole.take (whole.length % 3)) (whole.drop (whole.length % 3))
  if frac = [] then grouped else grouped ++ '.' :: frac

theorem signText_visible (sign : Option Bool) : ∀ c ∈ signText sign, isSpace c = false := by
  intro c mem
  rcases sign with _ | _ | _
  · cases mem
  · rw [List.mem_singleton.1 mem]
    decide
  · rw [List.mem_singleton.1 mem]
    decide

/-- A text in decimal notation has nothing to trim. -/
theorem trimSpace_notates {text whole frac : List Char} {sign : Option Bool} (notates : Notates text sign whole frac) :
    trimSpace text = text := by
  have visible : ∀ c ∈ text, isSpace c = false := by
    intro c mem
    rcases notates.parts with rfl | ⟨rfl, -⟩
    · simp only [List.mem_append, List.mem_cons] at mem
      rcases mem with mem | mem | rfl | mem
      · exact signText_visible sign c mem
      · exact (digit_visible (notates.digits c mem)).1
      · decide
      · exact (digit_visible (notates.decimals c mem)).1
    · rcases List.mem_append.1 mem with mem | mem
      · exact signText_visible sign c mem
      · exact (digit_visible (notates.digits c mem)).1
  exact trimSpace_of_trimmed (fun c h => visible c (List.mem_of_mem_head? h)) fun c h => visible c (List.mem_of_mem_getLast? h)

/-- The signs are trimmed as they are read. -/
theorem trimSign_digits {whole rest : List Char} {sign : Option Bool} (some_ : whole ≠ []) (digits : ∀ c ∈ whole, c.isDigit = true) :
    trimSign '-' (trimSign '+' (signText sign ++ (whole ++ rest))) = whole ++ rest := by
  obtain ⟨d, ds, rfl⟩ := List.exists_cons_of_ne_nil some_
  obtain ⟨-, -, minus, plus⟩ := digit_visible (digits d List.mem_cons_self)
  rcases sign with _ | _ | _ <;> simp [signText, trimSign, minus, plus]

/-- `formatJSAmount` of a text in decimal notation. -/
theorem formatJSAmount_notates {text whole frac : List Char} {sign : Option Bool} (notates : Notates text sign whole frac) :
    formatJSAmount text =
      if sign = some true ∧ formatDigits whole (frac.rdropWhile (· == '0')) ≠ ['0'] then '-' :: formatDigits whole (frac.rdropWhile (· == '0'))
      else formatDigits whole (frac.rdropWhile (· == '0')) := by
  have some_ := notates.some_
  have visible : ∀ c ∈ whole, isSpace c = false := fun c mem => (digit_visible (notates.digits c mem)).1
  have plain : trimSpace whole = whole :=
    trimSpace_of_trimmed (fun c h => visible c (List.mem_of_mem_head? h)) fun c h => visible c (List.mem_of_mem_getLast? h)
  obtain ⟨taken, dropped, taken', dropped'⟩ := @takeWhile_whole whole frac notates.digits
  have trimmed := trimSpace_notates notates
  have parts : text ≠ [] ∧ (text.head? = some '-' ↔ sign = some true) ∧
      (trimSign '-' (trimSign '+' text)).takeWhile (· != '.') = whole ∧
      ((trimSign '-' (trimSign '+' text)).dropWhile (· != '.')).drop 1 = frac := by
    rcases notates.parts with rfl | ⟨rfl, rfl⟩
    · rw [trimSign_digits some_ notates.digits, taken, dropped]
      exact ⟨by simp, head_minus some_ notates.digits, rfl, rfl⟩
    · have bare := @trimSign_digits whole [] sign some_ notates.digits
      have head := @head_minus whole [] sign some_ notates.digits
      rw [List.append_nil] at bare head
      rw [bare, taken', dropped']
      exact ⟨by simp [some_], head, rfl, rfl⟩
  obtain ⟨nonempty, minus, front, back⟩ := parts
  unfold formatJSAmount formatDigits
  simp only [trimmed, if_neg nonempty, front, back, plain, if_neg some_, Bool.and_eq_true, decide_eq_true_eq, minus]

/-- The amount of a price: its digits grouped, and its fraction without trailing zeros. -/
def amountText (n cents : Nat) : List Char := if fraction cents = [] then grouped n else grouped n ++ '.' :: fraction cents

theorem formatJSAmount_numericText {m : Money} (nonneg : 0 ≤ m.units) :
    formatJSAmount (numericText m).toList = amountText (m.units.natAbs / 100) (m.units.natAbs % 100) := by
  have trailing : ∀ c < 100, List.rdropWhile (· == '0') [Nat.digitChar (c / 10), Nat.digitChar (c % 10)] = fraction c := by decide
  have cents := trailing _ (Nat.mod_lt m.units.natAbs (by decide : 100 > 0))
  have decimals : ∀ c < 10, (Nat.digitChar c).isDigit = true := by decide
  have notates : Notates (numericText m).toList none (Nat.toDigits 10 (m.units.natAbs / 100))
      [Nat.digitChar (m.units.natAbs % 100 / 10), Nat.digitChar (m.units.natAbs % 100 % 10)] := by
    refine ⟨Nat.toDigits_ne_nil, fun c mem => Nat.isDigit_of_mem_toDigits (by decide) (by decide) mem, fun c mem => ?_, .inl ?_⟩
    · rcases List.mem_pair.1 mem with rfl | rfl
      · exact decimals _ (by omega)
      · exact decimals _ (by omega)
    · rw [toList_numericText nonneg]
      rfl
  rw [formatJSAmount_notates notates, cents]
  simp only [reduceCtorEq, false_and, if_false]
  rfl

end NovoApex.Orchestrator
