import Mathlib.Data.Int.Log
import Mathlib.Data.List.Nodup
import Mathlib.Data.Rat.Floor
import Mathlib.Tactic.Linarith
import Mathlib.Tactic.Positivity
import Mathlib.Tactic.FieldSimp

/-!
# JSON documents and their decoding

A `Json` is a document as its text spells it, members in order. A decoder runs
over a value that is there already: `null` leaves it alone, the members of an
object are taken one after the other, and a name that no field has is skipped.
Names match up to case. Numbers are read as the nearest binary64.
-/

namespace NovoApex.Lib
set_option autoImplicit false

/-- A JSON document. A number keeps its literal beside what that denotes. -/
inductive Json where
  | null
  | bool (b : Bool)
  | number (literal : String) (value : ℚ)
  | string (s : String)
  | array (items : List Json)
  | object (members : List (String × Json))

namespace Json

/-- What an error calls a document. -/
def kind : Json → String
  | null => "null"
  | bool _ => "bool"
  | number .. => "number"
  | string _ => "string"
  | array _ => "array"
  | object _ => "object"

def isNull : Json → Bool
  | null => true
  | _ => false

/-- The last member of that very name. -/
def member? (name : String) (members : List (String × Json)) : Option Json :=
  (members.reverse.find? fun m => decide (m.1 = name)).map Prod.snd

/-- Case folding as names are compared: the long s and the Kelvin sign fold into ASCII. -/
def foldChar (c : Char) : Char :=
  if c = Char.ofNat 0x17F then 's' else if c = Char.ofNat 0x212A then 'k' else c.toLower

/-- The member is one of the field. -/
def names (field key : String) : Bool := decide (key = field) || key.toList.map foldChar == field.toList.map foldChar

end Json

/-! ## Binary64 -/

/-- The nearest integer, halves to even. -/
def roundHalfEven (q : ℚ) : Int :=
  if q - ⌊q⌋ < 1 / 2 then ⌊q⌋ else if 1 / 2 < q - ⌊q⌋ then ⌊q⌋ + 1 else if ⌊q⌋ % 2 = 0 then ⌊q⌋ else ⌊q⌋ + 1

@[simp] theorem roundHalfEven_intCast (n : Int) : roundHalfEven n = n := by
  simp [roundHalfEven]

/-- The exponent of the last place of a binary64: 53 significant bits, and none below 2 ^ -1074. -/
def lastPlace (q : ℚ) : Int := max (Int.log 2 |q| - 52) (-1074)

/-- The binary64 nearest to a number; `none` is out of range. -/
def float64 (q : ℚ) : Option ℚ :=
  let r : ℚ := roundHalfEven (q / 2 ^ lastPlace q) * 2 ^ lastPlace q
  if |r| < 2 ^ 1024 then some r else none

theorem roundHalfEven_le {q : ℚ} {n : Int} (h : q ≤ n) : roundHalfEven q ≤ n := by
  by_cases whole : q = n
  · rw [whole, roundHalfEven_intCast]
  · have below : ⌊q⌋ < n := Int.floor_lt.2 (lt_of_le_of_ne h whole)
    unfold roundHalfEven
    split
    · omega
    · split
      · omega
      · split <;> omega

theorem roundHalfEven_nonneg {q : ℚ} (h : 0 ≤ q) : 0 ≤ roundHalfEven q := by
  have floor : 0 ≤ ⌊q⌋ := Int.floor_nonneg.2 h
  unfold roundHalfEven
  split
  · exact floor
  · split
    · omega
    · split <;> omega

/-- The binary64 nearest to a number of the unit interval is in it. -/
theorem float64_unit {q : ℚ} (low : 0 ≤ q) (high : q ≤ 1) : ∃ f, float64 q = some f ∧ 0 ≤ f ∧ f ≤ 1 := by
  have place : lastPlace q ≤ 0 := by
    have bits : Int.log 2 |q| ≤ 0 := by
      by_cases zero : q = 0
      · simp [zero]
      · have positive : 0 < |q| := abs_pos.2 zero
        have below : |q| < ((2 : ℕ) : ℚ) ^ (1 : ℤ) := by
          rw [abs_of_nonneg low]
          norm_num
          linarith
        have := (Int.lt_zpow_iff_log_lt (b := 2) (by norm_num) positive).1 below
        omega
    unfold lastPlace
    omega
  obtain ⟨k, exponent⟩ := Int.eq_ofNat_of_zero_le (Int.neg_nonneg_of_nonpos place)
  have exponent' : lastPlace q = -(k : ℤ) := by omega
  have unit : (0 : ℚ) < 2 ^ lastPlace q := zpow_pos two_pos _
  have scaled : q / 2 ^ lastPlace q ≤ ((2 ^ k : Int) : ℚ) := by
    rw [div_le_iff₀ unit, exponent', zpow_neg, zpow_natCast]
    push_cast
    rw [mul_inv_cancel₀ (pow_ne_zero _ two_ne_zero)]
    exact high
  have upper : (roundHalfEven (q / 2 ^ lastPlace q) : ℚ) * 2 ^ lastPlace q ≤ 1 := by
    have rounded : (roundHalfEven (q / 2 ^ lastPlace q) : ℚ) ≤ ((2 ^ k : Int) : ℚ) := by exact_mod_cast roundHalfEven_le scaled
    have back : ((2 ^ k : Int) : ℚ) * 2 ^ lastPlace q = 1 := by
      rw [exponent', zpow_neg, zpow_natCast]
      push_cast
      exact mul_inv_cancel₀ (pow_ne_zero _ two_ne_zero)
    rw [← back]
    exact mul_le_mul_of_nonneg_right rounded unit.le
  have lower : 0 ≤ (roundHalfEven (q / 2 ^ lastPlace q) : ℚ) * 2 ^ lastPlace q :=
    mul_nonneg (by exact_mod_cast roundHalfEven_nonneg (div_nonneg low unit.le)) unit.le
  refine ⟨_, ?_, lower, upper⟩
  unfold float64
  simp only
  rw [if_pos]
  rw [abs_of_nonneg lower]
  exact lt_of_le_of_lt upper (one_lt_pow₀ one_lt_two (by decide))

/-! ## Decoding -/

/-- What is decoded onto a value that is there. -/
abbrev Decoder (α : Type) : Type := Json → α → Except String α

/-- Where a document goes: the struct, the path of the field within the whole and its type. -/
structure Place where
  struct : String
  field : String
  type : String

/-- A document of the wrong kind. -/
def Place.mismatch (place : Place) (value : String) : String :=
  "json: cannot unmarshal " ++ value ++ " into Go struct field " ++ place.struct ++ "." ++ place.field ++ " of type " ++ place.type

section Decoders

variable {α : Type} (place : Place)

def decodeString : Decoder String
  | .null, old => .ok old
  | .string s, _ => .ok s
  | j, _ => .error (place.mismatch j.kind)

def decodeBool : Decoder Bool
  | .null, old => .ok old
  | .bool b, _ => .ok b
  | j, _ => .error (place.mismatch j.kind)

def decodeFloat64 : Decoder ℚ
  | .null, old => .ok old
  | .number literal value, _ =>
    match float64 value with
    | some f => .ok f
    | none => .error (place.mismatch ("number " ++ literal))
  | j, _ => .error (place.mismatch j.kind)

/-- A pointer: `null` makes it nil, anything else is decoded onto what it points to. -/
def decodePointer (zero : α) (decode : Decoder α) : Decoder (Option α)
  | .null, _ => .ok none
  | j, old => (decode j (old.getD zero)).map some

/-- A slice: its elements, and those that it keeps behind them within its capacity. -/
structure Slice (α : Type) where
  items : List α
  kept : List α

/-- The items one after the other, each onto the old one in its place. -/
def decodeItems (zero : α) (decode : Decoder α) : List Json → List α → Except String (List α)
  | [], _ => .ok []
  | j :: rest, old => do
    let item ← decode j (old.head?.getD zero)
    let items ← decodeItems zero decode rest old.tail
    .ok (item :: items)

/-- A slice: `null` and the empty array make it anew. Any other array is decoded onto what the slice holds, the elements that an
earlier array left behind its end included, and what it does not reach is kept. -/
def decodeSlice (zero : α) (decode : Decoder α) : Decoder (Slice α)
  | .null, _ => .ok ⟨[], []⟩
  | .array [], _ => .ok ⟨[], []⟩
  | .array (j :: js), old =>
    (decodeItems zero decode (j :: js) (old.items ++ old.kept)).map fun items => ⟨items, (old.items ++ old.kept).drop (j :: js).length⟩
  | j, _ => .error (place.mismatch j.kind)

/-- A member is decoded onto the whole by the field it names. -/
def decodeMember (fields : List (String × Decoder α)) (acc : Except String α) (m : String × Json) : Except String α :=
  match fields.find? fun f => Json.names f.1 m.1 with
  | some f => acc.bind (f.2 m.2)
  | none => acc

/-- The fields of a struct: their names and how a member is decoded onto the whole. -/
def decodeStruct (fields : List (String × Decoder α)) : Decoder α
  | .null, old => .ok old
  | .object members, old => members.foldl (decodeMember fields) (.ok old)
  | j, _ => .error (place.mismatch j.kind)

/-- A member under a field's own name goes to that field, if the fields' names are told apart. -/
theorem decodeMember_field {fields : List (String × Decoder α)}
    (apart : ∀ f ∈ fields.map Prod.fst, ∀ k ∈ fields.map Prod.fst, Json.names f k = decide (f = k))
    (unique : (fields.map Prod.fst).Nodup) {f : String × Decoder α} (mem : f ∈ fields) (j : Json) (acc : Except String α) :
    decodeMember fields acc (f.1, j) = acc.bind (f.2 j) := by
  have found : fields.find? (fun g => Json.names g.1 f.1) = some f := by
    have matched : (fields.find? fun g => Json.names g.1 f.1).isSome = true :=
      List.find?_isSome.2 ⟨f, mem, by rw [apart _ (List.mem_map_of_mem mem) _ (List.mem_map_of_mem mem), decide_eq_true rfl]⟩
    obtain ⟨g, hit⟩ := Option.isSome_iff_exists.1 matched
    have mem' := List.mem_of_find?_eq_some hit
    have same := List.find?_some hit
    rw [apart _ (List.mem_map_of_mem mem') _ (List.mem_map_of_mem mem), decide_eq_true_eq] at same
    rw [hit, List.inj_on_of_nodup_map unique mem' mem same]
  unfold decodeMember
  rw [found]

/-- The order of the members does not matter if any two of them commute. -/
theorem decodeStruct_perm {fields : List (String × Decoder α)} {members members' : List (String × Json)} (perm : members.Perm members')
    (commute : ∀ m ∈ members, ∀ m' ∈ members, ∀ acc : Except String α,
      decodeMember fields (decodeMember fields acc m) m' = decodeMember fields (decodeMember fields acc m') m) (old : α) :
    decodeStruct place fields (.object members) old = decodeStruct place fields (.object members') old :=
  perm.foldl_eq' commute (.ok old)

end Decoders

end NovoApex.Lib
