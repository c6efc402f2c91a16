import NovoApex.Db.Payouts

/-!
# Field checks of the vendor's bodies

The validators of `internal/handlers/products_write.go` that the product and location
endpoints share. A body maps its keys to raw values; a check yields the value of a
field, which may be absent, and the issues it has found.
-/

namespace NovoApex.Handlers
set_option autoImplicit false
open Db

/-- A raw value of a body. A number token is the decimal it parses to, `none` when it is out of range. -/
inductive RawValue where
  | null
  | boolean (b : Bool)
  | string (s : String)
  | number (d : Option ℚ)
  | array
  | object
  deriving DecidableEq

/-- `s4p_receivedType`, of a field that may be absent. -/
def receivedType : Option RawValue → String
  | none => "undefined"
  | some .null => "null"
  | some (.boolean _) => "boolean"
  | some (.string _) => "string"
  | some .array => "array"
  | some .object => "object"
  | some (.number _) => "number"

/-- `s4p_invalidType`. -/
def invalidType (key expected : String) (raw : Option RawValue) : FieldIssue :=
  ⟨"invalid_type", key, "Invalid input: expected " ++ expected ++ ", received " ++ receivedType raw⟩

/-- `s4p_tooSmallString`. -/
def tooSmallString (key : String) (min : Nat) : FieldIssue :=
  ⟨"too_small", key, "Too small: expected string to have >=" ++ toString min ++ " characters"⟩

/-- What a check yields: the field's value, if it is there and sound, and its issues. -/
abbrev Checked (α : Type) : Type := Option α × List FieldIssue

/-- An absent field, which may be required. -/
def absent {α : Type} (key expected : String) (required : Bool) : Checked α :=
  (none, if required then [invalidType key expected none] else [])

/-- `s4p_checkString`. -/
def checkString (key : String) (raw : Option RawValue) (required : Bool) (min : Nat) : Checked String :=
  match raw with
  | none => absent key "string" required
  | some (.string s) => if 0 < min ∧ s.length < min then (none, [tooSmallString key min]) else (some s, [])
  | some v => (none, [invalidType key "string" (some v)])

/-- `s4p_optString`. -/
def optString (key : String) (raw : Option RawValue) : Checked String := checkString key raw false 0

/-- `s4p_checkBool`. -/
def checkBool (key : String) (raw : Option RawValue) (required : Bool) : Checked Bool :=
  match raw with
  | none => absent key "boolean" required
  | some (.boolean b) => (some b, [])
  | some v => (none, [invalidType key "boolean" (some v)])

/-- `s4pSafeIntMax`. -/
def safeIntMax : ℚ := 9007199254740991

/-- The refinements of a number, in their order; the first one that fails is the issue. -/
def numberIssue (key : String) (positive integer nonnegative : Bool) (n : ℚ) : Option FieldIssue :=
  if integer ∧ n.den ≠ 1 then some (invalidType key "int" (some (.number (some n))))
  else if positive ∧ n ≤ 0 then some ⟨"too_small", key, "Too small: expected number to be >0"⟩
  else if nonnegative ∧ n < 0 then some ⟨"too_small", key, "Too small: expected number to be >=0"⟩
  else if integer ∧ safeIntMax < n then some ⟨"too_big", key, "Too big: expected int to be <=9007199254740991"⟩
  else if integer ∧ n < -safeIntMax then some ⟨"too_small", key, "Too small: expected int to be >=-9007199254740991"⟩
  else none

/-- `s4p_checkNumber`. -/
def checkNumber (key : String) (raw : Option RawValue) (required positive integer nonnegative : Bool) : Checked ℚ :=
  match raw with
  | none => absent key "number" required
  | some (.number (some n)) =>
    match numberIssue key positive integer nonnegative n with
    | some issue => (none, [issue])
    | none => (some n, [])
  | some v => (none, [invalidType key "number" (some v)])

/-- A body as it arrives: `none` where it does not parse, and an empty body has no fields. -/
abbrev Body : Type := Option (String → Option RawValue)

/-- The answer of a write endpoint: its status, with the row it returns or the message of a refusal, or the issues of the body. -/
inductive Answer (α : Type) where
  | found (status : Nat) (row : α)
  | refused (status : Nat) (message : String)
  | invalid (issues : List FieldIssue)

end NovoApex.Handlers
