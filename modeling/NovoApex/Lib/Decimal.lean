import Mathlib.Data.Rat.Floor
import Mathlib.Tactic.Linarith
import Mathlib.Tactic.FieldSimp
import Mathlib.Tactic.Ring

/-!
# Decimals and fixed-point columns

Arbitrary-precision decimal arithmetic is exact, so a decimal is the rational it
denotes. A `NUMERIC(precision, scale)` column holds an integral number of units
of `10 ^ -scale`; storing a decimal rounds it to that grid with halves away from
zero and is refused when the result needs more than `precision` digits.
-/

namespace NovoApex.Lib
set_option autoImplicit false

/-- The nearest integer, halves away from zero. -/
def roundHalfAway (q : ℚ) : Int := if 0 ≤ q then ⌊q + 1 / 2⌋ else -⌊-q + 1 / 2⌋

/-- The integral part, towards zero. -/
def truncate (q : ℚ) : Int := if 0 ≤ q then ⌊q⌋ else -⌊-q⌋

theorem floor_add_half (n : Int) : ⌊(n : ℚ) + 1 / 2⌋ = n := by
  rw [Int.floor_eq_iff]
  constructor <;> linarith

/-- An integer rounds to itself. -/
@[simp] theorem roundHalfAway_intCast (n : Int) : roundHalfAway n = n := by
  unfold roundHalfAway
  split
  · exact floor_add_half n
  · rw [← Int.cast_neg, floor_add_half, neg_neg]

/-- An integer is its own integral part. -/
@[simp] theorem truncate_intCast (n : Int) : truncate n = n := by
  unfold truncate
  split
  · exact Int.floor_intCast n
  · rw [← Int.cast_neg, Int.floor_intCast, neg_neg]

/-- What lies less than half a unit above an integer does not round past it. -/
theorem roundHalfAway_le {q : ℚ} {n : Int} (h : q < n + 1 / 2) : roundHalfAway q ≤ n := by
  unfold roundHalfAway
  split
  · have below : q + 1 / 2 < ((n + 1 : Int) : ℚ) := by push_cast; linarith
    have := Int.floor_lt.2 below
    omega
  · have above : ((-n : Int) : ℚ) ≤ -q + 1 / 2 := by push_cast; linarith
    have := Int.le_floor.2 above
    omega

/-- Rounding a non-negative decimal gives a non-negative integer. -/
theorem roundHalfAway_nonneg {q : ℚ} (h : 0 ≤ q) : 0 ≤ roundHalfAway q := by
  rw [roundHalfAway, if_pos h]
  exact Int.floor_nonneg.2 (by linarith)

/-- A decimal rounds to something positive exactly from one half on. -/
theorem roundHalfAway_pos_iff {q : ℚ} (h : 0 ≤ q) : 0 < roundHalfAway q ↔ 1 / 2 ≤ q := by
  have floor : (1 : Int) ≤ ⌊q + 1 / 2⌋ ↔ ((1 : Int) : ℚ) ≤ q + 1 / 2 := Int.le_floor
  push_cast at floor
  rw [roundHalfAway, if_pos h]
  constructor
  · intro positive
    have := floor.1 positive
    linarith
  · intro half
    exact floor.2 (by linarith)

/-- The values of a `NUMERIC(precision, scale)` column, in units of `10 ^ -scale`. -/
structure Numeric (precision scale : Nat) where
  units : Int
  fits : units.natAbs < 10 ^ precision
  deriving DecidableEq

namespace Numeric

variable {precision scale : Nat}

/-- The decimal a column value denotes. -/
def toDecimal (n : Numeric precision scale) : ℚ := n.units / 10 ^ scale

/-- The column value a decimal is stored as; `none` is a numeric field overflow. -/
def ofDecimal (q : ℚ) : Option (Numeric precision scale) :=
  if h : (roundHalfAway (q * 10 ^ scale)).natAbs < 10 ^ precision then some ⟨_, h⟩ else none

theorem ext {a b : Numeric precision scale} (h : a.units = b.units) : a = b := by
  cases a; cases b; cases h; rfl

theorem toDecimal_mul (n : Numeric precision scale) : n.toDecimal * 10 ^ scale = n.units := by
  have pos : (10 : ℚ) ^ scale ≠ 0 := by positivity
  exact div_mul_cancel₀ _ pos

theorem ofDecimal_units {q : ℚ} {n : Numeric precision scale} (h : ofDecimal q = some n) :
    n.units = roundHalfAway (q * 10 ^ scale) := by
  unfold ofDecimal at h
  split at h
  · cases h; rfl
  · cases h

/-- A decimal on the grid is stored as it is. -/
theorem ofDecimal_grid {q : ℚ} {m : Int} (grid : q * 10 ^ scale = m) (fits : m.natAbs < 10 ^ precision) :
    ofDecimal q = some (⟨m, fits⟩ : Numeric precision scale) := by
  have rounded : roundHalfAway (q * 10 ^ scale) = m := by rw [grid, roundHalfAway_intCast]
  unfold ofDecimal
  split
  · exact congrArg some (ext rounded)
  · rename_i overflows
    exact (overflows (rounded ▸ fits)).elim

/-- A column value is stored as it is. -/
theorem ofDecimal_toDecimal (n : Numeric precision scale) : ofDecimal n.toDecimal = some n :=
  ofDecimal_grid n.toDecimal_mul n.fits

/-- A decimal on the grid that is stored at all is stored exactly. -/
theorem toDecimal_of_grid {q : ℚ} {m : Int} {n : Numeric precision scale} (grid : q * 10 ^ scale = m)
    (h : ofDecimal q = some n) : n.toDecimal = q := by
  have pos : (10 : ℚ) ^ scale ≠ 0 := by positivity
  have units : n.units = m := by rw [ofDecimal_units h, grid, roundHalfAway_intCast]
  rw [toDecimal, units, ← grid, mul_div_cancel_right₀ _ pos]

end Numeric

end NovoApex.Lib
