import NovoApex.Lib.Decimal

/-!
# Money

`internal/money`: amounts are exact decimals in major units; the provider counts
minor units in an `int64`. Every money column is `NUMERIC(14,2)`.
-/

namespace NovoApex
set_option autoImplicit false
open Lib

/-- A money column of the schema. -/
abbrev Money : Type := Numeric 14 2

/-- `decimal.Decimal.IntPart`: the integral part, as an `int64`. -/
def intPart (d : ℚ) : Int64 := Int64.ofInt (truncate d)

/-- `decimal.New(minor, -2)`. -/
def fromMinorUnits (minor : Int64) : ℚ := minor.toInt / 100

/-- `d.Shift(2).Round(0).IntPart()`. -/
def toMinorUnits (d : ℚ) : Int64 := intPart (roundHalfAway (d * 100))

/-- `d.StringFixed(2)` of an amount that came from minor units. -/
def stringFixed2 (minor : Int) : String :=
  let digits := toString (minor.natAbs % 100)
  (if minor < 0 then "-" else "") ++ toString (minor.natAbs / 100) ++ "." ++ (if digits.length < 2 then "0" else "") ++ digits

theorem Money.toDecimal_eq (m : Money) : m.toDecimal = m.units / 100 := by
  norm_num [Numeric.toDecimal]

/-- What is stored of an amount is what the provider is told. -/
theorem toMinorUnits_stored {amount : ℚ} {stored : Money} (stores : Numeric.ofDecimal amount = some stored) :
    stored.units = (toMinorUnits amount).toInt := by
  have units : stored.units = roundHalfAway (amount * 100) := by
    rw [Numeric.ofDecimal_units stores]
    norm_num
  have fits := stored.fits
  rw [toMinorUnits, ← units, intPart, truncate_intCast, Int64.toInt_ofInt_of_le (by omega) (by omega)]

end NovoApex
