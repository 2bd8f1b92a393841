/-!
# Numerals

A numeral is a number as it is written: digits in front of the point, digits behind it, and a power
of ten. Different numerals may stand for one number.
-/

namespace RobotRoutine.Decimal

/-- A number as it is written. -/
structure Numeral where
  negative : Bool
  /-- The digits in front of the point. -/
  whole : List Char
  /-- The digits behind the point; without any there is no point. -/
  fraction : List Char
  /-- The power of ten, if it is written. -/
  exponent : Option Int
deriving DecidableEq, Repr

namespace Numeral

/-- The part of a numeral that begins with the point. -/
def fractionText : List Char → List Char
  | [] => []
  | digits => '.' :: digits

/-- The part of a numeral that begins with the `e`. A power of ten that is not negative carries a
`+` if `plus` is set. -/
def exponentText (plus : Bool) : Option Int → List Char
  | none => []
  | some power =>
    let sign := if power < 0 then ['-'] else if plus then ['+'] else []
    'e' :: (sign ++ Nat.toDigits 10 power.natAbs)

/-- The characters of a numeral. -/
def toChars (plus : Bool) (numeral : Numeral) : List Char :=
  (if numeral.negative then ['-'] else []) ++ numeral.whole ++ fractionText numeral.fraction
    ++ exponentText plus numeral.exponent

/-- Whether a numeral has neither a point nor a power of ten. -/
def isInteger (numeral : Numeral) : Bool :=
  numeral.fraction.isEmpty && numeral.exponent.isNone

end Numeral

end RobotRoutine.Decimal
