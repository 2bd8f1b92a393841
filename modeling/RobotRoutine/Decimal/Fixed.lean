import RobotRoutine.Decimal.Binary
import RobotRoutine.Decimal.Powers
import RobotRoutine.Decimal.Rounding

/-!
# Writing a double with a fixed number of places

The exact value of the double is rounded to the given number of places; a value halfway between two
neighbours goes to the one whose last digit is even.
-/

namespace RobotRoutine.Decimal

/-- A whole number of units of `10 ^ -places`, with the point in place. -/
def layFixed (places units : Nat) : List Char :=
  let digits := Nat.toDigits 10 units
  let padded := List.replicate (places + 1 - digits.length) '0' ++ digits
  let whole := padded.length - places
  if places = 0 then padded else padded.take whole ++ '.' :: padded.drop whole

/-- A double with `places` digits after the point. -/
def fixed (places : Nat) (x : Float) : String :=
  let signed (negative : Bool) (text : List Char) : String :=
    String.ofList (if negative then '-' :: text else text)
  match Binary.ofFloat x with
  | .nan => "NaN"
  | .infinite negative => signed negative ['i', 'n', 'f']
  | .finite negative significand exponent =>
    let units := roundDiv .toEven (significand * twoTo exponent.toNat * tenTo places)
      (twoTo (-exponent).toNat)
    signed negative (layFixed places units)

end RobotRoutine.Decimal
