import RobotRoutine.Decimal.Powers
import RobotRoutine.Decimal.Rounding

/-!
# The fewest digits that read back

A positive double stands for all the reals that round to it. These form an interval around it, whose
ends belong to it when its significand is even. The shortest decimal in the interval is found by
looking at one decimal grid after another, from the place of the leading digit downwards: on each
grid only the two neighbours of the double can be the nearest member, and the first grid with a
member wins.
-/

namespace RobotRoutine.Decimal

/-- The number `digits * 10 ^ exponent`. -/
structure Scaled where
  digits : Nat
  exponent : Int
deriving DecidableEq, Repr

/-- How `digits * 10 ^ exponent` compares with `units * 2 ^ power`. -/
def Scaled.compareBinary (x : Scaled) (units : Nat) (power : Int) : Ordering :=
  compare (x.digits * tenTo x.exponent.toNat * twoTo (-power).toNat)
    (units * twoTo power.toNat * tenTo (-x.exponent).toNat)

/-- Whether a decimal rounds to the double `significand * 2 ^ exponent`, where `isPower` says that
the neighbour below is half as far away as the one above. -/
def readsBack (significand : Nat) (exponent : Int) (isPower : Bool) (x : Scaled) : Bool :=
  let above := x.compareBinary (4 * significand + 2) (exponent - 2)
  let below := x.compareBinary (4 * significand - if isPower then 1 else 2) (exponent - 2)
  if significand % 2 = 0 then above.isLE && below.isGE else above.isLT && below.isGT

/-- How many decimal digits a whole number has. -/
def digitCount (n : Nat) : Nat :=
  (Nat.toDigits 10 n).length

/-- The exponent of ten at the leading digit of `num / den`, for positive `num` and `den`. -/
def leadingExponent (num den : Nat) : Int :=
  if den ≤ num then
    digitCount (num / den) - 1
  else
    -(digitCount ((den - 1) / num))

/-- The neighbours of `significand * 2 ^ exponent` among the multiples of `10 ^ place`, the nearer
one first. -/
def neighbours (tie : Tie) (significand : Nat) (exponent place : Int) : List Scaled :=
  let num := significand * twoTo exponent.toNat * tenTo (-place).toNat
  let den := tenTo place.toNat * twoTo (-exponent).toNat
  [⟨roundDiv tie num den, place⟩, ⟨num / den, place⟩, ⟨num / den + 1, place⟩]

/-- The decimal with the fewest digits that rounds to the positive double
`significand * 2 ^ exponent`, and of those the nearest. -/
def shortest (tie : Tie) (significand : Nat) (exponent : Int) : Scaled :=
  let isPower := significand = twoTo 52 ∧ exponent ≠ -1074
  let lead := leadingExponent (significand * twoTo exponent.toNat) (twoTo (-exponent).toNat)
  let onGrid (n : Nat) : Option Scaled :=
    (neighbours tie significand exponent (lead - n)).find?
      (readsBack significand exponent isPower)
  ((List.range 17).findSome? onGrid).getD ⟨0, 0⟩

end RobotRoutine.Decimal
