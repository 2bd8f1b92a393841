import RobotRoutine.Decimal.Powers

/-!
# Floating-point numbers taken apart

A finite double is a sign and a whole number of units, where the unit is a power of two. Everything
that is written about a double is computed from these parts in whole numbers.
-/

namespace RobotRoutine.Decimal

/-- A double, taken apart. -/
inductive Binary where
  | nan
  | infinite (negative : Bool)
  /-- The number `significand * 2 ^ exponent`, behind its sign. -/
  | finite (negative : Bool) (significand : Nat) (exponent : Int)
deriving DecidableEq, Repr

namespace Binary

/-- The parts that a bit pattern stands for. -/
def ofBits (bits : Nat) : Binary :=
  let negative := bits / twoTo 63 % 2 = 1
  let biased : Nat := bits / twoTo 52 % twoTo 11
  let fraction : Nat := bits % twoTo 52
  if biased = 2047 then
    if fraction = 0 then .infinite negative else .nan
  else if biased = 0 then
    .finite negative fraction (-1074)
  else
    .finite negative (fraction + twoTo 52) (biased - 1075)

/-- The parts of a double. -/
def ofFloat (x : Float) : Binary :=
  ofBits x.toBits.toNat

end Binary

/-- Whether a double is a positive number and not infinite. -/
def isPositive (x : Float) : Bool :=
  x.isFinite && !(x ≤ 0)

end RobotRoutine.Decimal
