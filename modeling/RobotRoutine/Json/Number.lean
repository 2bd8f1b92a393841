import RobotRoutine.Json.Token

/-!
# What a JSON number stands for

A whole number in a word is written without a sign, a point or a power of ten.

A double is read in two steps. First the digits are collected into a word of sixty-four bits for as
long as they fit; the digits in front of the point that are left over still count as places, those
behind it are dropped. Then the double nearest to that word is scaled by a power of ten, itself a
double. Each step rounds, so the outcome can be a neighbour of the double that is nearest to what is
written.
-/

namespace RobotRoutine.Decimal.Numeral

/-- The whole number below a limit that a numeral stands for. -/
def toNatBelow? (limit : Nat) (numeral : Numeral) : Option Nat :=
  if numeral.isInteger ∧ ¬ numeral.negative then
    (readDigits numeral.whole).filter (· < limit)
  else
    none

/-- The digits taken into a word after those that make `value`, for as long as they fit, and those
that are left. -/
def collect (value : Nat) : List Char → Nat × List Char
  | [] => (value, [])
  | c :: rest =>
    let next := 10 * value + (c.toNat - '0'.toNat)
    if next < twoTo 64 then collect next rest else (value, c :: rest)

/-- The word that the digits are collected into, and the power of ten that it is scaled by. -/
def collected (numeral : Numeral) : Scaled :=
  let (whole, surplus) := collect 0 numeral.whole
  let (digits, dropped) := collect whole numeral.fraction
  ⟨digits, surplus.length - (numeral.fraction.length - dropped.length : Nat)
    + numeral.exponent.getD 0⟩

/-- The double nearest to a power of ten. -/
def powerOfTen (n : Nat) : Float :=
  Float.ofScientific 1 false n

/-- A double below `2 ^ 64`, or that number itself, scaled by a power of ten. There is none for a
power above the greatest double's or for an infinite outcome; powers below `-308` take a second
step, after which nothing is left below `-616`. -/
def scale? (x : Float) (power : Int) : Option Float :=
  if 308 < power then
    if x == 0 then some x else none
  else if 0 ≤ power then
    let scaled := x * powerOfTen power.toNat
    if scaled.isInf then none else some scaled
  else if -308 ≤ power then
    some (x / powerOfTen (-power).toNat)
  else if -616 ≤ power then
    some (x / powerOfTen 308 / powerOfTen (-power - 308).toNat)
  else
    some 0

/-- The double that a numeral stands for. -/
def toFloat? (numeral : Numeral) : Option Float :=
  let word := numeral.collected
  (scale? (Float.ofNat word.digits) word.exponent).map fun x =>
    if numeral.negative then -x else x

end RobotRoutine.Decimal.Numeral

namespace RobotRoutine.Json

/-- The whole number below a limit that a value is, if it is one. -/
def natBelow? (limit : Nat) : Json → Option Nat
  | .number numeral => numeral.toNatBelow? limit
  | _ => none

/-- The double that a value is, if it is one. -/
def float? : Json → Option Float
  | .number numeral => numeral.toFloat?
  | _ => none

end RobotRoutine.Json
