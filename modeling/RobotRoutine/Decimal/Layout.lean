import RobotRoutine.Decimal.Binary
import RobotRoutine.Decimal.Numeral
import RobotRoutine.Decimal.Shortest

/-!
# Writing a double with the fewest digits

The digits come from `shortest`; a notation decides how they are laid out: for which numbers all
places up to the decimal point are written out and for which a power of ten is split off, and
whether a whole number is given a fraction.
-/

namespace RobotRoutine.Decimal

/-- How a double is written. -/
structure Notation where
  /-- Which of two equally near decimals is taken. -/
  tie : Tie
  /-- Whether a number whose leading digit stands for this power of ten is written out. -/
  isPlain : Int → Bool
  /-- Whether a whole number that is written out ends in `.0`. -/
  pointZero : Bool
  /-- Whether a power of ten that is not negative carries a `+`. -/
  exponentPlus : Bool

/-- A decimal without the zeros at its end, for at most `fuel` zeros. -/
def Scaled.dropZeros : (fuel : Nat) → Scaled → Scaled
  | 0, x => x
  | fuel + 1, x =>
    if x.digits % 10 = 0 then dropZeros fuel ⟨x.digits / 10, x.exponent + 1⟩ else x

namespace Notation

/-- What stands behind the point, given the digits that do. -/
def fractionOf (form : Notation) : List Char → List Char
  | [] => if form.pointZero then ['0'] else []
  | digits => digits

/-- A number written out, where the point comes after the first `whole` digits. -/
def layPlain (form : Notation) (negative : Bool) (digits : List Char) (whole : Int) : Numeral :=
  if whole ≤ 0 then
    { negative, whole := ['0'], fraction := List.replicate (-whole).toNat '0' ++ digits
      exponent := none }
  else
    { negative
      whole := digits.take whole.toNat ++ List.replicate (whole.toNat - digits.length) '0'
      fraction := form.fractionOf (digits.drop whole.toNat)
      exponent := none }

/-- A number with its power of ten split off. -/
def layScientific (negative : Bool) (digits : List Char) (lead : Int) : Numeral :=
  { negative, whole := digits.take 1, fraction := digits.drop 1, exponent := some lead }

/-- A positive decimal in this notation, behind its sign. -/
def layOut (form : Notation) (negative : Bool) (x : Scaled) : Numeral :=
  let x := x.dropZeros 17
  let digits := Nat.toDigits 10 x.digits
  let lead := x.exponent + digits.length - 1
  if form.isPlain lead then
    form.layPlain negative digits (lead + 1)
  else
    layScientific negative digits lead

/-- The finite double `significand * 2 ^ exponent` in this notation, behind its sign. -/
def numeral (form : Notation) (negative : Bool) (significand : Nat) (exponent : Int) : Numeral :=
  if significand = 0 then
    { negative, whole := ['0'], fraction := form.fractionOf [], exponent := none }
  else
    form.layOut negative (shortest form.tie significand exponent)

/-- A double in this notation; the numbers without digits have names. -/
def write (form : Notation) (x : Float) : String :=
  match Binary.ofFloat x with
  | .nan => "NaN"
  | .infinite negative => if negative then "-inf" else "inf"
  | .finite negative significand exponent =>
    String.ofList ((form.numeral negative significand exponent).toChars form.exponentPlus)

end Notation

/-- Numbers in messages and in command trees: always written out, whole numbers without a
fraction. -/
def spelled : Notation where
  tie := .up
  isPlain := fun _ => true
  pointZero := false
  exponentPlus := false

/-- Numbers in the inspection form of a value: always with a fraction or a power of ten, which is
split off from `1e16` up and below `1e-4`. -/
def inspected : Notation where
  tie := .up
  isPlain := fun lead => -4 ≤ lead ∧ lead < 16
  pointZero := true
  exponentPlus := false

end RobotRoutine.Decimal
