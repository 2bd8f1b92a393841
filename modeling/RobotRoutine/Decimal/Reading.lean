import RobotRoutine.Decimal.Shortest

/-!
# Reading numbers

A whole number is one or more ASCII digits, behind a sign where one is allowed; leading zeros do not
matter. A double is written as digits with at most one point among them, behind a sign and in front
of a power of ten if there is one, or as a word for infinity or for no number; it is read as the
double nearest to what is written.
-/

namespace RobotRoutine.Decimal

/-- The value of a run of digits, read on from `value`; nothing if another character occurs. -/
def readDigitsFrom (value : Nat) : List Char → Option Nat
  | [] => some value
  | c :: rest =>
    if c.isDigit then readDigitsFrom (10 * value + (c.toNat - '0'.toNat)) rest else none

/-- The value of one or more digits. -/
def readDigits (text : List Char) : Option Nat :=
  if text.isEmpty then none else readDigitsFrom 0 text

/-- A whole number, which a `+` may stand in front of. -/
def readUnsigned : List Char → Option Nat
  | '+' :: rest => readDigits rest
  | text => readDigits text

/-- A whole number, which a sign may stand in front of. -/
def readSigned : List Char → Option Int
  | '+' :: rest => (readDigits rest).map Int.ofNat
  | '-' :: rest => (readDigits rest).map fun n => -Int.ofNat n
  | text => (readDigits text).map Int.ofNat

/-- The double nearest to a decimal. Beyond `10 ^ 310` that is infinity, and below `10 ^ -326` it is
zero, so that no greater powers of ten are computed. -/
def Scaled.toFloat (x : Scaled) : Float :=
  let lead := x.exponent + digitCount x.digits
  if x.digits = 0 ∨ lead < -326 then 0
  else if 310 < lead then 1 / 0
  else if x.exponent < 0 then Float.ofScientific x.digits true x.exponent.natAbs
  else Float.ofScientific x.digits false x.exponent.natAbs

/-- The power of ten at the end of a number; nothing is read as the power zero. -/
def readExponent : List Char → Option Int
  | [] => some 0
  | c :: rest => if c = 'e' ∨ c = 'E' then readSigned rest else none

/-- The digits before a point, those after it, and the power of ten; no sign. -/
def readScaled (text : List Char) : Option Scaled := do
  let whole := text.takeWhile Char.isDigit
  let rest := text.dropWhile Char.isDigit
  let (fraction, rest) := match rest with
    | '.' :: rest => (rest.takeWhile Char.isDigit, rest.dropWhile Char.isDigit)
    | rest => ([], rest)
  let digits ← readDigits (whole ++ fraction)
  let exponent ← readExponent rest
  some ⟨digits, exponent - fraction.length⟩

/-- A double without a sign: a number, or a word in any case. -/
def readMagnitude (text : List Char) : Option Float :=
  match String.ofList (text.map Char.toLower) with
  | "inf" | "infinity" => some (1 / 0)
  | "nan" => some (0 / 0)
  | _ => (readScaled text).map Scaled.toFloat

/-- A double. -/
def readFloat : List Char → Option Float
  | '+' :: rest => readMagnitude rest
  | '-' :: rest => (readMagnitude rest).map Float.neg
  | text => readMagnitude text

end RobotRoutine.Decimal
