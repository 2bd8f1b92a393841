import RobotRoutine.Decimal.Binary
import RobotRoutine.Decimal.Rounding
import RobotRoutine.Decimal.Fixed

/-!
# Durations

A duration is a whole number of nanoseconds. The longest one that a clock can hold has one nanosecond
less than `2 ^ 64` seconds.
-/

namespace RobotRoutine

/-- A span of time, in nanoseconds. -/
structure Duration where
  nanos : Nat
deriving DecidableEq, Repr

namespace Duration

/-- The nanoseconds in a second. -/
def perSecond : Nat := 1000000000

/-- The nanoseconds in a millisecond. -/
def perMilli : Nat := 1000000

instance : Inhabited Duration := ⟨⟨0⟩⟩

instance : LE Duration := ⟨fun a b => a.nanos ≤ b.nanos⟩

instance : LT Duration := ⟨fun a b => a.nanos < b.nanos⟩

instance (a b : Duration) : Decidable (a ≤ b) :=
  inferInstanceAs (Decidable (a.nanos ≤ b.nanos))

instance (a b : Duration) : Decidable (a < b) :=
  inferInstanceAs (Decidable (a.nanos < b.nanos))

/-- No time at all. -/
def zero : Duration := ⟨0⟩

/-- The longest duration. -/
def longest : Duration := ⟨Decimal.twoTo 64 * perSecond - 1⟩

/-- A whole number of milliseconds. -/
def ofMillis (n : Nat) : Duration := ⟨n * perMilli⟩

/-- The time from `start` to `now`; none if `now` is the earlier one. -/
def since (now start : Duration) : Duration := ⟨now.nanos - start.nanos⟩

/-- The sum of two durations, unless it is longer than the longest one. -/
def add? (a b : Duration) : Option Duration :=
  if a.nanos + b.nanos ≤ longest.nanos then some ⟨a.nanos + b.nanos⟩ else none

/-- The whole milliseconds in a duration. -/
def wholeMillis (d : Duration) : Nat := d.nanos / perMilli

/-- The length in seconds: the whole seconds and the rest, each as a double, added. -/
def toSeconds (d : Duration) : Float :=
  Float.ofNat (d.nanos / perSecond) + Float.ofNat (d.nanos % perSecond) / 1e9

/-- The duration nearest to a number of seconds, with a half going to the even nanosecond. There is
none for what is negative, not a number or `2 ^ 64` or more. -/
def ofSeconds? (seconds : Float) : Option Duration :=
  match Decimal.Binary.ofFloat seconds with
  | .finite negative significand exponent =>
    if negative ∧ significand ≠ 0 then none
    else
      let num := significand * Decimal.twoTo exponent.toNat
      let den := Decimal.twoTo (-exponent).toNat
      if Decimal.twoTo 64 * den ≤ num then none
      else some ⟨Decimal.roundDiv .toEven (num * perSecond) den⟩
  | _ => none

/-- A number with a fraction of at most `places` digits, without the zeros at its end. -/
def trimmedFixed (places units : Nat) : List Char :=
  let text := (Decimal.layFixed places units).reverse.dropWhile (· == '0')
  (if text.head? = some '.' then text.drop 1 else text).reverse

/-- The duration in the greatest of seconds, milliseconds, microseconds and nanoseconds in which it
is not below one, with as many places as it takes. -/
def toText (d : Duration) : String :=
  if perSecond ≤ d.nanos then String.ofList (trimmedFixed 9 d.nanos) ++ "s"
  else if perMilli ≤ d.nanos then String.ofList (trimmedFixed 6 d.nanos) ++ "ms"
  else if 1000 ≤ d.nanos then String.ofList (trimmedFixed 3 d.nanos) ++ "µs"
  else toString d.nanos ++ "ns"

end Duration

end RobotRoutine
