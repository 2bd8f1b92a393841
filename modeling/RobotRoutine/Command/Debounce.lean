/-!
# Debouncing

A measured value has settled when enough errors in a row lay within a tolerance. The count of errors
in a row starts again at each error outside, and stops at the greatest number of thirty-two bits.
-/

namespace RobotRoutine

/-- A count of errors in a row that lay within a tolerance. -/
structure Debounce where
  tolerance : Float
  /-- How many in a row it takes. -/
  required : UInt32
  /-- How many in a row there are now. -/
  streak : UInt32
deriving DecidableEq

namespace Debounce

/-- A count that has seen no error. -/
def start (tolerance : Float) (required : UInt32) : Debounce :=
  { tolerance, required, streak := 0 }

/-- Whether an error lies within the tolerance. -/
def inTolerance (tolerance error : Float) : Bool :=
  error.abs < tolerance

/-- The count after one more error. -/
def update (count : Debounce) (error : Float) : Debounce :=
  if inTolerance count.tolerance error then
    { count with
      streak := if count.streak = 0xffffffff then count.streak else count.streak + 1 }
  else
    { count with streak := 0 }

/-- Whether enough errors in a row lay within the tolerance. -/
def isSettled (count : Debounce) : Bool :=
  count.required ≤ count.streak

end Debounce

end RobotRoutine
