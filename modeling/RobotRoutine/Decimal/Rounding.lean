/-!
# Rounding a quotient

A quotient of natural numbers is rounded to the nearest whole number. The rule for a quotient that
lies halfway between two neighbours is a parameter.
-/

namespace RobotRoutine.Decimal

/-- Which neighbour a quotient halfway between two of them goes to. -/
inductive Tie where
  /-- The even one. -/
  | toEven
  /-- The larger one. -/
  | up
deriving DecidableEq, Repr

/-- The whole number nearest to `num / den`. -/
def roundDiv (tie : Tie) (num den : Nat) : Nat :=
  let q := num / den
  match compare (2 * (num % den)) den with
  | .lt => q
  | .gt => q + 1
  | .eq =>
    match tie with
    | .up => q + 1
    | .toEven => if q % 2 = 0 then q else q + 1

end RobotRoutine.Decimal
