/-!
# Sets of characters

A set of code points is written down as the ascending list of the points at which membership
changes: nothing below the first is a member, everything from the first up to the second is, and so
on in turn. A character is a member when an odd number of changes lies at or below it.
-/

namespace RobotRoutine.Text

/-- A set of code points, given by the points at which membership changes. -/
structure CodeSet where
  changes : List Nat

namespace CodeSet

/-- Whether a character belongs to the set. -/
def mem (set : CodeSet) (c : Char) : Bool :=
  set.changes.countP (· ≤ c.toNat) % 2 = 1

end CodeSet

end RobotRoutine.Text
