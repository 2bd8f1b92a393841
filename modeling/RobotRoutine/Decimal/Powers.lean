/-!
# Powers of two and ten

The places of binary and of decimal numbers. Words of sixty-four bits hold what is below `twoTo 64`.
-/

namespace RobotRoutine.Decimal

/-- A power of two. -/
abbrev twoTo (n : Nat) : Nat := Nat.pow 2 n

/-- A power of ten. -/
abbrev tenTo (n : Nat) : Nat := Nat.pow 10 n

end RobotRoutine.Decimal
