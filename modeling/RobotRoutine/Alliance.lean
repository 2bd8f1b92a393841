/-!
# Alliances

The side of the field that the robot starts on. It selects the script of the routine.
-/

namespace RobotRoutine

/-- A side of the field. -/
inductive Alliance where
  | red
  | blue
deriving DecidableEq, Repr, Inhabited

namespace Alliance

/-- The alliance's name. -/
def toText : Alliance → String
  | .red => "red"
  | .blue => "blue"

/-- The alliance that a name stands for, in any case of its ASCII letters. -/
def ofText? (text : String) : Option Alliance :=
  match String.ofList (text.toList.map Char.toLower) with
  | "red" => some .red
  | "blue" => some .blue
  | _ => none

end Alliance

end RobotRoutine
