/-!
# Mechanisms

The robot has two mechanisms, each with two positions that it can be sent to. A mechanism keeps the
position it was sent to last, and how often it was sent.
-/

namespace RobotRoutine

/-- A mechanism of the robot. -/
inductive Mechanism where
  | bucket
  | gearGuard
deriving DecidableEq, Repr

namespace Mechanism

/-- The mechanism's name. -/
def toText : Mechanism → String
  | .bucket => "bucket"
  | .gearGuard => "gear_guard"

/-- The mechanism that a name stands for. -/
def ofText? : String → Option Mechanism
  | "bucket" => some .bucket
  | "gear_guard" => some .gearGuard
  | _ => none

end Mechanism

/-- A position that a mechanism can be sent to. -/
inductive Position where
  | extended
  | retracted
deriving DecidableEq, Repr

namespace Position

/-- The position's name. -/
def toText : Position → String
  | .extended => "extended"
  | .retracted => "retracted"

/-- The position that a name stands for. -/
def ofText? : String → Option Position
  | "extended" => some .extended
  | "retracted" => some .retracted
  | _ => none

end Position

/-- The state of one mechanism. -/
structure Actuator where
  /-- The position it was sent to last. -/
  position : Option Position
  /-- How often it was sent to a position. -/
  writes : Nat
deriving DecidableEq, Repr

namespace Actuator

/-- A mechanism that has not been sent anywhere. -/
def untouched : Actuator := ⟨none, 0⟩

/-- Sends the mechanism to a position. -/
def send (actuator : Actuator) (position : Position) : Actuator :=
  ⟨some position, actuator.writes + 1⟩

end Actuator

end RobotRoutine
