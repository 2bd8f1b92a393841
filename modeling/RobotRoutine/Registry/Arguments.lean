import RobotRoutine.Decimal.Reading
import RobotRoutine.Duration
import RobotRoutine.ScriptError
import RobotRoutine.Tuning

/-!
# Typed arguments

The arguments of a command as values of their types. The arguments of a command are read from left
to right, and the first one that does not fit is the problem that is reported. A command reads its
arguments after they have been counted, so it finds every argument that it asks for.
-/

namespace RobotRoutine

namespace Argument

/-- The argument at a position. -/
def nth (arguments : List String) (position : Nat) : Except ArgumentProblem String :=
  match arguments[position]? with
  | some text => .ok text
  | none => .error (.absent position)

/-- A number that is finite. -/
def number (parameter text : String) : Except ArgumentProblem Float :=
  match Decimal.readFloat text.toList with
  | some value => if value.isFinite then .ok value else .error (.notNumber parameter text)
  | none => .error (.notNumber parameter text)

/-- A whole number of sixty-four bits. -/
def integer (parameter text : String) : Except ArgumentProblem Int :=
  match Decimal.readSigned text.toList with
  | some value =>
    if -Decimal.twoTo 63 ≤ value ∧ value < Decimal.twoTo 63 then .ok value
    else .error (.notInteger parameter text)
  | none => .error (.notInteger parameter text)

/-- A motor power between -1 and 1. -/
def power (parameter text : String) : Except ArgumentProblem Float := do
  let value ← number parameter text
  if -1 ≤ value ∧ value ≤ 1 then .ok value else .error (.powerOutOfRange parameter value)

/-- A whole number of milliseconds, below `2 ^ 64`. -/
def millis (parameter text : String) : Except ArgumentProblem Duration :=
  match Decimal.readUnsigned text.toList with
  | some value =>
    if value < Decimal.twoTo 64 then .ok (.ofMillis value)
    else .error (.notMillis parameter text)
  | none => .error (.notMillis parameter text)

/-- A number of seconds. -/
def seconds (parameter text : String) : Except ArgumentProblem Duration := do
  let value ← number parameter text
  match Duration.ofSeconds? value with
  | some duration => .ok duration
  | none => .error (.notSeconds parameter value)

/-- A threshold: a positive number of thirty-two bits. -/
def threshold (text : String) : Except ArgumentProblem UInt32 := do
  let value ← integer "threshold" text
  if 1 ≤ value ∧ value < Decimal.twoTo 32 then .ok (.ofNat value.toNat)
  else .error (.thresholdOutOfRange value)

end Argument

/-- The arguments `(left, right, duration)` of a drive at fixed power. -/
structure DriveArguments where
  left : Float
  right : Float
  duration : Duration
deriving DecidableEq

/-- Reads the arguments of a drive at fixed power. -/
def DriveArguments.read (arguments : List String) : Except ArgumentProblem DriveArguments := do
  let left ← Argument.power "left" (← Argument.nth arguments 0)
  let right ← Argument.power "right" (← Argument.nth arguments 1)
  let duration ← Argument.millis "duration" (← Argument.nth arguments 2)
  return { left, right, duration }

/-- The arguments `(target, [threshold])` of a convergence command. -/
structure TargetArguments where
  target : Int
  threshold : Option UInt32
deriving DecidableEq

namespace TargetArguments

/-- Reads the arguments of a convergence command. -/
def read (arguments : List String) : Except ArgumentProblem TargetArguments := do
  let target ← Argument.integer "target" (← Argument.nth arguments 0)
  match arguments[1]? with
  | none => return { target, threshold := none }
  | some text => return { target, threshold := some (← Argument.threshold text) }

/-- The script's threshold, or the tuned one if the script gives none. -/
def thresholdOr (arguments : TargetArguments) (tuning : Tuning) : UInt32 :=
  arguments.threshold.getD tuning.defaultThreshold

end TargetArguments

/-- Reads the argument `(seconds)` of a command that waits. -/
def WaitArguments.read (arguments : List String) : Except ArgumentProblem Duration := do
  Argument.seconds "seconds" (← Argument.nth arguments 0)

end RobotRoutine
