import RobotRoutine.Registry.Spec

/-!
# The built-in commands

The twelve commands that a script can use without further ado: five that move the robot, two that
wait, four that send a mechanism to a position, and one that prints.
-/

namespace RobotRoutine

namespace Builtin

/-- A factory that reads its arguments and cannot fail after that. -/
def reading {α : Type} (name : String) (read : List String → Except ArgumentProblem α)
    (make : α → Tuning → Command) (arguments : List String) (tuning : Tuning) :
    Except ScriptError Command :=
  match read arguments with
  | .error problem => .error (.argument name problem)
  | .ok value => .ok (make value tuning)

/-- A convergence command; its threshold is the tolerance and the number of polls at once. -/
def converging (name : String) (mode : Tuning → ConvergenceMode) (arguments : TargetArguments)
    (tuning : Tuning) : Command :=
  let threshold := arguments.thresholdOr tuning
  .convergence name (mode tuning) (Float.ofInt arguments.target) (Float.ofNat threshold.toNat)
    threshold

/-- Tank drive at fixed power. -/
def drive : CommandSpec where
  name := "drive"
  description := "Tank drive at fixed power for a time"
  usage := "drive(left, right, durationMs)"
  arity := .exactly 3
  factory := reading "drive" DriveArguments.read fun arguments _ =>
    .timed "drive" arguments.duration (.tank arguments.left arguments.right)

/-- A move over a distance. -/
def driveDistance : CommandSpec where
  name := "driveDistance"
  description := "Drive until the encoder settles on a distance"
  usage := "driveDistance(distance, [threshold])"
  arity := .between 1 2
  factory := reading "driveDistance" TargetArguments.read
    (converging "driveDistance" fun _ => .distance)

/-- A move over a distance on a straight line. -/
def driveStraight : CommandSpec where
  name := "driveStraight"
  description := "Drive a distance while holding heading"
  usage := "driveStraight(distance, [threshold])"
  arity := .between 1 2
  factory := reading "driveStraight" TargetArguments.read
    (converging "driveStraight" fun _ => .straight)

/-- A turn on the spot. -/
def turn : CommandSpec where
  name := "turn"
  description := "Turn in place until the gyro settles on an angle"
  usage := "turn(angle, [threshold])"
  arity := .between 1 2
  factory := reading "turn" TargetArguments.read
    (converging "turn" fun tuning => .turn tuning.turnCoefficient)

/-- A command without arguments that has one effect. -/
def acting (name description usage : String) (effect : Effect) : CommandSpec where
  name
  description
  usage
  arity := .exactly 0
  factory := fun _ _ => .ok (.action name effect)

/-- Stops the drive. -/
def stop : CommandSpec :=
  acting "stop" "Zero drive output" "stop()" .stopDrive

/-- Lets time pass. -/
def wait : CommandSpec where
  name := "wait"
  description := "Do nothing for a number of seconds"
  usage := "wait(seconds)"
  arity := .exactly 1
  factory := reading "wait" WaitArguments.read fun duration _ => .timed "wait" duration .idle

/-- Holds the drive until a time in the match. -/
def waitUntil : CommandSpec where
  name := "waitUntil"
  description := "Hold the drive stopped until the match clock reaches a time"
  usage := "waitUntil(seconds)"
  arity := .exactly 1
  factory := reading "waitUntil" WaitArguments.read fun time _ => .waitUntil "waitUntil" time

/-- Extends the bucket. -/
def deployBucket : CommandSpec :=
  acting "deployBucket" "Extend the bucket" "deployBucket()" (.send .bucket .extended)

/-- Retracts the bucket. -/
def retractBucket : CommandSpec :=
  acting "retractBucket" "Retract the bucket" "retractBucket()" (.send .bucket .retracted)

/-- Closes the gear guard. -/
def closeGuard : CommandSpec :=
  acting "closeGuard" "Close the gear guard" "closeGuard()" (.send .gearGuard .extended)

/-- Opens the gear guard. -/
def openGuard : CommandSpec :=
  acting "openGuard" "Open the gear guard" "openGuard()" (.send .gearGuard .retracted)

/-- Emits its arguments. -/
def print : CommandSpec where
  name := "print"
  description := "Write the arguments to the diagnostic log"
  usage := "print(args...)"
  arity := .any
  factory := fun arguments _ => .ok (.action "print" (.print arguments))

/-- All built-in commands. -/
def all : List CommandSpec :=
  [drive, driveDistance, driveStraight, turn, stop, wait, waitUntil, deployBucket, retractBucket,
    closeGuard, openGuard, print]

end Builtin

end RobotRoutine
