import RobotRoutine.Command.Debounce
import RobotRoutine.Robot

/-!
# Leaf commands

The commands that act on the robot themselves. An action has its effect once. A timed command holds
an output until its time is up. A convergence command follows a feedback loop until the measured
value has settled around its target. A waiting command holds the drive stopped until a time in the
match.

Each has four hooks: what it does when it starts, what it does at every poll, whether it goes on
after that, and what it does when it ends. Only the second can fail, when a sensor does.
-/

namespace RobotRoutine

/-- What an action does. -/
inductive Effect where
  /-- Emits the words as one message. -/
  | print (words : List String)
  | stopDrive
  | send (mechanism : Mechanism) (position : Position)
deriving DecidableEq

namespace Effect

/-- The message that the words of a `print` make. -/
def printed (words : List String) : String :=
  "[" ++ ", ".intercalate words ++ "]"

/-- The robot after the effect. -/
def perform (effect : Effect) (robot : Robot) : Robot :=
  match effect with
  | .print words => robot.emit (printed words)
  | .stopDrive => robot.stop
  | .send mechanism position => robot.send mechanism position

end Effect

/-- What a timed command puts out. -/
inductive TimedOutput where
  /-- Nothing; only the time counts. -/
  | idle
  /-- Each side of the drive at its own power. -/
  | tank (left right : Float)
deriving DecidableEq

/-- Which feedback loops a convergence command follows. -/
inductive ConvergenceMode where
  /-- The distance, with both sides of the drive alike. -/
  | distance
  /-- The distance, while the heading is held at zero. -/
  | straight
  /-- The heading, on the spot, with the controller's output scaled. -/
  | turn (coefficient : Float)
deriving DecidableEq

/-- A command that acts on the robot itself. -/
inductive Leaf where
  | action (effect : Effect)
  | timed (duration : Duration) (output : TimedOutput) (startedAt : Option Duration)
  | convergence (mode : ConvergenceMode) (target : Float) (count : Debounce) (measured : Float)
  | waitUntil (time : Duration)
deriving DecidableEq

namespace ConvergenceMode

/-- Enables and aims the controllers that the mode follows. -/
def engage (mode : ConvergenceMode) (target : Float) (robot : Robot) : Robot :=
  let follow (setpoint : Float) (controller : Controller) := controller.enable.aim setpoint
  match mode with
  | .distance => robot.controlDistance (follow target)
  | .straight => (robot.controlDistance (follow target)).controlHeading (follow 0)
  | .turn _ => robot.controlHeading (follow target)

/-- The sensor that measures the mode's progress. -/
def sensor (mode : ConvergenceMode) (robot : Robot) : Sensor :=
  match mode with
  | .distance | .straight => robot.distance.sensor
  | .turn _ => robot.heading.sensor

/-- Drives by what the controllers put out. -/
def steer (mode : ConvergenceMode) (robot : Robot) : Robot :=
  match mode with
  | .distance => robot.tank robot.distance.output robot.distance.output
  | .straight => robot.arcade robot.distance.output robot.heading.output
  | .turn coefficient => robot.arcade 0 (robot.heading.output * coefficient)

/-- Disables the controllers that the mode follows, and stops the drive. -/
def disengage (mode : ConvergenceMode) (robot : Robot) : Robot :=
  match mode with
  | .distance => (robot.controlDistance Controller.disable).stop
  | .straight =>
    ((robot.controlDistance Controller.disable).controlHeading Controller.disable).stop
  | .turn _ => (robot.controlHeading Controller.disable).stop

end ConvergenceMode

namespace Leaf

/-- What the command does when it starts. -/
def start (leaf : Leaf) (robot : Robot) : Leaf × Robot :=
  match leaf with
  | .timed duration output _ => (.timed duration output (some robot.clock), robot)
  | .convergence mode target .. => (leaf, mode.engage target robot)
  | .action _ | .waitUntil _ => (leaf, robot)

/-- What the command does at every poll. -/
def run (leaf : Leaf) (robot : Robot) : Except SensorFault (Leaf × Robot) :=
  match leaf with
  | .action effect => .ok (leaf, effect.perform robot)
  | .timed _ .idle _ => .ok (leaf, robot)
  | .timed _ (.tank left right) _ => .ok (leaf, robot.tank left right)
  | .convergence mode target count _ =>
    match (mode.sensor robot).read with
    | .error fault => .error fault
    | .ok measured => .ok (.convergence mode target count measured, mode.steer robot)
  | .waitUntil _ => .ok (leaf, robot.stop)

/-- Whether the command goes on, and the command after it has looked. -/
def check (leaf : Leaf) (robot : Robot) : Leaf × Bool :=
  match leaf with
  | .action _ => (leaf, false)
  | .timed duration _ startedAt =>
    (leaf, robot.clock.since (startedAt.getD robot.clock) < duration)
  | .convergence mode target count measured =>
    let count := count.update (measured - target)
    (.convergence mode target count measured, !count.isSettled)
  | .waitUntil time => (leaf, robot.matchTime < time)

/-- What the command does when it ends. -/
def finish (leaf : Leaf) (robot : Robot) : Robot :=
  match leaf with
  | .timed _ (.tank ..) _ => robot.stop
  | .convergence mode .. => mode.disengage robot
  | .action _ | .timed _ .idle _ | .waitUntil _ => robot

end Leaf

end RobotRoutine
