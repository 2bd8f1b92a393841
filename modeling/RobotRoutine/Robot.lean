import RobotRoutine.Duration
import RobotRoutine.Robot.Drive
import RobotRoutine.Robot.Feedback
import RobotRoutine.Robot.Mechanism

/-!
# The robot

The simulated robot: a drive base, a feedback loop for the distance driven and one for the heading,
two mechanisms, a clock and the messages that were emitted. The model of motion is crude: power maps
linearly onto speed, the mean of the two sides moves the robot and their difference turns it.
-/

namespace RobotRoutine

/-- The physical parameters of the simulated robot. -/
structure PlantParameters where
  /-- Units of distance in a second at full power. -/
  maxSpeed : Float := 100
  /-- Degrees in a second at full difference between the sides. -/
  maxTurnRate : Float := 180
  /-- The gain of the distance controller. -/
  distanceGain : Float := 0.05
  /-- The gain of the heading controller. -/
  headingGain : Float := 0.02
deriving DecidableEq, Inhabited

/-- The robot and its clock. -/
structure Robot where
  plant : PlantParameters
  drive : Drive
  /-- The encoder and the controller that follows it. -/
  distance : FeedbackLoop
  /-- The gyro and the controller that follows it. -/
  heading : FeedbackLoop
  bucket : Actuator
  gearGuard : Actuator
  /-- The time that timed commands go by. -/
  clock : Duration
  /-- The time in the match, where it is not the clock. -/
  separateMatchClock : Option Duration
  /-- Every message emitted so far, the first one first. -/
  messages : List String
deriving DecidableEq

namespace Robot

/-- A robot at rest at time zero. -/
def ofParameters (plant : PlantParameters) : Robot where
  plant
  drive := .untouched
  distance :=
    { sensor := { device := "encoder", value := 0, outOfOrder := none }
      controller := { setpoint := 0, enabled := false, gain := plant.distanceGain } }
  heading :=
    { sensor := { device := "gyro", value := 0, outOfOrder := none }
      controller := { setpoint := 0, enabled := false, gain := plant.headingGain } }
  bucket := .untouched
  gearGuard := .untouched
  clock := .zero
  separateMatchClock := none
  messages := []

/-- The time in the match. -/
def matchTime (robot : Robot) : Duration :=
  robot.separateMatchClock.getD robot.clock

/-- The state of a mechanism. -/
def actuator (robot : Robot) : Mechanism → Actuator
  | .bucket => robot.bucket
  | .gearGuard => robot.gearGuard

/-- Runs each side of the drive at its own power. -/
def tank (robot : Robot) (left right : Float) : Robot :=
  { robot with drive := robot.drive.tank left right }

/-- Drives at a speed while turning. -/
def arcade (robot : Robot) (speed turn : Float) : Robot :=
  { robot with drive := robot.drive.arcade speed turn }

/-- Stops the drive. -/
def stop (robot : Robot) : Robot :=
  { robot with drive := robot.drive.stop }

/-- Changes the distance controller. -/
def controlDistance (robot : Robot) (change : Controller → Controller) : Robot :=
  { robot with distance := robot.distance.control change }

/-- Changes the heading controller. -/
def controlHeading (robot : Robot) (change : Controller → Controller) : Robot :=
  { robot with heading := robot.heading.control change }

/-- Changes the encoder. -/
def senseDistance (robot : Robot) (change : Sensor → Sensor) : Robot :=
  { robot with distance := robot.distance.sense change }

/-- Changes the gyro. -/
def senseHeading (robot : Robot) (change : Sensor → Sensor) : Robot :=
  { robot with heading := robot.heading.sense change }

/-- Sends a mechanism to a position. -/
def send (robot : Robot) (mechanism : Mechanism) (position : Position) : Robot :=
  match mechanism with
  | .bucket => { robot with bucket := robot.bucket.send position }
  | .gearGuard => { robot with gearGuard := robot.gearGuard.send position }

/-- Emits a message. -/
def emit (robot : Robot) (message : String) : Robot :=
  { robot with messages := robot.messages ++ [message] }

/-- Disables both controllers and stops the drive; mechanisms keep their positions. -/
def makeSafe (robot : Robot) : Robot :=
  ((robot.controlDistance Controller.disable).controlHeading Controller.disable).stop

theorem isStopped_makeSafe (robot : Robot) : robot.makeSafe.drive.IsStopped :=
  Or.inr rfl

theorem enabled_makeSafe (robot : Robot) :
    robot.makeSafe.distance.controller.enabled = false ∧
      robot.makeSafe.heading.controller.enabled = false :=
  ⟨rfl, rfl⟩

/-- The robot after it has moved for a time, without its clock. -/
def move (robot : Robot) (time : Duration) : Robot :=
  let (left, right) := robot.drive.output
  let seconds := time.toSeconds
  let driven := (left + right) / 2 * robot.plant.maxSpeed * seconds
  let turned := (left - right) / 2 * robot.plant.maxTurnRate * seconds
  (robot.senseDistance fun sensor => { sensor with value := sensor.value + driven }).senseHeading
    fun sensor => { sensor with value := sensor.value + turned }

/-- Moves the clock on, unless it would leave its range. -/
def advanceClock? (robot : Robot) (time : Duration) : Option Robot :=
  (robot.clock.add? time).map fun clock => { robot with clock }

/-- Lets a time pass for the robot and its clock, unless the clock would leave its range. -/
def advance? (robot : Robot) (time : Duration) : Option Robot :=
  (robot.move time).advanceClock? time

/-- How often any actuator was written. -/
def actuatorWrites (robot : Robot) : Nat :=
  robot.drive.writes + robot.bucket.writes + robot.gearGuard.writes

/-- The inspection form of the robot's actuators and its clock. -/
def inspect (robot : Robot) : String :=
  let position (actuator : Actuator) : String :=
    match actuator.position with
    | none => "None"
    | some .extended => "Some(Extended)"
    | some .retracted => "Some(Retracted)"
  "Hardware \x7b distance_controller_enabled: " ++ toString robot.distance.controller.enabled
    ++ ", heading_controller_enabled: " ++ toString robot.heading.controller.enabled
    ++ ", bucket: " ++ position robot.bucket
    ++ ", gear_guard: " ++ position robot.gearGuard
    ++ ", now: " ++ robot.clock.toText ++ " \x7d"

end Robot

end RobotRoutine
