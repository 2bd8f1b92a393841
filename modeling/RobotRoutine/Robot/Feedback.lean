import RobotRoutine.Robot.Drive

/-!
# Sensors and feedback controllers

Each of the robot's two feedback loops pairs a sensor with a proportional controller. A sensor that
is out of order answers every reading with the reason, but keeps its value, which the controller
goes on using. A controller that is not enabled puts out zero.
-/

namespace RobotRoutine

/-- A reading that failed. -/
structure SensorFault where
  device : String
  reason : String
deriving DecidableEq, Repr

namespace SensorFault

/-- The fault in words. -/
def message (fault : SensorFault) : String :=
  "Hardware fault in " ++ fault.device ++ ": " ++ fault.reason

end SensorFault

/-- A sensor that measures one number. -/
structure Sensor where
  device : String
  value : Float
  /-- Why readings fail, if they do. -/
  outOfOrder : Option String
deriving DecidableEq

namespace Sensor

/-- Reads the sensor. -/
def read (sensor : Sensor) : Except SensorFault Float :=
  match sensor.outOfOrder with
  | some reason => .error { device := sensor.device, reason }
  | none => .ok sensor.value

end Sensor

/-- A proportional controller. -/
structure Controller where
  setpoint : Float
  enabled : Bool
  gain : Float
deriving DecidableEq

namespace Controller

/-- The controller switched on. -/
def enable (controller : Controller) : Controller :=
  { controller with enabled := true }

/-- The controller switched off. -/
def disable (controller : Controller) : Controller :=
  { controller with enabled := false }

/-- The controller aiming at another value. -/
def aim (controller : Controller) (setpoint : Float) : Controller :=
  { controller with setpoint }

end Controller

/-- A controller together with the sensor it follows. -/
structure FeedbackLoop where
  sensor : Sensor
  controller : Controller
deriving DecidableEq

namespace FeedbackLoop

/-- How far the measured value is from the setpoint. -/
def error (loop : FeedbackLoop) : Float :=
  loop.controller.setpoint - loop.sensor.value

/-- What the controller puts out. -/
def output (loop : FeedbackLoop) : Float :=
  if loop.controller.enabled then clampUnit (loop.error * loop.controller.gain) else 0

/-- The loop with its controller changed. -/
def control (loop : FeedbackLoop) (change : Controller → Controller) : FeedbackLoop :=
  { loop with controller := change loop.controller }

/-- The loop with its sensor changed. -/
def sense (loop : FeedbackLoop) (change : Sensor → Sensor) : FeedbackLoop :=
  { loop with sensor := change loop.sensor }

end FeedbackLoop

end RobotRoutine
