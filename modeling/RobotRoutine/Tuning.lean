import RobotRoutine.Duration

/-!
# Tuning

The constants that commands are built with when a script leaves them open.
-/

namespace RobotRoutine

/-- The constants that commands are built with. -/
structure Tuning where
  /-- The threshold of a convergence command whose script gives none. -/
  defaultThreshold : UInt32 := 10
  /-- The scale of the heading controller's output while turning. -/
  turnCoefficient : Float := 0.8
  /-- The cadence of threaded commands, in milliseconds. -/
  cadenceMillis : UInt64 := 20
deriving DecidableEq, Inhabited

/-- What is wrong with the constants. -/
inductive TuningProblem where
  | noThreshold
  | badCoefficient
  | noCadence
deriving DecidableEq, Repr

namespace TuningProblem

/-- The problem in words. -/
def message : TuningProblem → String
  | .noThreshold => "Default threshold must be at least 1"
  | .badCoefficient => "Turn speed coefficient must be a positive number"
  | .noCadence => "Threaded cadence must be at least 1ms"

end TuningProblem

namespace Tuning

/-- Accepts constants that every command can be built with, and names the first problem of any
others. -/
def validate (tuning : Tuning) : Except TuningProblem Unit :=
  if tuning.defaultThreshold = 0 then .error .noThreshold
  else if !Decimal.isPositive tuning.turnCoefficient then .error .badCoefficient
  else if tuning.cadenceMillis = 0 then .error .noCadence
  else .ok ()

/-- The cadence of threaded commands. -/
def cadence (tuning : Tuning) : Duration :=
  .ofMillis tuning.cadenceMillis.toNat

end Tuning

end RobotRoutine
