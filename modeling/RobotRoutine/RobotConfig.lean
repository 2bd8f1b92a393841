import RobotRoutine.HostLoop
import RobotRoutine.ScriptSource
import RobotRoutine.Text.Blank
import RobotRoutine.Tuning

/-!
# The configuration

What a host needs to know to run a routine: where its scripts are, which routine and which alliance
it is about, the period and the budget of the phase, and the constants of commands and robot. Every
part has a default.
-/

namespace RobotRoutine

/-- The configuration of a host. -/
structure RobotConfig where
  /-- The directory of the scripts. -/
  scriptDirectory : String := "autos"
  /-- The name of the routine. -/
  routine : String := "auto"
  alliance : Alliance := .red
  /-- The period of the host loop, in milliseconds. -/
  periodMillis : UInt64 := 20
  /-- The budget of the phase, in seconds. -/
  budgetSeconds : Float := 15
  tuning : Tuning := {}
  plant : PlantParameters := {}
deriving DecidableEq, Inhabited

/-- What is wrong with a configuration. -/
inductive ConfigProblem where
  | noRoutine
  | separatorInRoutine
  | noPeriod
  | badBudget
  | tuning (problem : TuningProblem)
deriving DecidableEq, Repr

namespace ConfigProblem

/-- The problem in words. -/
def message : ConfigProblem → String
  | .noRoutine => "Routine name must be specified"
  | .separatorInRoutine => "Routine name cannot contain path separators"
  | .noPeriod => "Host loop period must be at least 1ms"
  | .badBudget => "Autonomous budget must be a positive number of seconds"
  | .tuning problem => problem.message

end ConfigProblem

namespace RobotConfig

/-- Accepts a configuration with which a phase can be run, and names the first problem of any
other. The parameters of the robot are not looked at. -/
def validate (config : RobotConfig) : Except ConfigProblem Unit :=
  if Text.isAllBlank config.routine.toList then .error .noRoutine
  else if config.routine.toList.any (fun c => c = '/' ∨ c = '\\') then .error .separatorInRoutine
  else if config.periodMillis = 0 then .error .noPeriod
  else if !Decimal.isPositive config.budgetSeconds then .error .badBudget
  else config.tuning.validate.mapError .tuning

/-- The period of the host loop. -/
def period (config : RobotConfig) : Duration :=
  .ofMillis config.periodMillis.toNat

/-- The budget of the phase; the longest duration stands in for a number of seconds that no duration
has. -/
def budget (config : RobotConfig) : Duration :=
  (Duration.ofSeconds? config.budgetSeconds).getD .longest

/-- The loop that runs the phase. -/
def hostLoop (config : RobotConfig) : HostLoop :=
  { period := config.period, budget := config.budget }

/-- Where the script of the phase is found. -/
def scriptSource (config : RobotConfig) : ScriptSource :=
  .ofRoutine config.scriptDirectory config.routine config.alliance

end RobotConfig

end RobotRoutine
