import RobotRoutine.Command.Describe
import RobotRoutine.CommandLine.Arguments
import RobotRoutine.CommandLine.Report

/-!
# Doing what is asked

Each job on the command line, as a program over some place where files are kept. Nothing is written
before everything that is read is known to be right, and the routine is run to its end before there
is anything to tell.
-/

namespace RobotRoutine.CommandLine

variable {m : Type → Type} [Monad m]

/-- The configuration at a path, or the default one where there is no path. -/
def loadConfig (files : FileAccess m) : Option String → m (Except ConfigError RobotConfig)
  | none => return .ok {}
  | some path => RobotConfig.load files path

/-- Compiles a script and shows its commands. -/
def check (files : FileAccess m) (script : String) (config : Option String) : m Report := do
  match ← loadConfig files config with
  | .error error => return .failed (.ofConfigError error)
  | .ok config =>
    match ← (ScriptSource.ofPath script).load files .builtins config.tuning with
    | .error error =>
      return .failed
        (.ofScriptError ("Script " ++ Text.quoted script ++ " failed to compile") error)
    | .ok root =>
      return .done (root.describe ++ "✓ Script is valid: " ++ script ++ "\n")

/-- The host of a run on the simulated robot: between ticks every worker does one round and the
period passes, and nobody asks to stop. -/
def simulation : Host Unit where
  stopRequested _ := false
  between period session :=
    let (engine, robot) := session.engine.iterateWorkers session.robot
    (robot.advance? period).map fun robot => { session with engine, robot }

/-- Where a mechanism stands, in words. -/
def positionText (actuator : Actuator) : String :=
  match actuator.position with
  | none => "untouched"
  | some position => position.toText

/-- What there is to say about a sensor's value; a sensor that is out of order has none. -/
def sensorText (sensor : Sensor) : String :=
  match sensor.read with
  | .ok value => Decimal.fixed 1 value
  | .error _ => "NaN"

/-- How a run ended, and where it left the robot. -/
def summaryText (summary : RunSummary) (robot : Robot) : String :=
  "Routine " ++ summary.outcome.toText ++ " after " ++ toString summary.ticks ++ " ticks ("
    ++ Decimal.fixed 2 summary.elapsed.toSeconds ++ "s)\n"
    ++ "Distance: " ++ sensorText robot.distance.sensor
    ++ "  Heading: " ++ sensorText robot.heading.sensor
    ++ "  Bucket: " ++ positionText robot.bucket
    ++ "  Gear guard: " ++ positionText robot.gearGuard ++ "\n"

/-- Runs a routine on a robot at rest, then drops it and makes the robot safe. -/
def simulate (config : RobotConfig) (root : Command) : Robot × Except RunFailure RunSummary :=
  let loop := config.hostLoop
  let (session, result) := loop.run simulation loop.tickLimit
    { engine := .ofRoot root, robot := .ofParameters config.plant, state := () }
  let (_, robot) := session.engine.drop session.robot
  (robot.makeSafe, result)

/-- The report on a run that ended. A clock that left its range ends the program out of turn. -/
def runReport (realtime : Bool) (robot : Robot) : Except RunFailure RunSummary → Report
  | .ok summary =>
    { Report.done (summaryText summary robot) with pace := if realtime then robot.clock else .zero }
  | .error failure =>
    { Report.failed (.ofRunFailure failure) with
      exitCode := if failure = .clockOverflow then 101 else 1
      pace := if realtime then robot.clock else .zero }

/-- Runs a script, or the routine of the configuration, on the simulated robot. -/
def run (files : FileAccess m) (script config : Option String) (alliance : Option Alliance)
    (realtime : Bool) : m Report := do
  match ← loadConfig files config with
  | .error error => return .failed (.ofConfigError error)
  | .ok config =>
    let config := { config with alliance := alliance.getD config.alliance }
    let source := (script.map ScriptSource.ofPath).getD config.scriptSource
    match ← source.load files .builtins config.tuning with
    | .error error => return .failed (.ofScriptError "Failed to load routine" error)
    | .ok root =>
      let (robot, result) := simulate config root
      return runReport realtime robot result

/-- A text with blanks behind it up to a width. -/
def pad (width : Nat) (text : String) : String :=
  text ++ String.ofList (List.replicate (width - text.length) ' ')

/-- A command's usage, its arity and what it does, in columns. -/
def specLine (spec : CommandSpec) : String :=
  pad 40 spec.usage ++ " " ++ pad 26 spec.arity.toText ++ " " ++ spec.description ++ "\n"

/-- Lists the commands of a registry. -/
def listCommands (registry : Registry) : Report :=
  .done (String.join (registry.toList.map specLine))

/-- Writes a configuration with nothing but defaults. -/
def initConfig (files : FileAccess m) (path : String) : m Report := do
  match ← ({} : RobotConfig).save files path with
  | .error error => return .failed (.ofConfigError error)
  | .ok () => return .done ("✓ Default configuration written to " ++ path ++ "\n")

/-- Does a job. -/
def perform (files : FileAccess m) : Job → m Report
  | .check script config => check files script config
  | .run script config alliance realtime => run files script config alliance realtime
  | .commands => return listCommands .builtins
  | .initConfig path => initConfig files path

/-- Does what arguments ask for. -/
def respond (files : FileAccess m) (arguments : List String) : m Report :=
  match Request.ofArguments arguments with
  | .error refusal => return .refused refusal
  | .ok request => perform files request.job

end RobotRoutine.CommandLine
