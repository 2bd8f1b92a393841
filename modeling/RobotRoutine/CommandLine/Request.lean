import RobotRoutine.Alliance

/-!
# Requests on the command line

What the program can be asked to do, and why arguments may ask for nothing that it does.
-/

namespace RobotRoutine.CommandLine

/-- What the program is asked to do. -/
inductive Job where
  /-- Compile a script and show its commands. -/
  | check (script : String) (config : Option String)
  /-- Run a script, or the routine of the configuration, on the simulated robot. -/
  | run (script config : Option String) (alliance : Option Alliance) (realtime : Bool)
  /-- List the commands that scripts can use. -/
  | commands
  /-- Write a configuration with nothing but defaults. -/
  | initConfig (path : String)
deriving DecidableEq, Repr

/-- A job, and whether to say more about it than usual. -/
structure Request where
  verbose : Bool
  job : Job
deriving DecidableEq, Repr

/-- Why arguments make no request. -/
inductive Refusal where
  /-- They ask how the program is used. -/
  | helpAsked
  /-- They ask for the program's version. -/
  | versionAsked
  /-- There are none. -/
  | nothingGiven
  /-- No verb is among them. -/
  | noVerb
  | unknownVerb
  | unknownArgument
  /-- An option has no value, or an empty one where a path is due. -/
  | noValue
  /-- A value is neither of the alliances. -/
  | notAlliance
  /-- An option is given twice. -/
  | repeated
  /-- An option that takes no value is given one. -/
  | unwantedValue
  /-- The verb's operand is missing. -/
  | noOperand
deriving DecidableEq, Repr

end RobotRoutine.CommandLine
