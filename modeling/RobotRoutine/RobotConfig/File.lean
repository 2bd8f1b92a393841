import RobotRoutine.RobotConfig.Json
import RobotRoutine.Text.Quoted

/-!
# Configuration files

A configuration is read from a file and validated, or saved to one as it is.
-/

namespace RobotRoutine

/-- Why a configuration cannot be read or saved. -/
inductive ConfigError where
  | unreadable (path : String) (failure : FileFailure)
  /-- The text in the file is no configuration. -/
  | malformed
  | invalid (problem : ConfigProblem)
  | unwritable (path : String) (failure : FileFailure)
deriving DecidableEq, Repr

namespace ConfigError

/-- The error in words. -/
def message : ConfigError → String
  | .unreadable path _ => "Failed to read configuration from " ++ Text.quoted path
  | .malformed => "Failed to parse configuration JSON"
  | .invalid problem => problem.message
  | .unwritable path _ => "Failed to write configuration to " ++ Text.quoted path

/-- What lies behind the error, as far as its words do not say it. -/
def cause : ConfigError → Option FileFailure
  | .unreadable _ failure | .unwritable _ failure => some failure
  | .malformed | .invalid _ => none

end ConfigError

namespace RobotConfig

/-- The valid configuration that a text describes. -/
def read (text : String) : Except ConfigError RobotConfig :=
  match ofText? text with
  | none => .error .malformed
  | some config =>
    match config.validate with
    | .error problem => .error (.invalid problem)
    | .ok () => .ok config

variable {m : Type → Type} [Monad m]

/-- Loads a configuration from the file at a path. -/
def load (files : FileAccess m) (path : String) : m (Except ConfigError RobotConfig) := do
  match ← files.readText path with
  | .ok text => return read text
  | .error failure => return .error (.unreadable path failure)

/-- Saves a configuration to the file at a path. -/
def save (config : RobotConfig) (files : FileAccess m) (path : String) :
    m (Except ConfigError Unit) := do
  match ← files.write path config.toText with
  | .ok () => return .ok ()
  | .error failure => return .error (.unwritable path failure)

end RobotConfig

end RobotRoutine
