import RobotRoutine.Alliance
import RobotRoutine.Files.Access
import RobotRoutine.Files.Path
import RobotRoutine.Routine

/-!
# Where scripts are found

A script is read from a primary path or, if that cannot be read, from a fallback. A routine has one
script for each alliance, and one for both as the fallback.
-/

namespace RobotRoutine

/-- Where a script is read from. -/
structure ScriptSource where
  primary : String
  fallback : Option String
deriving DecidableEq, Repr

namespace ScriptSource

/-- A script without a fallback. -/
def ofPath (path : String) : ScriptSource :=
  ⟨path, none⟩

/-- The scripts of a routine in a directory. -/
def ofRoutine (directory routine : String) (alliance : Alliance) : ScriptSource where
  primary := Path.join directory (routine ++ "_" ++ alliance.toText ++ ".txt")
  fallback := some (Path.join directory (routine ++ ".txt"))

/-- The paths in the order in which they are tried. -/
def paths (source : ScriptSource) : List String :=
  source.primary :: source.fallback.toList

variable {m : Type → Type} [Monad m]

/-- The path that was read, and the script. -/
def read (source : ScriptSource) (files : FileAccess m) :
    m (Except ScriptError (String × String)) := do
  let unreadable (failure : FileFailure) : Except ScriptError (String × String) :=
    .error (.unreadable source.paths failure)
  match ← files.readText source.primary with
  | .ok text => return .ok (source.primary, text)
  | .error failure =>
    match source.fallback with
    | none => return unreadable failure
    | some path =>
      match ← files.readText path with
      | .ok text => return .ok (path, text)
      | .error failure => return unreadable failure

/-- Reads a script and compiles it. -/
def load (source : ScriptSource) (files : FileAccess m) (registry : Registry) (tuning : Tuning) :
    m (Except ScriptError Command) := do
  match ← source.read files with
  | .ok (_, text) => return Routine.compile text registry tuning
  | .error error => return .error error

end ScriptSource

end RobotRoutine
