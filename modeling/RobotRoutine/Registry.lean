import Std.Data.TreeMap
import RobotRoutine.Registry.Builtin
import RobotRoutine.Text.Lowercase

/-!
# The registry

A table of command specs by name, without regard to case: the key of a spec is its name in lower
case. A spec that is registered takes the place of the one with the same key. The specs are listed
in the order of their keys.
-/

namespace RobotRoutine

/-- A table of command specs by lower-cased name. -/
structure Registry where
  specs : Std.TreeMap String CommandSpec

namespace Registry

/-- The registry without any spec. -/
def empty : Registry := ⟨∅⟩

/-- The spec under a name. -/
def get? (registry : Registry) (name : String) : Option CommandSpec :=
  registry.specs[Text.lowercase name]?

/-- Whether there is a spec under a name. -/
def contains (registry : Registry) (name : String) : Bool :=
  (registry.get? name).isSome

/-- Adds a spec, and answers with the one whose place it takes. -/
def register (registry : Registry) (spec : CommandSpec) : Option CommandSpec × Registry :=
  (registry.get? spec.name, ⟨registry.specs.insert (Text.lowercase spec.name) spec⟩)

/-- The registry of the built-in commands. -/
def builtins : Registry :=
  Builtin.all.foldl (fun registry spec => (registry.register spec).2) empty

/-- The number of specs. -/
def size (registry : Registry) : Nat :=
  registry.specs.size

/-- Whether there is no spec. -/
def isEmpty (registry : Registry) : Bool :=
  registry.specs.isEmpty

/-- The specs in the order of their keys. -/
def toList (registry : Registry) : List CommandSpec :=
  registry.specs.values

/-- The names of the specs, as they are spelled, in the order of their keys. -/
def names (registry : Registry) : List String :=
  registry.toList.map CommandSpec.name

/-- Builds the command that an invocation asks for. -/
def build (registry : Registry) (invocation : Script.Invocation) (tuning : Tuning) :
    Except ScriptError Command :=
  match registry.get? invocation.name with
  | none => .error (.unknownCommand invocation.name)
  | some spec => spec.build invocation.arguments tuning

end Registry

end RobotRoutine
