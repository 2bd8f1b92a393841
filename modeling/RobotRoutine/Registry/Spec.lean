import RobotRoutine.Command.Basic
import RobotRoutine.Registry.Arguments
import RobotRoutine.Text.Quoted

/-!
# Command specs

What a registry knows about a command: its name in canonical spelling, what it does and how it is
used, how many arguments it takes, and how it is built from them.
-/

namespace RobotRoutine

/-- Refuses a number of arguments that a command does not take. -/
def Arity.check (arity : Arity) (command : String) (count : Nat) : Except ScriptError Unit :=
  if arity.accepts count then .ok () else .error (.argument command (.wrongCount arity count))

/-- What a registry knows about a command. -/
structure CommandSpec where
  name : String
  description : String
  usage : String
  arity : Arity
  /-- Builds the command from arguments of the right number. -/
  factory : List String → Tuning → Except ScriptError Command

namespace CommandSpec

/-- Builds the command; the arguments are counted first. -/
def build (spec : CommandSpec) (arguments : List String) (tuning : Tuning) :
    Except ScriptError Command :=
  match spec.arity.check spec.name arguments.length with
  | .error error => .error error
  | .ok () => spec.factory arguments tuning

/-- The inspection form of a spec. -/
def inspect (spec : CommandSpec) : String :=
  "CommandSpec \x7b name: " ++ Text.quoted spec.name ++ ", arity: " ++ spec.arity.inspect ++ " \x7d"

end CommandSpec

end RobotRoutine
