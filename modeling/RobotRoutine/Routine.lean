import RobotRoutine.Registry

/-!
# Compiling a script

A script compiles into a routine: a group whose steps are opened by the sequential commands and
joined by the others. Every command is built before the first one is placed, so that a script with
an error anywhere gives no routine at all.
-/

namespace RobotRoutine

namespace Routine

/-- The name of the group that a script compiles into. -/
def rootName : String := "routine"

/-- The steps after one more command has been placed. -/
def place (cadence : Duration) (steps : Steps) (command : Script.Placement × Command) : Steps :=
  match command.1 with
  | .sequential => steps.appendSequential command.2
  | .concurrent => steps.appendConcurrent command.2
  | .threaded => steps.appendThreaded command.2 cadence

/-- The steps that commands make when they are placed in order. -/
def layOut (cadence : Duration) (commands : List (Script.Placement × Command)) : Steps :=
  commands.foldl (place cadence) []

/-- Builds the commands of all invocations, or answers with the first error. -/
def buildAll (registry : Registry) (tuning : Tuning) :
    List Script.Invocation → Except ScriptError (List (Script.Placement × Command))
  | [] => .ok []
  | invocation :: rest => do
    let command ← registry.build invocation tuning
    return (invocation.placement, command) :: (← buildAll registry tuning rest)

/-- Compiles a script. -/
def compile (text : String) (registry : Registry) (tuning : Tuning) :
    Except ScriptError Command :=
  match Script.parse text with
  | .error line => .error (.malformed line)
  | .ok entries =>
    (buildAll registry tuning (Script.invocations entries)).map fun commands =>
      .ofSteps rootName (layOut tuning.cadence commands)

end Routine

end RobotRoutine
