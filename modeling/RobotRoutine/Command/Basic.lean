import RobotRoutine.Command.Leaf

/-!
# Command trees

A command is a leaf, a group, or a wrapper that hands another command to a worker. Every command has
a name and a phase. A group keeps the steps it has finished apart from those that remain, so the
number of finished steps says which one is current. A step has one primary command, companions that
it waits for, and threaded companions that it does not wait for.
-/

namespace RobotRoutine

/-- How far a command has come. -/
inductive Phase where
  | notStarted
  | running
  | completed
deriving DecidableEq, Repr

namespace Phase

/-- The phase in words. -/
def toText : Phase → String
  | .notStarted => "not started"
  | .running => "running"
  | .completed => "completed"

/-- The inspection form of a phase. -/
def inspect : Phase → String
  | .notStarted => "NotStarted"
  | .running => "Running"
  | .completed => "Completed"

end Phase

/-- Why a poll of a routine failed. -/
inductive RoutineError where
  /-- A sensor that the command reads is out of order. -/
  | sensor (command : String) (fault : SensorFault)
  /-- The command's worker was started before. -/
  | taskAlreadyStarted (command : String)
deriving DecidableEq, Repr

namespace RoutineError

/-- The command that failed. -/
def command : RoutineError → String
  | .sensor command _ => command
  | .taskAlreadyStarted command => command

/-- What went wrong, without the command. -/
def reason : RoutineError → String
  | .sensor _ fault => fault.reason
  | .taskAlreadyStarted _ => "task already started"

/-- The error in words. -/
def message : RoutineError → String
  | .sensor command fault => "Command '" ++ command ++ "' faulted: " ++ fault.message
  | error@(.taskAlreadyStarted command) =>
    "Threaded command '" ++ command ++ "' failed: " ++ error.reason

end RoutineError

/-- A worker's side of a threaded command. -/
structure Task where
  /-- Whether the worker was told to stop. -/
  cancelled : Bool
  /-- The error that the worker met and nobody has taken yet. -/
  fault : Option RoutineError
deriving DecidableEq, Repr

namespace Task

/-- A task that has just been started. -/
def started : Task := ⟨false, none⟩

end Task

/-- One step of a group. -/
structure Step (α : Type) where
  primary : α
  /-- The commands that the step waits for besides its primary. -/
  companions : List α
  /-- The commands that run beside the step and those after it. -/
  threaded : List α

namespace Step

/-- A step with nothing beside its primary. -/
def ofPrimary {α : Type} (primary : α) : Step α :=
  ⟨primary, [], []⟩

/-- The commands that the step waits for. -/
def blocking {α : Type} (step : Step α) : List α :=
  step.primary :: step.companions

/-- Every command of the step. -/
def members {α : Type} (step : Step α) : List α :=
  step.primary :: (step.companions ++ step.threaded)

end Step

/-- A command with everything below it. -/
inductive Command where
  | leaf (name : String) (phase : Phase) (leaf : Leaf)
  /-- Hands `inner` to a worker that polls it at the given cadence. -/
  | threaded (name : String) (phase : Phase) (cadence : Duration) (task : Option Task)
      (inner : Command)
  | group (name : String) (phase : Phase) (finished remaining : List (Step Command))

namespace Command

/-- The command's name. -/
def name : Command → String
  | .leaf name .. => name
  | .threaded name .. => name
  | .group name .. => name

/-- How far the command has come. -/
def phase : Command → Phase
  | .leaf _ phase _ => phase
  | .threaded _ phase .. => phase
  | .group _ phase .. => phase

/-- The word for the command's kind. -/
def kind : Command → String
  | .leaf _ _ (.action _) => "action"
  | .leaf _ _ (.timed ..) => "timed"
  | .leaf _ _ (.convergence ..) => "convergence"
  | .leaf _ _ (.waitUntil _) => "wait-until"
  | .threaded .. => "threaded"
  | .group .. => "group"

/-- Whether the command hands another one to a worker. -/
def isThreaded : Command → Bool
  | .threaded .. => true
  | _ => false

/-- Whether the command is completed. -/
def isCompleted (command : Command) : Bool :=
  command.phase = .completed

/-- A command that has an effect once. -/
def action (name : String) (effect : Effect) : Command :=
  .leaf name .notStarted (.action effect)

/-- A command that holds an output for a time. -/
def timed (name : String) (duration : Duration) (output : TimedOutput) : Command :=
  .leaf name .notStarted (.timed duration output none)

/-- A command that follows a feedback loop until it has settled. -/
def convergence (name : String) (mode : ConvergenceMode) (target tolerance : Float)
    (required : UInt32) : Command :=
  .leaf name .notStarted (.convergence mode target (.start tolerance required) 0)

/-- A command that holds the drive stopped until a time in the match. -/
def waitUntil (name : String) (time : Duration) : Command :=
  .leaf name .notStarted (.waitUntil time)

/-- A command under the same name that hands `inner` to a worker. -/
def onWorker (inner : Command) (cadence : Duration) : Command :=
  .threaded inner.name .notStarted cadence none inner

/-- A group of steps none of which is finished. -/
def ofSteps (name : String) (steps : List (Step Command)) : Command :=
  .group name .notStarted [] steps

end Command

namespace Step

/-- Whether every command that the step waits for is completed. -/
def isComplete (step : Step Command) : Bool :=
  step.blocking.all Command.isCompleted

/-- The step with one more command beside its primary. -/
def join (step : Step Command) (command : Command) : Step Command :=
  if command.isThreaded then { step with threaded := step.threaded ++ [command] }
  else { step with companions := step.companions ++ [command] }

end Step

/-- The steps of a group that is being put together. -/
abbrev Steps := List (Step Command)

namespace Steps

/-- Opens one more step with `command` as its primary. -/
def appendSequential (steps : Steps) (command : Command) : Steps :=
  steps ++ [.ofPrimary command]

/-- Puts `command` beside the last step, or opens the first one with it. -/
def appendConcurrent : Steps → Command → Steps
  | [], command => [.ofPrimary command]
  | [step], command => [step.join command]
  | step :: rest, command => step :: appendConcurrent rest command

/-- Puts `command` on a worker of its own beside the last step. -/
def appendThreaded (steps : Steps) (command : Command) (cadence : Duration) : Steps :=
  steps.appendConcurrent (command.onWorker cadence)

end Steps

end RobotRoutine
