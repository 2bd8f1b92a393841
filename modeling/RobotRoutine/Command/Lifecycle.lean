import RobotRoutine.Command.Basic

/-!
# The life of a command

A command starts at its first poll, runs at this and every later poll, and ends when it has nothing
left to do, when it fails, or when it is aborted. A completed command does nothing any more, and a
command that never started has nothing to end. A failure ends the command before anyone hears of it.

A group polls the threaded companions of its finished steps, then the current step, and goes on to
the next step within the same poll when the current one is complete. The first failure ends the
group at once. However a group ends, everything in it that still runs is aborted.

A threaded command is only watched by its poll; the worker polls what is inside.
-/

namespace RobotRoutine

namespace Command

/-! ## Aborting -/

mutual

/-- Ends the command if it is running. -/
def abort : Command → Robot → Command × Robot
  | .leaf name .running work, robot => (.leaf name .completed work, work.finish robot)
  | .threaded name .running cadence (some task) inner, robot =>
    if task.cancelled then
      (.threaded name .completed cadence (some task) inner, robot)
    else
      let (inner, robot) := inner.abort robot
      (.threaded name .completed cadence (some { task with cancelled := true }) inner, robot)
  | .threaded name .running cadence none inner, robot =>
    (.threaded name .completed cadence none inner, robot)
  | .group name .running finished remaining, robot =>
    let (finished, robot) := abortSteps finished robot
    let (remaining, robot) := abortSteps remaining robot
    (.group name .completed finished remaining, robot)
  | command, robot => (command, robot)

/-- Ends those of the commands that are running. -/
def abortAll : List Command → Robot → List Command × Robot
  | [], robot => ([], robot)
  | command :: rest, robot =>
    let (command, robot) := command.abort robot
    let (rest, robot) := abortAll rest robot
    (command :: rest, robot)

/-- Ends what is running in a step. -/
def abortStep : Step Command → Robot → Step Command × Robot
  | ⟨primary, companions, beside⟩, robot =>
    let (primary, robot) := primary.abort robot
    let (companions, robot) := abortAll companions robot
    let (beside, robot) := abortAll beside robot
    (⟨primary, companions, beside⟩, robot)

/-- Ends what is running in any of the steps. -/
def abortSteps : List (Step Command) → Robot → List (Step Command) × Robot
  | [], robot => ([], robot)
  | step :: rest, robot =>
    let (step, robot) := abortStep step robot
    let (rest, robot) := abortSteps rest robot
    (step :: rest, robot)

end

/-! ## Polling -/

/-- What a poll leaves behind: the command or commands, the robot, and the error if it failed. -/
structure Polled (α : Type) where
  item : α
  robot : Robot
  fault : Option RoutineError

namespace Polled

/-- The same poll seen as one of something larger. -/
def map {α β : Type} (f : α → β) (polled : Polled α) : Polled β :=
  ⟨f polled.item, polled.robot, polled.fault⟩

/-- Ends the command that was polled if the poll failed or `isDone` holds of it. -/
def finishIf (isDone : Bool) (polled : Polled Command) : Polled Command :=
  if polled.fault.isSome || isDone then
    let (item, robot) := polled.item.abort polled.robot
    ⟨item, robot, polled.fault⟩
  else
    polled

end Polled

/-- Polls a leaf that is running. -/
def pollLeaf (name : String) (work : Leaf) (robot : Robot) : Polled Command :=
  match work.run robot with
  | .error fault =>
    Polled.finishIf true ⟨.leaf name .running work, robot, some (.sensor name fault)⟩
  | .ok (work, robot) =>
    let (work, goesOn) := work.check robot
    Polled.finishIf (!goesOn) ⟨.leaf name .running work, robot, none⟩

/-- Polls a threaded command that is running: the error of its worker is taken if there is one, and
otherwise the command is done when the one inside is completed. -/
def pollThreaded (name : String) (cadence : Duration) (task : Task) (inner : Command)
    (robot : Robot) : Polled Command :=
  Polled.finishIf inner.isCompleted
    ⟨.threaded name .running cadence (some { task with fault := none }) inner, robot, task.fault⟩

mutual

/-- Advances the command by one tick. -/
def poll : Command → Robot → Polled Command
  | .leaf name .notStarted work, robot =>
    let (work, robot) := work.start robot
    pollLeaf name work robot
  | .leaf name .running work, robot => pollLeaf name work robot
  | .threaded name .notStarted cadence none inner, robot =>
    pollThreaded name cadence .started inner robot
  | .threaded name .notStarted cadence (some task) inner, robot =>
    Polled.finishIf true
      ⟨.threaded name .running cadence (some task) inner, robot, some (.taskAlreadyStarted name)⟩
  | .threaded name .running cadence (some task) inner, robot =>
    pollThreaded name cadence task inner robot
  | .threaded name .running cadence none inner, robot =>
    Polled.finishIf inner.isCompleted ⟨.threaded name .running cadence none inner, robot, none⟩
  | .group name .notStarted finished remaining, robot
  | .group name .running finished remaining, robot =>
    let beside := pollFinished finished robot
    let polled : Polled (List (Step Command) × List (Step Command)) :=
      match beside.fault with
      | some _ => beside.map fun finished => (finished, remaining)
      | none => (runSteps remaining beside.robot).map fun (done, left) => (beside.item ++ done, left)
    (polled.map fun (finished, remaining) => .group name .running finished remaining).finishIf
      polled.item.2.isEmpty
  | command, robot => ⟨command, robot, none⟩

/-- Polls one command after another until one of them fails. -/
def pollAll : List Command → Robot → Polled (List Command)
  | [], robot => ⟨[], robot, none⟩
  | command :: rest, robot =>
    let first := command.poll robot
    match first.fault with
    | some _ => first.map (· :: rest)
    | none => (pollAll rest first.robot).map (first.item :: ·)

/-- Polls every command of a step until one of them fails. -/
def pollStep : Step Command → Robot → Polled (Step Command)
  | ⟨primary, companions, beside⟩, robot =>
    let first := primary.poll robot
    match first.fault with
    | some _ => first.map (⟨·, companions, beside⟩)
    | none =>
      let second := pollAll companions first.robot
      match second.fault with
      | some _ => second.map (⟨first.item, ·, beside⟩)
      | none => (pollAll beside second.robot).map (⟨first.item, second.item, ·⟩)

/-- Polls the threaded companions of finished steps until one of them fails. -/
def pollFinished : List (Step Command) → Robot → Polled (List (Step Command))
  | [], robot => ⟨[], robot, none⟩
  | ⟨primary, companions, beside⟩ :: rest, robot =>
    let first := pollAll beside robot
    match first.fault with
    | some _ => first.map (⟨primary, companions, ·⟩ :: rest)
    | none => (pollFinished rest first.robot).map (⟨primary, companions, first.item⟩ :: ·)

/-- Polls one step after another as long as each is complete after its poll; answers with the steps
that were completed and those that are left. -/
def runSteps : List (Step Command) → Robot → Polled (List (Step Command) × List (Step Command))
  | [], robot => ⟨([], []), robot, none⟩
  | step :: rest, robot =>
    let first := pollStep step robot
    match first.fault with
    | some _ => first.map fun step => ([], step :: rest)
    | none =>
      if first.item.isComplete then
        (runSteps rest first.robot).map fun (done, left) => (first.item :: done, left)
      else
        first.map fun step => ([], step :: rest)

end

end Command

end RobotRoutine
