import RobotRoutine.Command.Lifecycle

/-!
# Workers

A worker polls one command over and over, on a cadence of its own, until it is told to stop. An
error that it meets is kept until somebody takes it. Telling it to stop aborts the command, so the
command ends once, whoever ends it. Letting go of a worker tells it to stop.
-/

namespace RobotRoutine

/-- A worker with the command it polls. -/
structure Worker where
  task : Task
  command : Command

namespace Worker

/-- A worker that has not polled its command yet. -/
def start (command : Command) : Worker :=
  ⟨.started, command⟩

/-- One round of the worker's loop: nothing once it was told to stop, else one poll. -/
def iterate (worker : Worker) (robot : Robot) : Worker × Robot :=
  if worker.task.cancelled then
    (worker, robot)
  else
    let polled := worker.command.poll robot
    ({ task := { worker.task with fault := polled.fault <|> worker.task.fault }
       command := polled.item }, polled.robot)

/-- Tells the worker to stop, and aborts its command. -/
def cancel (worker : Worker) (robot : Robot) : Worker × Robot :=
  if worker.task.cancelled then
    (worker, robot)
  else
    let (command, robot) := worker.command.abort robot
    ({ task := { worker.task with cancelled := true }, command }, robot)

/-- Takes the error that the worker met, if there is one. -/
def takeFault (worker : Worker) : Option RoutineError × Worker :=
  (worker.task.fault, { worker with task := { worker.task with fault := none } })

end Worker

namespace Command

mutual

/-- Lets every worker in the tree do one round of its loop, those further inside first. -/
def iterateWorkers : Command → Robot → Command × Robot
  | .threaded name phase cadence (some task) inner, robot =>
    if task.cancelled then
      (.threaded name phase cadence (some task) inner, robot)
    else
      let (inner, robot) := inner.iterateWorkers robot
      let (worker, robot) := Worker.iterate ⟨task, inner⟩ robot
      (.threaded name phase cadence (some worker.task) worker.command, robot)
  | .group name phase finished remaining, robot =>
    let (finished, robot) := iterateStepsWorkers finished robot
    let (remaining, robot) := iterateStepsWorkers remaining robot
    (.group name phase finished remaining, robot)
  | command, robot => (command, robot)

/-- Lets every worker in the commands do one round. -/
def iterateAllWorkers : List Command → Robot → List Command × Robot
  | [], robot => ([], robot)
  | command :: rest, robot =>
    let (command, robot) := command.iterateWorkers robot
    let (rest, robot) := iterateAllWorkers rest robot
    (command :: rest, robot)

/-- Lets every worker in a step do one round. -/
def iterateStepWorkers : Step Command → Robot → Step Command × Robot
  | ⟨primary, companions, beside⟩, robot =>
    let (primary, robot) := primary.iterateWorkers robot
    let (companions, robot) := iterateAllWorkers companions robot
    let (beside, robot) := iterateAllWorkers beside robot
    (⟨primary, companions, beside⟩, robot)

/-- Lets every worker in the steps do one round. -/
def iterateStepsWorkers : List (Step Command) → Robot → List (Step Command) × Robot
  | [], robot => ([], robot)
  | step :: rest, robot =>
    let (step, robot) := iterateStepWorkers step robot
    let (rest, robot) := iterateStepsWorkers rest robot
    (step :: rest, robot)

end

mutual

/-- Lets go of a command: every worker in it is told to stop. -/
def release : Command → Robot → Command × Robot
  | .threaded name phase cadence (some task) inner, robot =>
    let (inner, robot) := inner.release robot
    let (worker, robot) := Worker.cancel ⟨task, inner⟩ robot
    (.threaded name phase cadence (some worker.task) worker.command, robot)
  | .group name phase finished remaining, robot =>
    let (finished, robot) := releaseSteps finished robot
    let (remaining, robot) := releaseSteps remaining robot
    (.group name phase finished remaining, robot)
  | command, robot => (command, robot)

/-- Lets go of every command in the list. -/
def releaseAll : List Command → Robot → List Command × Robot
  | [], robot => ([], robot)
  | command :: rest, robot =>
    let (command, robot) := command.release robot
    let (rest, robot) := releaseAll rest robot
    (command :: rest, robot)

/-- Lets go of every command of a step. -/
def releaseStep : Step Command → Robot → Step Command × Robot
  | ⟨primary, companions, beside⟩, robot =>
    let (primary, robot) := primary.release robot
    let (companions, robot) := releaseAll companions robot
    let (beside, robot) := releaseAll beside robot
    (⟨primary, companions, beside⟩, robot)

/-- Lets go of every command of the steps. -/
def releaseSteps : List (Step Command) → Robot → List (Step Command) × Robot
  | [], robot => ([], robot)
  | step :: rest, robot =>
    let (step, robot) := releaseStep step robot
    let (rest, robot) := releaseSteps rest robot
    (step :: rest, robot)

end

end Command

end RobotRoutine
