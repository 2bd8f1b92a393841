import RobotRoutine.Command.Worker

/-!
# The engine

The engine owns a routine and polls its root once a tick. After an error, an abort or the routine's
completion a tick does nothing. Dropping the engine aborts a routine in flight and lets go of it.
-/

namespace RobotRoutine

/-- How a routine stands. -/
inductive RoutineStatus where
  | running
  | completed
  | aborted
deriving DecidableEq, Repr

namespace RoutineStatus

/-- The status in words. -/
def toText : RoutineStatus → String
  | .running => "running"
  | .completed => "completed"
  | .aborted => "aborted"

end RoutineStatus

/-- A routine that is being ticked. -/
structure Engine where
  root : Command
  /-- How often the root was polled. -/
  ticks : Nat
  aborted : Bool

namespace Engine

/-- An engine that has not ticked yet. -/
def ofRoot (root : Command) : Engine :=
  ⟨root, 0, false⟩

/-- How the routine stands. It is running also before its first tick. -/
def status (engine : Engine) : RoutineStatus :=
  if engine.aborted then .aborted
  else if engine.root.isCompleted then .completed
  else .running

/-- Aborts the routine, once. -/
def abort (engine : Engine) (robot : Robot) : Engine × Robot :=
  if engine.aborted then
    (engine, robot)
  else
    let (root, robot) := engine.root.abort robot
    ({ engine with root, aborted := true }, robot)

/-- What a tick leaves behind: the engine, the robot, and the status or the error. -/
structure Ticked where
  engine : Engine
  robot : Robot
  result : Except RoutineError RoutineStatus

/-- Polls the root once if the routine is running. An error aborts the routine. -/
def tick (engine : Engine) (robot : Robot) : Ticked :=
  match engine.status with
  | .running =>
    let polled := engine.root.poll robot
    let engine := { engine with root := polled.item, ticks := engine.ticks + 1 }
    match polled.fault with
    | some error =>
      let (engine, robot) := engine.abort polled.robot
      ⟨engine, robot, .error error⟩
    | none =>
      ⟨engine, polled.robot, .ok (if polled.item.isCompleted then .completed else .running)⟩
  | status => ⟨engine, robot, .ok status⟩

/-- Drops the engine: a routine in flight is aborted, and its workers are let go of. -/
def drop (engine : Engine) (robot : Robot) : Engine × Robot :=
  let (engine, robot) :=
    if engine.status = .running then engine.abort robot else (engine, robot)
  let (root, robot) := engine.root.release robot
  ({ engine with root }, robot)

/-- Lets every worker of the routine do one round of its loop. -/
def iterateWorkers (engine : Engine) (robot : Robot) : Engine × Robot :=
  let (root, robot) := engine.root.iterateWorkers robot
  ({ engine with root }, robot)

end Engine

end RobotRoutine
