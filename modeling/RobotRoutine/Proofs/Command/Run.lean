import RobotRoutine.Proofs.Command.Order

/-!
# Runs of a routine

A run is a list of events: the root is polled or aborted, some worker in the
tree does one round, or the readings of sensors and clocks change to anything
at all. Nothing but the routine writes actuators, so a change of conditions
leaves these alone.

`Scene.step_cases` is the whole of what later files need: in an orderly tree an
event is either a change of conditions or a sequence of moves.
-/

namespace RobotRoutine

/-- What a routine finds rather than makes: the sensors and the clocks. -/
structure Conditions where
  encoder : Sensor
  gyro : Sensor
  clock : Duration
  separateMatchClock : Option Duration

/-- The robot with its sensors and clocks changed from outside. -/
def Robot.under (robot : Robot) (conditions : Conditions) : Robot :=
  { robot with
    distance := robot.distance.sense fun _ => conditions.encoder
    heading := robot.heading.sense fun _ => conditions.gyro
    clock := conditions.clock
    separateMatchClock := conditions.separateMatchClock }

/-- One thing that happens in a run. -/
inductive Event where
  | poll
  | abort
  /-- The worker at a place does one round; nothing if there is none or it was told to stop. -/
  | work (place : Place)
  | change (conditions : Conditions)

/-- A routine and the robot it acts on. -/
structure Scene where
  root : Command
  robot : Robot

namespace Scene

/-- The scene after one event. -/
def step (scene : Scene) : Event → Scene
  | .poll =>
    let polled := scene.root.poll scene.robot
    ⟨polled.item, polled.robot⟩
  | .abort =>
    let (root, robot) := scene.root.abort scene.robot
    ⟨root, robot⟩
  | .work place =>
    let (root, robot) := scene.root.visit Command.iterateWorker place scene.robot
    ⟨root, robot⟩
  | .change conditions => { scene with robot := scene.robot.under conditions }

/-- The scene after one event after another. -/
def after (scene : Scene) (events : List Event) : Scene :=
  events.foldl step scene

theorem after_append (scene : Scene) (first second : List Event) :
    scene.after (first ++ second) = (scene.after first).after second :=
  List.foldl_append ..

theorem after_concat (scene : Scene) (events : List Event) (event : Event) :
    scene.after (events ++ [event]) = (scene.after events).step event := by
  rw [after_append]
  rfl

open Command

theorem step_cases {scene : Scene} (ho : Everywhere Orderly scene.root) (event : Event) :
    Moves (scene.root, scene.robot) ((scene.step event).root, (scene.step event).robot) ∨
      ∃ conditions, scene.step event = ⟨scene.root, scene.robot.under conditions⟩ := by
  cases event with
  | poll => exact Or.inl (poll_moves scene.root scene.robot)
  | abort => exact Or.inl (abort_moves scene.root scene.robot)
  | work place => exact Or.inl (iterateWorker_moves ho place scene.robot)
  | change conditions => exact Or.inr ⟨conditions, rfl⟩

theorem orderly_step {scene : Scene} (ho : Everywhere Orderly scene.root) (event : Event) :
    Everywhere Orderly (scene.step event).root := by
  rcases step_cases ho event with h | ⟨conditions, h⟩
  · exact h.orderly ho
  · rw [h]
    exact ho

/-- A tree that starts in order is in order after every run. -/
theorem orderly_after {scene : Scene} (ho : Everywhere Orderly scene.root)
    (events : List Event) : Everywhere Orderly (scene.after events).root := by
  induction events generalizing scene with
  | nil => exact ho
  | cons event rest ih => exact ih (orderly_step ho event)

end Scene

end RobotRoutine
