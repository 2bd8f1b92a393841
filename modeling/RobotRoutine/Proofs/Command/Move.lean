import Mathlib.Logic.Relation
import RobotRoutine.Proofs.Command.Place

/-!
# The small moves that a routine is made of

Polls, aborts and the rounds of workers are long, and most of what they do is
walking through the tree. What they do to it comes down to the moves below:
a leaf's hooks, a worker that is started, told to stop or has its fault noted,
a group that is entered, advances or closes, and any of these further down.
Each rule carries the condition under which the code gets there, so whatever
every move keeps, every run keeps.

Two of the rules never apply to a tree that was put together and run as the
engine does it: `respawn` and `leave` are what the code would do with a
wrapper whose worker is not in the state that its phase says. They are here so
that the lemmas on `abort` and `poll` hold without any assumption on the tree.
-/

namespace RobotRoutine

namespace Command

/-- Whether a command lets the one below it move: a wrapper does while its
worker is at work, a group while the member belongs to a step that was reached
or has been started before. -/
def Admits : Command → Turn → Command → Prop
  | .threaded _ _ _ (some task) _, .inner, _ => task.cancelled = false
  | .group _ _ finished _, .member step _, child =>
    step ≤ finished.length ∨ child.phase ≠ .notStarted
  | _, _, _ => False

/-- One small thing that happens to a tree and the robot. -/
inductive Move : Command → Robot → Command → Robot → Prop
  | start {name : String} {work : Leaf} {robot : Robot} :
      Move (.leaf name .notStarted work) robot
        (.leaf name .running (work.start robot).1) (work.start robot).2
  | run {name : String} {work work' : Leaf} {robot robot' : Robot}
      (h : work.run robot = .ok (work', robot')) :
      Move (.leaf name .running work) robot (.leaf name .running work') robot'
  | check {name : String} {work : Leaf} {robot : Robot} :
      Move (.leaf name .running work) robot (.leaf name .running (work.check robot).1) robot
  | finish {name : String} {work : Leaf} {robot : Robot} :
      Move (.leaf name .running work) robot (.leaf name .completed work) (work.finish robot)
  | spawn {name : String} {cadence : Duration} {inner : Command} {robot : Robot} :
      Move (.threaded name .notStarted cadence none inner) robot
        (.threaded name .running cadence (some .started) inner) robot
  | respawn {name : String} {cadence : Duration} {task : Task} {inner : Command} {robot : Robot} :
      Move (.threaded name .notStarted cadence (some task) inner) robot
        (.threaded name .running cadence (some task) inner) robot
  | note {name : String} {cadence : Duration} {task : Task} {inner : Command} {robot : Robot}
      (fault : Option RoutineError) :
      Move (.threaded name .running cadence (some task) inner) robot
        (.threaded name .running cadence (some { task with fault }) inner) robot
  | cancel {name : String} {cadence : Duration} {task : Task} {inner : Command} {robot : Robot}
      (h : inner.phase ≠ .running) :
      Move (.threaded name .running cadence (some task) inner) robot
        (.threaded name .completed cadence (some { task with cancelled := true }) inner) robot
  | leave {name : String} {cadence : Duration} {task : Option Task} {inner : Command}
      {robot : Robot} (h : ∀ t ∈ task, t.cancelled = true) :
      Move (.threaded name .running cadence task inner) robot
        (.threaded name .completed cadence task inner) robot
  | enter {name : String} {finished remaining : List (Step Command)} {robot : Robot} :
      Move (.group name .notStarted finished remaining) robot
        (.group name .running finished remaining) robot
  | advance {name : String} {finished rest : List (Step Command)} {step : Step Command}
      {robot : Robot} (h : step.isComplete = true) :
      Move (.group name .running finished (step :: rest)) robot
        (.group name .running (finished ++ [step]) rest) robot
  | close {name : String} {finished remaining : List (Step Command)} {robot : Robot}
      (h : ∀ turn child, (Command.group name .running finished remaining).child? turn = some child →
        child.phase ≠ .running) :
      Move (.group name .running finished remaining) robot
        (.group name .completed finished remaining) robot
  | child {command old new : Command} {turn : Turn} {robot robot' : Robot}
      (hrunning : command.phase = .running) (hold : command.child? turn = some old)
      (hadmits : command.Admits turn old) (h : Move old robot new robot') :
      Move command robot (command.setChild turn new) robot'

/-- Any number of moves. -/
abbrev Moves : Command × Robot → Command × Robot → Prop :=
  Relation.ReflTransGen fun before after => Move before.1 before.2 after.1 after.2

theorem Move.moves {command command' : Command} {robot robot' : Robot}
    (h : Move command robot command' robot') : Moves (command, robot) (command', robot') :=
  .single h

/-! ## What every move does to the phase -/

theorem Move.phase_ne_completed {command command' : Command} {robot robot' : Robot}
    (h : Move command robot command' robot') : command.phase ≠ .completed := by
  cases h with
  | child hrunning => rw [hrunning]; decide
  | _ => exact Phase.noConfusion

theorem Move.phase_ne_notStarted {command command' : Command} {robot robot' : Robot}
    (h : Move command robot command' robot') : command'.phase ≠ .notStarted := by
  cases h with
  | child hrunning => rw [phase_setChild, hrunning]; decide
  | _ => exact Phase.noConfusion

theorem Moves.eq_or_phase_ne_notStarted {before after : Command × Robot}
    (h : Moves before after) : after = before ∨ after.1.phase ≠ .notStarted := by
  cases h with
  | refl => exact Or.inl rfl
  | tail _ hlast => exact Or.inr hlast.phase_ne_notStarted

/-! ## Moves of a child are moves of its parent -/

theorem Admits.of_started {command old child : Command} {turn : Turn}
    (h : command.Admits turn old) (hchild : child.phase ≠ .notStarted) :
    command.Admits turn child := by
  match command, turn with
  | .threaded _ _ _ (some _) _, .inner => exact h
  | .group .., .member .. => exact Or.inr hchild
  | .leaf .., _ | .threaded _ _ _ none _, .inner | .threaded .., .member .. | .group .., .inner =>
      simp [Admits] at h

theorem admits_member {command child : Command} {step : Nat} {role : Role}
    (h : command.Admits (.member step role) child) :
    step ≤ command.current ∨ child.phase ≠ .notStarted := by
  match command with
  | .group .. => exact h
  | .leaf .. | .threaded .. => simp [Admits] at h

theorem admits_setChild {command child : Command} {turn : Turn} (new : Command)
    (h : command.Admits turn child) :
    (command.setChild turn new).Admits turn child := by
  match command, turn with
  | .threaded _ _ _ (some _) _, .inner => exact h
  | .group name phase finished remaining, .member step role =>
      obtain ⟨finished', remaining', hset, hlength, -⟩ :=
        setChild_group name phase finished remaining step role new
      rw [hset, Admits, hlength]
      exact h
  | .leaf .., _ | .threaded _ _ _ none _, .inner | .threaded .., .member .. | .group .., .inner =>
      simp [Admits] at h

theorem Moves.child {command old : Command} {turn : Turn} {robot : Robot}
    {after : Command × Robot} (hrunning : command.phase = .running)
    (hold : command.child? turn = some old) (hadmits : command.Admits turn old)
    (h : Moves (old, robot) after) :
    Moves (command, robot) (command.setChild turn after.1, after.2) := by
  induction h with
  | refl => rw [setChild_self hold]
  | @tail middle after hfirst hlast ih =>
      refine ih.tail ?_
      have hchild : (command.setChild turn middle.1).child? turn = some middle.1 :=
        child?_setChild_self middle.1 hold
      have hnext : (command.setChild turn middle.1).Admits turn middle.1 := by
        rcases Moves.eq_or_phase_ne_notStarted hfirst with heq | hstarted
        · rw [heq]
          exact admits_setChild _ hadmits
        · exact admits_setChild _ (hadmits.of_started hstarted)
      have hmove := Move.child (by rw [phase_setChild, hrunning]) hchild hnext hlast
      rwa [setChild_setChild] at hmove

end Command

end RobotRoutine
