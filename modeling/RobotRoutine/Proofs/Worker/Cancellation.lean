import RobotRoutine.Proofs.Command.Hooks

/-!
# Cancelling a worker in the middle of its round

`Worker.iterate` and `Worker.cancel` are each one step. On two threads they are
not: a worker first looks whether it was told to stop and only then takes the
lock and polls; whoever cancels it first raises the flag, then takes the lock
and aborts the command, then tells the task to begin no further round. A `Race`
runs these five acts in any order. Acts on a command that is locked exclude
each other, so each of them is still one step.

A cancelled command should have run its end hook exactly once if it ever
started. What can go wrong is one thing only: an abort leaves alone what has
not started, so a worker that looked at the flag before it was raised, and
polls after the abort, starts a command that nobody will end (`IsLate`).
`stuck_after_iff` says that the command is left running when this happens and
only then.
-/

namespace RobotRoutine

open Command

/-- Where a worker stands in its round. -/
inductive WorkerStage where
  /-- Before the next round. -/
  | waiting
  /-- It has seen that the flag was down, and will poll. -/
  | checked
  | left
deriving DecidableEq

/-- How far the call that raised the flag has come. -/
inductive CancelStage where
  /-- Nobody has raised the flag. -/
  | idle
  | raised
  | aborted
  /-- The task was told to begin no further round. -/
  | joined
deriving DecidableEq

/-- A worker and those who cancel it. All calls to cancel but the one that raises
the flag return at once, so there is one stage for all of them. -/
structure Race where
  command : Command
  robot : Robot
  fault : Option RoutineError
  /-- The hooks that the command has run. -/
  hooks : List Hook
  worker : WorkerStage
  cancel : CancelStage

/-- One act of a race. -/
inductive Act where
  /-- The worker looks at the flag, and leaves if it was raised. -/
  | check
  /-- The worker polls the command, and leaves if this completed it or failed. -/
  | poll
  /-- Somebody calls to cancel, and returns if the flag was raised before. -/
  | raise
  | abort
  | join
  /-- The robot changes under the command: its sensors and clocks, or by what others do. -/
  | elsewhere (robot : Robot)
  /-- A worker further inside the command does a round. -/
  | work (place : Place)

namespace Race

/-- A command that was just handed to a worker. -/
def start (command : Command) (robot : Robot) : Race :=
  ⟨command, robot, none, history command.phase, .waiting, .idle⟩

/-- The race after one act; an act that is not anyone's turn does nothing. -/
def step (race : Race) : Act → Race
  | .check =>
    if race.worker = .waiting then
      { race with worker := if race.cancel = .idle then .checked else .left }
    else
      race
  | .poll =>
    if race.worker = .checked then
      let (polled, hooks) := race.command.pollLogged race.robot
      { race with
        command := polled.item
        robot := polled.robot
        fault := polled.fault <|> race.fault
        hooks := race.hooks ++ hooks
        worker := if polled.fault.isSome || polled.item.isCompleted then .left else .waiting }
    else
      race
  | .raise => if race.cancel = .idle then { race with cancel := .raised } else race
  | .abort =>
    if race.cancel = .raised then
      let ((command, robot), hooks) := race.command.abortLogged race.robot
      { race with command, robot, hooks := race.hooks ++ hooks, cancel := .aborted }
    else
      race
  | .join => if race.cancel = .aborted then { race with cancel := .joined } else race
  | .elsewhere robot => { race with robot }
  | .work place =>
    let (command, robot) := race.command.visit iterateWorker place race.robot
    { race with command, robot }

/-- The race after one act after another. -/
def after (race : Race) (acts : List Act) : Race :=
  acts.foldl step race

/-- Whether some call to cancel has come to its end and the worker has no act left. -/
def IsOver (race : Race) : Prop :=
  race.cancel = .joined ∧ race.worker ≠ .checked

/-- Whether the abort is behind. -/
def IsAborted (race : Race) : Prop :=
  race.cancel = .aborted ∨ race.cancel = .joined

/-- Whether a poll is due that comes too late: the abort is behind and found
nothing to end, and the poll starts the command and leaves it running. -/
def IsLate (race : Race) : Prop :=
  race.IsAborted ∧ race.worker = .checked ∧ race.command.phase = .notStarted ∧
    (race.command.poll race.robot).item.phase = .running

/-! ## A race in which nobody is interrupted -/

/-- A look at the flag with the poll right after it is a round of the worker. -/
theorem step_check_poll {race : Race} (hworker : race.worker = .waiting)
    (hcancel : race.cancel = .idle) :
    let (worker, robot) := Worker.iterate ⟨⟨false, race.fault⟩, race.command⟩ race.robot
    let race' := (race.step .check).step .poll
    race'.command = worker.command ∧ race'.fault = worker.task.fault ∧ race'.robot = robot := by
  rw [step, if_pos hworker, if_pos hcancel, step, if_pos rfl]
  simp only [pollLogged_fst]
  exact ⟨rfl, rfl, rfl⟩

/-- A raised flag with the abort right after it is a cancelled worker. -/
theorem step_raise_abort {race : Race} (hcancel : race.cancel = .idle) :
    let (worker, robot) := Worker.cancel ⟨⟨false, race.fault⟩, race.command⟩ race.robot
    let race' := (race.step .raise).step .abort
    race'.command = worker.command ∧ race'.fault = worker.task.fault ∧ race'.robot = robot := by
  rw [step, if_pos hcancel, step, if_pos rfl]
  simp only [abortLogged_fst]
  exact ⟨rfl, rfl, rfl⟩

/-! ## What every act keeps -/

theorem hooks_step {race : Race} (h : race.hooks = history race.command.phase) (act : Act) :
    (race.step act).hooks = history (race.step act).command.phase := by
  cases act with
  | poll =>
      rw [step]
      split
      · exact h ▸ history_pollLogged race.command race.robot
      · exact h
  | abort =>
      rw [step]
      split
      · exact h ▸ history_abortLogged race.command race.robot
      · exact h
  | work place =>
      rw [step, phase_visit_iterateWorker]
      exact h
  | check | raise | join =>
      rw [step]
      split
      · exact h
      · exact h
  | elsewhere robot => exact h

/-- The log of a race goes with the phase of its command, so each hook was run
once at most and the end hook only after the start hook. -/
theorem hooks_after (command : Command) (robot : Robot) (acts : List Act) :
    ((start command robot).after acts).hooks =
      history ((start command robot).after acts).command.phase := by
  have hrun : ∀ race : Race, race.hooks = history race.command.phase →
      (race.after acts).hooks = history (race.after acts).command.phase := by
    induction acts with
    | nil => exact fun _ h => h
    | cons act rest ih => exact fun race h => ih (race.step act) (hooks_step h act)
  exact hrun _ rfl

/-- Whether the command runs though the abort is behind. -/
def IsStuck (race : Race) : Prop :=
  race.IsAborted ∧ race.command.phase = .running

/-- A command that runs though the abort is behind was started by a poll that
was due, and no other poll is. -/
def IsTimely (race : Race) : Prop :=
  race.IsStuck → race.worker ≠ .checked

theorem phase_of_running_poll {command : Command} {robot : Robot}
    (h : (command.poll robot).item.phase = .running) :
    command.phase = .notStarted ∨ command.phase = .running := by
  cases hphase : command.phase with
  | notStarted => exact Or.inl rfl
  | running => exact Or.inr rfl
  | completed =>
      rw [poll_of_phase_completed hphase, hphase] at h
      exact nomatch h

/-- An act leaves the command running behind the abort if it did run there, or if
the act is a poll that comes too late. -/
theorem stuck_step_iff {race : Race} (h : race.IsTimely) (act : Act) :
    (race.step act).IsStuck ↔ race.IsStuck ∨ act = .poll ∧ race.IsLate := by
  cases act with
  | check =>
      rw [step]
      split
      · simp [IsStuck, IsAborted]
      · simp
  | poll =>
      rw [step]
      split
      · next hchecked =>
          simp only [IsStuck, pollLogged_fst]
          constructor
          · rintro ⟨haborted, hrunning⟩
            rcases phase_of_running_poll hrunning with hphase | hphase
            · exact Or.inr ⟨trivial, haborted, hchecked, hphase, hrunning⟩
            · exact absurd hchecked (h ⟨haborted, hphase⟩)
          · rintro (hstuck | ⟨-, haborted, -, -, hrunning⟩)
            · exact absurd hchecked (h hstuck)
            · exact ⟨haborted, hrunning⟩
      · next hchecked =>
          refine ⟨Or.inl, ?_⟩
          rintro (hstuck | ⟨-, hlate⟩)
          · exact hstuck
          · exact absurd hlate.2.1 hchecked
  | raise =>
      rw [step]
      split
      · next hidle => simp [IsStuck, IsAborted, hidle]
      · simp
  | abort =>
      rw [step]
      split
      · next hraised =>
          simp only [IsStuck, abortLogged_fst]
          refine ⟨fun hstuck => absurd hstuck.2 (phase_abort_ne_running _ _), ?_⟩
          rintro (hstuck | ⟨hact, -⟩)
          · simp [IsAborted, hraised] at hstuck
          · exact nomatch hact
      · simp
  | join =>
      rw [step]
      split
      · next haborted => simp [IsStuck, IsAborted, haborted]
      · simp
  | elsewhere robot => simp [step, IsStuck, IsAborted]
  | work place => simp [step, IsStuck, IsAborted, phase_visit_iterateWorker]

theorem timely_step {race : Race} (h : race.IsTimely) (act : Act) : (race.step act).IsTimely := by
  intro hstuck
  rcases (stuck_step_iff h act).mp hstuck with hbefore | ⟨rfl, hlate⟩
  · have hchecked := h hbefore
    cases act with
    | check =>
        rw [step]
        split
        · -- The flag is up, so the worker leaves.
          have hraised : race.cancel ≠ .idle := by
            rcases hbefore.1 with haborted | hjoined
            · rw [haborted]
              decide
            · rw [hjoined]
              decide
          rw [if_neg hraised]
          exact WorkerStage.noConfusion
        · exact hchecked
    | poll =>
        rw [step, if_neg hchecked]
        exact hchecked
    | raise | abort | join =>
        rw [step]
        split
        · exact hchecked
        · exact hchecked
    | elsewhere robot => exact hchecked
    | work place => exact hchecked
  · rw [step, if_pos hlate.2.1]
    simp only
    split
    · decide
    · decide

/-- The command runs behind the abort if and only if some poll came too late. -/
theorem stuck_after_iff {race : Race} (h : race.IsTimely) (acts : List Act) :
    (race.after acts).IsStuck ↔
      race.IsStuck ∨
        ∃ before later, acts = before ++ .poll :: later ∧ (race.after before).IsLate := by
  induction acts generalizing race with
  | nil =>
      refine ⟨Or.inl, ?_⟩
      rintro (hstuck | ⟨before, later, hacts, -⟩)
      · exact hstuck
      · simp at hacts
  | cons act rest ih =>
      rw [after, List.foldl_cons]
      refine (ih (timely_step h act)).trans ?_
      rw [stuck_step_iff h]
      constructor
      · rintro ((hstuck | ⟨rfl, hlate⟩) | ⟨before, later, rfl, hlate⟩)
        · exact Or.inl hstuck
        · exact Or.inr ⟨[], rest, rfl, hlate⟩
        · exact Or.inr ⟨act :: before, later, rfl, hlate⟩
      · rintro (hstuck | ⟨before, later, hacts, hlate⟩)
        · exact Or.inl (Or.inl hstuck)
        · cases before with
          | nil =>
              obtain ⟨rfl, rfl⟩ := List.cons.inj hacts
              exact Or.inl (Or.inr ⟨rfl, hlate⟩)
          | cons first before =>
              obtain ⟨rfl, rfl⟩ := List.cons.inj hacts
              exact Or.inr ⟨before, later, rfl, hlate⟩

/-- Whether a cancelled command is off, and its end hook was run once if its start
hook ever was, and otherwise not at all. -/
def IsEnded (race : Race) : Prop :=
  race.command.phase ≠ .running ∧
    race.hooks.count .finish = if .start ∈ race.hooks then 1 else 0

theorem isEnded_iff {race : Race} (h : race.hooks = history race.command.phase) :
    race.IsEnded ↔ race.command.phase ≠ .running := by
  refine ⟨And.left, fun hphase => ⟨hphase, ?_⟩⟩
  rw [h]
  cases hcommand : race.command.phase with
  | running => exact absurd hcommand hphase
  | notStarted | completed => rfl

/-- When a worker was cancelled and has come to rest, its command is off and each
hook was run as it should be, unless a poll came too late: the worker looked at
the flag before it was raised and polled after the abort, which had found
nothing to end, and the poll started the command and left it running. Then, and
only then, the command goes on running with nobody to end it. -/
theorem ended_iff_no_late_poll (command : Command) (robot : Robot) {acts : List Act}
    (h : ((start command robot).after acts).IsOver) :
    ((start command robot).after acts).IsEnded ↔
      ¬ ∃ before later, acts = before ++ .poll :: later ∧
        ((start command robot).after before).IsLate := by
  have hidle : ¬ (start command robot).IsStuck := by
    rintro ⟨haborted | hjoined, -⟩
    · exact nomatch haborted
    · exact nomatch hjoined
  have hstuck := stuck_after_iff (fun hstuck => absurd hstuck hidle) acts
  rw [or_iff_right hidle] at hstuck
  rw [isEnded_iff (hooks_after command robot acts), ← hstuck]
  exact ⟨fun hphase hstuck => hphase hstuck.2, fun hstuck hphase => hstuck ⟨Or.inr h.1, hphase⟩⟩

/-- A tank drive that a late poll starts: its drive is on, and nobody will stop it. -/
theorem late_poll_of_tank :
    let tank : Command := .timed "tank" ⟨10⟩ (.tank 1 1)
    let race := (start tank (Robot.ofParameters {})).after [.check, .raise, .abort, .join, .poll]
    race.IsOver ∧ ¬ race.IsEnded ∧ race.hooks = [.start] ∧ ¬ race.robot.drive.IsStopped := by
  intro tank race
  have hover : race.IsOver := ⟨by decide +kernel, by decide +kernel⟩
  have hlate :
      ((start tank (Robot.ofParameters {})).after [.check, .raise, .abort, .join]).IsLate :=
    ⟨Or.inr (by decide +kernel), by decide +kernel, by decide +kernel, by decide +kernel⟩
  refine ⟨hover, fun hended => ?_, by decide +kernel, by decide +kernel⟩
  exact (ended_iff_no_late_poll tank _ hover).mp hended ⟨_, [], rfl, hlate⟩

end Race

end RobotRoutine
