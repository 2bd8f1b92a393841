import RobotRoutine.Proofs.Command.Walk

/-!
# Which hooks a poll and an abort run

`poll` and `abort` run the hooks of a command where they stand, and what is
left of that afterwards is the phase. Here both are taken apart into the start
hook (`begin`), the run hook with the question that follows it (`attend`), and
the end (`conclude`), and each is logged where it is run. `pollLogged_fst` and
`abortLogged_fst` say that the log is only watching: what it is written beside
are the poll and the abort themselves.

The log of a command is then read off its phase (`history_pollLogged`,
`history_abortLogged`): a command that has yet to start has run no hook, one
that runs has started, one that is completed has started and ended. Each hook
runs once at most, in this order, whoever polls and aborts the command.
-/

namespace RobotRoutine

/-- The hooks that frame the life of a command. -/
inductive Hook where
  | start
  | finish
deriving DecidableEq

namespace Command

/-- Starts a command that has yet to start. Only a wrapper can fail to, when its
worker was started before. -/
def begin : Command → Robot → Polled Command
  | .leaf name _ work, robot =>
    let (work, robot) := work.start robot
    ⟨.leaf name .running work, robot, none⟩
  | .threaded name _ cadence none inner, robot =>
    ⟨.threaded name .running cadence (some .started) inner, robot, none⟩
  | .threaded name _ cadence (some task) inner, robot =>
    ⟨.threaded name .running cadence (some task) inner, robot, some (.taskAlreadyStarted name)⟩
  | .group name _ finished remaining, robot =>
    ⟨.group name .running finished remaining, robot, none⟩

/-- What a running command does at a poll, and whether it is done after that. -/
def attend : Command → Robot → Polled Command × Bool
  | .leaf name phase work, robot =>
    match work.run robot with
    | .error fault => (⟨.leaf name phase work, robot, some (.sensor name fault)⟩, true)
    | .ok (work, robot) =>
      let (work, goesOn) := work.check robot
      (⟨.leaf name phase work, robot, none⟩, !goesOn)
  | .threaded name phase cadence task inner, robot =>
    (⟨.threaded name phase cadence (task.map ({ · with fault := none })) inner, robot,
      task.bind Task.fault⟩, inner.isCompleted)
  | .group name phase finished remaining, robot =>
    let beside := pollFinished finished robot
    let polled : Polled (List (Step Command) × List (Step Command)) :=
      match beside.fault with
      | some _ => beside.map fun finished => (finished, remaining)
      | none =>
        (runSteps remaining beside.robot).map fun (done, left) => (beside.item ++ done, left)
    (polled.map fun (finished, remaining) => .group name phase finished remaining,
      polled.item.2.isEmpty)

/-- The end of a poll: the end hook is run if the poll failed or the command is done. -/
def conclude (isDone : Bool) (polled : Polled Command) : Polled Command × List Hook :=
  (polled.finishIf isDone, if polled.fault.isSome || isDone then [.finish] else [])

/-- A poll with a log of the hooks it runs. -/
def pollLogged (command : Command) (robot : Robot) : Polled Command × List Hook :=
  match command.phase with
  | .completed => (⟨command, robot, none⟩, [])
  | .running =>
    let (polled, isDone) := command.attend robot
    conclude isDone polled
  | .notStarted =>
    let begun := command.begin robot
    let (polled, isDone) :=
      if begun.fault.isSome then (begun, true) else begun.item.attend begun.robot
    let (polled, hooks) := conclude isDone polled
    (polled, .start :: hooks)

/-- An abort with a log of the hooks it runs. -/
def abortLogged (command : Command) (robot : Robot) : (Command × Robot) × List Hook :=
  if command.phase = .running then (command.abort robot, [.finish]) else ((command, robot), [])

theorem conclude_attend_leaf (name : String) (work : Leaf) (robot : Robot) :
    (conclude ((Command.leaf name .running work).attend robot).2
      ((Command.leaf name .running work).attend robot).1).1 = pollLeaf name work robot := by
  rw [attend, pollLeaf]
  cases work.run robot with
  | error fault => rfl
  | ok polled => rfl

/-- The log is written beside the poll itself. -/
theorem pollLogged_fst (command : Command) (robot : Robot) :
    (command.pollLogged robot).1 = command.poll robot := by
  match command with
  | .leaf name .notStarted work => exact conclude_attend_leaf name _ _
  | .leaf name .running work => exact conclude_attend_leaf name work robot
  | .threaded _ .notStarted _ none _ | .threaded _ .notStarted _ (some _) _
  | .threaded _ .running _ none _ | .threaded _ .running _ (some _) _ =>
      rw [poll]
      rfl
  | .group _ .notStarted .. | .group _ .running .. =>
      rw [poll]
      rfl
  | .leaf _ .completed _ | .threaded _ .completed .. | .group _ .completed .. => rfl

theorem abortLogged_fst (command : Command) (robot : Robot) :
    (command.abortLogged robot).1 = command.abort robot := by
  rw [abortLogged]
  split
  · rfl
  · next h => rw [abort_of_phase_ne_running h]

/-! ## The log is read off the phase -/

/-- The hooks that a command has run by the time it is in a phase. -/
def history : Phase → List Hook
  | .notStarted => []
  | .running => [.start]
  | .completed => [.start, .finish]

theorem phase_begin (command : Command) (robot : Robot) :
    (command.begin robot).item.phase = .running := by
  match command with
  | .leaf .. | .threaded _ _ _ none _ | .threaded _ _ _ (some _) _ | .group .. => rfl

theorem phase_attend (command : Command) (robot : Robot) :
    (command.attend robot).1.item.phase = command.phase := by
  match command with
  | .leaf name phase work =>
      rw [attend]
      cases work.run robot with
      | error fault => rfl
      | ok polled => rfl
  | .threaded .. | .group .. => rfl

/-- Every poll of a command that is not completed comes to the same end: the
command runs, and is concluded. -/
theorem pollLogged_eq_conclude {command : Command} (h : command.phase ≠ .completed)
    (robot : Robot) :
    ∃ polled isDone hooks, polled.item.phase = .running ∧
      history command.phase ++ hooks = [.start] ∧
      command.pollLogged robot =
        ((conclude isDone polled).1, hooks ++ (conclude isDone polled).2) := by
  rw [pollLogged]
  cases hphase : command.phase with
  | completed => exact absurd hphase h
  | running =>
      exact ⟨_, _, [], (phase_attend command robot).trans hphase, rfl, rfl⟩
  | notStarted =>
      simp only
      split
      · exact ⟨_, true, [.start], phase_begin command robot, rfl, rfl⟩
      · exact ⟨_, _, [.start], (phase_attend _ _).trans (phase_begin command robot), rfl, rfl⟩

theorem poll_of_phase_completed {command : Command} (h : command.phase = .completed)
    (robot : Robot) : command.poll robot = ⟨command, robot, none⟩ := by
  cases command <;> cases h <;> rfl

theorem history_conclude {polled : Polled Command} (isDone : Bool)
    (h : polled.item.phase = .running) :
    [.start] ++ (conclude isDone polled).2 = history (conclude isDone polled).1.item.phase := by
  rw [conclude, Polled.finishIf]
  split
  · rw [phase_abort, if_pos h]
    rfl
  · rw [h]
    rfl

/-- A poll goes on with the history of the command's phase. -/
theorem history_pollLogged (command : Command) (robot : Robot) :
    history command.phase ++ (command.pollLogged robot).2 =
      history (command.pollLogged robot).1.item.phase := by
  by_cases hphase : command.phase = .completed
  · rw [pollLogged, hphase]
    simp only [hphase, List.append_nil]
  · obtain ⟨polled, isDone, hooks, hrunning, hhistory, hpoll⟩ :=
      pollLogged_eq_conclude hphase robot
    rw [hpoll, ← List.append_assoc, hhistory]
    exact history_conclude isDone hrunning

/-- A poll that fails leaves a completed command. -/
theorem phase_poll_of_fault {command : Command} {robot : Robot} {fault : RoutineError}
    (h : (command.poll robot).fault = some fault) :
    (command.poll robot).item.phase = .completed := by
  by_cases hphase : command.phase = .completed
  · rw [poll_of_phase_completed hphase]
    exact hphase
  · obtain ⟨polled, isDone, hooks, hrunning, -, hpoll⟩ := pollLogged_eq_conclude hphase robot
    rw [← pollLogged_fst, hpoll] at h ⊢
    simp only [conclude, Polled.finishIf] at h ⊢
    split at h
    · next hends => rw [if_pos hends, phase_abort, if_pos hrunning]
    · next hcontinues =>
        rw [h] at hcontinues
        exact absurd rfl hcontinues

theorem history_abortLogged (command : Command) (robot : Robot) :
    history command.phase ++ (command.abortLogged robot).2 =
      history (command.abortLogged robot).1.1.phase := by
  rw [abortLogged]
  split
  · next h =>
      rw [phase_abort, if_pos h, h]
      rfl
  · rw [List.append_nil]

end Command

end RobotRoutine
