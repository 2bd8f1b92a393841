import RobotRoutine.Proofs.Command.Trace

/-!
# Polls that note whom they poll

A poll of a group polls others, and what comes of it does not say whom. Here `poll`
is written out once more and notes the place of a command whenever its `poll` is
called, also where the call finds nothing to do. `pollNoted_fst` says that the notes
are taken beside the poll itself.

A leaf and a wrapper poll nobody: what is handed to a worker is polled by the worker.
-/

namespace RobotRoutine

/-- Something that was polled, and the places of all commands whose poll was called for
it, in the order of the calls. -/
abbrev Noted (α : Type) := α × List Place

namespace Command

namespace Polled

variable {α β : Type}

/-- The same poll as it is noted one step up. -/
def under (turn : Turn) (polled : Polled (Noted α)) : Polled (Noted α) :=
  ⟨(polled.item.1, polled.item.2.map (turn :: ·)), polled.robot, polled.fault⟩

/-- The same poll seen as the last one of something larger, after the calls in `earlier`. -/
def following (earlier : List Place) (f : α → β) (polled : Polled (Noted α)) : Polled (Noted β) :=
  ⟨(f polled.item.1, earlier ++ polled.item.2), polled.robot, polled.fault⟩

end Polled

mutual

/-- Advances the command by one tick. -/
def pollNoted : Command → Robot → Polled (Noted Command)
  | .group name phase finished remaining, robot =>
    if phase = .completed then
      ⟨(.group name phase finished remaining, [[]]), robot, none⟩
    else
      let beside := pollFinishedNoted 0 finished robot
      let polled : Polled (Noted (List (Step Command) × List (Step Command))) :=
        match beside.fault with
        | some _ => beside.following [] (·, remaining)
        | none =>
          (runStepsNoted finished.length remaining beside.robot).following beside.item.2
            fun (done, left) => (beside.item.1 ++ done, left)
      ((polled.map fun ((finished, remaining), _) =>
        .group name .running finished remaining).finishIf polled.item.1.2.isEmpty).map
          fun item => (item, [] :: polled.item.2)
  | command, robot => (command.poll robot).map fun item => (item, [[]])

/-- Polls one command after another until one of them fails. -/
def pollAllNoted (row : Nat → Turn) (index : Nat) :
    List Command → Robot → Polled (Noted (List Command))
  | [], robot => ⟨([], []), robot, none⟩
  | command :: rest, robot =>
    let first := (command.pollNoted robot).under (row index)
    match first.fault with
    | some _ => first.following [] (· :: rest)
    | none =>
      (pollAllNoted row (index + 1) rest first.robot).following first.item.2 (first.item.1 :: ·)

/-- Polls every command of a step until one of them fails. -/
def pollStepNoted (index : Nat) : Step Command → Robot → Polled (Noted (Step Command))
  | ⟨primary, companions, beside⟩, robot =>
    let first := (primary.pollNoted robot).under (.member index .primary)
    match first.fault with
    | some _ => first.following [] (⟨·, companions, beside⟩)
    | none =>
      let second := pollAllNoted (fun i => .member index (.companion i)) 0 companions first.robot
      match second.fault with
      | some _ => second.following first.item.2 (⟨first.item.1, ·, beside⟩)
      | none =>
        (pollAllNoted (fun i => .member index (.beside i)) 0 beside second.robot).following
          (first.item.2 ++ second.item.2) (⟨first.item.1, second.item.1, ·⟩)

/-- Polls the threaded companions of finished steps until one of them fails. -/
def pollFinishedNoted (index : Nat) :
    List (Step Command) → Robot → Polled (Noted (List (Step Command)))
  | [], robot => ⟨([], []), robot, none⟩
  | ⟨primary, companions, beside⟩ :: rest, robot =>
    let first := pollAllNoted (fun i => .member index (.beside i)) 0 beside robot
    match first.fault with
    | some _ => first.following [] (⟨primary, companions, ·⟩ :: rest)
    | none =>
      (pollFinishedNoted (index + 1) rest first.robot).following first.item.2
        (⟨primary, companions, first.item.1⟩ :: ·)

/-- Polls one step after another as long as each is complete after its poll. -/
def runStepsNoted (index : Nat) :
    List (Step Command) → Robot → Polled (Noted (List (Step Command) × List (Step Command)))
  | [], robot => ⟨(([], []), []), robot, none⟩
  | step :: rest, robot =>
    let first := pollStepNoted index step robot
    match first.fault with
    | some _ => first.following [] fun step => ([], step :: rest)
    | none =>
      if first.item.1.isComplete then
        (runStepsNoted (index + 1) rest first.robot).following first.item.2
          fun (done, left) => (first.item.1 :: done, left)
      else
        first.following [] fun step => ([], step :: rest)

end

/-- What a group does at a poll before it is ended. -/
def walkNoted (finished remaining : List (Step Command)) (robot : Robot) :
    Polled (Noted (List (Step Command) × List (Step Command))) :=
  let beside := pollFinishedNoted 0 finished robot
  match beside.fault with
  | some _ => beside.following [] (·, remaining)
  | none =>
    (runStepsNoted finished.length remaining beside.robot).following beside.item.2
      fun (done, left) => (beside.item.1 ++ done, left)

theorem pollNoted_group {name : String} {phase : Phase} {finished remaining : List (Step Command)}
    (h : phase ≠ .completed) (robot : Robot) :
    (Command.group name phase finished remaining).pollNoted robot =
      (((walkNoted finished remaining robot).map fun ((finished, remaining), _) =>
        .group name .running finished remaining).finishIf
          (walkNoted finished remaining robot).item.1.2.isEmpty).map
            fun item => (item, [] :: (walkNoted finished remaining robot).item.2) := by
  rw [pollNoted, if_neg h]
  rfl

/-! ## Without the notes -/

section Erasure

theorem pollAllNoted_fst {commands : List Command}
    (h : ∀ command ∈ commands, ∀ robot,
      (command.pollNoted robot).map Prod.fst = command.poll robot)
    (row : Nat → Turn) (index : Nat) (robot : Robot) :
    (pollAllNoted row index commands robot).map Prod.fst = pollAll commands robot := by
  induction commands generalizing index robot with
  | nil => rfl
  | cons command rest ih =>
      rw [pollAllNoted, pollAll, ← h command List.mem_cons_self]
      obtain ⟨⟨item, places⟩, robot', fault⟩ := command.pollNoted robot
      cases fault with
      | some fault => rfl
      | none =>
          simp only [Polled.map]
          rw [← ih (fun c hc => h c (List.mem_cons_of_mem _ hc)) (index + 1)]
          rfl

theorem pollStepNoted_fst {step : Step Command}
    (h : ∀ command ∈ step.members, ∀ robot,
      (command.pollNoted robot).map Prod.fst = command.poll robot)
    (index : Nat) (robot : Robot) :
    (pollStepNoted index step robot).map Prod.fst = pollStep step robot := by
  obtain ⟨primary, companions, beside⟩ := step
  rw [pollStepNoted, pollStep, ← h primary List.mem_cons_self]
  obtain ⟨⟨item, places⟩, robot', fault⟩ := primary.pollNoted robot
  cases fault with
  | some fault => rfl
  | none =>
      simp only [Polled.map, Polled.under]
      rw [← pollAllNoted_fst (fun c hc => h c (List.mem_cons_of_mem _ (List.mem_append_left _ hc)))
        (fun i => .member index (.companion i)) 0]
      obtain ⟨⟨item', places'⟩, robot'', fault⟩ := pollAllNoted _ 0 companions robot'
      cases fault with
      | some fault => rfl
      | none =>
          simp only [Polled.map]
          rw [← pollAllNoted_fst
            (fun c hc => h c (List.mem_cons_of_mem _ (List.mem_append_right _ hc)))
            (fun i => .member index (.beside i)) 0]
          rfl

theorem pollFinishedNoted_fst {steps : List (Step Command)}
    (h : ∀ step ∈ steps, ∀ command ∈ step.members, ∀ robot,
      (command.pollNoted robot).map Prod.fst = command.poll robot)
    (index : Nat) (robot : Robot) :
    (pollFinishedNoted index steps robot).map Prod.fst = pollFinished steps robot := by
  induction steps generalizing index robot with
  | nil => rfl
  | cons step rest ih =>
      obtain ⟨primary, companions, beside⟩ := step
      rw [pollFinishedNoted, pollFinished, ← pollAllNoted_fst (fun c hc =>
        h _ List.mem_cons_self c (List.mem_cons_of_mem _ (List.mem_append_right _ hc)))
        (fun i => .member index (.beside i)) 0]
      obtain ⟨⟨item, places⟩, robot', fault⟩ := pollAllNoted _ 0 beside robot
      cases fault with
      | some fault => rfl
      | none =>
          simp only [Polled.map]
          rw [← ih (fun s hs => h s (List.mem_cons_of_mem _ hs)) (index + 1)]
          rfl

theorem runStepsNoted_fst {steps : List (Step Command)}
    (h : ∀ step ∈ steps, ∀ command ∈ step.members, ∀ robot,
      (command.pollNoted robot).map Prod.fst = command.poll robot)
    (index : Nat) (robot : Robot) :
    (runStepsNoted index steps robot).map Prod.fst = runSteps steps robot := by
  induction steps generalizing index robot with
  | nil => rfl
  | cons step rest ih =>
      rw [runStepsNoted, runSteps, ← pollStepNoted_fst (h step List.mem_cons_self) index]
      obtain ⟨⟨item, places⟩, robot', fault⟩ := pollStepNoted index step robot
      cases fault with
      | some fault => rfl
      | none =>
          change (if item.isComplete = true then _ else _ : Polled _).map _ =
            if item.isComplete = true then _ else _
          split
          · rw [← ih (fun s hs => h s (List.mem_cons_of_mem _ hs)) (index + 1)]
            rfl
          · rfl

theorem walkNoted_fst {finished remaining : List (Step Command)}
    (h : ∀ step ∈ finished ++ remaining, ∀ command ∈ step.members, ∀ robot,
      (command.pollNoted robot).map Prod.fst = command.poll robot)
    (robot : Robot) :
    (walkNoted finished remaining robot).map Prod.fst = walk finished remaining robot := by
  rw [walkNoted, walk,
    ← pollFinishedNoted_fst (fun step hstep => h step (List.mem_append_left _ hstep)) 0]
  obtain ⟨⟨item, places⟩, robot', fault⟩ := pollFinishedNoted 0 finished robot
  cases fault with
  | some fault => rfl
  | none =>
      simp only [Polled.map]
      rw [← runStepsNoted_fst (fun step hstep => h step (List.mem_append_right _ hstep))
        finished.length]
      rfl

/-- The notes are taken beside the poll itself. -/
theorem pollNoted_fst (command : Command) (robot : Robot) :
    (command.pollNoted robot).map Prod.fst = command.poll robot := by
  induction command using childInduction generalizing robot with
  | step command ih =>
  match command with
  | .leaf .. | .threaded .. => rfl
  | .group name phase finished remaining =>
      by_cases hphase : phase = .completed
      · subst hphase
        rfl
      · have hmember : ∀ step ∈ finished ++ remaining, ∀ member ∈ step.members, ∀ robot,
            (member.pollNoted robot).map Prod.fst = member.poll robot :=
          forall_members_of_child? ih
        rw [pollNoted_group hphase, poll_group hphase, ← walkNoted_fst hmember]
        rfl

end Erasure

/-- The places of all commands that are polled in a poll of the command. -/
def visits (command : Command) (robot : Robot) : List Place :=
  (command.pollNoted robot).item.2

end Command

end RobotRoutine
