import RobotRoutine.Proofs.Command.Walk

/-!
# Polls and aborts that keep a record of the hooks they call

What `poll` and `abort` leave of the hooks they call is a phase. To speak of the
calls themselves, both are written out once more with a trace: every call of a
hook is entered when it is made, with the place of the command in the tree and,
where the call is the run of an action, with its effect and the robots before and
after it.

The records are kept command by command. A walk over a list or over steps
answers with each command beside its own trace, and the trace of a group is put
together from those of its members in the order in which it walks through them,
which is the order of the steps. `abortRecorded_fst` and `pollRecorded_fst` say
that the trace is only written beside the abort and the poll: what is left when
it is taken away are the abort and the poll themselves.
-/

namespace RobotRoutine

/-- The hooks of a command. -/
inductive Call where
  | start
  | run
  | check
  | finish
deriving DecidableEq

/-- An effect that an action had, with the robot right before it and right after it. -/
structure Deed where
  effect : Effect
  before : Robot
  after : Robot
deriving DecidableEq

/-- A call of a hook: of which command, and what an action did in it. -/
structure Entry where
  place : Place
  call : Call
  deed : Option Deed
deriving DecidableEq

/-- A call of a hook of the command at hand. -/
def Entry.own (call : Call) : Entry :=
  ⟨[], call, none⟩

/-- A call of the run hook of a leaf, which found one robot and left another. -/
def Leaf.ran (before after : Robot) : Leaf → Entry
  | .action effect => ⟨[], .run, some ⟨effect, before, after⟩⟩
  | .timed .. | .convergence .. | .waitUntil _ => .own .run

/-- The calls of hooks in a tree, the first one first. -/
abbrev Trace := List Entry

/-- A command, and the calls that were made in it on the way there. -/
abbrev Recorded := Command × Trace

namespace Trace

/-- The same calls seen from one step up. -/
def under (turn : Turn) (trace : Trace) : Trace :=
  trace.map fun entry => { entry with place := turn :: entry.place }

/-- The calls made to the command at a place. -/
def callsAt (place : Place) (trace : Trace) : List Call :=
  trace.filterMap fun entry => if entry.place = place then some entry.call else none

/-- What the actions have done. -/
def deeds (trace : Trace) : List Deed :=
  trace.filterMap Entry.deed

/-- The calls in commands of a list, whose places begin with the turns from an index on. -/
def ofRow (turn : Nat → Turn) (index : Nat) : List Recorded → Trace
  | [] => []
  | recorded :: rest => recorded.2.under (turn index) ++ ofRow turn (index + 1) rest

/-- The calls in the members of the step at an index. -/
def ofStep (index : Nat) (step : Step Recorded) : Trace :=
  step.primary.2.under (.member index .primary)
    ++ ofRow (fun i => .member index (.companion i)) 0 step.companions
    ++ ofRow (fun i => .member index (.beside i)) 0 step.threaded

/-- The calls in the members of steps that are numbered from an index on. -/
def ofSteps (index : Nat) : List (Step Recorded) → Trace
  | [] => []
  | step :: rest => ofStep index step ++ ofSteps (index + 1) rest

end Trace

/-- The step with something done to each of its commands. -/
def Step.map {α β : Type} (f : α → β) (step : Step α) : Step β :=
  ⟨f step.primary, step.companions.map f, step.threaded.map f⟩

theorem Step.members_map {α β : Type} (f : α → β) (step : Step α) :
    (step.map f).members = step.members.map f := by
  rw [members, members, List.map_cons, List.map_append]
  rfl

/-- The steps without the calls in them. -/
def bare (steps : List (Step Recorded)) : List (Step Command) :=
  steps.map (Step.map Prod.fst)

namespace Command

/-- The command without any call. -/
def untouched (command : Command) : Recorded :=
  (command, [])

/-! ## Aborting -/

mutual

/-- Ends the command if it is running. -/
def abortRecorded : Command → Robot → Recorded × Robot
  | .leaf name .running work, robot =>
    ((.leaf name .completed work, [.own .finish]), work.finish robot)
  | .threaded name .running cadence (some task) inner, robot =>
    if task.cancelled then
      ((.threaded name .completed cadence (some task) inner, [.own .finish]), robot)
    else
      let (aborted, robot) := inner.abortRecorded robot
      ((.threaded name .completed cadence (some { task with cancelled := true }) aborted.1,
        .own .finish :: aborted.2.under .inner), robot)
  | .threaded name .running cadence none inner, robot =>
    ((.threaded name .completed cadence none inner, [.own .finish]), robot)
  | .group name .running finished remaining, robot =>
    let (finished, robot) := abortStepsRecorded finished robot
    let (remaining, robot) := abortStepsRecorded remaining robot
    ((.group name .completed (bare finished) (bare remaining),
      .own .finish :: Trace.ofSteps 0 (finished ++ remaining)), robot)
  | command, robot => (command.untouched, robot)

/-- Ends those of the commands that are running. -/
def abortAllRecorded : List Command → Robot → List Recorded × Robot
  | [], robot => ([], robot)
  | command :: rest, robot =>
    let (first, robot) := command.abortRecorded robot
    let (rest, robot) := abortAllRecorded rest robot
    (first :: rest, robot)

/-- Ends what is running in a step. -/
def abortStepRecorded : Step Command → Robot → Step Recorded × Robot
  | ⟨primary, companions, beside⟩, robot =>
    let (primary, robot) := primary.abortRecorded robot
    let (companions, robot) := abortAllRecorded companions robot
    let (beside, robot) := abortAllRecorded beside robot
    (⟨primary, companions, beside⟩, robot)

/-- Ends what is running in any of the steps. -/
def abortStepsRecorded : List (Step Command) → Robot → List (Step Recorded) × Robot
  | [], robot => ([], robot)
  | step :: rest, robot =>
    let (step, robot) := abortStepRecorded step robot
    let (rest, robot) := abortStepsRecorded rest robot
    (step :: rest, robot)

end

/-! ## Polling -/

/-- Ends the command that was polled if the poll failed or `isDone` holds of it. -/
def Polled.finishRecorded (isDone : Bool) (polled : Polled Recorded) : Polled Recorded :=
  if polled.fault.isSome || isDone then
    let (aborted, robot) := polled.item.1.abortRecorded polled.robot
    ⟨(aborted.1, polled.item.2 ++ aborted.2), robot, polled.fault⟩
  else
    polled

theorem Polled.not_ends_iff {fault : Option RoutineError} {isDone : Bool} :
    ¬ (fault.isSome || isDone) = true ↔ fault = none ∧ isDone = false := by
  cases fault <;> simp

/-- The start hook of a command that has yet to start. -/
def opening : Phase → Trace
  | .notStarted => [.own .start]
  | .running | .completed => []

/-- The question whether to go on, which is not asked after a failure. -/
def asked (fault : Option RoutineError) : Trace :=
  if fault.isSome then [] else [.own .check]

/-- Polls a leaf that is running, after the calls in `before`. -/
def pollLeafRecorded (before : Trace) (name : String) (work : Leaf) (robot : Robot) :
    Polled Recorded :=
  match work.run robot with
  | .error fault =>
    Polled.finishRecorded true
      ⟨(.leaf name .running work, before ++ [.own .run]), robot, some (.sensor name fault)⟩
  | .ok (after, moved) =>
    let (after, goesOn) := after.check moved
    Polled.finishRecorded (!goesOn)
      ⟨(.leaf name .running after, before ++ [work.ran robot moved, .own .check]), moved, none⟩

/-- Polls a threaded command that is running, after the calls in `before`. -/
def pollThreadedRecorded (before : Trace) (name : String) (cadence : Duration) (task : Task)
    (inner : Command) (robot : Robot) : Polled Recorded :=
  Polled.finishRecorded inner.isCompleted
    ⟨(.threaded name .running cadence (some { task with fault := none }) inner,
      before ++ [.own .run, .own .check]), robot, task.fault⟩

mutual

/-- Advances the command by one tick. -/
def pollRecorded : Command → Robot → Polled Recorded
  | .leaf name .notStarted work, robot =>
    let (work, robot) := work.start robot
    pollLeafRecorded [.own .start] name work robot
  | .leaf name .running work, robot => pollLeafRecorded [] name work robot
  | .threaded name .notStarted cadence none inner, robot =>
    pollThreadedRecorded [.own .start] name cadence .started inner robot
  | .threaded name .notStarted cadence (some task) inner, robot =>
    Polled.finishRecorded true
      ⟨(.threaded name .running cadence (some task) inner, [.own .start]), robot,
        some (.taskAlreadyStarted name)⟩
  | .threaded name .running cadence (some task) inner, robot =>
    pollThreadedRecorded [] name cadence task inner robot
  | .threaded name .running cadence none inner, robot =>
    Polled.finishRecorded inner.isCompleted
      ⟨(.threaded name .running cadence none inner, [.own .run, .own .check]), robot, none⟩
  | .group name phase finished remaining, robot =>
    if phase = .completed then
      ⟨untouched (.group name phase finished remaining), robot, none⟩
    else
      let beside := pollFinishedRecorded finished robot
      let polled : Polled (List (Step Recorded) × List (Step Recorded)) :=
        match beside.fault with
        | some _ => beside.map fun finished => (finished, remaining.map (Step.map untouched))
        | none =>
          (runStepsRecorded remaining beside.robot).map
            fun (done, left) => (beside.item ++ done, left)
      (polled.map fun (finished, remaining) =>
        (.group name .running (bare finished) (bare remaining),
          opening phase ++ .own .run :: Trace.ofSteps 0 (finished ++ remaining)
            ++ asked polled.fault)).finishRecorded polled.item.2.isEmpty
  | command, robot => ⟨command.untouched, robot, none⟩

/-- Polls one command after another until one of them fails. -/
def pollAllRecorded : List Command → Robot → Polled (List Recorded)
  | [], robot => ⟨[], robot, none⟩
  | command :: rest, robot =>
    let first := command.pollRecorded robot
    match first.fault with
    | some _ => first.map (· :: rest.map untouched)
    | none => (pollAllRecorded rest first.robot).map (first.item :: ·)

/-- Polls every command of a step until one of them fails. -/
def pollStepRecorded : Step Command → Robot → Polled (Step Recorded)
  | ⟨primary, companions, beside⟩, robot =>
    let first := primary.pollRecorded robot
    match first.fault with
    | some _ => first.map (⟨·, companions.map untouched, beside.map untouched⟩)
    | none =>
      let second := pollAllRecorded companions first.robot
      match second.fault with
      | some _ => second.map (⟨first.item, ·, beside.map untouched⟩)
      | none => (pollAllRecorded beside second.robot).map (⟨first.item, second.item, ·⟩)

/-- Polls the threaded companions of finished steps until one of them fails. -/
def pollFinishedRecorded : List (Step Command) → Robot → Polled (List (Step Recorded))
  | [], robot => ⟨[], robot, none⟩
  | ⟨primary, companions, beside⟩ :: rest, robot =>
    let first := pollAllRecorded beside robot
    match first.fault with
    | some _ =>
      first.map (⟨primary.untouched, companions.map untouched, ·⟩ :: rest.map (Step.map untouched))
    | none =>
      (pollFinishedRecorded rest first.robot).map
        (⟨primary.untouched, companions.map untouched, first.item⟩ :: ·)

/-- Polls one step after another as long as each is complete after its poll. -/
def runStepsRecorded :
    List (Step Command) → Robot → Polled (List (Step Recorded) × List (Step Recorded))
  | [], robot => ⟨([], []), robot, none⟩
  | step :: rest, robot =>
    let first := pollStepRecorded step robot
    match first.fault with
    | some _ => first.map fun step => ([], step :: rest.map (Step.map untouched))
    | none =>
      if (first.item.map Prod.fst).isComplete then
        (runStepsRecorded rest first.robot).map fun (done, left) => (first.item :: done, left)
      else
        first.map fun step => ([], step :: rest.map (Step.map untouched))

end

/-- What a group does at a poll before it is ended: first the threaded companions
of its finished steps, then the remaining steps. -/
def walk (finished remaining : List (Step Command)) (robot : Robot) :
    Polled (List (Step Command) × List (Step Command)) :=
  let beside := pollFinished finished robot
  match beside.fault with
  | some _ => beside.map fun finished => (finished, remaining)
  | none => (runSteps remaining beside.robot).map fun (done, left) => (beside.item ++ done, left)

@[inherit_doc walk]
def walkRecorded (finished remaining : List (Step Command)) (robot : Robot) :
    Polled (List (Step Recorded) × List (Step Recorded)) :=
  let beside := pollFinishedRecorded finished robot
  match beside.fault with
  | some _ => beside.map fun finished => (finished, remaining.map (Step.map untouched))
  | none =>
    (runStepsRecorded remaining beside.robot).map fun (done, left) => (beside.item ++ done, left)

theorem poll_group {name : String} {phase : Phase} {finished remaining : List (Step Command)}
    (h : phase ≠ .completed) (robot : Robot) :
    (Command.group name phase finished remaining).poll robot =
      ((walk finished remaining robot).map fun (finished, remaining) =>
        .group name .running finished remaining).finishIf
          (walk finished remaining robot).item.2.isEmpty := by
  cases phase with
  | notStarted | running => rw [poll]; rfl
  | completed => exact absurd rfl h

theorem pollRecorded_group {name : String} {phase : Phase}
    {finished remaining : List (Step Command)} (h : phase ≠ .completed) (robot : Robot) :
    (Command.group name phase finished remaining).pollRecorded robot =
      ((walkRecorded finished remaining robot).map fun (finished', remaining') =>
        (.group name .running (bare finished') (bare remaining'),
          opening phase ++ .own .run :: Trace.ofSteps 0 (finished' ++ remaining')
            ++ asked (walkRecorded finished remaining robot).fault)).finishRecorded
              (walkRecorded finished remaining robot).item.2.isEmpty := by
  rw [pollRecorded, if_neg h]
  rfl

/-! ## Without the trace -/

section Erasure

@[simp]
theorem map_fst_untouched (commands : List Command) :
    (commands.map untouched).map Prod.fst = commands := by
  rw [List.map_map]
  exact List.map_id commands

@[simp]
theorem step_map_fst_untouched (step : Step Command) :
    (step.map untouched).map Prod.fst = step := by
  rw [Step.map, Step.map, map_fst_untouched, map_fst_untouched]
  rfl

@[simp]
theorem bare_map_untouched (steps : List (Step Command)) :
    bare (steps.map (Step.map untouched)) = steps := by
  rw [bare, List.map_map]
  exact (List.map_congr_left fun step _ => step_map_fst_untouched step).trans (List.map_id steps)

@[simp]
theorem bare_nil : bare [] = [] :=
  rfl

@[simp]
theorem bare_cons (step : Step Recorded) (rest : List (Step Recorded)) :
    bare (step :: rest) = step.map Prod.fst :: bare rest :=
  rfl

@[simp]
theorem bare_append (first second : List (Step Recorded)) :
    bare (first ++ second) = bare first ++ bare second :=
  List.map_append

theorem abortAllRecorded_fst {commands : List Command}
    (h : ∀ command ∈ commands, ∀ robot,
      Prod.map Prod.fst id (command.abortRecorded robot) = command.abort robot)
    (robot : Robot) :
    Prod.map (List.map Prod.fst) id (abortAllRecorded commands robot) =
      abortAll commands robot := by
  induction commands generalizing robot with
  | nil => rfl
  | cons command rest ih =>
      rw [abortAllRecorded, abortAll, ← h command List.mem_cons_self]
      simp only [Prod.map_apply, id]
      rw [← ih fun c hc => h c (List.mem_cons_of_mem _ hc)]
      rfl

theorem abortStepRecorded_fst {step : Step Command}
    (h : ∀ command ∈ step.members, ∀ robot,
      Prod.map Prod.fst id (command.abortRecorded robot) = command.abort robot)
    (robot : Robot) :
    Prod.map (Step.map Prod.fst) id (abortStepRecorded step robot) = abortStep step robot := by
  obtain ⟨primary, companions, beside⟩ := step
  rw [abortStepRecorded, abortStep, ← h primary List.mem_cons_self]
  simp only [Prod.map_apply, id]
  rw [← abortAllRecorded_fst fun c hc => h c (List.mem_cons_of_mem _ (List.mem_append_left _ hc))]
  simp only
  rw [← abortAllRecorded_fst fun c hc => h c (List.mem_cons_of_mem _ (List.mem_append_right _ hc))]
  rfl

theorem abortStepsRecorded_fst {steps : List (Step Command)}
    (h : ∀ step ∈ steps, ∀ command ∈ step.members, ∀ robot,
      Prod.map Prod.fst id (command.abortRecorded robot) = command.abort robot)
    (robot : Robot) :
    Prod.map bare id (abortStepsRecorded steps robot) = abortSteps steps robot := by
  induction steps generalizing robot with
  | nil => rfl
  | cons step rest ih =>
      rw [abortStepsRecorded, abortSteps, ← abortStepRecorded_fst (h step List.mem_cons_self)]
      simp only [Prod.map_apply, id]
      rw [← ih fun s hs => h s (List.mem_cons_of_mem _ hs)]
      rfl

/-- The trace is written beside the abort itself. -/
theorem abortRecorded_fst (command : Command) (robot : Robot) :
    Prod.map Prod.fst id (command.abortRecorded robot) = command.abort robot := by
  induction command using childInduction generalizing robot with
  | step command ih =>
  by_cases hphase : command.phase = .running
  case neg =>
    rw [abort_of_phase_ne_running hphase]
    cases command with
    | leaf _ phase | threaded _ phase | group _ phase =>
        cases phase with
        | running => exact absurd rfl hphase
        | notStarted | completed => rfl
  match command with
  | .leaf name phase work =>
      cases hphase
      rfl
  | .threaded name phase cadence none inner =>
      cases hphase
      rfl
  | .threaded name phase cadence (some task) inner =>
      cases hphase
      rw [abortRecorded, abort]
      split
      · rfl
      · rw [← ih .inner inner rfl]
        rfl
  | .group name phase finished remaining =>
      cases hphase
      have hmember : ∀ step ∈ finished ++ remaining, ∀ member ∈ step.members, ∀ robot,
          Prod.map Prod.fst id (member.abortRecorded robot) = member.abort robot :=
        forall_members_of_child? ih
      rw [abortRecorded, abort,
        ← abortStepsRecorded_fst fun step hstep => hmember step (List.mem_append_left _ hstep)]
      simp only [Prod.map_apply, id]
      rw [← abortStepsRecorded_fst fun step hstep => hmember step (List.mem_append_right _ hstep)]
      rfl

theorem finishRecorded_fst (isDone : Bool) (polled : Polled Recorded) :
    (polled.finishRecorded isDone).map Prod.fst = (polled.map Prod.fst).finishIf isDone := by
  have hfault : (polled.map Prod.fst).fault = polled.fault := rfl
  rw [Polled.finishRecorded, Polled.finishIf, hfault]
  split
  · simp only [Polled.map, ← abortRecorded_fst]
    rfl
  · rfl

theorem pollLeafRecorded_fst (before : Trace) (name : String) (work : Leaf) (robot : Robot) :
    (pollLeafRecorded before name work robot).map Prod.fst = pollLeaf name work robot := by
  rw [pollLeafRecorded, pollLeaf]
  cases work.run robot with
  | error fault => exact finishRecorded_fst _ _
  | ok polled => exact finishRecorded_fst _ _

theorem pollThreadedRecorded_fst (before : Trace) (name : String) (cadence : Duration)
    (task : Task) (inner : Command) (robot : Robot) :
    (pollThreadedRecorded before name cadence task inner robot).map Prod.fst =
      pollThreaded name cadence task inner robot :=
  finishRecorded_fst _ _

theorem pollAllRecorded_fst {commands : List Command}
    (h : ∀ command ∈ commands, ∀ robot,
      (command.pollRecorded robot).map Prod.fst = command.poll robot)
    (robot : Robot) :
    (pollAllRecorded commands robot).map (List.map Prod.fst) = pollAll commands robot := by
  induction commands generalizing robot with
  | nil => rfl
  | cons command rest ih =>
      rw [pollAllRecorded, pollAll, ← h command List.mem_cons_self]
      simp only [Polled.map]
      cases (command.pollRecorded robot).fault with
      | some fault => simp only [List.map_cons, map_fst_untouched]
      | none =>
          simp only
          rw [← ih fun c hc => h c (List.mem_cons_of_mem _ hc)]
          rfl

theorem pollStepRecorded_fst {step : Step Command}
    (h : ∀ command ∈ step.members, ∀ robot,
      (command.pollRecorded robot).map Prod.fst = command.poll robot)
    (robot : Robot) :
    (pollStepRecorded step robot).map (Step.map Prod.fst) = pollStep step robot := by
  obtain ⟨primary, companions, beside⟩ := step
  rw [pollStepRecorded, pollStep, ← h primary List.mem_cons_self]
  simp only [Polled.map]
  cases (primary.pollRecorded robot).fault with
  | some fault => simp only [Step.map, map_fst_untouched]
  | none =>
      simp only
      rw [← pollAllRecorded_fst
        fun c hc => h c (List.mem_cons_of_mem _ (List.mem_append_left _ hc))]
      simp only [Polled.map]
      cases (pollAllRecorded companions (primary.pollRecorded robot).robot).fault with
      | some fault => simp only [Step.map, map_fst_untouched]
      | none =>
          simp only
          rw [← pollAllRecorded_fst
            fun c hc => h c (List.mem_cons_of_mem _ (List.mem_append_right _ hc))]
          rfl

theorem pollFinishedRecorded_fst {steps : List (Step Command)}
    (h : ∀ step ∈ steps, ∀ command ∈ step.members, ∀ robot,
      (command.pollRecorded robot).map Prod.fst = command.poll robot)
    (robot : Robot) :
    (pollFinishedRecorded steps robot).map bare = pollFinished steps robot := by
  induction steps generalizing robot with
  | nil => rfl
  | cons step rest ih =>
      obtain ⟨primary, companions, beside⟩ := step
      rw [pollFinishedRecorded, pollFinished, ← pollAllRecorded_fst fun c hc =>
        h _ List.mem_cons_self c (List.mem_cons_of_mem _ (List.mem_append_right _ hc))]
      simp only [Polled.map]
      cases (pollAllRecorded beside robot).fault with
      | some fault =>
          simp only [bare_cons, Step.map, map_fst_untouched, bare_map_untouched]
          rfl
      | none =>
          simp only
          rw [← ih fun s hs => h s (List.mem_cons_of_mem _ hs)]
          simp only [Polled.map, bare_cons, Step.map, map_fst_untouched]
          rfl

theorem runStepsRecorded_fst {steps : List (Step Command)}
    (h : ∀ step ∈ steps, ∀ command ∈ step.members, ∀ robot,
      (command.pollRecorded robot).map Prod.fst = command.poll robot)
    (robot : Robot) :
    (runStepsRecorded steps robot).map (Prod.map bare bare) = runSteps steps robot := by
  induction steps generalizing robot with
  | nil => rfl
  | cons step rest ih =>
      rw [runStepsRecorded, runSteps, ← pollStepRecorded_fst (h step List.mem_cons_self)]
      obtain ⟨item, robot', fault⟩ := pollStepRecorded step robot
      cases fault with
      | some fault =>
          simp only [Polled.map, Prod.map_apply, bare_nil, bare_cons, bare_map_untouched]
      | none =>
          change (if (item.map Prod.fst).isComplete = true then _ else _ : Polled _).map _ =
            if (item.map Prod.fst).isComplete = true then _ else _
          split
          · rw [← ih fun s hs => h s (List.mem_cons_of_mem _ hs)]
            rfl
          · simp only [Polled.map, Prod.map_apply, bare_nil, bare_cons, bare_map_untouched]

theorem walkRecorded_fst {finished remaining : List (Step Command)}
    (h : ∀ step ∈ finished ++ remaining, ∀ command ∈ step.members, ∀ robot,
      (command.pollRecorded robot).map Prod.fst = command.poll robot)
    (robot : Robot) :
    (walkRecorded finished remaining robot).map (Prod.map bare bare) =
      walk finished remaining robot := by
  rw [walkRecorded, walk,
    ← pollFinishedRecorded_fst fun step hstep => h step (List.mem_append_left _ hstep)]
  obtain ⟨item, robot', fault⟩ := pollFinishedRecorded finished robot
  cases fault with
  | some fault => simp only [Polled.map, Prod.map_apply, bare_map_untouched]
  | none =>
      simp only [Polled.map]
      rw [← runStepsRecorded_fst fun step hstep => h step (List.mem_append_right _ hstep)]
      simp only [Polled.map, Prod.map_apply, Prod.map_fst, Prod.map_snd, bare_append]

/-- The trace is written beside the poll itself. -/
theorem pollRecorded_fst (command : Command) (robot : Robot) :
    (command.pollRecorded robot).map Prod.fst = command.poll robot := by
  induction command using childInduction generalizing robot with
  | step command ih =>
  match command with
  | .leaf name .notStarted work => exact pollLeafRecorded_fst _ name _ _
  | .leaf name .running work => exact pollLeafRecorded_fst _ name work robot
  | .threaded name .notStarted cadence none inner =>
      exact pollThreadedRecorded_fst _ name cadence .started inner robot
  | .threaded name .notStarted cadence (some task) inner => exact finishRecorded_fst _ _
  | .threaded name .running cadence (some task) inner =>
      exact pollThreadedRecorded_fst _ name cadence task inner robot
  | .threaded name .running cadence none inner => exact finishRecorded_fst _ _
  | .leaf name .completed work | .threaded name .completed cadence task inner
  | .group name .completed finished remaining => rfl
  | .group name .notStarted finished remaining | .group name .running finished remaining =>
      have hmember : ∀ step ∈ finished ++ remaining, ∀ member ∈ step.members, ∀ robot,
          (member.pollRecorded robot).map Prod.fst = member.poll robot :=
        forall_members_of_child? ih
      rw [pollRecorded_group (by decide), poll_group (by decide), finishRecorded_fst,
        ← walkRecorded_fst hmember]
      obtain ⟨⟨done, left⟩, robot', fault⟩ := walkRecorded finished remaining robot
      cases left with
      | nil | cons => rfl

theorem item_abortRecorded (command : Command) (robot : Robot) :
    (command.abortRecorded robot).1.1 = (command.abort robot).1 :=
  congrArg Prod.fst (abortRecorded_fst command robot)

theorem robot_abortRecorded (command : Command) (robot : Robot) :
    (command.abortRecorded robot).2 = (command.abort robot).2 :=
  congrArg Prod.snd (abortRecorded_fst command robot)

theorem item_pollRecorded (command : Command) (robot : Robot) :
    (command.pollRecorded robot).item.1 = (command.poll robot).item :=
  congrArg Polled.item (pollRecorded_fst command robot)

theorem fault_pollRecorded (command : Command) (robot : Robot) :
    (command.pollRecorded robot).fault = (command.poll robot).fault :=
  congrArg Polled.fault (pollRecorded_fst command robot)

end Erasure

end Command

end RobotRoutine
