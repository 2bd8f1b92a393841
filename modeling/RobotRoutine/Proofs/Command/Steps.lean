import RobotRoutine.Proofs.Command.Trace

/-!
# Steps that are done with

A group keeps the steps that it has finished, and at every poll and abort goes
through them again for what runs beside them. Where nothing runs beside a step
there is nothing to be found: all that it has is what it waited for, and that is
completed. Such steps are settled; polls and aborts pass over them, a run over steps
leaves no others behind, and the poll of a group comes down to a run over the steps
that remain (`poll_group_of_isSettled`).
-/

namespace RobotRoutine

namespace Command

/-- Whether no step has anything beside those that it waits for. -/
def IsThreadless (steps : List (Step Command)) : Prop :=
  ∀ step ∈ steps, step.threaded = []

/-- Finished steps with nothing beside them are not polled any more. -/
theorem walk_of_isThreadless {finished : List (Step Command)} (h : IsThreadless finished)
    (remaining : List (Step Command)) (robot : Robot) :
    walk finished remaining robot =
      (runSteps remaining robot).map fun run => (finished ++ run.1, run.2) := by
  have hbeside : pollFinished finished robot = ⟨finished, robot, none⟩ := by
    induction finished with
    | nil => rfl
    | cons step rest ih =>
        obtain ⟨primary, companions, beside⟩ := step
        obtain rfl := h _ List.mem_cons_self
        rw [pollFinished, pollAll]
        simp only [ih fun s hs => h s (List.mem_cons_of_mem _ hs)]
        rfl
  rw [walk, hbeside]

/-- Whether nothing in the steps is running. -/
def IsAtRest (steps : List (Step Command)) : Prop :=
  ∀ step ∈ steps, ∀ member ∈ step.members, member.phase ≠ .running

/-- Whether the steps will neither be polled nor ended again. -/
structure IsSettled (steps : List (Step Command)) : Prop where
  isThreadless : IsThreadless steps
  isAtRest : IsAtRest steps

theorem IsThreadless.append {first second : List (Step Command)} (hfirst : IsThreadless first)
    (hsecond : IsThreadless second) : IsThreadless (first ++ second) :=
  List.forall_mem_append.mpr ⟨hfirst, hsecond⟩

theorem IsSettled.append {first second : List (Step Command)} (hfirst : IsSettled first)
    (hsecond : IsSettled second) : IsSettled (first ++ second) :=
  ⟨hfirst.isThreadless.append hsecond.isThreadless,
    List.forall_mem_append.mpr ⟨hfirst.isAtRest, hsecond.isAtRest⟩⟩

theorem isSettled_nil : IsSettled [] :=
  ⟨nofun, nofun⟩

theorem IsSettled.of_isComplete {step : Step Command} (hthreaded : step.threaded = [])
    (h : step.isComplete = true) : IsSettled [step] := by
  refine ⟨List.forall_mem_singleton.mpr hthreaded, List.forall_mem_singleton.mpr ?_⟩
  intro member hmember
  rw [Step.members, hthreaded, List.append_nil] at hmember
  have hcompleted := List.all_eq_true.mp h member hmember
  rw [isCompleted, decide_eq_true_eq] at hcompleted
  rw [hcompleted]
  decide

theorem abortSteps_of_isAtRest {steps : List (Step Command)} (h : IsAtRest steps)
    (robot : Robot) : abortSteps steps robot = (steps, robot) := by
  have hall : ∀ {commands : List Command}, (∀ command ∈ commands, command.phase ≠ .running) →
      abortAll commands robot = (commands, robot) := by
    intro commands hcommands
    induction commands with
    | nil => rfl
    | cons command rest ih =>
        rw [abortAll, abort_of_phase_ne_running (hcommands command List.mem_cons_self)]
        simp only [ih fun c hc => hcommands c (List.mem_cons_of_mem _ hc)]
  induction steps with
  | nil => rfl
  | cons step rest ih =>
      obtain ⟨primary, companions, beside⟩ := step
      have hstep := h _ List.mem_cons_self
      rw [abortSteps, abortStep, abort_of_phase_ne_running (hstep primary List.mem_cons_self)]
      simp only
      rw [hall fun c hc => hstep c (List.mem_cons_of_mem _ (List.mem_append_left _ hc))]
      simp only
      rw [hall fun c hc => hstep c (List.mem_cons_of_mem _ (List.mem_append_right _ hc))]
      simp only
      rw [ih fun s hs => h s (List.mem_cons_of_mem _ hs)]

theorem threaded_pollStep {step : Step Command} (h : step.threaded = []) (robot : Robot) :
    (pollStep step robot).item.threaded = [] := by
  obtain ⟨primary, companions, beside⟩ := step
  obtain rfl := h
  rw [pollStep]
  cases (primary.poll robot).fault with
  | some error => rfl
  | none =>
      simp only
      cases (pollAll companions (primary.poll robot).robot).fault with
      | some error => rfl
      | none => rfl

/-- A run leaves behind steps that are settled. -/
theorem isSettled_runSteps {steps : List (Step Command)} (h : IsThreadless steps) (robot : Robot) :
    IsSettled (runSteps steps robot).item.1 ∧ IsThreadless (runSteps steps robot).item.2 := by
  induction steps generalizing robot with
  | nil => exact ⟨isSettled_nil, h⟩
  | cons step rest ih =>
      have hstep := threaded_pollStep (h step List.mem_cons_self) robot
      have hrest : IsThreadless rest := fun s hs => h s (List.mem_cons_of_mem _ hs)
      have hstopped : IsThreadless ((pollStep step robot).item :: rest) :=
        List.forall_mem_cons.mpr ⟨hstep, hrest⟩
      rw [runSteps]
      cases (pollStep step robot).fault with
      | some error => exact ⟨isSettled_nil, hstopped⟩
      | none =>
          simp only
          cases hcomplete : (pollStep step robot).item.isComplete with
          | false => exact ⟨isSettled_nil, hstopped⟩
          | true =>
              obtain ⟨hdone, hleft⟩ := ih hrest (pollStep step robot).robot
              exact ⟨(IsSettled.of_isComplete hstep hcomplete).append hdone, hleft⟩

theorem walk_of_isSettled {finished : List (Step Command)} (h : IsSettled finished)
    (remaining : List (Step Command)) (robot : Robot) :
    walk finished remaining robot =
      (runSteps remaining robot).map fun run => (finished ++ run.1, run.2) :=
  walk_of_isThreadless h.isThreadless remaining robot

/-- The poll of a group whose finished steps are settled is a run over the others. -/
theorem poll_group_of_isSettled {name : String} {phase : Phase}
    {finished remaining : List (Step Command)} {robot : Robot} (hphase : phase ≠ .completed)
    (h : IsSettled finished) :
    (Command.group name phase finished remaining).poll robot =
      ((runSteps remaining robot).map fun run =>
        .group name .running (finished ++ run.1) run.2).finishIf
          (runSteps remaining robot).item.2.isEmpty := by
  rw [poll_group hphase, walk_of_isSettled h]
  rfl

end Command

end RobotRoutine
