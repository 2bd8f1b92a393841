import RobotRoutine.Proofs.Command.Chronicle
import RobotRoutine.Proofs.Command.Deeds

/-!
# What actions have done, in the trace and on the robot

Messages are emitted and mechanisms are sent somewhere by actions and by nobody
else; the drive is given orders by others too. So the deeds in the trace of a run
lead from the robot at its start to the robot at its end: `lead_after` says so for
every tree and every run. It is what ties the effects of a trace, of which later
files speak, to the robot.
-/

namespace RobotRoutine

namespace Trace

/-- The deeds in the records of several commands. -/
def deedsOf (recorded : List Recorded) : List Deed :=
  recorded.flatMap (·.2.deeds)

/-- The deeds in the records of the members of steps. -/
def deedsIn (steps : List (Step Recorded)) : List Deed :=
  steps.flatMap fun step => deedsOf step.members

@[simp]
theorem deedsOf_cons (first : Recorded) (rest : List Recorded) :
    deedsOf (first :: rest) = first.2.deeds ++ deedsOf rest :=
  List.flatMap_cons

@[simp]
theorem deedsOf_append (first second : List Recorded) :
    deedsOf (first ++ second) = deedsOf first ++ deedsOf second :=
  List.flatMap_append

@[simp]
theorem deedsOf_untouched (commands : List Command) :
    deedsOf (commands.map Command.untouched) = [] := by
  refine List.flatMap_eq_nil_iff.mpr fun r hr => ?_
  obtain ⟨command, -, rfl⟩ := List.mem_map.mp hr
  rfl

@[simp]
theorem deedsIn_cons (step : Step Recorded) (rest : List (Step Recorded)) :
    deedsIn (step :: rest) = deedsOf step.members ++ deedsIn rest :=
  List.flatMap_cons

@[simp]
theorem deedsIn_append (first second : List (Step Recorded)) :
    deedsIn (first ++ second) = deedsIn first ++ deedsIn second :=
  List.flatMap_append

@[simp]
theorem deedsIn_untouched (steps : List (Step Command)) :
    deedsIn (steps.map (Step.map Command.untouched)) = [] := by
  refine List.flatMap_eq_nil_iff.mpr fun recorded hrecorded => ?_
  obtain ⟨step, -, rfl⟩ := List.mem_map.mp hrecorded
  rw [Step.members_map, deedsOf_untouched]

@[simp]
theorem deeds_append (first second : Trace) :
    deeds (first ++ second) = deeds first ++ deeds second :=
  List.filterMap_append

@[simp]
theorem deeds_under (turn : Turn) (trace : Trace) :
    deeds (under turn trace) = deeds trace := by
  rw [deeds, under, List.filterMap_map]
  rfl

@[simp]
theorem deeds_own (call : Call) (trace : Trace) : deeds (.own call :: trace) = deeds trace :=
  rfl

theorem deeds_ofRow (row : Nat → Turn) (index : Nat) (recorded : List Recorded) :
    deeds (ofRow row index recorded) = deedsOf recorded := by
  induction recorded generalizing index with
  | nil => rfl
  | cons first rest ih =>
      rw [ofRow, deeds_append, deeds_under, ih]
      rfl

theorem deeds_ofStep (index : Nat) (step : Step Recorded) :
    deeds (ofStep index step) = deedsOf step.members := by
  rw [ofStep, deeds_append, deeds_append, deeds_under, deeds_ofRow, deeds_ofRow,
    List.append_assoc, Step.members, deedsOf_cons, deedsOf_append]

/-- The deeds in a group are those in its members, in the order of the steps. -/
theorem deeds_ofSteps (index : Nat) (steps : List (Step Recorded)) :
    deeds (ofSteps index steps) = deedsIn steps := by
  induction steps generalizing index with
  | nil => rfl
  | cons step rest ih => rw [ofSteps, deeds_append, deeds_ofStep, ih, deedsIn_cons]

end Trace

namespace Leaf

/-- What an action does. -/
def effect? : Leaf → Option Effect
  | .action effect => some effect
  | .timed .. | .convergence .. | .waitUntil _ => none

theorem effects_ran (work : Leaf) (before after : Robot) :
    (Trace.deeds [work.ran before after, .own .check]).map Deed.effect = work.effect?.toList := by
  cases work <;> rfl

/-- An action cannot fail. -/
theorem effect?_of_run_eq_error {work : Leaf} {robot : Robot} {fault : SensorFault}
    (h : work.run robot = .error fault) : work.effect? = none := by
  cases work with
  | action effect => cases h
  | timed | convergence | waitUntil => rfl

theorem keeps_start (work : Leaf) (robot : Robot) : robot.Keeps (work.start robot).2 := by
  cases work with
  | convergence mode => cases mode <;> exact ⟨rfl, fun _ => rfl, Or.inl rfl⟩
  | action | timed | waitUntil => exact .refl robot

theorem lead_run {work work' : Leaf} {robot robot' : Robot}
    (h : work.run robot = .ok (work', robot')) :
    Deed.Lead robot (Trace.deeds [work.ran robot robot', .own .check]) robot' := by
  cases work with
  | action effect =>
      obtain ⟨-, rfl⟩ := Prod.mk.inj (Except.ok.inj h)
      exact .cons (.refl robot) (Deed.isDone_perform effect robot) (.refl _)
  | timed duration output startedAt =>
      refine .nil ?_
      cases output with
      | idle =>
          obtain ⟨-, rfl⟩ := Prod.mk.inj (Except.ok.inj h)
          exact .refl robot
      | tank =>
          obtain ⟨-, rfl⟩ := Prod.mk.inj (Except.ok.inj h)
          exact .of_order rfl (fun _ => rfl) rfl
  | convergence mode target count measured =>
      refine .nil ?_
      rw [run] at h
      split at h
      · cases h
      · obtain ⟨-, rfl⟩ := Prod.mk.inj (Except.ok.inj h)
        cases mode <;> exact .of_order rfl (fun _ => rfl) rfl
  | waitUntil time =>
      obtain ⟨-, rfl⟩ := Prod.mk.inj (Except.ok.inj h)
      exact .nil (.of_order rfl (fun _ => rfl) rfl)

theorem keeps_finish (work : Leaf) (robot : Robot) : robot.Keeps (work.finish robot) := by
  cases work with
  | timed duration output =>
      cases output with
      | idle => exact .refl robot
      | tank => exact .of_order rfl (fun _ => rfl) rfl
  | convergence mode => cases mode <;> exact .of_order rfl (fun _ => rfl) rfl
  | action | waitUntil => exact .refl robot

end Leaf

namespace Command

open Deed (Lead)
open Trace (deedsOf deedsIn)

/-! ## Aborts do no deeds -/

theorem deedsIn_eq_nil {relation : Command → Recorded → Prop}
    {steps : List (Step Command)} {recorded : List (Step Recorded)}
    (h : List.Forall₂ (Step.Rel relation) steps recorded)
    (hnone : ∀ step ∈ steps, ∀ command ∈ step.members, ∀ r : Recorded, relation command r →
      r.2.deeds = []) :
    deedsIn recorded = [] := by
  refine List.flatMap_eq_nil_iff.mpr fun step hstep => List.flatMap_eq_nil_iff.mpr fun r hr => ?_
  obtain ⟨old, hold, hrel⟩ := exists_of_mem_right h hstep
  obtain ⟨command, hcommand, hr⟩ := exists_of_mem_right hrel.members hr
  exact hnone old hold command hcommand r hr

theorem deeds_abort (command : Command) (robot : Robot) :
    (command.abortRecorded robot).1.2.deeds = [] := by
  induction command using childInduction generalizing robot with
  | step command ih =>
  by_cases hphase : command.phase = .running
  case neg =>
    rw [abortRecorded_of_phase_ne_running hphase]
    rfl
  match command with
  | .leaf .. | .threaded _ _ _ none _ =>
      cases hphase
      rfl
  | .threaded name phase cadence (some task) inner =>
      cases hphase
      rw [abortRecorded]
      split
      · rfl
      · exact (Trace.deeds_under _ _).trans (ih .inner inner rfl robot)
  | .group name phase finished remaining =>
      cases hphase
      have hmembers := List.rel_append (forall₂_abortSteps finished robot)
        (forall₂_abortSteps remaining (abortStepsRecorded finished robot).2)
      rw [abortRecorded]
      refine (Trace.deeds_ofSteps 0 _).trans (deedsIn_eq_nil hmembers ?_)
      rintro step hstep member hmember _ ⟨robot', rfl⟩
      obtain ⟨turn, hchild⟩ := exists_child?_of_mem hstep hmember
      exact ih turn member hchild robot'

theorem keeps_abortAll {commands : List Command}
    (h : ∀ command ∈ commands, ∀ robot : Robot, robot.Keeps (command.abort robot).2)
    (robot : Robot) : robot.Keeps (abortAll commands robot).2 := by
  induction commands generalizing robot with
  | nil => exact .refl robot
  | cons command rest ih =>
      exact (h command List.mem_cons_self robot).trans
        (ih (fun c hc => h c (List.mem_cons_of_mem _ hc)) _)

theorem keeps_abortSteps {steps : List (Step Command)}
    (h : ∀ step ∈ steps, ∀ command ∈ step.members, ∀ robot : Robot,
      robot.Keeps (command.abort robot).2)
    (robot : Robot) : robot.Keeps (abortSteps steps robot).2 := by
  induction steps generalizing robot with
  | nil => exact .refl robot
  | cons step rest ih =>
      obtain ⟨primary, companions, beside⟩ := step
      have hmember := h _ List.mem_cons_self
      have hprimary := hmember primary List.mem_cons_self robot
      have hcompanions := keeps_abortAll (fun c hc =>
        hmember c (List.mem_cons_of_mem _ (List.mem_append_left _ hc))) (primary.abort robot).2
      have hbeside := keeps_abortAll (fun c hc =>
        hmember c (List.mem_cons_of_mem _ (List.mem_append_right _ hc)))
        (abortAll companions (primary.abort robot).2).2
      exact hprimary.trans (hcompanions.trans (hbeside.trans
        (ih (fun s hs => h s (List.mem_cons_of_mem _ hs)) _)))

theorem keeps_abort (command : Command) (robot : Robot) :
    robot.Keeps (command.abort robot).2 := by
  induction command using childInduction generalizing robot with
  | step command ih =>
  by_cases hphase : command.phase = .running
  case neg =>
    rw [abort_of_phase_ne_running hphase]
    exact .refl robot
  match command with
  | .leaf name phase work =>
      cases hphase
      exact work.keeps_finish robot
  | .threaded _ _ _ none _ =>
      cases hphase
      exact .refl robot
  | .threaded name phase cadence (some task) inner =>
      cases hphase
      rw [abort]
      split
      · exact .refl robot
      · exact ih .inner inner rfl robot
  | .group name phase finished remaining =>
      cases hphase
      have hmember : ∀ step ∈ finished ++ remaining, ∀ member ∈ step.members, ∀ robot : Robot,
          robot.Keeps (member.abort robot).2 :=
        forall_members_of_child? ih
      rw [abort]
      exact (keeps_abortSteps (fun step hstep => hmember step (List.mem_append_left _ hstep))
        robot).trans
          (keeps_abortSteps (fun step hstep => hmember step (List.mem_append_right _ hstep)) _)

/-! ## The deeds of a poll lead to its robot -/

theorem lead_finish {robot : Robot} {polled : Polled Recorded} (isDone : Bool)
    (h : Lead robot polled.item.2.deeds polled.robot) :
    Lead robot (polled.finishRecorded isDone).item.2.deeds
      (polled.finishRecorded isDone).robot := by
  rw [Polled.finishRecorded]
  split
  · simp only [Trace.deeds_append, deeds_abort, List.append_nil, robot_abortRecorded]
    exact h.trans_keeps (keeps_abort _ _)
  · exact h

theorem lead_pollLeaf (before : Trace) (h : before.deeds = []) (name : String) (work : Leaf)
    (robot : Robot) :
    Lead robot (pollLeafRecorded before name work robot).item.2.deeds
      (pollLeafRecorded before name work robot).robot := by
  unfold pollLeafRecorded
  split
  · refine lead_finish true ?_
    rw [Trace.deeds_append, h]
    exact .refl robot
  · next after moved hrun =>
      refine lead_finish _ ?_
      rw [Trace.deeds_append, h]
      exact Leaf.lead_run hrun

section Walks

/-! The walks of a poll, given what the polls of the members show. -/

theorem lead_pollAll {commands : List Command}
    (h : ∀ command ∈ commands, ∀ robot, Lead robot (command.pollRecorded robot).item.2.deeds
      (command.pollRecorded robot).robot)
    (robot : Robot) :
    Lead robot (deedsOf (pollAllRecorded commands robot).item)
      (pollAllRecorded commands robot).robot := by
  induction commands generalizing robot with
  | nil => exact Lead.refl robot
  | cons command rest ih =>
      have hfirst := h command List.mem_cons_self robot
      rw [pollAllRecorded]
      split
      · simp only [Polled.map, Trace.deedsOf_cons, Trace.deedsOf_untouched, List.append_nil]
        exact hfirst
      · simp only [Polled.map, Trace.deedsOf_cons]
        exact hfirst.trans (ih (fun c hc => h c (List.mem_cons_of_mem _ hc)) _)

theorem lead_pollStep {step : Step Command}
    (h : ∀ command ∈ step.members, ∀ robot, Lead robot
      (command.pollRecorded robot).item.2.deeds (command.pollRecorded robot).robot)
    (robot : Robot) :
    Lead robot (deedsOf (pollStepRecorded step robot).item.members)
      (pollStepRecorded step robot).robot := by
  obtain ⟨primary, companions, beside⟩ := step
  have hfirst := h primary List.mem_cons_self robot
  rw [pollStepRecorded]
  split
  · simp only [Polled.map, Step.members, Trace.deedsOf_cons, Trace.deedsOf_append,
      Trace.deedsOf_untouched, List.append_nil]
    exact hfirst
  · have hsecond := lead_pollAll
      (fun c hc => h c (List.mem_cons_of_mem _ (List.mem_append_left _ hc)))
      (primary.pollRecorded robot).robot
    simp only
    split
    · simp only [Polled.map, Step.members, Trace.deedsOf_cons, Trace.deedsOf_append,
        Trace.deedsOf_untouched, List.append_nil]
      exact hfirst.trans hsecond
    · simp only [Polled.map, Step.members, Trace.deedsOf_cons, Trace.deedsOf_append]
      exact hfirst.trans (hsecond.trans (lead_pollAll
        (fun c hc => h c (List.mem_cons_of_mem _ (List.mem_append_right _ hc))) _))

theorem lead_pollFinished {steps : List (Step Command)}
    (h : ∀ step ∈ steps, ∀ command ∈ step.members, ∀ robot, Lead robot
      (command.pollRecorded robot).item.2.deeds (command.pollRecorded robot).robot)
    (robot : Robot) :
    Lead robot (deedsIn (pollFinishedRecorded steps robot).item)
      (pollFinishedRecorded steps robot).robot := by
  induction steps generalizing robot with
  | nil => exact Lead.refl robot
  | cons step rest ih =>
      obtain ⟨primary, companions, beside⟩ := step
      have hfirst := lead_pollAll (fun c hc => h _ List.mem_cons_self c
        (List.mem_cons_of_mem _ (List.mem_append_right _ hc))) robot
      rw [pollFinishedRecorded]
      split
      · simp only [Polled.map, Trace.deedsIn_cons, Step.members, Trace.deedsOf_cons,
          Trace.deedsOf_append, Trace.deedsOf_untouched, Trace.deedsIn_untouched,
          List.append_nil]
        exact hfirst
      · simp only [Polled.map, Trace.deedsIn_cons, Step.members, Trace.deedsOf_cons,
          Trace.deedsOf_append, Trace.deedsOf_untouched]
        exact hfirst.trans (ih (fun s hs => h s (List.mem_cons_of_mem _ hs)) _)

theorem lead_runSteps {steps : List (Step Command)}
    (h : ∀ step ∈ steps, ∀ command ∈ step.members, ∀ robot, Lead robot
      (command.pollRecorded robot).item.2.deeds (command.pollRecorded robot).robot)
    (robot : Robot) :
    Lead robot (deedsIn ((runStepsRecorded steps robot).item.1 ++
      (runStepsRecorded steps robot).item.2)) (runStepsRecorded steps robot).robot := by
  induction steps generalizing robot with
  | nil => exact Lead.refl robot
  | cons step rest ih =>
      have hfirst := lead_pollStep (h step List.mem_cons_self) robot
      have honly : Lead robot (deedsIn ((pollStepRecorded step robot).item ::
          rest.map (Step.map untouched))) (pollStepRecorded step robot).robot := by
        rw [Trace.deedsIn_cons, Trace.deedsIn_untouched, List.append_nil]
        exact hfirst
      rw [runStepsRecorded]
      split
      · exact honly
      · simp only
        split
        · simp only [Polled.map, List.cons_append, Trace.deedsIn_cons]
          exact hfirst.trans (ih (fun s hs => h s (List.mem_cons_of_mem _ hs)) _)
        · exact honly

theorem lead_walk {finished remaining : List (Step Command)}
    (h : ∀ step ∈ finished ++ remaining, ∀ command ∈ step.members, ∀ robot, Lead robot
      (command.pollRecorded robot).item.2.deeds (command.pollRecorded robot).robot)
    (robot : Robot) :
    Lead robot (deedsIn ((walkRecorded finished remaining robot).item.1 ++
      (walkRecorded finished remaining robot).item.2))
      (walkRecorded finished remaining robot).robot := by
  have hfirst := lead_pollFinished (fun step hstep => h step (List.mem_append_left _ hstep)) robot
  rw [walkRecorded]
  split
  · simp only [Polled.map, Trace.deedsIn_append, Trace.deedsIn_untouched, List.append_nil]
    exact hfirst
  · simp only [Polled.map, Trace.deedsIn_append, List.append_assoc]
    rw [← Trace.deedsIn_append]
    exact hfirst.trans (lead_runSteps (fun step hstep => h step (List.mem_append_right _ hstep)) _)

end Walks

theorem deeds_opening (phase : Phase) : (opening phase).deeds = [] := by
  cases phase <;> rfl

theorem deeds_asked (fault : Option RoutineError) : (asked fault).deeds = [] := by
  cases fault <;> rfl

/-- A poll writes what the effects in its trace say, in their order. -/
theorem lead_poll (command : Command) (robot : Robot) :
    Lead robot (command.pollRecorded robot).item.2.deeds (command.pollRecorded robot).robot := by
  induction command using childInduction generalizing robot with
  | step command ih =>
  match command with
  | .leaf name .notStarted work =>
      exact .of_keeps (work.keeps_start robot)
        (lead_pollLeaf [.own .start] rfl name (work.start robot).1 (work.start robot).2)
  | .leaf name .running work => exact lead_pollLeaf [] rfl name work robot
  | .threaded name .notStarted cadence none inner
  | .threaded name .notStarted cadence (some task) inner
  | .threaded name .running cadence none inner
  | .threaded name .running cadence (some task) inner => exact lead_finish _ (Lead.refl robot)
  | .group name .notStarted finished remaining | .group name .running finished remaining =>
      have hmember : ∀ step ∈ finished ++ remaining, ∀ member ∈ step.members, ∀ robot,
          Lead robot (member.pollRecorded robot).item.2.deeds
            (member.pollRecorded robot).robot :=
        forall_members_of_child? ih
      rw [pollRecorded_group (by decide)]
      refine lead_finish _ ?_
      simp only [Polled.map, Trace.deeds_append, deeds_opening, Trace.deeds_own,
        Trace.deeds_ofSteps, deeds_asked, List.nil_append, List.append_nil]
      exact lead_walk hmember robot
  | .leaf name .completed work | .threaded name .completed cadence task inner =>
      exact Lead.refl robot
  | .group name .completed finished remaining =>
      rw [pollRecorded, if_pos rfl]
      exact Lead.refl robot

/-! ## Runs -/

theorem lead_iterateWorker (command : Command) (robot : Robot) :
    Lead robot (command.iterateWorkerRecorded robot).1.2.deeds
      (command.iterateWorkerRecorded robot).2 := by
  match command with
  | .leaf .. | .threaded _ _ _ none _ | .group .. => exact Lead.refl robot
  | .threaded name phase cadence (some task) inner =>
      rw [iterateWorkerRecorded]
      split
      · exact Lead.refl robot
      · simp only [Trace.deeds_under]
        exact lead_poll inner robot

theorem lead_cancelWorker (command : Command) (robot : Robot) :
    Lead robot (command.cancelWorkerRecorded robot).1.2.deeds
      (command.cancelWorkerRecorded robot).2 := by
  match command with
  | .leaf .. | .threaded _ _ _ none _ | .group .. => exact Lead.refl robot
  | .threaded name phase cadence (some task) inner =>
      rw [cancelWorkerRecorded]
      split
      · exact Lead.refl robot
      · simp only [Trace.deeds_under, deeds_abort, robot_abortRecorded]
        exact .nil (keeps_abort inner robot)

theorem lead_visit {act : Command → Robot → Recorded × Robot}
    (h : ∀ command robot, Lead robot (act command robot).1.2.deeds (act command robot).2)
    (place : Place) (command : Command) (robot : Robot) :
    Lead robot (command.visitRecorded act place robot).1.2.deeds
      (command.visitRecorded act place robot).2 := by
  induction place generalizing command robot with
  | nil => exact h command robot
  | cons turn rest ih =>
      rw [visitRecorded]
      split
      · exact Lead.refl robot
      · simp only [Trace.deeds_under]
        exact ih _ robot

end Command

open Command Deed

theorem Scene.lead_performRecorded (scene : Scene) (occurrence : Occurrence) :
    Lead scene.robot (scene.performRecorded occurrence).2.deeds
      (scene.performRecorded occurrence).1.robot := by
  match occurrence with
  | .event .poll => exact lead_poll scene.root scene.robot
  | .event .abort =>
      rw [performRecorded]
      simp only [deeds_abort, robot_abortRecorded]
      exact .nil (keeps_abort scene.root scene.robot)
  | .event (.work place) => exact lead_visit lead_iterateWorker place scene.root scene.robot
  | .event (.change conditions) => exact .nil ⟨rfl, fun _ => rfl, Or.inl rfl⟩
  | .cancel place => exact lead_visit lead_cancelWorker place scene.root scene.robot

theorem Chronicle.deeds_step (chronicle : Chronicle) (occurrence : Occurrence) :
    (chronicle.step occurrence).trace.deeds =
      chronicle.trace.deeds ++ (chronicle.scene.performRecorded occurrence).2.deeds :=
  Trace.deeds_append _ _

/-- The deeds of every run lead from the robot at its start to the robot at its end. -/
theorem Chronicle.lead_after (root : Command) (robot : Robot) (occurrences : List Occurrence) :
    Lead robot ((start root robot).after occurrences).trace.deeds
      ((start root robot).after occurrences).scene.robot := by
  induction occurrences using List.reverseRecOn with
  | nil => exact .refl robot
  | append_singleton before last ih =>
      have hlast := Scene.lead_performRecorded ((start root robot).after before).scene last
      have hall := ih.trans hlast
      rw [← deeds_step] at hall
      rw [after_append]
      exact hall

end RobotRoutine
