import RobotRoutine.Proofs.Command.Effects

/-!
# The actions of a flat routine are done once and in order

A flat routine is a group of leaves. Its finished steps have no action left to
do, so what is still to come are the actions of its remaining steps (`ahead`),
and every action has its effect in the poll that starts it. So the effects of a
poll and what is ahead after it are, in this order, what was ahead before it:
that is `poll_flat`, and it holds however the poll ends, at a failure between
two members of a step as well as at the end of the routine. Aborts and everything
else that happens in a run leave what is ahead alone.

It does not hold of nested groups, which go on in a step beside companions that
have long started; the order of effects is then not that of the tree.
-/

namespace RobotRoutine

namespace Command

open Trace (deedsOf deedsIn)

/-! ## Leaves -/

/-- Whether the command is a leaf, and not an action that has been left running. -/
def IsPlain : Command → Prop
  | .leaf _ phase work => phase = .running → work.effect? = none
  | _ => False

/-- What the command is still to do, if it is an action. -/
def pending : Command → List Effect
  | .leaf _ .notStarted work => work.effect?.toList
  | _ => []

theorem pending_of_phase_ne_notStarted {command : Command} (h : command.phase ≠ .notStarted) :
    command.pending = [] := by
  match command with
  | .leaf _ .notStarted _ => exact absurd rfl h
  | .leaf _ .running _ | .leaf _ .completed _ | .threaded .. | .group .. => rfl

end Command

namespace Leaf

theorem effect?_start (work : Leaf) (robot : Robot) :
    (work.start robot).1.effect? = work.effect? := by
  cases work <;> rfl

/-- An action does not go on. -/
theorem effect?_check {work : Leaf} {robot : Robot} (h : (work.check robot).2 = true) :
    (work.check robot).1.effect? = none := by
  cases work with
  | action => exact nomatch h
  | timed | convergence | waitUntil => rfl

end Leaf

namespace Command

open Trace (deedsOf deedsIn)

theorem finishRecorded_plain (polled : Polled Recorded) (isDone : Bool) {name : String}
    {work : Leaf} (hitem : polled.item.1 = .leaf name .running work)
    (h : isDone = false → polled.fault = none → work.effect? = none) :
    (polled.finishRecorded isDone).item.1.IsPlain ∧
      (polled.finishRecorded isDone).item.1.phase ≠ .notStarted ∧
      (polled.finishRecorded isDone).item.2.deeds = polled.item.2.deeds := by
  unfold Polled.finishRecorded
  split
  · simp only [Trace.deeds_append, deeds_abort, List.append_nil, and_true]
    rw [hitem]
    exact ⟨nofun, nofun⟩
  · next hcontinues =>
      obtain ⟨hnone, hgoesOn⟩ := Polled.not_ends_iff.mp hcontinues
      rw [hitem]
      exact ⟨fun _ => h hgoesOn hnone, nofun, rfl⟩

theorem pollLeaf_plain (before : Trace) (h : before.deeds = []) (name : String) (work : Leaf)
    (robot : Robot) :
    (pollLeafRecorded before name work robot).item.1.IsPlain ∧
      (pollLeafRecorded before name work robot).item.1.phase ≠ .notStarted ∧
      (pollLeafRecorded before name work robot).item.2.deeds.map Deed.effect =
        work.effect?.toList := by
  unfold pollLeafRecorded
  split
  · next fault hrun =>
      obtain ⟨hplain, hphase, hdeeds⟩ := finishRecorded_plain
        ⟨(.leaf name .running work, before ++ [.own .run]), robot, some (.sensor name fault)⟩
        true rfl nofun
      refine ⟨hplain, hphase, ?_⟩
      rw [hdeeds, Trace.deeds_append, h, Leaf.effect?_of_run_eq_error hrun]
      rfl
  · next after moved hrun =>
      obtain ⟨hplain, hphase, hdeeds⟩ := finishRecorded_plain
        ⟨(.leaf name .running (after.check moved).1, before ++ [work.ran robot moved, .own .check]),
          moved, none⟩
        (!(after.check moved).2) rfl fun hgoesOn _ => Leaf.effect?_check (by simpa using hgoesOn)
      refine ⟨hplain, hphase, ?_⟩
      rw [hdeeds, Trace.deeds_append, h]
      exact work.effects_ran robot moved

/-- A poll of a leaf has the effect that was to come, and nothing is left to do after it. -/
theorem poll_plain {command : Command} (h : command.IsPlain) (robot : Robot) :
    (command.pollRecorded robot).item.1.IsPlain ∧
      (command.pollRecorded robot).item.1.phase ≠ .notStarted ∧
      (command.pollRecorded robot).item.2.deeds.map Deed.effect = command.pending := by
  match command with
  | .leaf name .notStarted work =>
      have hpoll := pollLeaf_plain [.own .start] rfl name (work.start robot).1
        (work.start robot).2
      rw [Leaf.effect?_start] at hpoll
      exact hpoll
  | .leaf name .running work =>
      have hpoll := pollLeaf_plain [] rfl name work robot
      rw [h rfl] at hpoll
      exact hpoll
  | .leaf name .completed work => exact ⟨nofun, nofun, rfl⟩

theorem abort_plain {command : Command} (h : command.IsPlain) (robot : Robot) :
    (command.abortRecorded robot).1.1.IsPlain ∧
      (command.abortRecorded robot).1.1.pending = command.pending := by
  match command with
  | .leaf name .notStarted work | .leaf name .completed work => exact ⟨h, rfl⟩
  | .leaf name .running work => exact ⟨nofun, rfl⟩

/-! ## Walks over leaves -/

/-- What commands are still to do, in their order. -/
def pendingOf (commands : List Command) : List Effect :=
  commands.flatMap pending

/-- What the members of steps are still to do, in the order of the steps. -/
def pendingIn (steps : List (Step Command)) : List Effect :=
  steps.flatMap fun step => pendingOf step.members

@[simp]
theorem pendingOf_append (first second : List Command) :
    pendingOf (first ++ second) = pendingOf first ++ pendingOf second :=
  List.flatMap_append

@[simp]
theorem pendingIn_cons (step : Step Command) (rest : List (Step Command)) :
    pendingIn (step :: rest) = pendingOf step.members ++ pendingIn rest :=
  List.flatMap_cons

@[simp]
theorem pendingIn_append (first second : List (Step Command)) :
    pendingIn (first ++ second) = pendingIn first ++ pendingIn second :=
  List.flatMap_append

/-- Whether a walk has done the first of what was to come, in order, and nothing
but what is left is still to come; and nothing is left unless the walk failed. -/
structure Advances (ahead : List Effect) (recorded : List Recorded)
    (fault : Option RoutineError) : Prop where
  whole : (deedsOf recorded).map Deed.effect ++ pendingOf (recorded.map Prod.fst) = ahead
  all : fault = none → pendingOf (recorded.map Prod.fst) = []

namespace Advances

variable {ahead later : List Effect} {first second : List Recorded}
  {fault fault' : Option RoutineError}

theorem nil : Advances [] [] fault :=
  ⟨rfl, fun _ => rfl⟩

/-- One walk went to its end, and another one followed it. -/
theorem append (hfirst : Advances ahead first fault) (hnone : fault = none)
    (hsecond : Advances later second fault') :
    Advances (ahead ++ later) (first ++ second) fault' where
  whole := by
    rw [← hfirst.whole, ← hsecond.whole, List.map_append, pendingOf_append, hfirst.all hnone,
      Trace.deedsOf_append, List.map_append, List.append_nil, List.nil_append, List.append_assoc]
  all hfault := by
    rw [List.map_append, pendingOf_append, hfirst.all hnone, hsecond.all hfault, List.append_nil]

/-- A walk failed, and the commands after it were not touched. -/
theorem append_untouched (h : Advances ahead first fault) {error : RoutineError}
    (herror : fault = some error) (commands : List Command) :
    Advances (ahead ++ pendingOf commands) (first ++ commands.map untouched) fault where
  whole := by
    rw [← h.whole, List.map_append, map_fst_untouched, pendingOf_append, Trace.deedsOf_append,
      Trace.deedsOf_untouched, List.append_nil, List.append_assoc]
  all hnone := nomatch herror.symm.trans hnone

end Advances

theorem advances_poll {command : Command} (h : command.IsPlain) (robot : Robot) :
    Advances command.pending [(command.pollRecorded robot).item]
      (command.pollRecorded robot).fault := by
  obtain ⟨-, hphase, heffects⟩ := poll_plain h robot
  have hnone : pendingOf [(command.pollRecorded robot).item.1] = [] := by
    rw [pendingOf, List.flatMap_singleton, pending_of_phase_ne_notStarted hphase]
  refine ⟨?_, fun _ => hnone⟩
  rw [List.map_singleton, hnone, Trace.deedsOf_cons, List.map_append, heffects, List.append_nil]
  exact List.append_nil _

theorem advances_pollAll {commands : List Command} (h : ∀ command ∈ commands, command.IsPlain)
    (robot : Robot) :
    Advances (pendingOf commands) (pollAllRecorded commands robot).item
      (pollAllRecorded commands robot).fault := by
  induction commands generalizing robot with
  | nil => exact .nil
  | cons command rest ih =>
      have hfirst := advances_poll (h command List.mem_cons_self) robot
      rw [pollAllRecorded]
      split
      · next error herror => exact hfirst.append_untouched herror rest
      · next hnone =>
          exact hfirst.append hnone (ih (fun c hc => h c (List.mem_cons_of_mem _ hc)) _)

theorem advances_pollStep {step : Step Command} (h : ∀ command ∈ step.members, command.IsPlain)
    (robot : Robot) :
    Advances (pendingOf step.members) (pollStepRecorded step robot).item.members
      (pollStepRecorded step robot).fault := by
  obtain ⟨primary, companions, beside⟩ := step
  have hfirst := advances_poll (h primary List.mem_cons_self) robot
  have hsecond := advances_pollAll
    (fun c hc => h c (List.mem_cons_of_mem _ (List.mem_append_left _ hc)))
    (primary.pollRecorded robot).robot
  have hthird := advances_pollAll
    (fun c hc => h c (List.mem_cons_of_mem _ (List.mem_append_right _ hc)))
    (pollAllRecorded companions (primary.pollRecorded robot).robot).robot
  have hmembers : pendingOf (Step.members ⟨primary, companions, beside⟩) =
      primary.pending ++ (pendingOf companions ++ pendingOf beside) := by
    rw [← pendingOf_append]
    rfl
  rw [hmembers, pollStepRecorded]
  split
  · next error herror =>
      have hall := hfirst.append_untouched herror (companions ++ beside)
      rw [pendingOf_append, List.map_append] at hall
      exact hall
  · next hnone =>
      simp only
      split
      · next error herror => exact hfirst.append hnone (hsecond.append_untouched herror beside)
      · next hnone' => exact hfirst.append hnone (hsecond.append hnone' hthird)

/-! ## Walks over steps of leaves -/

theorem pendingIn_bare_cons (recorded : Step Recorded) (rest : List (Step Recorded)) :
    pendingIn (bare (recorded :: rest)) =
      pendingOf (recorded.members.map Prod.fst) ++ pendingIn (bare rest) := by
  rw [bare_cons, pendingIn_cons, Step.members_map]

section Relations

variable {relation : Command → Recorded → Prop}

theorem pendingOf_map_fst {commands : List Command} {recorded : List Recorded}
    (h : List.Forall₂ relation commands recorded)
    (hsame : ∀ command ∈ commands, ∀ r : Recorded, relation command r →
      r.1.pending = command.pending) :
    pendingOf (recorded.map Prod.fst) = pendingOf commands := by
  induction h with
  | nil => rfl
  | @cons command r _ _ hr _ ih =>
      rw [pendingOf, List.map_cons, List.flatMap_cons, hsame command List.mem_cons_self r hr]
      exact congrArg (_ ++ ·) (ih fun c hc => hsame c (List.mem_cons_of_mem _ hc))

theorem pendingIn_bare {steps : List (Step Command)} {recorded : List (Step Recorded)}
    (h : List.Forall₂ (Step.Rel relation) steps recorded)
    (hsame : ∀ step ∈ steps, ∀ command ∈ step.members, ∀ r : Recorded, relation command r →
      r.1.pending = command.pending) :
    pendingIn (bare recorded) = pendingIn steps := by
  induction h with
  | nil => rfl
  | @cons step _ _ _ hstep _ ih =>
      rw [pendingIn_bare_cons, pendingIn_cons, ih fun s hs => hsame s (List.mem_cons_of_mem _ hs),
        pendingOf_map_fst hstep.members (hsame step List.mem_cons_self)]

theorem forall_members_bare {property : Command → Prop} {steps : List (Step Command)}
    {recorded : List (Step Recorded)} (h : List.Forall₂ (Step.Rel relation) steps recorded)
    (hkeeps : ∀ step ∈ steps, ∀ command ∈ step.members, ∀ r : Recorded, relation command r →
      property r.1) :
    ∀ step ∈ bare recorded, ∀ member ∈ step.members, property member := by
  intro step hstep member hmember
  obtain ⟨new, hnew, rfl⟩ := List.mem_map.mp hstep
  rw [Step.members_map] at hmember
  obtain ⟨r, hr, rfl⟩ := List.mem_map.mp hmember
  obtain ⟨old, hold, hrel⟩ := exists_of_mem_right h hnew
  obtain ⟨command, hcommand, hr⟩ := exists_of_mem_right hrel.members hr
  exact hkeeps old hold command hcommand r hr

end Relations

theorem IsPolled.plain {command : Command} {recorded : Recorded} (h : IsPolled command recorded)
    (hplain : command.IsPlain) : recorded.1.IsPlain := by
  rcases h with rfl | ⟨robot, rfl⟩
  · exact hplain
  · exact (poll_plain hplain robot).1

theorem IsPolled.of_pending_eq_nil {command : Command} {recorded : Recorded}
    (h : IsPolled command recorded) (hplain : command.IsPlain) (hpending : command.pending = []) :
    recorded.2.deeds = [] ∧ recorded.1.pending = [] := by
  rcases h with rfl | ⟨robot, rfl⟩
  · exact ⟨rfl, hpending⟩
  · obtain ⟨-, hphase, heffects⟩ := poll_plain hplain robot
    exact ⟨List.map_eq_nil_iff.mp (heffects.trans hpending), pending_of_phase_ne_notStarted hphase⟩

theorem pending_eq_nil_of_mem {steps : List (Step Command)} (h : pendingIn steps = [])
    {step : Step Command} (hstep : step ∈ steps) {command : Command}
    (hcommand : command ∈ step.members) : command.pending = [] :=
  List.flatMap_eq_nil_iff.mp (List.flatMap_eq_nil_iff.mp h step hstep) command hcommand

/-- Finished steps have nothing left to do, so polling what runs beside them does nothing. -/
theorem pollFinished_plain {steps : List (Step Command)}
    (h : ∀ step ∈ steps, ∀ command ∈ step.members, command.IsPlain)
    (hfinished : pendingIn steps = []) (robot : Robot) :
    deedsIn (pollFinishedRecorded steps robot).item = [] ∧
      pendingIn (bare (pollFinishedRecorded steps robot).item) = [] := by
  have hpolled := forall₂_pollFinished steps robot
  have hnone : ∀ step ∈ steps, ∀ command ∈ step.members, ∀ r : Recorded, IsPolled command r →
      r.2.deeds = [] ∧ r.1.pending = [] := fun step hstep command hcommand r hr =>
    hr.of_pending_eq_nil (h step hstep command hcommand)
      (pending_eq_nil_of_mem hfinished hstep hcommand)
  refine ⟨deedsIn_eq_nil hpolled fun step hstep command hcommand r hr =>
    (hnone step hstep command hcommand r hr).1, ?_⟩
  refine (pendingIn_bare hpolled fun step hstep command hcommand r hr => ?_).trans hfinished
  rw [(hnone step hstep command hcommand r hr).2, pending_eq_nil_of_mem hfinished hstep hcommand]

/-- The walk ended within a step, and the steps after it were not touched. -/
theorem Advances.step_untouched {ahead : List Effect} {step : Step Recorded}
    {fault : Option RoutineError} (h : Advances ahead step.members fault)
    (rest : List (Step Command)) :
    (deedsIn (step :: rest.map (Step.map untouched))).map Deed.effect ++
      pendingIn (bare (step :: rest.map (Step.map untouched))) = ahead ++ pendingIn rest := by
  rw [Trace.deedsIn_cons, Trace.deedsIn_untouched, List.append_nil, pendingIn_bare_cons,
    bare_map_untouched, ← h.whole, List.append_assoc]

/-- The steps that a poll goes through hold the first of what was to come, and
their commands still have the others to do; those that it completes have none left. -/
theorem runSteps_plain {steps : List (Step Command)}
    (h : ∀ step ∈ steps, ∀ command ∈ step.members, command.IsPlain) (robot : Robot) :
    let walked := (runStepsRecorded steps robot).item
    (deedsIn (walked.1 ++ walked.2)).map Deed.effect ++ pendingIn (bare walked.2) =
        pendingIn steps ∧
      pendingIn (bare walked.1) = [] := by
  induction steps generalizing robot with
  | nil => exact ⟨rfl, rfl⟩
  | cons step rest ih =>
      have hstep := advances_pollStep (h step List.mem_cons_self) robot
      have honly := hstep.step_untouched rest
      rw [← pendingIn_cons] at honly
      rw [runStepsRecorded]
      -- A step that failed and one that is not complete end the walk alike. The walk goes past
      -- a complete one, and then it matters that this one has nothing left to do.
      split
      · exact ⟨honly, rfl⟩
      · next hnone =>
          simp only
          split
          · obtain ⟨hwhole, hdone⟩ := ih (fun s hs => h s (List.mem_cons_of_mem _ hs))
              (pollStepRecorded step robot).robot
            have hleft := hstep.all hnone
            simp only [Polled.map, List.cons_append, Trace.deedsIn_cons, List.map_append,
              pendingIn_bare_cons,
              pendingIn_cons, hleft, List.nil_append, List.append_assoc, hdone, and_true]
            rw [hwhole, ← hstep.whole, hleft, List.append_nil]
          · exact ⟨honly, rfl⟩

theorem walk_plain {finished remaining : List (Step Command)}
    (h : ∀ step ∈ finished ++ remaining, ∀ command ∈ step.members, command.IsPlain)
    (hfinished : pendingIn finished = []) (robot : Robot) :
    let walked := (walkRecorded finished remaining robot).item
    (deedsIn (walked.1 ++ walked.2)).map Deed.effect ++ pendingIn (bare walked.2) =
        pendingIn remaining ∧
      pendingIn (bare walked.1) = [] := by
  obtain ⟨hdeeds, hpending⟩ := pollFinished_plain
    (fun step hstep => h step (List.mem_append_left _ hstep)) hfinished robot
  rw [walkRecorded]
  split
  · simp only [Polled.map, Trace.deedsIn_append, Trace.deedsIn_untouched, hdeeds, List.map_nil,
      bare_map_untouched, List.nil_append, hpending, and_self]
  · obtain ⟨hwhole, hdone⟩ := runSteps_plain
      (fun step hstep => h step (List.mem_append_right _ hstep))
      (pollFinishedRecorded finished robot).robot
    simp only [Polled.map, bare_append, pendingIn_append, hpending, hdone, Trace.deedsIn_append,
      hdeeds, List.nil_append, and_true]
    rw [← Trace.deedsIn_append]
    exact hwhole

/-! ## Flat routines -/

/-- Whether a command is a group of leaves whose finished steps have nothing left to do. -/
def IsFlat : Command → Prop
  | .group _ _ finished remaining =>
    (∀ step ∈ finished ++ remaining, ∀ member ∈ step.members, member.IsPlain) ∧
      pendingIn finished = []
  | _ => False

/-- What a routine is still to do, in the order in which it will. -/
def ahead : Command → List Effect
  | .group _ _ _ remaining => pendingIn remaining
  | command => command.pending

theorem abort_flat {command : Command} (h : command.IsFlat) (robot : Robot) :
    (command.abortRecorded robot).1.1.IsFlat ∧
      (command.abortRecorded robot).1.1.ahead = command.ahead := by
  match command with
  | .group name .notStarted finished remaining | .group name .completed finished remaining =>
      exact ⟨h, rfl⟩
  | .group name .running finished remaining =>
      obtain ⟨hplain, hfinished⟩ := h
      have hkeeps : ∀ step ∈ finished ++ remaining, ∀ member ∈ step.members, ∀ r : Recorded,
          IsAborted member r → r.1.IsPlain ∧ r.1.pending = member.pending := by
        rintro step hstep member hmember _ ⟨robot', rfl⟩
        exact abort_plain (hplain step hstep member hmember) robot'
      have hleft := forall₂_abortSteps finished robot
      have hright := forall₂_abortSteps remaining (abortStepsRecorded finished robot).2
      refine ⟨⟨?_, ?_⟩, ?_⟩
      · have hall := forall_members_bare (List.rel_append hleft hright)
          fun step hstep member hmember r hr => (hkeeps step hstep member hmember r hr).1
        rw [bare_append] at hall
        exact hall
      · exact (pendingIn_bare hleft fun step hstep member hmember r hr =>
          (hkeeps step (List.mem_append_left _ hstep) member hmember r hr).2).trans hfinished
      · exact pendingIn_bare hright fun step hstep member hmember r hr =>
          (hkeeps step (List.mem_append_right _ hstep) member hmember r hr).2

theorem finishRecorded_flat (polled : Polled Recorded) (hflat : polled.item.1.IsFlat)
    (hphase : polled.item.1.phase = .running) (isDone : Bool) :
    let finished := polled.finishRecorded isDone
    finished.item.1.IsFlat ∧ finished.item.2.deeds = polled.item.2.deeds ∧
      finished.item.1.ahead = polled.item.1.ahead ∧
      (finished.fault = none → finished.item.1.phase = .completed → isDone = true) := by
  unfold Polled.finishRecorded
  split
  · next hends =>
      obtain ⟨hflat', hahead⟩ := abort_flat hflat polled.robot
      refine ⟨hflat', ?_, hahead, fun hnone _ => ?_⟩
      · rw [Trace.deeds_append, deeds_abort, List.append_nil]
      · have hnone : polled.fault = none := hnone
        rw [hnone] at hends
        exact hends
  · exact ⟨hflat, rfl, rfl, fun _ hcompleted => nomatch hphase.symm.trans hcompleted⟩

/-- The effects of a poll and what is still to come after it are, in this order,
what was to come before; nothing is left after a poll that completes the routine
without a failure. -/
theorem poll_flat {command : Command} (h : command.IsFlat) (robot : Robot) :
    let polled := command.pollRecorded robot
    polled.item.1.IsFlat ∧
      polled.item.2.deeds.map Deed.effect ++ polled.item.1.ahead = command.ahead ∧
      (command.phase ≠ .completed → polled.fault = none → polled.item.1.phase = .completed →
        polled.item.1.ahead = []) := by
  match command with
  | .group name phase finished remaining =>
  obtain ⟨hplain, hfinished⟩ := h
  by_cases hphase : phase = .completed
  · subst hphase
    rw [pollRecorded, if_pos rfl]
    exact ⟨⟨hplain, hfinished⟩, rfl, fun hphase => absurd rfl hphase⟩
  · obtain ⟨hwhole, hdone⟩ := walk_plain hplain hfinished robot
    have hmembers := forall_members_bare (forall₂_walk finished remaining robot)
      fun step hstep member hmember r hr => hr.plain (hplain step hstep member hmember)
    rw [bare_append] at hmembers
    rw [pollRecorded_group hphase]
    generalize walkRecorded finished remaining robot = walked at hwhole hdone hmembers ⊢
    have hrunning : IsFlat (.group name .running (bare walked.item.1) (bare walked.item.2)) :=
      ⟨hmembers, hdone⟩
    obtain ⟨hflat, hdeeds, hahead, hends⟩ := finishRecorded_flat
      ⟨(.group name .running (bare walked.item.1) (bare walked.item.2),
        opening phase ++ .own .run :: Trace.ofSteps 0 (walked.item.1 ++ walked.item.2)
          ++ asked walked.fault), walked.robot, walked.fault⟩ hrunning rfl walked.item.2.isEmpty
    have hsplit := congrArg₂ (fun deeds ahead => List.map Deed.effect deeds ++ ahead) hdeeds hahead
    refine ⟨hflat, hsplit.trans ?_, fun _ hnone hcompleted => ?_⟩
    · simp only [Trace.deeds_append, deeds_opening, deeds_asked, Trace.deeds_own,
        Trace.deeds_ofSteps, List.nil_append, List.append_nil]
      exact hwhole
    · have hleft : walked.item.2 = [] := List.isEmpty_iff.mp (hends hnone hcompleted)
      refine hahead.trans ?_
      rw [ahead, hleft]
      rfl

theorem IsPlain.exists_leaf {command : Command} (h : command.IsPlain) :
    ∃ name phase work, command = .leaf name phase work := by
  match command with
  | .leaf name phase work => exact ⟨name, phase, work, rfl⟩

section Visits

variable {act : Command → Robot → Recorded × Robot}
  (hact : ∀ command, command.task? = none → ∀ robot,
    act command robot = (command.untouched, robot))

include hact

theorem visit_leaf (name : String) (phase : Phase) (work : Leaf) (place : Place) (robot : Robot) :
    (leaf name phase work).visitRecorded act place robot =
      ((leaf name phase work).untouched, robot) := by
  match place with
  | [] => exact hact _ rfl robot
  | .inner :: rest | .member step role :: rest => rfl

/-- There is nothing to visit in a flat routine. -/
theorem visit_flat {command : Command} (h : command.IsFlat) (place : Place) (robot : Robot) :
    command.visitRecorded act place robot = (command.untouched, robot) := by
  match command, place with
  | .group name phase finished remaining, [] => exact hact _ rfl robot
  | .group name phase finished remaining, turn :: rest =>
      rw [visitRecorded]
      split
      · rfl
      · next child hchild =>
          obtain ⟨step, hstep, hmember⟩ := mem_of_child? hchild
          obtain ⟨name, phase, work, rfl⟩ := (h.1 step hstep child hmember).exists_leaf
          rw [visit_leaf hact]
          simp only [untouched, setChild_self hchild]
          rfl

end Visits

theorem iterateWorkerRecorded_of_task?_eq_none {command : Command} (h : command.task? = none)
    (robot : Robot) : command.iterateWorkerRecorded robot = (command.untouched, robot) := by
  match command with
  | .leaf .. | .threaded _ _ _ none _ | .group .. => rfl

theorem cancelWorkerRecorded_of_task?_eq_none {command : Command} (h : command.task? = none)
    (robot : Robot) : command.cancelWorkerRecorded robot = (command.untouched, robot) := by
  match command with
  | .leaf .. | .threaded _ _ _ none _ | .group .. => rfl

end Command

open Command

/-- Whatever occurs in a flat routine, its effects are the first of those that were to come. -/
theorem Scene.perform_flat {scene : Scene} (h : scene.root.IsFlat) (occurrence : Occurrence) :
    (scene.performRecorded occurrence).1.root.IsFlat ∧
      (scene.performRecorded occurrence).2.deeds.map Deed.effect ++
        (scene.performRecorded occurrence).1.root.ahead = scene.root.ahead := by
  match occurrence with
  | .event .poll =>
      obtain ⟨hflat, hwhole, -⟩ := poll_flat h scene.robot
      exact ⟨hflat, hwhole⟩
  | .event .abort =>
      obtain ⟨hflat, hahead⟩ := abort_flat h scene.robot
      refine ⟨hflat, ?_⟩
      rw [performRecorded, deeds_abort]
      exact hahead
  | .event (.work place) =>
      rw [performRecorded, visit_flat (fun _ => iterateWorkerRecorded_of_task?_eq_none) h]
      exact ⟨h, rfl⟩
  | .event (.change conditions) => exact ⟨h, rfl⟩
  | .cancel place =>
      rw [performRecorded, visit_flat (fun _ => cancelWorkerRecorded_of_task?_eq_none) h]
      exact ⟨h, rfl⟩

/-- In every run of a flat routine no effect is skipped, repeated or moved. -/
theorem Chronicle.after_flat {root : Command} (h : root.IsFlat) (robot : Robot)
    (occurrences : List Occurrence) :
    ((start root robot).after occurrences).scene.root.IsFlat ∧
      ((start root robot).after occurrences).trace.deeds.map Deed.effect ++
        ((start root robot).after occurrences).scene.root.ahead = root.ahead := by
  induction occurrences using List.reverseRecOn with
  | nil => exact ⟨h, rfl⟩
  | append_singleton before last ih =>
      obtain ⟨hflat, hwhole⟩ := ih
      obtain ⟨hflat', hwhole'⟩ := Scene.perform_flat hflat last
      rw [after_append]
      refine ⟨hflat', ?_⟩
      rw [← hwhole, ← hwhole', ← List.append_assoc, ← List.map_append, ← deeds_step]
      rfl

end RobotRoutine
