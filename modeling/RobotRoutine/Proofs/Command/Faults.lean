import RobotRoutine.Proofs.Command.Lifecycle
import RobotRoutine.Proofs.Command.Schedule

/-!
# What a poll makes of a stored fault

A worker that meets an error stores it with its wrapper, and the wrapper's next
poll takes it from there. A poll of a whole tree comes by every running wrapper
that is not inside another one, unless it fails before: a group polls whatever
runs in its finished steps and in its current one, and a failure of any of them
is its own. So a tree in which such a wrapper holds a fault cannot be polled
without failing (`poll_holding`), be it with this fault or with one that comes
up before the wrapper has its turn. Either way the wrapper ends in that poll.
-/

namespace RobotRoutine

namespace Command

/-- The error that a wrapper's worker met and nobody has taken yet. -/
def slot (command : Command) : Option RoutineError :=
  command.task?.bind Task.fault

/-- A running wrapper whose worker met an error that nobody has taken yet. -/
structure Holds (error : RoutineError) (command : Command) : Prop where
  phase : command.phase = .running
  slot : command.slot = some error

/-- How a poll that fails ends a wrapper that holds `error`: the error that it
fails with, the hooks of the wrapper that it calls, and what it leaves stored. -/
inductive Ending (error : RoutineError) :
    RoutineError → List Call → Option RoutineError → Prop
  /-- The wrapper was polled, and what it held is what the poll fails with. -/
  | taken : Ending error error [.run, .check, .finish] none
  /-- The poll failed before it came to the wrapper, which is only ended. -/
  | passed (raised : RoutineError) : Ending error raised [.finish] (some error)

/-! ## Aborting -/

theorem slot_abort (command : Command) (robot : Robot) :
    (command.abort robot).1.slot = command.slot := by
  by_cases hphase : command.phase = .running
  case neg => rw [abort_of_phase_ne_running hphase]
  match command with
  | .leaf .. | .threaded _ _ _ none _ | .group .. =>
      cases hphase
      rfl
  | .threaded name phase cadence (some task) inner =>
      cases hphase
      rw [abort]
      split <;> rfl

theorem exists_aborted_child {name : String} {finished remaining : List (Step Command)}
    {turn : Turn} {child : Command}
    (h : (Command.group name .running finished remaining).child? turn = some child)
    (robot : Robot) :
    ∃ robot',
      ((Command.group name .running finished remaining).abortRecorded robot).1.1.child? turn =
        some (child.abortRecorded robot').1.1 ∧
      ((Command.group name .running finished remaining).abortRecorded robot).1.2.below turn =
        (child.abortRecorded robot').1.2 := by
  have hmember := @rel_child? _ name name .running .completed _ _ _ _ _
    (List.rel_append (forall₂_abortSteps finished robot)
      (forall₂_abortSteps remaining (abortStepsRecorded finished robot).2))
    (bare_append _ _).symm turn
  rw [h] at hmember
  rw [abortRecorded]
  revert hmember
  generalize hnew : (Command.group name .completed (bare (abortStepsRecorded finished robot).1)
    (bare (abortStepsRecorded remaining (abortStepsRecorded finished robot).2).1)).child? turn = new
  rintro (⟨robot', hrecorded⟩ | _)
  exact ⟨robot', congrArg (some ·.1) hrecorded, congrArg Prod.snd hrecorded⟩

/-- What is above a running command in a tree that is in order runs too. -/
theorem running_of_at? {command part : Command} {place : Place}
    (ho : Everywhere Orderly command) (hpart : command.at? place = some part)
    (hrunning : part.phase = .running) : command.phase = .running := by
  by_contra hphase
  exact (isQuiet_of_orderly ho hphase place part hpart).phase hrunning

theorem holds_threaded {command : Command} {error : RoutineError} (h : command.Holds error) :
    ∃ name cadence task inner, command = .threaded name .running cadence (some task) inner ∧
      task.fault = some error := by
  obtain ⟨hphase, hslot⟩ := h
  match command with
  | .threaded name phase cadence (some task) inner =>
      cases hphase
      exact ⟨name, cadence, task, inner, rfl, hslot⟩
  | .leaf .. | .group .. | .threaded _ _ _ none _ => cases hslot

/-- A group, if a step down leads to a member of it. -/
theorem exists_group_of_child? {command child : Command} {turn : Turn}
    (h : command.child? turn = some child) (hturn : turn ≠ .inner) :
    ∃ name phase finished remaining, command = .group name phase finished remaining := by
  match command, turn with
  | .group name phase finished remaining, .member .. => exact ⟨_, _, _, _, rfl⟩
  | .leaf .., .member .. | .threaded .., .member .. => cases h
  | _, .inner => exact absurd rfl hturn

/-- An abort ends a wrapper and leaves the fault where it is. -/
theorem abort_holding {command wrapper : Command} {place : Place} {error : RoutineError}
    (ho : Everywhere Orderly command) (hplace : .inner ∉ place)
    (hat : command.at? place = some wrapper) (h : wrapper.Holds error) (robot : Robot) :
    ∃ ended, (command.abortRecorded robot).1.1.at? place = some ended ∧
      ended.phase = .completed ∧ ended.slot = some error ∧
      (command.abortRecorded robot).1.2.callsAt place = [.finish] := by
  induction place generalizing command robot with
  | nil =>
      obtain rfl := Option.some.inj hat
      refine ⟨_, rfl, ?_, ?_, callsAt_nil_abort h.phase robot⟩
      · rw [item_abortRecorded, phase_abort, if_pos h.phase]
      · rw [item_abortRecorded, slot_abort, h.slot]
  | cons turn rest ih =>
      obtain ⟨child, hchild, hrest⟩ := Option.bind_eq_some_iff.mp hat
      rw [List.mem_cons, not_or] at hplace
      obtain ⟨name, phase, finished, remaining, rfl⟩ :=
        exists_group_of_child? hchild (Ne.symm hplace.1)
      obtain rfl : phase = .running := running_of_at? ho hat h.phase
      obtain ⟨robot', hitem, hcalls⟩ := exists_aborted_child hchild robot
      rw [at?, hitem, Trace.callsAt_cons, hcalls]
      exact ih (ho.child hchild) hplace.2 hrest robot'

/-! ## Whom a poll comes by -/

/-- What a poll that answers with `fault` makes of a command, if that runs: it
polls it, and takes over its failure, or fails before. -/
def Heard (fault : Option RoutineError) (command : Command) (recorded : Recorded) : Prop :=
  command.phase = .running →
    (∃ robot, recorded = (command.pollRecorded robot).item ∧
      ((command.pollRecorded robot).fault = none ∨ (command.pollRecorded robot).fault = fault)) ∨
    recorded = command.untouched ∧ fault ≠ none

theorem Heard.of_none {fault : Option RoutineError} {command : Command} {recorded : Recorded}
    (h : Heard none command recorded) : Heard fault command recorded := by
  intro hrunning
  rcases h hrunning with ⟨robot, hitem, hfault⟩ | ⟨-, hfault⟩
  · exact Or.inl ⟨robot, hitem, Or.inl (hfault.elim id id)⟩
  · exact absurd rfl hfault

theorem heard_of_phase_ne_running {fault : Option RoutineError} {command : Command}
    (h : command.phase ≠ .running) (recorded : Recorded) : Heard fault command recorded :=
  fun hrunning => absurd hrunning h

theorem heard_poll (command : Command) (robot : Robot) :
    Heard (command.pollRecorded robot).fault command (command.pollRecorded robot).item :=
  fun _ => Or.inl ⟨robot, rfl, Or.inr rfl⟩

theorem heard_untouched {fault : Option RoutineError} (h : fault ≠ none) (command : Command) :
    Heard fault command command.untouched :=
  fun _ => Or.inr ⟨rfl, h⟩

theorem heard_pollAll (commands : List Command) (robot : Robot) :
    List.Forall₂ (Heard (pollAllRecorded commands robot).fault) commands
      (pollAllRecorded commands robot).item := by
  induction commands generalizing robot with
  | nil => exact .nil
  | cons command rest ih =>
      have hfirst := heard_poll command robot
      rw [pollAllRecorded]
      split
      · next error herror =>
          have hfault : (command.pollRecorded robot).fault ≠ none := by simp [herror]
          exact .cons hfirst (forall₂_map_self (heard_untouched hfault) rest)
      · next hfault =>
          rw [hfault] at hfirst
          exact .cons hfirst.of_none (ih _)

theorem heard_pollStep (step : Step Command) (robot : Robot) :
    Step.Rel (Heard (pollStepRecorded step robot).fault) step (pollStepRecorded step robot).item := by
  have hprimary := heard_poll step.primary robot
  rw [pollStepRecorded]
  split
  · next error herror =>
      have hfault : (step.primary.pollRecorded robot).fault ≠ none := by simp [herror]
      exact ⟨hprimary, forall₂_map_self (heard_untouched hfault) _,
        forall₂_map_self (heard_untouched hfault) _⟩
  · next hnone =>
      rw [hnone] at hprimary
      have hcompanions := heard_pollAll step.companions (step.primary.pollRecorded robot).robot
      simp only
      split
      · next error herror =>
          have hfault : (pollAllRecorded step.companions
            (step.primary.pollRecorded robot).robot).fault ≠ none := by simp [herror]
          exact ⟨hprimary.of_none, hcompanions, forall₂_map_self (heard_untouched hfault) _⟩
      · next hnone =>
          rw [hnone] at hcompanions
          exact ⟨hprimary.of_none, hcompanions.imp fun _ _ => Heard.of_none, heard_pollAll _ _⟩

theorem heard_pollFinished {steps : List (Step Command)}
    (h : ∀ step ∈ steps, ∀ member ∈ step.blocking, member.phase ≠ .running) (robot : Robot) :
    List.Forall₂ (Step.Rel (Heard (pollFinishedRecorded steps robot).fault)) steps
      (pollFinishedRecorded steps robot).item := by
  induction steps generalizing robot with
  | nil => exact .nil
  | cons step rest ih =>
      have hblocking := h step List.mem_cons_self
      have hrest := fun s hs => h s (List.mem_cons_of_mem step hs)
      have hbeside := heard_pollAll step.threaded robot
      -- Of a finished step only the threaded companions are polled; the others have ended.
      have hstep : ∀ {fault recorded}, List.Forall₂ (Heard fault) step.threaded recorded →
          Step.Rel (Heard fault) step
            ⟨step.primary.untouched, step.companions.map untouched, recorded⟩ := by
        intro fault recorded hrecorded
        refine ⟨heard_of_phase_ne_running (hblocking _ List.mem_cons_self) _, ?_, hrecorded⟩
        exact forall₂_map_of_mem fun companion hmem =>
          heard_of_phase_ne_running (hblocking _ (List.mem_cons_of_mem _ hmem)) _
      rw [pollFinishedRecorded]
      split
      · next error herror =>
          have hfault : (pollAllRecorded step.threaded robot).fault ≠ none := by simp [herror]
          exact .cons (hstep hbeside)
            (forall₂_map_self (Step.rel_map_self (heard_untouched hfault)) rest)
      · next hnone =>
          rw [hnone] at hbeside
          exact .cons (hstep (hbeside.imp fun _ _ => Heard.of_none)) (ih hrest _)

theorem heard_runSteps {steps : List (Step Command)}
    (h : ∀ step ∈ steps.tail, ∀ member ∈ step.members, member.phase ≠ .running) (robot : Robot) :
    List.Forall₂ (Step.Rel (Heard (runStepsRecorded steps robot).fault)) steps
      ((runStepsRecorded steps robot).item.1 ++ (runStepsRecorded steps robot).item.2) := by
  induction steps generalizing robot with
  | nil => exact .nil
  | cons step rest ih =>
      have hstep := heard_pollStep step robot
      have hrest := ih (fun s hs => h s (List.mem_of_mem_tail hs)) (pollStepRecorded step robot).robot
      rw [runStepsRecorded]
      split
      · next error herror =>
          have hfault : (pollStepRecorded step robot).fault ≠ none := by simp [herror]
          exact .cons hstep (forall₂_map_self (Step.rel_map_self (heard_untouched hfault)) rest)
      · next hnone =>
          rw [hnone] at hstep
          simp only
          split
          · exact .cons (hstep.imp fun _ _ => Heard.of_none) hrest
          · -- Nothing runs in the steps after the current one.
            refine .cons (hstep.imp fun _ _ => Heard.of_none) (forall₂_map_of_mem fun s hs => ?_)
            exact Step.rel_map_of_mem fun member hmember =>
              heard_of_phase_ne_running (h s hs member hmember) _

/-- A poll of a group comes by every member that runs, unless it fails before. -/
theorem heard_walk {name : String} {phase : Phase} {finished remaining : List (Step Command)}
    (ho : Orderly (.group name phase finished remaining)) (robot : Robot) :
    List.Forall₂ (Step.Rel (Heard (walkRecorded finished remaining robot).fault))
      (finished ++ remaining)
      ((walkRecorded finished remaining robot).item.1 ++
        (walkRecorded finished remaining robot).item.2) := by
  have hfinished := heard_pollFinished (fun step hstep member hmember => by
    rw [ho.behind step hstep member hmember]
    decide) robot
  have hremaining := heard_runSteps (fun step hstep member hmember => by
    rw [(ho.pending step hstep member hmember).phase]
    decide) (pollFinishedRecorded finished robot).robot
  rw [walkRecorded]
  split
  · next error herror =>
      have hfault : (pollFinishedRecorded finished robot).fault ≠ none := by simp [herror]
      exact List.rel_append hfinished
        (forall₂_map_self (Step.rel_map_self (heard_untouched hfault)) remaining)
  · next hnone =>
      rw [hnone] at hfinished
      simp only [Polled.map, List.append_assoc]
      exact List.rel_append (hfinished.imp fun _ _ hrel => hrel.imp fun _ _ => Heard.of_none)
        hremaining

/-! ## Polling -/

theorem slot_finishIf (isDone : Bool) (polled : Polled Command) :
    (polled.finishIf isDone).item.slot = polled.item.slot := by
  rw [Polled.finishIf]
  split
  · exact slot_abort _ _
  · rfl

theorem finishRecorded_of_fault {polled : Polled Recorded} {raised : RoutineError}
    (h : polled.fault = some raised) (isDone : Bool) :
    polled.finishRecorded isDone =
      ⟨((polled.item.1.abortRecorded polled.robot).1.1,
        polled.item.2 ++ (polled.item.1.abortRecorded polled.robot).1.2),
        (polled.item.1.abortRecorded polled.robot).2, some raised⟩ := by
  rw [Polled.finishRecorded, if_pos (by simp [h]), h]

/-- What a poll of a group makes of a running member: the member is polled and
does not fail, or its failure is the group's, or the poll fails without having
come to it, and it is ended with the group. -/
theorem poll_member {name : String} {finished remaining : List (Step Command)} {turn : Turn}
    {child : Command} (ho : Orderly (.group name .running finished remaining))
    (hchild : (Command.group name .running finished remaining).child? turn = some child)
    (hrunning : child.phase = .running) (robot : Robot) :
    let polled := (Command.group name .running finished remaining).pollRecorded robot
    (∃ robot', (child.pollRecorded robot').fault = none) ∨
      (∃ robot' raised, (child.pollRecorded robot').fault = some raised ∧
        polled.fault = some raised ∧
        polled.item.1.child? turn = some (child.pollRecorded robot').item.1 ∧
        polled.item.2.below turn = (child.pollRecorded robot').item.2) ∨
      ∃ robot' raised, polled.fault = some raised ∧
        polled.item.1.child? turn = some (child.abortRecorded robot').1.1 ∧
        polled.item.2.below turn = (child.abortRecorded robot').1.2 := by
  have hmember := @rel_child? _ name name .running .running _ _ _ _ _ (heard_walk ho robot)
    (bare_append _ _).symm turn
  rw [hchild] at hmember
  rw [pollRecorded_group (by decide)]
  generalize walkRecorded finished remaining robot = walked at hmember ⊢
  obtain ⟨⟨done, left⟩, robot', fault⟩ := walked
  simp only [Polled.map] at hmember ⊢
  generalize hnew : (Command.group name .running (bare done) (bare left)).child? turn = new
    at hmember
  cases hmember with
  | @some _ new hheard =>
  obtain ⟨last, hitem, hcalls⟩ := exists_aborted_child hnew robot'
  rcases hheard hrunning with ⟨robot'', hrecorded, hfault⟩ | ⟨hrecorded, hfault⟩
  · cases hraised : (child.pollRecorded robot'').fault with
    | none => exact Or.inl ⟨robot'', hraised⟩
    | some raised =>
        obtain rfl : fault = some raised := by
          rw [hraised] at hfault
          simpa [eq_comm] using hfault
        -- The member has ended, so the end of the group leaves it as it is.
        have hnew : new = (child.poll robot'').item :=
          (congrArg Prod.fst hrecorded).trans (item_pollRecorded child robot'')
        have hended : new.phase = .completed := by
          rw [hnew]
          exact phase_poll_of_fault ((fault_pollRecorded child robot'').symm.trans hraised)
        have habort : new.abortRecorded last = (new.untouched, last) :=
          abortRecorded_of_phase_ne_running (by simp [hended]) last
        rw [habort] at hitem hcalls
        refine Or.inr (Or.inl ⟨robot'', raised, hraised, ?_⟩)
        rw [finishRecorded_of_fault rfl, ← hrecorded]
        refine ⟨rfl, hitem, ?_⟩
        rw [Trace.below_append, below_pollGroup, hcalls]
        exact List.append_nil _
  · obtain ⟨raised, rfl⟩ := Option.ne_none_iff_exists'.mp hfault
    obtain ⟨rfl, htrace⟩ := Prod.mk.inj hrecorded
    refine Or.inr (Or.inr ⟨last, raised, ?_⟩)
    rw [finishRecorded_of_fault rfl]
    refine ⟨rfl, hitem, ?_⟩
    rw [Trace.below_append, below_pollGroup, htrace, hcalls]
    rfl

/-- A tree in which a wrapper holds a fault cannot be polled without failing. -/
theorem poll_holding {command wrapper : Command} {place : Place} {error : RoutineError}
    (ho : Everywhere Orderly command) (hplace : .inner ∉ place)
    (hat : command.at? place = some wrapper) (h : wrapper.Holds error) (robot : Robot) :
    ∃ raised ended, (command.pollRecorded robot).fault = some raised ∧
      (command.pollRecorded robot).item.1.at? place = some ended ∧ ended.phase = .completed ∧
      Ending error raised ((command.pollRecorded robot).item.2.callsAt place) ended.slot := by
  induction place generalizing command robot with
  | nil =>
      obtain rfl := Option.some.inj hat
      obtain ⟨name, cadence, task, inner, rfl, hfault⟩ := holds_threaded h
      rw [pollRecorded, pollThreadedRecorded, finishRecorded_of_fault hfault]
      refine ⟨error, _, rfl, rfl, ?_, ?_⟩
      · rw [item_abortRecorded, phase_abort]
        rfl
      · rw [Trace.callsAt_append, callsAt_nil_abort rfl, item_abortRecorded, slot_abort]
        exact .taken
  | cons turn rest ih =>
      obtain ⟨child, hchild, hrest⟩ := Option.bind_eq_some_iff.mp hat
      rw [List.mem_cons, not_or] at hplace
      obtain ⟨name, phase, finished, remaining, rfl⟩ :=
        exists_group_of_child? hchild (Ne.symm hplace.1)
      obtain rfl : phase = .running := running_of_at? ho hat h.phase
      have hrunning := running_of_at? (ho.child hchild) hrest h.phase
      have hbelow := fun robot => ih (ho.child hchild) hplace.2 hrest robot
      rcases poll_member ho.self hchild hrunning robot with ⟨robot', hnone⟩ |
        ⟨robot', raised, hraised, hfault, hitem, hcalls⟩ | ⟨robot', raised, hfault, hitem, hcalls⟩
      · obtain ⟨raised, -, hraised, -⟩ := hbelow robot'
        rw [hnone] at hraised
        cases hraised
      · obtain ⟨raised', ended, hraised', hended, hphase, hending⟩ := hbelow robot'
        obtain rfl := Option.some.inj (hraised.symm.trans hraised')
        refine ⟨raised, ended, hfault, ?_, hphase, ?_⟩
        · rw [at?, hitem]
          exact hended
        · rw [Trace.callsAt_cons, hcalls]
          exact hending
      · obtain ⟨ended, hended, hphase, hslot, hfinish⟩ :=
          abort_holding (ho.child hchild) hplace.2 hrest h robot'
        refine ⟨raised, ended, hfault, ?_, hphase, ?_⟩
        · rw [at?, hitem]
          exact hended
        · rw [Trace.callsAt_cons, hcalls, hfinish, hslot]
          exact .passed raised

end Command

end RobotRoutine
