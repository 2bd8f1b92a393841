import RobotRoutine.Proofs.Command.Chronicle
import RobotRoutine.Proofs.Command.Faults

/-!
# Every stored fault is answered with

A worker stores one fault at most, for what it polls has ended by then and fails
no more (`Spent`); and nobody but the wrapper's own poll takes it. So from one
event of a run to the next a running wrapper goes on holding its fault, or it
ends: with an abort, or in a poll of the root that fails (`holds_step`).
-/

namespace RobotRoutine

namespace Command

/-! ## Workers' rounds -/

/-- A worker's round changes no wrapper that is not inside another one but its
own, as far as phase and stored fault go. -/
theorem at?_visit_iterateWorker {command part : Command} {place : Place}
    (hplace : .inner ∉ place) (hat : command.at? place = some part) (worker : Place)
    (robot : Robot) :
    ∃ part', (command.visit iterateWorker worker robot).1.at? place = some part' ∧
      (worker = place ∧ part' = (part.iterateWorker robot).1 ∨
        part'.phase = part.phase ∧ part'.task? = part.task?) := by
  induction place generalizing command worker with
  | nil =>
      obtain rfl := Option.some.inj hat
      refine ⟨_, rfl, ?_⟩
      cases worker with
      | nil => exact Or.inl ⟨rfl, rfl⟩
      | cons turn rest =>
          rw [visit]
          split
          · exact Or.inr ⟨rfl, rfl⟩
          · exact Or.inr ⟨phase_setChild _ _ _, task?_setChild _ _ _⟩
  | cons turn rest ih =>
      obtain ⟨child, hchild, hrest⟩ := Option.bind_eq_some_iff.mp hat
      rw [List.mem_cons, not_or] at hplace
      cases worker with
      | nil =>
          obtain ⟨name, phase, finished, remaining, rfl⟩ :=
            exists_group_of_child? hchild (Ne.symm hplace.1)
          exact ⟨part, hat, Or.inr ⟨rfl, rfl⟩⟩
      | cons turn' worker =>
          rw [visit]
          split
          · exact ⟨part, hat, Or.inr ⟨rfl, rfl⟩⟩
          · next child' hchild' =>
              by_cases hturn : turn = turn'
              · subst hturn
                obtain rfl := Option.some.inj (hchild.symm.trans hchild')
                obtain ⟨part', hpart', hcases⟩ := ih hplace.2 hrest worker
                refine ⟨part', ?_, ?_⟩
                · rw [at?, child?_setChild_self _ hchild]
                  exact hpart'
                · rcases hcases with ⟨rfl, hpart⟩ | hsame
                  · exact Or.inl ⟨rfl, hpart⟩
                  · exact Or.inr hsame
              · refine ⟨part, ?_, Or.inr ⟨rfl, rfl⟩⟩
                rw [at?, child?_setChild_ne hturn, hchild]
                exact hrest

/-! ## Polls and aborts store nothing -/

theorem slot_at?_abort {command part : Command} {place : Place}
    (h : command.at? place = some part) (robot : Robot) :
    ∃ part', (command.abort robot).1.at? place = some part' ∧ part'.slot = part.slot := by
  induction place generalizing command robot with
  | nil =>
      obtain rfl := Option.some.inj h
      exact ⟨_, rfl, slot_abort command robot⟩
  | cons turn rest ih =>
      obtain ⟨child, hchild, hrest⟩ := Option.bind_eq_some_iff.mp h
      rw [at?]
      rcases child?_abort hchild robot with hsame | ⟨robot', haborted⟩
      · rw [hsame]
        exact ⟨part, hrest, rfl⟩
      · rw [haborted]
        exact ih hrest robot'

theorem slot_pollLeaf (name : String) (work : Leaf) (robot : Robot) :
    (pollLeaf name work robot).item.slot = none := by
  unfold pollLeaf
  split <;> exact slot_finishIf _ _

theorem slot_poll (command : Command) (robot : Robot) :
    (command.poll robot).item.slot = none ∨ (command.poll robot).item.slot = command.slot := by
  match command with
  | .leaf name .notStarted work | .leaf name .running work =>
      exact Or.inl (slot_pollLeaf name _ _)
  | .threaded name .notStarted cadence none inner
  | .threaded name .running cadence (some task) inner
  | .threaded name .running cadence none inner =>
      rw [poll]
      exact Or.inl (slot_finishIf _ _)
  | .threaded name .notStarted cadence (some task) inner =>
      rw [poll]
      exact Or.inr (slot_finishIf _ _)
  | .group name .notStarted finished remaining | .group name .running finished remaining =>
      rw [poll_group (by decide)]
      exact Or.inl (slot_finishIf _ _)
  | .leaf name .completed work | .threaded name .completed cadence task inner
  | .group name .completed finished remaining => exact Or.inr rfl

theorem slot_at?_finishRecorded (polled : Polled Recorded) {place : Place} {part : Command}
    (h : polled.item.1.at? place = some part) (isDone : Bool) :
    ∃ part', (polled.finishRecorded isDone).item.1.at? place = some part' ∧
      part'.slot = part.slot := by
  rw [Polled.finishRecorded]
  split
  · simp only [item_abortRecorded]
    exact slot_at?_abort h polled.robot
  · exact ⟨part, h, rfl⟩

theorem slot_at?_poll {command part : Command} {place : Place} (hplace : .inner ∉ place)
    (hat : command.at? place = some part) (robot : Robot) :
    ∃ part', (command.poll robot).item.at? place = some part' ∧
      (part'.slot = none ∨ part'.slot = part.slot) := by
  induction place generalizing command robot with
  | nil =>
      obtain rfl := Option.some.inj hat
      exact ⟨_, rfl, slot_poll command robot⟩
  | cons turn rest ih =>
      obtain ⟨child, hchild, hrest⟩ := Option.bind_eq_some_iff.mp hat
      rw [List.mem_cons, not_or] at hplace
      obtain ⟨name, phase, finished, remaining, rfl⟩ :=
        exists_group_of_child? hchild (Ne.symm hplace.1)
      by_cases hphase : phase = .completed
      · subst hphase
        exact ⟨part, hat, Or.inr rfl⟩
      have hmember := @rel_child? _ name name phase .running _ _ _ _ _
        (forall₂_walk finished remaining robot) (bare_append _ _).symm turn
      rw [hchild] at hmember
      rw [← item_pollRecorded, pollRecorded_group hphase]
      generalize walkRecorded finished remaining robot = walked at hmember ⊢
      obtain ⟨⟨done, left⟩, robot', fault⟩ := walked
      generalize hnew : (Command.group name .running _ _).child? turn = new at hmember
      cases hmember with
      | @some _ new hpolled =>
      have hslot : ∃ part', new.at? rest = some part' ∧
          (part'.slot = none ∨ part'.slot = part.slot) := by
        rcases hpolled with hsame | ⟨robot'', hrecorded⟩
        · obtain ⟨rfl, -⟩ := Prod.mk.inj hsame
          exact ⟨part, hrest, Or.inr rfl⟩
        · obtain rfl : new = (child.poll robot'').item :=
            (congrArg Prod.fst hrecorded).trans (item_pollRecorded child robot'')
          exact ih hplace.2 hrest robot''
      obtain ⟨part', hpart', hcases⟩ := hslot
      have hwalked : (Command.group name .running (bare done) (bare left)).at? (turn :: rest) =
          some part' := by
        rw [at?, hnew]
        exact hpart'
      obtain ⟨part'', hpart'', hsame⟩ := slot_at?_finishRecorded ⟨(_, _), _, _⟩ hwalked _
      exact ⟨part'', hpart'', hsame ▸ hcases⟩

/-! ## A worker stores one fault at most -/

/-- What a worker polls has ended by the time the worker holds a fault. -/
def Spent (command : Command) : Prop :=
  ∀ error, command.slot = some error →
    ∀ inner, command.child? .inner = some inner → inner.phase = .completed

theorem exists_inner_of_slot {command : Command} {error : RoutineError}
    (h : command.slot = some error) : ∃ inner, command.child? .inner = some inner := by
  match command with
  | .threaded _ _ _ _ inner => exact ⟨inner, rfl⟩
  | .leaf .. | .group .. => cases h

theorem spent_of_slot_eq_none {command : Command} (h : command.slot = none) : command.Spent := by
  intro error herror
  rw [h] at herror
  cases herror

/-- A round leaves a worker with what it held, or with the error that ended what it polls. -/
theorem spent_iterateWorker {command : Command} (h : command.Spent) (robot : Robot) :
    (command.iterateWorker robot).1.Spent := by
  match command with
  | .leaf .. | .group .. | .threaded _ _ _ none _ => exact h
  | .threaded name phase cadence (some task) inner =>
      by_cases hcancelled : task.cancelled = true
      · rw [iterateWorker, Worker.iterate, if_pos hcancelled]
        exact h
      · rw [iterateWorker, Worker.iterate, if_neg hcancelled]
        intro error herror inner' hinner
        obtain rfl := Option.some.inj hinner
        cases hfault : (inner.poll robot).fault with
        | some error => exact phase_poll_of_fault hfault
        | none =>
            have hstored : task.fault = some error := by simpa [slot, task?, hfault] using herror
            have hcompleted := h error hstored inner rfl
            rw [poll_of_phase_completed hcompleted]
            exact hcompleted

/-- A round of a worker that holds a fault changes nothing. -/
theorem iterateWorker_of_holds {command : Command} {error : RoutineError}
    (h : command.Holds error) (hspent : command.Spent) (robot : Robot) :
    (command.iterateWorker robot).1.Holds error := by
  obtain ⟨name, cadence, task, inner, rfl, hfault⟩ := holds_threaded h
  have hcompleted := hspent error h.slot inner rfl
  by_cases hcancelled : task.cancelled = true
  · rw [iterateWorker, Worker.iterate, if_pos hcancelled]
    exact h
  · rw [iterateWorker, Worker.iterate, if_neg hcancelled]
    exact ⟨rfl, by simp [slot, task?, poll_of_phase_completed hcompleted, hfault]⟩

end Command

namespace Scene

open Command

theorem spent_step {scene : Scene} {place : Place} {part : Command}
    (ho : Everywhere Orderly scene.root) (hplace : .inner ∉ place)
    (hat : scene.root.at? place = some part) (hspent : part.Spent) (event : Event) :
    ∃ part', (scene.step event).root.at? place = some part' ∧ part'.Spent := by
  -- What has ended stays as it is, so it is enough to look at what is stored.
  have hkept : ∀ part', (scene.step event).root.at? place = some part' →
      part'.slot = none ∨ part'.slot = part.slot → part'.Spent := by
    intro part' hpart' hslot error herror inner' hinner'
    have hstored : part.slot = some error := by
      rcases hslot with hnone | hsame
      · rw [hnone] at herror
        cases herror
      · rw [← hsame, herror]
    obtain ⟨inner, hinner⟩ := exists_inner_of_slot hstored
    have hended := hspent error hstored inner hinner
    have hat : scene.root.at? (place ++ [.inner]) = some inner := by
      rw [at?_concat, hat]
      exact hinner
    obtain ⟨inner'', hat', hevolves⟩ := evolves_at?_step ho event hat
    rw [at?_concat, hpart', Option.bind_some, hinner', Option.some.injEq] at hat'
    rw [hat', hevolves.eq_of_completed hended]
    exact hended
  cases event with
  | poll =>
      obtain ⟨part', hpart', hslot⟩ := slot_at?_poll hplace hat scene.robot
      exact ⟨part', hpart', hkept part' hpart' hslot⟩
  | abort =>
      obtain ⟨part', hpart', hslot⟩ := slot_at?_abort hat scene.robot
      exact ⟨part', hpart', hkept part' hpart' (Or.inr hslot)⟩
  | work worker =>
      obtain ⟨part', hpart', ⟨-, rfl⟩ | ⟨-, htask⟩⟩ :=
        at?_visit_iterateWorker hplace hat worker scene.robot
      · exact ⟨_, hpart', spent_iterateWorker hspent scene.robot⟩
      · exact ⟨part', hpart', hkept part' hpart' (Or.inr (congrArg (·.bind Task.fault) htask))⟩
  | change conditions => exact ⟨part, hat, hspent⟩

/-- What the root answers to an event with: the error, if it is polled and fails. -/
def answer (scene : Scene) : Event → Option RoutineError
  | .poll => (scene.root.poll scene.robot).fault
  | .abort | .work _ | .change _ => none

/-- The errors that the polls of a run answer with. -/
def answers (scene : Scene) : List Event → List RoutineError
  | [] => []
  | event :: rest => (scene.answer event).toList ++ (scene.step event).answers rest

/-- How an event ends a wrapper at a place that holds `error`, and what is left
stored with it: with an abort, or in a poll that fails. -/
inductive Ends (scene : Scene) (place : Place) (error : RoutineError) :
    Event → Option RoutineError → Prop
  | aborted : Ends scene place error .abort (some error)
  | failed {raised : RoutineError} {left : Option RoutineError}
      (answer : scene.answer .poll = some raised)
      (ending : Ending error raised
        ((scene.root.pollRecorded scene.robot).item.2.callsAt place) left) :
      Ends scene place error .poll left

theorem poll_ends {scene : Scene} {place : Place} {wrapper : Command} {error : RoutineError}
    (ho : Everywhere Orderly scene.root) (hplace : .inner ∉ place)
    (hat : scene.root.at? place = some wrapper) (h : wrapper.Holds error) :
    ∃ ended, (scene.step .poll).root.at? place = some ended ∧ ended.phase = .completed ∧
      Ends scene place error .poll ended.slot := by
  obtain ⟨raised, ended, hraised, hended, hphase, hending⟩ :=
    poll_holding ho hplace hat h scene.robot
  rw [item_pollRecorded] at hended
  exact ⟨ended, hended, hphase, .failed ((fault_pollRecorded _ _).symm.trans hraised) hending⟩

/-- An event leaves a wrapper with the fault that it holds, or ends it. -/
theorem holds_step {scene : Scene} {place : Place} {wrapper : Command} {error : RoutineError}
    (ho : Everywhere Orderly scene.root) (hplace : .inner ∉ place)
    (hat : scene.root.at? place = some wrapper) (h : wrapper.Holds error)
    (hspent : wrapper.Spent) (event : Event) :
    ∃ after, (scene.step event).root.at? place = some after ∧
      (after.Holds error ∧ scene.answer event = none ∨
        after.phase = .completed ∧ Ends scene place error event after.slot) := by
  cases event with
  | poll =>
      obtain ⟨ended, hended, hends⟩ := poll_ends ho hplace hat h
      exact ⟨ended, hended, Or.inr hends⟩
  | abort =>
      obtain ⟨ended, hended, hphase, hslot, -⟩ := abort_holding ho hplace hat h scene.robot
      rw [item_abortRecorded] at hended
      refine ⟨ended, hended, Or.inr ⟨hphase, ?_⟩⟩
      rw [hslot]
      exact .aborted
  | work worker =>
      obtain ⟨after, hafter, ⟨-, rfl⟩ | ⟨hphase, htask⟩⟩ :=
        at?_visit_iterateWorker hplace hat worker scene.robot
      · exact ⟨_, hafter, Or.inl ⟨iterateWorker_of_holds h hspent scene.robot, rfl⟩⟩
      · refine ⟨after, hafter, Or.inl ⟨⟨hphase.trans h.phase, ?_⟩, rfl⟩⟩
        rw [Command.slot, htask]
        exact h.slot
  | change conditions => exact ⟨wrapper, hat, Or.inl ⟨h, rfl⟩⟩

/-! ## Runs -/

theorem spent_after {scene : Scene} {place : Place} {part : Command}
    (ho : Everywhere Orderly scene.root) (hplace : .inner ∉ place)
    (hat : scene.root.at? place = some part) (hspent : part.Spent) (events : List Event) :
    ∃ part', (scene.after events).root.at? place = some part' ∧ part'.Spent := by
  induction events generalizing scene part with
  | nil => exact ⟨part, hat, hspent⟩
  | cons event rest ih =>
      obtain ⟨middle, hmiddle, hkept⟩ := spent_step ho hplace hat hspent event
      exact ih (orderly_step ho event) hmiddle hkept

/-- What becomes in a run of a wrapper at a place that holds `error`. -/
inductive Fate (scene : Scene) (place : Place) (error : RoutineError) : List Event → Prop
  /-- It still holds the error, and no poll has failed. -/
  | held {events : List Event} {held : Command}
      (hat : (scene.after events).root.at? place = some held) (holds : held.Holds error)
      (answers : scene.answers events = []) : Fate scene place error events
  /-- It held the error until an event ended it, and has been as that left it ever since. -/
  | ended {before rest : List Event} {event : Event} {held ended : Command}
      (hat : (scene.after before).root.at? place = some held) (holds : held.Holds error)
      (answers : scene.answers before = [])
      (ends : Ends (scene.after before) place error event ended.slot)
      (phase : ended.phase = .completed)
      (stays : ∀ more, (scene.after (before ++ event :: more)).root.at? place = some ended) :
      Fate scene place error (before ++ event :: rest)

/-- In a run a wrapper goes on holding its fault while no poll fails, or it has
been ended and stays as it was then. -/
theorem holds_after {scene : Scene} {place : Place} {wrapper : Command} {error : RoutineError}
    (ho : Everywhere Orderly scene.root) (hplace : .inner ∉ place)
    (hat : scene.root.at? place = some wrapper) (h : wrapper.Holds error)
    (hspent : wrapper.Spent) (events : List Event) : Fate scene place error events := by
  induction events generalizing scene wrapper with
  | nil => exact .held hat h rfl
  | cons event rest ih =>
      have ho' := orderly_step ho event
      obtain ⟨after, hafter, ⟨hheld, hanswer⟩ | ⟨hphase, hends⟩⟩ :=
        holds_step ho hplace hat h hspent event
      · obtain ⟨after', hafter', hspent'⟩ := spent_step ho hplace hat hspent event
        obtain rfl := Option.some.inj (hafter.symm.trans hafter')
        have hanswers : ∀ events, scene.answers (event :: events) =
            (scene.step event).answers events := by
          intro events
          rw [answers, hanswer]
          rfl
        cases ih ho' hafter hheld hspent' with
        | held hat' hholds hnone => exact .held hat' hholds ((hanswers rest).trans hnone)
        | @ended before _ _ _ _ hat' hholds hnone hends hphase hstays =>
            rw [← List.cons_append]
            exact .ended hat' hholds ((hanswers before).trans hnone) hends hphase hstays
      · rw [← List.nil_append (event :: rest)]
        refine .ended hat h rfl hends hphase fun more => ?_
        obtain ⟨after', hafter', hevolves⟩ := evolves_at? ho' more hafter
        rw [hevolves.eq_of_completed hphase] at hafter'
        exact hafter'

theorem phase_step_of_completed {scene : Scene} (h : scene.root.phase = .completed)
    (event : Event) : (scene.step event).root.phase = .completed := by
  cases event with
  | poll =>
      simp only [step, poll_of_phase_completed h]
      exact h
  | abort =>
      have hidle : scene.root.phase ≠ .running := by rw [h]; decide
      simp only [step, abort_of_phase_ne_running hidle]
      exact h
  | work worker => exact (phase_visit_iterateWorker scene.root worker scene.robot).trans h
  | change conditions => exact h

/-- After its end a routine answers with no error. -/
theorem answers_of_completed {scene : Scene} (h : scene.root.phase = .completed)
    (events : List Event) : scene.answers events = [] := by
  induction events generalizing scene with
  | nil => rfl
  | cons event rest ih =>
      rw [answers, ih (phase_step_of_completed h event), List.append_nil]
      cases event with
      | poll => rw [answer, poll_of_phase_completed h]; rfl
      | abort | work | change => rfl

/-- An error ends the routine, so a run has one at most. -/
theorem length_answers_le_one (scene : Scene) (events : List Event) :
    (scene.answers events).length ≤ 1 := by
  induction events generalizing scene with
  | nil => exact Nat.zero_le _
  | cons event rest ih =>
      rw [answers]
      cases hanswer : scene.answer event with
      | none => exact ih (scene.step event)
      | some error =>
          cases event with
          | poll =>
              rw [answers_of_completed (phase_poll_of_fault hanswer)]
              exact Nat.le_refl 1
          | abort | work | change => cases hanswer

/-- A place that leads to a command after a run led to one before. -/
theorem exists_at?_before {scene : Scene} (h : Everywhere Tidy scene.root) (events : List Event)
    {place : Place} {part : Command} (hat : (scene.after events).root.at? place = some part) :
    ∃ before, scene.root.at? place = some before := by
  induction events generalizing scene with
  | nil => exact ⟨part, hat⟩
  | cons event rest ih =>
      have hlives := lives_performRecorded h (.event event)
      rw [performRecorded_fst] at hlives
      obtain ⟨middle, hmiddle⟩ := ih (hlives.tidy h) hat
      obtain ⟨before, hbefore, -⟩ := hlives.exists_before hmiddle
      exact ⟨before, hbefore⟩

/-- No fault of a wrapper that stands inside no other one is lost. As long as
the wrapper runs and holds the fault, the next poll of the root fails, whatever
else comes to its end in it: with the fault, which it takes out of the wrapper,
or with one that came up before the wrapper had its turn. The wrapper goes on
holding the fault until a poll of the root fails or the routine is aborted; this
is how it ends, in no poll that succeeds, and what is stored with it then stays
so. A run answers with one error at most, so no fault is handed out twice. -/
theorem faults_are_answered {root : Command} (hroot : root.IsFresh) (robot : Robot)
    (events : List Event) {place : Place} (hplace : .inner ∉ place) {wrapper : Command}
    {error : RoutineError}
    (hat : ((Scene.mk root robot).after events).root.at? place = some wrapper)
    (h : wrapper.Holds error) :
    let scene := (Scene.mk root robot).after events
    (∃ raised ended, scene.answer .poll = some raised ∧
      (scene.step .poll).root.at? place = some ended ∧ ended.phase = .completed ∧
      Ending error raised ((scene.root.pollRecorded scene.robot).item.2.callsAt place)
        ended.slot) ∧
    (∀ later, Fate scene place error later) ∧
    ∀ later, ((Scene.mk root robot).answers (events ++ later)).length ≤ 1 := by
  intro scene
  have ho : Everywhere Orderly scene.root := orderly_after hroot.orderly events
  have hspent : wrapper.Spent := by
    obtain ⟨start, hstart⟩ := exists_at?_before hroot.tidy events hat
    have hnew : start.slot = none := by rw [Command.slot, (hroot place start hstart).task?]; rfl
    obtain ⟨part, hpart, hspent⟩ :=
      spent_after hroot.orderly hplace hstart (spent_of_slot_eq_none hnew) events
    obtain rfl := Option.some.inj (hat.symm.trans hpart)
    exact hspent
  refine ⟨?_, holds_after ho hplace hat h hspent, fun later => length_answers_le_one _ _⟩
  obtain ⟨ended, hended, hphase, hends⟩ := poll_ends ho hplace hat h
  generalize hslot : ended.slot = left at hends
  cases hends with
  | @failed raised _ hanswer hending =>
      exact ⟨raised, ended, hanswer, hended, hphase, hslot ▸ hending⟩

/-- The encoder is unplugged while a threaded approach runs beside a wait. In the
poll in which the wait and with it the whole group would be complete, the routine
fails with what the approach met. -/
theorem faults_are_answered_unplugged :
    let root : Command := .ofSteps "routine" ([.sequential (.waitUntil "window" ⟨5⟩),
      .threaded (.convergence "approach" .distance 10 1 3) ⟨20⟩].foldl Addition.addTo [])
    let error : RoutineError := .sensor "approach" ⟨"encoder", "unplugged"⟩
    let conditions : Conditions :=
      { encoder := ⟨"encoder", 0, some "unplugged"⟩, gyro := ⟨"gyro", 0, none⟩, clock := ⟨5⟩
        separateMatchClock := none }
    let place : Place := [.member 0 (.beside 0)]
    let events : List Event := [.poll, .change conditions, .work place]
    let scene := (Scene.mk root (Robot.ofParameters {})).after events
    ∃ wrapper, (root.IsFresh ∧ .inner ∉ place ∧ scene.root.at? place = some wrapper ∧
        wrapper.Holds error) ∧
      ∃ raised ended, scene.answer .poll = some raised ∧
        (scene.step .poll).root.at? place = some ended ∧ ended.phase = .completed ∧
        Ending error raised ((scene.root.pollRecorded scene.robot).item.2.callsAt place)
          ended.slot := by
  intro root error conditions place events scene
  have hroot : root.IsFresh := by
    refine Assembled.isFresh (.group _ _ ?_)
    simp only [List.forall_mem_cons, List.not_mem_nil, false_imp_iff, implies_true, and_true]
    exact ⟨.waitUntil .., .convergence ..⟩
  obtain ⟨wrapper, hat, hholds⟩ : ∃ wrapper, scene.root.at? place = some wrapper ∧
      wrapper.Holds error := ⟨_, rfl, rfl, rfl⟩
  have hplace : .inner ∉ place := by decide
  obtain ⟨hanswered, -, -⟩ :=
    faults_are_answered hroot (Robot.ofParameters {}) events hplace hat hholds
  subst scene
  exact ⟨wrapper, ⟨hroot, hplace, hat, hholds⟩, hanswered⟩

end Scene

end RobotRoutine
