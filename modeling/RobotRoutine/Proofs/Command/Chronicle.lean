import Mathlib.Data.List.Induction
import RobotRoutine.Proofs.Command.Evolution
import RobotRoutine.Proofs.Command.Lifecycle

/-!
# The life of every command in every run

A run is made of the events of `Run.lean` and of one thing more: whoever holds
the handle of a worker may tell it to stop. The chronicle of a run is the trace
of everything that is called in it, in the whole tree and by whomever.

An abort or a poll need not begin at the root for the laws of its calls to hold:
`lives_visit` carries them from the place where a worker polls, or is told to
stop, up to the root. So a whole run obeys the law (`lives_after`), and what a
command has been through is read off its phase (`lifecycle`).
-/

namespace RobotRoutine

namespace Command

/-- Tells the worker that the command was handed to to stop. -/
def cancelWorker : Command → Robot → Command × Robot
  | .threaded name phase cadence (some task) inner, robot =>
    let (worker, robot) := Worker.cancel ⟨task, inner⟩ robot
    (.threaded name phase cadence (some worker.task) worker.command, robot)
  | command, robot => (command, robot)

/-! ## Records of what workers do -/

@[inherit_doc iterateWorker]
def iterateWorkerRecorded : Command → Robot → Recorded × Robot
  | .threaded name phase cadence (some task) inner, robot =>
    if task.cancelled then
      (untouched (.threaded name phase cadence (some task) inner), robot)
    else
      let polled := inner.pollRecorded robot
      ((.threaded name phase cadence (some { task with fault := polled.fault <|> task.fault })
        polled.item.1, polled.item.2.under .inner), polled.robot)
  | command, robot => (command.untouched, robot)

@[inherit_doc cancelWorker]
def cancelWorkerRecorded : Command → Robot → Recorded × Robot
  | .threaded name phase cadence (some task) inner, robot =>
    if task.cancelled then
      (untouched (.threaded name phase cadence (some task) inner), robot)
    else
      let (aborted, robot) := inner.abortRecorded robot
      ((.threaded name phase cadence (some { task with cancelled := true }) aborted.1,
        aborted.2.under .inner), robot)
  | command, robot => (command.untouched, robot)

@[inherit_doc visit]
def visitRecorded (act : Command → Robot → Recorded × Robot) :
    Place → Command → Robot → Recorded × Robot
  | [], command, robot => act command robot
  | turn :: rest, command, robot =>
    match command.child? turn with
    | none => (command.untouched, robot)
    | some child =>
      let (visited, robot) := visitRecorded act rest child robot
      ((command.setChild turn visited.1, visited.2.under turn), robot)

theorem iterateWorkerRecorded_fst (command : Command) (robot : Robot) :
    Prod.map Prod.fst id (command.iterateWorkerRecorded robot) = command.iterateWorker robot := by
  match command with
  | .leaf .. | .threaded _ _ _ none _ | .group .. => rfl
  | .threaded name phase cadence (some task) inner =>
      rw [iterateWorkerRecorded, iterateWorker, Worker.iterate]
      split
      · rfl
      · simp only [← pollRecorded_fst]
        rfl

theorem cancelWorkerRecorded_fst (command : Command) (robot : Robot) :
    Prod.map Prod.fst id (command.cancelWorkerRecorded robot) = command.cancelWorker robot := by
  match command with
  | .leaf .. | .threaded _ _ _ none _ | .group .. => rfl
  | .threaded name phase cadence (some task) inner =>
      rw [cancelWorkerRecorded, cancelWorker, Worker.cancel]
      split
      · rfl
      · simp only [← abortRecorded_fst]
        rfl

theorem visitRecorded_fst {act : Command → Robot → Command × Robot}
    {actRecorded : Command → Robot → Recorded × Robot}
    (h : ∀ command robot, Prod.map Prod.fst id (actRecorded command robot) = act command robot)
    (place : Place) (command : Command) (robot : Robot) :
    Prod.map Prod.fst id (command.visitRecorded actRecorded place robot) =
      command.visit act place robot := by
  induction place generalizing command robot with
  | nil => exact h command robot
  | cons turn rest ih =>
      rw [visitRecorded, visit]
      cases command.child? turn with
      | none => rfl
      | some child =>
          simp only [← ih]
          rfl

/-! ## What happens at a place is carried up -/

theorem Lives.setChild {command child : Command} {turn : Turn} {recorded : Recorded}
    (hchild : command.child? turn = some child) (h : Lives child recorded) :
    Lives command (command.setChild turn recorded.1, recorded.2.under turn) := by
  refine lives_iff.mpr ⟨?_, fun other => ?_⟩
  · rw [Trace.callsAt_under_nil]
    refine ⟨?_, fun _ => task?_setChild .., fun task htask error herror => ?_⟩
    · rw [phase_setChild]
      rfl
    · rw [task?_setChild] at htask
      exact Or.inr ⟨task, htask, herror⟩
  · by_cases hother : other = turn
    · subst hother
      rw [hchild, child?_setChild_self _ hchild, Trace.below_under]
      exact .some h
    · rw [child?_setChild_ne hother, Trace.below_under_of_ne _ (Ne.symm hother)]
      exact rel_refl Lives.refl _

theorem lives_visit {act : Command → Robot → Recorded × Robot} {command : Command}
    (htidy : Everywhere Tidy command)
    (h : ∀ part, Everywhere Tidy part → ∀ robot, Lives part (act part robot).1)
    (place : Place) (robot : Robot) : Lives command (command.visitRecorded act place robot).1 := by
  induction place generalizing command robot with
  | nil => exact h command htidy robot
  | cons turn rest ih =>
      rw [visitRecorded]
      split
      · exact Lives.refl command
      · next child hchild => exact (ih (htidy.child hchild) robot).setChild hchild

/-- A wrapper lives as long as what it wraps does, and keeps its own hooks. -/
theorem lives_threaded {name : String} {phase : Phase} {cadence : Duration} {task task' : Task}
    {inner : Command} {recorded : Recorded}
    (htidy : Everywhere Tidy (.threaded name phase cadence (some task) inner))
    (h : Lives inner recorded)
    (hfault : ∀ error ∈ task'.fault, error.IsSensor ∨ error ∈ task.fault) :
    Lives (.threaded name phase cadence (some task) inner)
      (.threaded name phase cadence (some task') recorded.1, recorded.2.under .inner) := by
  refine lives_iff.mpr ⟨?_, fun turn => ?_⟩
  · rw [Trace.callsAt_under_nil]
    refine ⟨rfl, fun hphase => ?_, fun _ htask error herror => ?_⟩
    · exact nomatch htidy.self.task? hphase
    · obtain rfl := Option.some.inj htask
      rcases hfault error herror with hsensor | hold
      · exact Or.inl hsensor
      · exact Or.inr ⟨task, rfl, hold⟩
  · cases turn with
    | inner =>
        rw [Trace.below_under]
        exact .some h
    | member => exact .none

theorem lives_iterateWorker (command : Command) (h : Everywhere Tidy command) (robot : Robot) :
    Lives command (command.iterateWorkerRecorded robot).1 := by
  match command with
  | .leaf .. | .threaded _ _ _ none _ | .group .. => exact Lives.refl _
  | .threaded name phase cadence (some task) inner =>
      have hchild : (Command.threaded name phase cadence (some task) inner).child? .inner =
        some inner := rfl
      have hinner : Everywhere Tidy inner := h.child hchild
      rw [iterateWorkerRecorded]
      split
      · exact Lives.refl _
      · refine lives_threaded h (lives_poll hinner robot) fun error herror => ?_
        cases hfault : (inner.pollRecorded robot).fault with
        | none =>
            rw [hfault] at herror
            exact Or.inr herror
        | some fault =>
            rw [hfault] at herror
            obtain rfl := Option.some.inj herror
            rw [fault_pollRecorded] at hfault
            exact Or.inl (isSensor_of_fault_poll hinner hfault)

theorem lives_cancelWorker (command : Command) (h : Everywhere Tidy command) (robot : Robot) :
    Lives command (command.cancelWorkerRecorded robot).1 := by
  match command with
  | .leaf .. | .threaded _ _ _ none _ | .group .. => exact Lives.refl _
  | .threaded name phase cadence (some task) inner =>
      rw [cancelWorkerRecorded]
      split
      · exact Lives.refl _
      · exact lives_threaded h (lives_abort inner robot) fun error herror => Or.inr herror

theorem Everywhere.part {property : Command → Prop} {command part : Command} {place : Place}
    (h : Everywhere property command) (hpart : command.at? place = some part) :
    Everywhere property part := by
  intro rest below hbelow
  refine h (place ++ rest) below ?_
  rw [at?_append, hpart]
  exact hbelow

/-! ## A command that never started -/

theorem child?_abort {command child : Command} {turn : Turn}
    (h : command.child? turn = some child) (robot : Robot) :
    (command.abort robot).1.child? turn = some child ∨
      ∃ robot', (command.abort robot).1.child? turn = some (child.abort robot').1 := by
  by_cases hphase : command.phase = .running
  case neg =>
    rw [abort_of_phase_ne_running hphase]
    exact Or.inl h
  match command, turn with
  | .threaded name phase cadence none inner, .inner =>
      cases hphase
      exact Or.inl h
  | .threaded name phase cadence (some task) inner, .inner =>
      cases hphase
      rw [abort]
      split
      · exact Or.inl h
      · obtain rfl := Option.some.inj h
        exact Or.inr ⟨robot, rfl⟩
  | .group name phase finished remaining, .member index role =>
      cases hphase
      obtain ⟨step, hstep, hmember⟩ := Option.bind_eq_some_iff.mp h
      obtain ⟨robot', hstep⟩ := exists_getElem?_abortSteps_append hstep robot
      obtain ⟨robot'', hmember⟩ := exists_member?_abortStep robot' hmember
      refine Or.inr ⟨robot'', ?_⟩
      rw [abort, child?, hstep]
      exact hmember

/-- An abort does not touch a command that never started, nor anything below it. -/
theorem at?_abort_of_notStarted {command part : Command} {place : Place}
    (h : command.at? place = some part) (hphase : part.phase = .notStarted) (robot : Robot) :
    (command.abort robot).1.at? place = some part := by
  induction place generalizing command robot with
  | nil =>
      obtain rfl := Option.some.inj h
      rw [abort_of_phase_ne_running (by rw [hphase]; decide)]
      rfl
  | cons turn rest ih =>
      obtain ⟨child, hchild, hpart⟩ := Option.bind_eq_some_iff.mp h
      rw [at?]
      rcases child?_abort hchild robot with hsame | ⟨robot', haborted⟩
      · rw [hsame]
        exact hpart
      · rw [haborted]
        exact ih hpart robot'

end Command

/-! ## Chronicles -/

/-- Something that happens in a run: an event, or the holder of the handle of
the worker at a place telling it to stop. -/
inductive Occurrence where
  | event (event : Event)
  | cancel (place : Place)

namespace Scene

open Command

/-- The scene after one occurrence. -/
def perform (scene : Scene) : Occurrence → Scene
  | .event event => scene.step event
  | .cancel place =>
    let (root, robot) := scene.root.visit cancelWorker place scene.robot
    ⟨root, robot⟩

/-- The scene after one occurrence, and the calls made in it. -/
def performRecorded (scene : Scene) : Occurrence → Scene × Trace
  | .event .poll =>
    let polled := scene.root.pollRecorded scene.robot
    (⟨polled.item.1, polled.robot⟩, polled.item.2)
  | .event .abort =>
    let (aborted, robot) := scene.root.abortRecorded scene.robot
    (⟨aborted.1, robot⟩, aborted.2)
  | .event (.work place) =>
    let (visited, robot) := scene.root.visitRecorded iterateWorkerRecorded place scene.robot
    (⟨visited.1, robot⟩, visited.2)
  | .event (.change conditions) => ({ scene with robot := scene.robot.under conditions }, [])
  | .cancel place =>
    let (visited, robot) := scene.root.visitRecorded cancelWorkerRecorded place scene.robot
    (⟨visited.1, robot⟩, visited.2)

theorem performRecorded_fst (scene : Scene) (occurrence : Occurrence) :
    (scene.performRecorded occurrence).1 = scene.perform occurrence := by
  match occurrence with
  | .event .poll =>
      rw [performRecorded, perform, step, ← pollRecorded_fst]
      rfl
  | .event .abort =>
      rw [performRecorded, perform, step, ← abortRecorded_fst]
      rfl
  | .event (.work place) =>
      rw [performRecorded, perform, step, ← visitRecorded_fst iterateWorkerRecorded_fst]
      rfl
  | .event (.change conditions) => rfl
  | .cancel place =>
      rw [performRecorded, perform, ← visitRecorded_fst cancelWorkerRecorded_fst]
      rfl

theorem lives_performRecorded {scene : Scene} (h : Everywhere Tidy scene.root)
    (occurrence : Occurrence) :
    Lives scene.root
      ((scene.performRecorded occurrence).1.root, (scene.performRecorded occurrence).2) := by
  match occurrence with
  | .event .poll => exact lives_poll h scene.robot
  | .event .abort => exact lives_abort scene.root scene.robot
  | .event (.work place) => exact lives_visit h lives_iterateWorker place scene.robot
  | .event (.change conditions) => exact Lives.refl _
  | .cancel place => exact lives_visit h lives_cancelWorker place scene.robot

end Scene

/-- A scene, and everything that was called on the way there. -/
structure Chronicle where
  scene : Scene
  trace : Trace

namespace Chronicle

open Command

/-- The chronicle of a run that has not begun. -/
def start (root : Command) (robot : Robot) : Chronicle :=
  ⟨⟨root, robot⟩, []⟩

/-- The chronicle after one more occurrence. -/
def step (chronicle : Chronicle) (occurrence : Occurrence) : Chronicle :=
  let (scene, trace) := chronicle.scene.performRecorded occurrence
  ⟨scene, chronicle.trace ++ trace⟩

/-- The chronicle after one occurrence after another. -/
def after (chronicle : Chronicle) (occurrences : List Occurrence) : Chronicle :=
  occurrences.foldl step chronicle

theorem after_append (chronicle : Chronicle) (first second : List Occurrence) :
    chronicle.after (first ++ second) = (chronicle.after first).after second :=
  List.foldl_append ..

/-- A chronicle is kept beside the run itself. -/
theorem scene_after (chronicle : Chronicle) (occurrences : List Occurrence) :
    (chronicle.after occurrences).scene = occurrences.foldl Scene.perform chronicle.scene := by
  induction occurrences generalizing chronicle with
  | nil => rfl
  | cons occurrence rest ih =>
      have hstep : (chronicle.step occurrence).scene = chronicle.scene.perform occurrence :=
        Scene.performRecorded_fst _ _
      rw [List.foldl_cons, ← hstep]
      exact ih (chronicle.step occurrence)

/-- The part of a chronicle that occurrences add to it. -/
theorem lives_after (chronicle : Chronicle) (h : Everywhere Tidy chronicle.scene.root)
    (occurrences : List Occurrence) :
    ∃ trace, (chronicle.after occurrences).trace = chronicle.trace ++ trace ∧
      Lives chronicle.scene.root ((chronicle.after occurrences).scene.root, trace) := by
  induction occurrences generalizing chronicle with
  | nil => exact ⟨[], (List.append_nil _).symm, Lives.refl _⟩
  | cons occurrence rest ih =>
      have hfirst := Scene.lives_performRecorded h occurrence
      obtain ⟨trace, htrace, hrest⟩ := ih (chronicle.step occurrence) (hfirst.tidy h)
      refine ⟨(chronicle.scene.performRecorded occurrence).2 ++ trace, ?_, hfirst.trans hrest⟩
      rw [← List.append_assoc]
      exact htrace

/-! ## What a command has been through -/

/-- A run hook and the question after it, so many times. -/
def rounds (n : ℕ) : List Call :=
  (List.replicate n [.run, .check]).flatten

theorem rounds_succ (n : ℕ) : rounds (n + 1) = rounds n ++ [.run, .check] := by
  rw [rounds, List.replicate_succ', List.flatten_concat, rounds]

/-- The calls that have brought a fresh command to a phase in which it is at rest. -/
inductive Lived : Phase → List Call → Prop
  | notStarted : Lived .notStarted []
  | running (n : ℕ) : Lived .running (.start :: rounds (n + 1))
  /-- It was asked and did not go on, or somebody above ended it between two of its polls. -/
  | asked (n : ℕ) : Lived .completed (.start :: rounds (n + 1) ++ [.finish])
  /-- Its run failed. -/
  | failed (n : ℕ) : Lived .completed (.start :: rounds n ++ [.run, .finish])

/-- The calls that lead the machine from its first stage to another. -/
def IsWord : Stage → List Call → Prop
  | .idle, calls => calls = []
  | .started, calls => calls = [.start]
  | .ran, calls => ∃ n, calls = .start :: rounds n ++ [.run]
  | .asked, calls => ∃ n, calls = .start :: rounds (n + 1)
  | .ended, calls =>
    (∃ n, calls = .start :: rounds (n + 1) ++ [.finish]) ∨
      ∃ n, calls = .start :: rounds n ++ [.run, .finish]

theorem isWord_concat {stage next : Stage} {calls : List Call} {call : Call}
    (h : IsWord stage calls) (hnext : stage.next call = some next) :
    IsWord next (calls ++ [call]) := by
  -- Six of the pairs of a stage and a call are steps of the machine.
  cases stage <;> cases call <;> cases hnext
  case idle.start =>
    subst h
    rfl
  case started.run =>
    subst h
    exact ⟨0, rfl⟩
  case ran.check =>
    obtain ⟨n, rfl⟩ := h
    exact ⟨n, by rw [rounds_succ, List.append_assoc]; rfl⟩
  case ran.finish =>
    obtain ⟨n, rfl⟩ := h
    exact Or.inr ⟨n, by rw [List.append_assoc]; rfl⟩
  case asked.run =>
    obtain ⟨n, rfl⟩ := h
    exact ⟨n + 1, rfl⟩
  case asked.finish =>
    obtain ⟨n, rfl⟩ := h
    exact Or.inl ⟨n, rfl⟩

theorem isWord_of_follow {calls : List Call} {stage : Stage}
    (h : Stage.idle.follow calls = some stage) : IsWord stage calls := by
  induction calls using List.reverseRecOn generalizing stage with
  | nil =>
      obtain rfl := Option.some.inj h
      rfl
  | append_singleton calls call ih =>
      rw [Stage.follow_append] at h
      obtain ⟨middle, hcalls, hcall⟩ := Option.bind_eq_some_iff.mp h
      obtain ⟨last, hnext, hlast⟩ := Option.bind_eq_some_iff.mp hcall
      obtain rfl := Option.some.inj hlast
      exact isWord_concat (ih hcalls) hnext

theorem lived_of_follow {phase : Phase} {calls : List Call}
    (h : Stage.idle.follow calls = some phase.stage) : Lived phase calls := by
  have hword := isWord_of_follow h
  cases phase with
  | notStarted =>
      obtain rfl := hword
      exact .notStarted
  | running =>
      obtain ⟨n, rfl⟩ := hword
      exact .running n
  | completed =>
      rcases hword with ⟨n, rfl⟩ | ⟨n, rfl⟩
      · exact .asked n
      · exact .failed n

/-- The life of every command in every run, workers' rounds and cancels by whoever
holds a handle included. A command that is at rest has been started once if it
was started at all, has been run and asked in turns, and was ended once and last
if it is completed; a completed command sees no further call and a command that
never started is not touched by an abort. And no start fails: whatever a poll
of any command of the tree answers, it is no error but that of a sensor. -/
theorem lifecycle {root : Command} (hroot : root.IsFresh) (robot : Robot)
    (occurrences : List Occurrence) :
    let chronicle := (start root robot).after occurrences
    (∀ place part, chronicle.scene.root.at? place = some part →
      Lived part.phase (chronicle.trace.callsAt place)) ∧
    (∀ place part, chronicle.scene.root.at? place = some part → part.phase = .completed →
      ∀ later, ((chronicle.after later).trace.callsAt place = chronicle.trace.callsAt place) ∧
        ∃ part', (chronicle.after later).scene.root.at? place = some part' ∧
          part'.phase = .completed) ∧
    (∀ place part, chronicle.scene.root.at? place = some part → part.phase = .notStarted →
      (chronicle.step (.event .abort)).scene.root.at? place = some part ∧
        (chronicle.step (.event .abort)).trace.callsAt place = []) ∧
    Everywhere (fun part => ∀ robot, ∀ error ∈ (part.poll robot).fault, error.IsSensor)
      chronicle.scene.root := by
  intro chronicle
  have hfresh := hroot.tidy
  obtain ⟨trace, htrace, hlives⟩ := lives_after (start root robot) hfresh occurrences
  have htidy : Everywhere Tidy chronicle.scene.root := hlives.tidy hfresh
  have hlived : ∀ place part, chronicle.scene.root.at? place = some part →
      Lived part.phase (chronicle.trace.callsAt place) := by
    intro place part hpart
    obtain ⟨before, hbefore, hlaw⟩ := hlives.exists_before hpart
    have hfollow := hlaw.follow
    rw [(hroot place before hbefore).phase] at hfollow
    rw [htrace]
    exact lived_of_follow hfollow
  refine ⟨hlived, fun place part hpart hphase later => ?_, fun place part hpart hphase => ?_, ?_⟩
  · obtain ⟨more, hmore, hlives⟩ := lives_after chronicle htidy later
    obtain ⟨part', hpart', hlaw⟩ := hlives.exists_after hpart
    have hfollow := hlaw.follow
    rw [hphase] at hfollow
    obtain ⟨hcalls, hstage⟩ := Stage.follow_ended hfollow
    refine ⟨?_, part', hpart', Phase.stage_injective hstage⟩
    rw [hmore, Trace.callsAt_append, hcalls, List.append_nil]
  · have haborted := at?_abort_of_notStarted hpart hphase chronicle.scene.robot
    rw [← item_abortRecorded] at haborted
    obtain ⟨before, hbefore, hlaw⟩ :=
      (lives_abort chronicle.scene.root chronicle.scene.robot).exists_before haborted
    have hcalls : chronicle.trace.callsAt place = [] := by
      have hlived := hlived place part hpart
      rw [hphase] at hlived
      generalize chronicle.trace.callsAt place = calls at hlived ⊢
      cases hlived
      rfl
    refine ⟨haborted, ?_⟩
    exact (Trace.callsAt_append _ _ place).trans
      (congrArg₂ (· ++ ·) hcalls (hlaw.phase_eq hphase).2)
  · intro place part hpart robot error herror
    exact isSensor_of_fault_poll (htidy.part hpart) herror

/-- A worker polls a tank drive once and is told to stop by the holder of its
handle; the abort of the routine after that finds nothing left to end. -/
theorem lifecycle_cancelled :
    let root : Command := .ofSteps "routine" ([.sequential (.waitUntil "window" ⟨5⟩),
      .threaded (.timed "tank" ⟨10⟩ (.tank 1 1)) ⟨20⟩].foldl Addition.addTo [])
    let wrapper : Place := [.member 0 (.beside 0)]
    let chronicle := (start root (Robot.ofParameters {})).after
      [.event .poll, .event (.work wrapper), .cancel wrapper, .event .abort]
    root.IsFresh ∧
      chronicle.trace.callsAt (wrapper ++ [.inner]) = [.start, .run, .check, .finish] ∧
      Lived .completed (chronicle.trace.callsAt (wrapper ++ [.inner])) := by
  intro root wrapper chronicle
  have hroot : root.IsFresh := by
    refine (Assembled.group _ _ ?_).isFresh
    simp only [List.forall_mem_cons, List.not_mem_nil, false_imp_iff, implies_true, and_true]
    exact ⟨.waitUntil .., .timed ..⟩
  have hphase : (chronicle.scene.root.at? (wrapper ++ [.inner])).map Command.phase =
      some .completed := by decide +kernel
  obtain ⟨part, hpart, hcompleted⟩ := Option.map_eq_some_iff.mp hphase
  obtain ⟨hlived, -⟩ := lifecycle hroot (Robot.ofParameters {})
    [.event .poll, .event (.work wrapper), .cancel wrapper, .event .abort]
  exact ⟨hroot, by decide +kernel, hcompleted ▸ hlived _ part hpart⟩

end Chronicle

end RobotRoutine
