import RobotRoutine.Engine
import RobotRoutine.Proofs.Command.Ownership

/-!
# An engine that has stopped leaves nothing on

An engine can stop in many ways: its routine is completed, a tick meets an
error in whichever member, the host aborts it before or after its first tick,
or drops it. All of them end in one state, in which nothing runs, every worker
was told to stop, both controllers are off and the drive stands still; and
nothing that happens afterwards changes an output.

The argument has three parts. What an engine does to its routine is a run of
polls, aborts and workers' rounds (`scene_step`), so the statements of
`Order.lean` and `Ownership.lean` hold of it. An engine that is not running
has a root that is not running, which in an orderly tree makes the tree quiet
(`isQuiet_root`), and a quiet tree owns nothing, so nothing is switched on. And
a quiet tree ignores whatever the engine does to it (`step_of_isQuiet`),
letting go of its workers included.
-/

namespace RobotRoutine

/-! ## Letting go of a quiet tree -/

namespace Command

theorem releaseAll_eq {commands : List Command}
    (h : ∀ command ∈ commands, ∀ robot, command.release robot = (command, robot))
    (robot : Robot) : releaseAll commands robot = (commands, robot) := by
  induction commands with
  | nil => rfl
  | cons command rest ih =>
      rw [releaseAll, h command List.mem_cons_self]
      simp only
      rw [ih fun c hc => h c (List.mem_cons_of_mem _ hc)]

theorem releaseStep_eq {step : Step Command}
    (h : ∀ command ∈ step.members, ∀ robot, command.release robot = (command, robot))
    (robot : Robot) : releaseStep step robot = (step, robot) := by
  obtain ⟨primary, companions, beside⟩ := step
  rw [releaseStep, h primary List.mem_cons_self]
  simp only
  rw [releaseAll_eq fun c hc => h c (List.mem_cons_of_mem _ (List.mem_append_left _ hc))]
  simp only
  rw [releaseAll_eq fun c hc => h c (List.mem_cons_of_mem _ (List.mem_append_right _ hc))]

theorem releaseSteps_eq {steps : List (Step Command)}
    (h : ∀ step ∈ steps, ∀ command ∈ step.members, ∀ robot,
      command.release robot = (command, robot))
    (robot : Robot) : releaseSteps steps robot = (steps, robot) := by
  induction steps with
  | nil => rfl
  | cons step rest ih =>
      rw [releaseSteps, releaseStep_eq (h step List.mem_cons_self)]
      simp only
      rw [ih fun s hs => h s (List.mem_cons_of_mem _ hs)]

/-- Letting go of a tree in which nothing runs changes nothing. -/
theorem release_of_isQuiet {command : Command} (h : command.IsQuiet) (robot : Robot) :
    command.release robot = (command, robot) := by
  induction command using childInduction generalizing robot with
  | step command ih =>
  match command with
  | .leaf .. | .threaded _ _ _ none _ => rfl
  | .threaded name phase cadence (some task) inner =>
      have hinner : (Command.threaded name phase cadence (some task) inner).child? .inner =
        some inner := rfl
      have hcancelled := h.self.cancelled task rfl
      rw [release, ih .inner inner hinner (h.child hinner)]
      simp only
      rw [Worker.cancel, if_pos hcancelled]
  | .group name phase finished remaining =>
      have hmember : ∀ step ∈ finished ++ remaining, ∀ member ∈ step.members, ∀ robot,
          member.release robot = (member, robot) := by
        intro step hstep member hmember
        obtain ⟨turn, hchild⟩ := exists_child?_of_mem hstep hmember
        exact ih turn member hchild (h.child hchild)
      rw [release, releaseSteps_eq fun step hstep => hmember step (List.mem_append_left _ hstep)]
      simp only
      rw [releaseSteps_eq fun step hstep => hmember step (List.mem_append_right _ hstep)]

end Command

/-! ## What an engine does to its routine -/

namespace Engine

open Command

theorem status_ne_running_iff {engine : Engine} :
    engine.status ≠ .running ↔ engine.aborted = true ∨ engine.root.phase = .completed := by
  rw [status]
  split
  · next h => simp [h]
  · next h =>
      split
      · next hcompleted => simpa [isCompleted] using Or.inr hcompleted
      · next hcompleted => simpa [h, isCompleted] using hcompleted

theorem aborted_of_status_running {engine : Engine} (h : engine.status = .running) :
    engine.aborted = false := by
  cases haborted : engine.aborted with
  | true => exact absurd h (status_ne_running_iff.mpr (Or.inl haborted))
  | false => rfl

theorem abort_of_aborted {engine : Engine} (h : engine.aborted = true) (robot : Robot) :
    engine.abort robot = (engine, robot) := by
  rw [abort, if_pos h]

theorem abort_of_not_aborted {engine : Engine} (h : engine.aborted = false) (robot : Robot) :
    engine.abort robot =
      ({ engine with root := (engine.root.abort robot).1, aborted := true },
        (engine.root.abort robot).2) := by
  rw [abort, if_neg (by rw [h]; decide)]

theorem aborted_abort (engine : Engine) (robot : Robot) :
    (engine.abort robot).1.aborted = true := by
  cases h : engine.aborted with
  | true => rw [abort_of_aborted h, h]
  | false => rw [abort_of_not_aborted h]

theorem tick_of_status_ne_running {engine : Engine} (h : engine.status ≠ .running)
    (robot : Robot) : engine.tick robot = ⟨engine, robot, .ok engine.status⟩ := by
  rw [tick]
  split
  · next hrunning => exact absurd hrunning h
  · rfl

/-- A tick that meets no error polls the root. -/
theorem tick_of_fault_none {engine : Engine} (h : engine.status = .running) {robot : Robot}
    (hfault : (engine.root.poll robot).fault = none) :
    (engine.tick robot).engine =
        { engine with root := (engine.root.poll robot).item, ticks := engine.ticks + 1 } ∧
      (engine.tick robot).robot = (engine.root.poll robot).robot ∧
      (engine.tick robot).result =
        .ok (if (engine.root.poll robot).item.isCompleted then .completed else .running) := by
  rw [tick, h]
  simp only [hfault]
  exact ⟨trivial, trivial, trivial⟩

/-- A tick that meets an error polls the root and aborts what is left of it. -/
theorem tick_of_fault {engine : Engine} (h : engine.status = .running) {robot : Robot}
    {error : RoutineError} (hfault : (engine.root.poll robot).fault = some error) :
    let polled := engine.root.poll robot
    (engine.tick robot).engine =
        { engine with
          root := (polled.item.abort polled.robot).1
          ticks := engine.ticks + 1
          aborted := true } ∧
      (engine.tick robot).robot = (polled.item.abort polled.robot).2 ∧
      (engine.tick robot).result = .error error := by
  have haborted := aborted_of_status_running h
  have hpolled : { engine with
      root := (engine.root.poll robot).item, ticks := engine.ticks + 1 }.aborted = false := haborted
  rw [tick, h]
  simp only [hfault]
  rw [abort_of_not_aborted hpolled]
  exact ⟨rfl, rfl, trivial⟩

/-- An engine that is not running has nothing running in its routine. -/
theorem isQuiet_root {engine : Engine} (ho : Everywhere Orderly engine.root)
    (haborted : engine.aborted = true → engine.root.phase ≠ .running)
    (h : engine.status ≠ .running) : engine.root.IsQuiet := by
  refine isQuiet_of_orderly ho ?_
  rcases status_ne_running_iff.mp h with h | h
  · exact haborted h
  · rw [h]
    decide

/-- Dropping comes down to an abort, since this leaves no worker to let go of. -/
theorem drop_of_status_running {engine : Engine} (ho : Everywhere Orderly engine.root)
    (h : engine.status = .running) (robot : Robot) :
    engine.drop robot = engine.abort robot := by
  have hquiet := isQuiet_of_orderly ((abort_moves engine.root robot).orderly ho)
    (phase_abort_ne_running engine.root robot)
  rw [drop, if_pos h, abort_of_not_aborted (aborted_of_status_running h)]
  simp only
  rw [release_of_isQuiet hquiet]

theorem drop_of_isQuiet {engine : Engine} (h : engine.status ≠ .running)
    (hquiet : engine.root.IsQuiet) (robot : Robot) : engine.drop robot = (engine, robot) := by
  rw [drop, if_neg h]
  simp only
  rw [release_of_isQuiet hquiet]

end Engine

/-! ## An engine at work -/

/-- An engine and the robot its routine acts on. -/
structure Mission where
  engine : Engine
  robot : Robot

/-- One thing that happens while an engine is in use. -/
inductive Incident where
  | tick
  | abort
  | drop
  /-- The worker at a place of the routine does one round, if it is there and goes on. -/
  | work (place : Place)
  | change (conditions : Conditions)

/-- Everything a routine can do to a robot. -/
structure Outputs where
  drive : Drive
  distanceController : Controller
  headingController : Controller
  bucket : Actuator
  gearGuard : Actuator
  messages : List String

/-- What a routine has done to a robot so far. -/
def Robot.outputs (robot : Robot) : Outputs where
  drive := robot.drive
  distanceController := robot.distance.controller
  headingController := robot.heading.controller
  bucket := robot.bucket
  gearGuard := robot.gearGuard
  messages := robot.messages

namespace Mission

open Command

/-- A mission that has not begun. -/
def start (root : Command) (robot : Robot) : Mission :=
  ⟨.ofRoot root, robot⟩

/-- The mission after one incident. -/
def step (mission : Mission) : Incident → Mission
  | .tick =>
    let ticked := mission.engine.tick mission.robot
    ⟨ticked.engine, ticked.robot⟩
  | .abort =>
    let (engine, robot) := mission.engine.abort mission.robot
    ⟨engine, robot⟩
  | .drop =>
    let (engine, robot) := mission.engine.drop mission.robot
    ⟨engine, robot⟩
  | .work place =>
    let (root, robot) := mission.engine.root.visit iterateWorker place mission.robot
    ⟨{ mission.engine with root }, robot⟩
  | .change conditions => { mission with robot := mission.robot.under conditions }

/-- The mission after one incident after another. -/
def after (mission : Mission) (incidents : List Incident) : Mission :=
  incidents.foldl step mission

theorem after_append (mission : Mission) (first second : List Incident) :
    mission.after (first ++ second) = (mission.after first).after second :=
  List.foldl_append ..

/-- The routine and the robot, without the engine around them. -/
def scene (mission : Mission) : Scene :=
  ⟨mission.engine.root, mission.robot⟩

/-- What holds of a mission at any time: its tree is in order, whatever is on
has an owner, and an aborted engine has a root that is not running. -/
structure IsSound (mission : Mission) : Prop where
  orderly : Everywhere Orderly mission.engine.root
  owned : mission.scene.IsOwned
  aborted : mission.engine.aborted = true → mission.engine.root.phase ≠ .running

theorem isSound_start {root : Command} (hroot : root.IsFresh) {robot : Robot}
    (hrobot : robot.IsSafe) : (start root robot).IsSound where
  orderly := hroot.orderly
  owned := Scene.isOwned_of_isSafe hrobot
  aborted h := nomatch h

/-- The part of it that does not speak of the robot. -/
structure IsSettled (mission : Mission) : Prop where
  orderly : Everywhere Orderly mission.engine.root
  aborted : mission.engine.aborted = true → mission.engine.root.phase ≠ .running

theorem IsSound.isSettled {mission : Mission} (h : mission.IsSound) : mission.IsSettled :=
  ⟨h.orderly, h.aborted⟩

theorem isSettled_start {root : Command} (hroot : root.IsFresh) (robot : Robot) :
    (start root robot).IsSettled where
  orderly := hroot.orderly
  aborted h := nomatch h

/-- What an incident does to the routine. -/
def events (mission : Mission) : Incident → List Event
  | .tick =>
    if mission.engine.status = .running then
      match (mission.engine.root.poll mission.robot).fault with
      | none => [.poll]
      | some _ => [.poll, .abort]
    else []
  | .abort => if mission.engine.aborted then [] else [.abort]
  | .drop => if mission.engine.status = .running then [.abort] else []
  | .work place => [.work place]
  | .change conditions => [.change conditions]

/-- Whatever happens to an engine, its routine is polled, aborted or worked on. -/
theorem scene_step {mission : Mission} (h : mission.IsSettled) (incident : Incident) :
    (mission.step incident).scene = mission.scene.after (mission.events incident) := by
  cases incident with
  | tick =>
      by_cases hstatus : mission.engine.status = .running
      · cases hfault : (mission.engine.root.poll mission.robot).fault with
        | none =>
            obtain ⟨hengine, hrobot, -⟩ := Engine.tick_of_fault_none hstatus hfault
            rw [events, if_pos hstatus, hfault, scene, step, hengine, hrobot]
            rfl
        | some error =>
            obtain ⟨hengine, hrobot, -⟩ := Engine.tick_of_fault hstatus hfault
            rw [events, if_pos hstatus, hfault, scene, step, hengine, hrobot]
            rfl
      · rw [events, if_neg hstatus, step, Engine.tick_of_status_ne_running hstatus]
        rfl
  | abort =>
      rw [events, step]
      cases haborted : mission.engine.aborted with
      | true =>
          rw [Engine.abort_of_aborted haborted]
          rfl
      | false =>
          rw [Engine.abort_of_not_aborted haborted]
          rfl
  | drop =>
      by_cases hstatus : mission.engine.status = .running
      · have haborted := Engine.aborted_of_status_running hstatus
        rw [events, if_pos hstatus, step, Engine.drop_of_status_running h.orderly hstatus,
          Engine.abort_of_not_aborted haborted]
        rfl
      · have hquiet := Engine.isQuiet_root h.orderly h.aborted hstatus
        rw [events, if_neg hstatus, step, Engine.drop_of_isQuiet hstatus hquiet]
        rfl
  | work place => rfl
  | change conditions => rfl

theorem phase_root_abort {mission : Mission} (h : mission.IsSettled) (robot : Robot) :
    (mission.engine.abort robot).1.root.phase ≠ .running := by
  cases haborted : mission.engine.aborted with
  | true =>
      rw [Engine.abort_of_aborted haborted]
      exact h.aborted haborted
  | false =>
      rw [Engine.abort_of_not_aborted haborted]
      exact phase_abort_ne_running _ _

/-- An engine that an incident leaves aborted has a root that is not running. -/
theorem aborted_step {mission : Mission} (h : mission.IsSettled) (incident : Incident) :
    (mission.step incident).engine.aborted = true →
      (mission.step incident).engine.root.phase ≠ .running := by
  cases incident with
  | tick =>
      by_cases hstatus : mission.engine.status = .running
      · cases hfault : (mission.engine.root.poll mission.robot).fault with
        | none =>
            obtain ⟨hengine, -⟩ := Engine.tick_of_fault_none hstatus hfault
            intro haborted
            rw [step, hengine] at haborted
            exact absurd haborted (by rw [Engine.aborted_of_status_running hstatus]; decide)
        | some error =>
            obtain ⟨hengine, -⟩ := Engine.tick_of_fault hstatus hfault
            rw [step, hengine]
            exact fun _ => phase_abort_ne_running _ _
      · rw [step, Engine.tick_of_status_ne_running hstatus]
        exact h.aborted
  | abort => exact fun _ => phase_root_abort h mission.robot
  | drop =>
      by_cases hstatus : mission.engine.status = .running
      · rw [step, Engine.drop_of_status_running h.orderly hstatus]
        exact fun _ => phase_root_abort h mission.robot
      · have hquiet := Engine.isQuiet_root h.orderly h.aborted hstatus
        rw [step, Engine.drop_of_isQuiet hstatus hquiet]
        exact h.aborted
  | work place =>
      intro haborted
      rw [step, phase_visit_iterateWorker]
      exact h.aborted haborted
  | change conditions => exact h.aborted

theorem isSettled_step {mission : Mission} (h : mission.IsSettled) (incident : Incident) :
    (mission.step incident).IsSettled := by
  refine ⟨?_, aborted_step h incident⟩
  have ho : Everywhere Orderly (mission.step incident).scene.root := by
    rw [scene_step h incident]
    exact Scene.orderly_after h.orderly _
  exact ho

theorem isSettled_after {mission : Mission} (h : mission.IsSettled) (incidents : List Incident) :
    (mission.after incidents).IsSettled := by
  induction incidents generalizing mission with
  | nil => exact h
  | cons incident rest ih => exact ih (isSettled_step h incident)

theorem isSound_step {mission : Mission} (h : mission.IsSound) (incident : Incident) :
    (mission.step incident).IsSound := by
  have hsettled := isSettled_step h.isSettled incident
  refine ⟨hsettled.orderly, ?_, hsettled.aborted⟩
  rw [scene_step h.isSettled incident]
  exact Scene.isOwned_after h.orderly h.owned _

theorem isSound_after {mission : Mission} (h : mission.IsSound) (incidents : List Incident) :
    (mission.after incidents).IsSound := by
  induction incidents generalizing mission with
  | nil => exact h
  | cons incident rest ih => exact ih (isSound_step h incident)

/-! ## After the engine has stopped -/

theorem isSafe_of_isQuiet {scene : Scene} (h : scene.IsOwned) (hquiet : scene.root.IsQuiet) :
    scene.robot.IsSafe := by
  refine Robot.isSafe_iff.mpr fun output hactive => ?_
  obtain ⟨place, name, work, hat, -⟩ := h output hactive
  exact (hquiet place _ hat).phase rfl

/-- Whatever happens to an engine that has stopped, it stays so, and neither its
routine nor an output changes. -/
theorem step_of_isQuiet {mission : Mission} (hstatus : mission.engine.status ≠ .running)
    (hquiet : mission.engine.root.IsQuiet) (incident : Incident) :
    (mission.step incident).engine.status ≠ .running ∧
      (mission.step incident).engine.root = mission.engine.root ∧
      (mission.step incident).robot.outputs = mission.robot.outputs := by
  cases incident with
  | tick =>
      rw [step, Engine.tick_of_status_ne_running hstatus]
      exact ⟨hstatus, rfl, rfl⟩
  | abort =>
      cases haborted : mission.engine.aborted with
      | true =>
          rw [step, Engine.abort_of_aborted haborted]
          exact ⟨hstatus, rfl, rfl⟩
      | false =>
          rw [step, Engine.abort_of_not_aborted haborted,
            abort_of_phase_ne_running hquiet.self.phase]
          exact ⟨Engine.status_ne_running_iff.mpr (Or.inl rfl), rfl, rfl⟩
  | drop =>
      rw [step, Engine.drop_of_isQuiet hstatus hquiet]
      exact ⟨hstatus, rfl, rfl⟩
  | work place =>
      rw [step, visit_iterateWorker_of_isQuiet hquiet]
      exact ⟨hstatus, rfl, rfl⟩
  | change conditions => exact ⟨hstatus, rfl, rfl⟩

theorem after_of_isQuiet {mission : Mission} (hstatus : mission.engine.status ≠ .running)
    (hquiet : mission.engine.root.IsQuiet) (incidents : List Incident) :
    (mission.after incidents).engine.status ≠ .running ∧
      (mission.after incidents).engine.root = mission.engine.root ∧
      (mission.after incidents).robot.outputs = mission.robot.outputs := by
  induction incidents generalizing mission with
  | nil => exact ⟨hstatus, rfl, rfl⟩
  | cons incident rest ih =>
      obtain ⟨hstatus', hroot, houtputs⟩ := step_of_isQuiet hstatus hquiet incident
      obtain ⟨hlast, hroot', houtputs'⟩ := ih hstatus' (hroot ▸ hquiet)
      exact ⟨hlast, hroot'.trans hroot, houtputs'.trans houtputs⟩

theorem status_step_drop {mission : Mission} (h : mission.IsSound) :
    (mission.step .drop).engine.status ≠ .running := by
  by_cases hstatus : mission.engine.status = .running
  · rw [step, Engine.drop_of_status_running h.orderly hstatus]
    exact Engine.status_ne_running_iff.mpr (Or.inl (Engine.aborted_abort _ _))
  · have hquiet := Engine.isQuiet_root h.orderly h.aborted hstatus
    rw [step, Engine.drop_of_isQuiet hstatus hquiet]
    exact hstatus

theorem status_step_tick {mission : Mission} {error : RoutineError}
    (h : (mission.engine.tick mission.robot).result = .error error) :
    (mission.step .tick).engine.status ≠ .running := by
  by_cases hstatus : mission.engine.status = .running
  · cases hfault : (mission.engine.root.poll mission.robot).fault with
    | none =>
        obtain ⟨-, -, hresult⟩ := Engine.tick_of_fault_none hstatus hfault
        exact nomatch h.symm.trans hresult
    | some error' =>
        obtain ⟨hengine, -⟩ := Engine.tick_of_fault hstatus hfault
        rw [step, hengine]
        exact Engine.status_ne_running_iff.mpr (Or.inl rfl)
  · rw [Engine.tick_of_status_ne_running hstatus] at h
    exact nomatch h

/-- Whether the engine has stopped by the end of some incidents: it says so, it
was dropped, or a tick answered with an error. -/
def HasStopped (mission : Mission) (incidents : List Incident) : Prop :=
  (mission.after incidents).engine.status ≠ .running ∨ .drop ∈ incidents ∨
    ∃ before later error, incidents = before ++ .tick :: later ∧
      ((mission.after before).engine.tick (mission.after before).robot).result = .error error

/-- An engine that stopped once does not run again. -/
theorem HasStopped.status {mission : Mission} {incidents : List Incident}
    (h : mission.HasStopped incidents) (hsound : mission.IsSound) :
    (mission.after incidents).engine.status ≠ .running := by
  have hlater : ∀ before incident later,
      ((mission.after before).step incident).engine.status ≠ .running →
      (mission.after (before ++ incident :: later)).engine.status ≠ .running := by
    intro before incident later hstatus
    have hstep := isSound_step (isSound_after hsound before) incident
    rw [after_append]
    exact (after_of_isQuiet hstatus
      (Engine.isQuiet_root hstep.orderly hstep.aborted hstatus) later).1
  rcases h with h | hdrop | ⟨before, later, error, rfl, herror⟩
  · exact h
  · obtain ⟨before, later, rfl⟩ := List.append_of_mem hdrop
    exact hlater before .drop later (status_step_drop (isSound_after hsound before))
  · exact hlater before .tick later (status_step_tick herror)

/-- A stopped engine is safe. However a routine that was put together is
ticked, aborted, dropped and worked on, and whatever sensors and clocks read,
as soon as the engine has stopped nothing in the routine runs, both controllers
are off, the drive was never used or last told to stop, and every worker was
told to stop; and nothing that happens afterwards changes the routine or any
output. -/
theorem safe_stop {root : Command} (hroot : Assembled root) {robot : Robot}
    (hrobot : robot.IsSafe) (incidents : List Incident)
    (hstop : (start root robot).HasStopped incidents) :
    let mission := (start root robot).after incidents
    (∀ place part, mission.engine.root.at? place = some part → part.phase ≠ .running) ∧
    (mission.robot.distance.controller.enabled = false ∧
      mission.robot.heading.controller.enabled = false) ∧
    mission.robot.drive.IsStopped ∧
    (∀ place part task, mission.engine.root.at? place = some part → part.task? = some task →
      task.cancelled = true) ∧
    ∀ later, (mission.after later).engine.status ≠ .running ∧
      (mission.after later).engine.root = mission.engine.root ∧
      (mission.after later).robot.outputs = mission.robot.outputs := by
  intro mission
  have hstart := isSound_start hroot.isFresh hrobot
  have hsound : mission.IsSound := isSound_after hstart incidents
  have hstatus : mission.engine.status ≠ .running := hstop.status hstart
  have hquiet := Engine.isQuiet_root hsound.orderly hsound.aborted hstatus
  have hsafe := isSafe_of_isQuiet hsound.owned hquiet
  refine ⟨fun place part hpart => (hquiet place part hpart).phase,
    ⟨hsafe.distance, hsafe.heading⟩, hsafe.drive, fun place part task hpart htask => ?_,
    after_of_isQuiet hstatus hquiet⟩
  exact (hquiet place part hpart).cancelled task htask

/-- A sensor fails in the third step while a worker of the first one drives. -/
theorem safe_stop_unplugged :
    let root : Command := .ofSteps "routine" ([.sequential (.action "report" (.print ["go"])),
      .threaded (.timed "tank" ⟨10⟩ (.tank 1 1)) ⟨20⟩, .sequential (.waitUntil "window" ⟨5⟩),
      .sequential (.convergence "straight" .straight 10 1 3)].foldl Addition.addTo [])
    let robot := Robot.ofParameters {}
    let unplugged : Conditions :=
      ⟨{ robot.distance.sensor with outOfOrder := some "unplugged" }, robot.heading.sensor, ⟨6⟩,
        none⟩
    let before : List Incident := [.tick, .work [.member 0 (.beside 0)], .change unplugged]
    (Assembled root ∧ robot.IsSafe ∧ (start root robot).HasStopped (before ++ [.tick])) ∧
      ¬ ((start root robot).after before).robot.drive.IsStopped ∧
      ((start root robot).after (before ++ [.tick])).robot.drive.IsStopped := by
  intro root robot unplugged before
  have hroot : Assembled root := by
    refine .group _ _ ?_
    simp only [List.forall_mem_cons, List.not_mem_nil, false_imp_iff, implies_true, and_true]
    exact ⟨.action .., .timed .., .waitUntil .., .convergence ..⟩
  have hrobot : robot.IsSafe := ⟨rfl, rfl, Or.inl rfl⟩
  have hdriving : ¬ ((start root robot).after before).robot.drive.IsStopped := by decide +kernel
  have hstatus : ((start root robot).after before).engine.status = .running := by decide +kernel
  have hfault : (((start root robot).after before).engine.root.poll
      ((start root robot).after before).robot).fault =
        some (.sensor "straight" ⟨"encoder", "unplugged"⟩) := by decide +kernel
  have hstop : (start root robot).HasStopped (before ++ [.tick]) :=
    Or.inr (Or.inr ⟨before, [], _, rfl, (Engine.tick_of_fault hstatus hfault).2.2⟩)
  have hsafe := safe_stop hroot hrobot _ hstop
  exact ⟨⟨hroot, hrobot, hstop⟩, hdriving, hsafe.2.2.1⟩

end Mission

end RobotRoutine
