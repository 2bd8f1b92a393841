import RobotRoutine.Proofs.Command.Actions
import RobotRoutine.Proofs.Engine.SafeStop

/-!
# What a routine has done under an engine

What happens to an engine comes down to events of its routine, and so a run of an
engine has a chronicle. The `deeds` in it are what the routine has done, and they
lead from the robot that the engine was started with to the one that it has now.

Of a flat routine their effects are the first of those it was put together from, in
the same order, however it is ticked, aborted or dropped. That they are all of them
when the engine says that it completed its routine needs one thing more: only a
tick without an error completes a routine that is not aborted, and such a tick
leaves nothing to be done.
-/

namespace RobotRoutine

namespace Mission

open Command

/-- What the incidents of a run do to the routine, one after the other. -/
def history (mission : Mission) : List Incident → List Event
  | [] => []
  | incident :: rest => mission.events incident ++ (mission.step incident).history rest

/-- The chronicle of what an engine does to its routine. -/
def chronicle (mission : Mission) (incidents : List Incident) : Chronicle :=
  (Chronicle.start mission.engine.root mission.robot).after
    ((mission.history incidents).map .event)

/-- What the actions of the routine have done so far, in the order in which they did it. -/
def deeds (mission : Mission) (incidents : List Incident) : List Deed :=
  (mission.chronicle incidents).trace.deeds

theorem scene_after {mission : Mission} (h : mission.IsSettled) (incidents : List Incident) :
    (mission.after incidents).scene = mission.scene.after (mission.history incidents) := by
  induction incidents generalizing mission with
  | nil => rfl
  | cons incident rest ih =>
      rw [history, Scene.after_append, ← scene_step h incident]
      exact ih (isSettled_step h incident)

/-- The chronicle is one of the run that there was. -/
theorem scene_chronicle {mission : Mission} (h : mission.IsSettled) (incidents : List Incident) :
    (mission.chronicle incidents).scene = (mission.after incidents).scene := by
  rw [chronicle, Chronicle.scene_after, List.foldl_map, scene_after h]
  rfl

/-! ## Completed without an error -/

/-- Whether nothing is left to be done if the engine says that its routine is completed. -/
def KeepsWord (mission : Mission) : Prop :=
  mission.engine.status = .completed → mission.engine.root.ahead = []

theorem status_eq_completed_iff {engine : Engine} :
    engine.status = .completed ↔ engine.aborted = false ∧ engine.root.phase = .completed := by
  rw [Engine.status]
  split
  · next haborted => simp [haborted]
  · next haborted =>
      split
      · next hcompleted => simpa [haborted, isCompleted] using hcompleted
      · next hcompleted => simpa [haborted, isCompleted] using hcompleted

theorem keepsWord_of_aborted {mission : Mission} (h : mission.engine.aborted = true) :
    mission.KeepsWord := fun hstatus =>
  nomatch h.symm.trans (status_eq_completed_iff.mp hstatus).1

/-- A tick without an error that completes a flat routine leaves nothing to be done. -/
theorem keepsWord_tick {mission : Mission} (hflat : mission.engine.root.IsFlat)
    (h : mission.KeepsWord) : (mission.step .tick).KeepsWord := by
  by_cases hstatus : mission.engine.status = .running
  · cases hfault : (mission.engine.root.poll mission.robot).fault with
    | none =>
        obtain ⟨hengine, -⟩ := Engine.tick_of_fault_none hstatus hfault
        have hphase : mission.engine.root.phase ≠ .completed := fun hcompleted =>
          Engine.status_ne_running_iff.mpr (Or.inr hcompleted) hstatus
        obtain ⟨-, -, hahead⟩ := poll_flat hflat mission.robot
        rw [fault_pollRecorded, item_pollRecorded] at hahead
        rw [KeepsWord, step, hengine]
        exact fun hcompleted => hahead hphase hfault (status_eq_completed_iff.mp hcompleted).2
    | some error =>
        obtain ⟨hengine, -⟩ := Engine.tick_of_fault hstatus hfault
        refine keepsWord_of_aborted ?_
        rw [step, hengine]
  · rw [step, Engine.tick_of_status_ne_running hstatus]
    exact h

theorem keepsWord_step {mission : Mission} (hsettled : mission.IsSettled)
    (hflat : mission.engine.root.IsFlat) (h : mission.KeepsWord) (incident : Incident) :
    (mission.step incident).KeepsWord := by
  cases incident with
  | tick => exact keepsWord_tick hflat h
  | abort => exact keepsWord_of_aborted (Engine.aborted_abort _ _)
  | drop =>
      by_cases hstatus : mission.engine.status = .running
      · refine keepsWord_of_aborted ?_
        rw [step, Engine.drop_of_status_running hsettled.orderly hstatus]
        exact Engine.aborted_abort _ _
      · have hquiet := Engine.isQuiet_root hsettled.orderly hsettled.aborted hstatus
        rw [step, Engine.drop_of_isQuiet hstatus hquiet]
        exact h
  | work place =>
      have hvisit : mission.engine.root.visit iterateWorker place mission.robot =
          (mission.engine.root, mission.robot) := by
        rw [← visitRecorded_fst iterateWorkerRecorded_fst,
          visit_flat (fun _ => iterateWorkerRecorded_of_task?_eq_none) hflat]
        rfl
      rw [step, hvisit]
      exact h
  | change conditions => exact h

/-! ## Runs of fresh routines, and of flat ones -/

section Runs

variable {root : Command} (hfresh : root.IsFresh) (hflat : root.IsFlat) (robot : Robot)

include hfresh

/-- What a routine does under an engine leads to the robot that the engine is left with. -/
theorem lead_deeds (incidents : List Incident) :
    Deed.Lead robot ((start root robot).deeds incidents)
      ((start root robot).after incidents).robot := by
  have hscene := scene_chronicle (isSettled_start hfresh robot) incidents
  have hrobot := congrArg Scene.robot hscene
  rw [← show _ = ((start root robot).after incidents).robot from hrobot]
  exact Chronicle.lead_after root robot _

include hflat

theorem performed_flat (incidents : List Incident) :
    ((start root robot).after incidents).engine.root.IsFlat ∧
      ((start root robot).deeds incidents).map Deed.effect ++
        ((start root robot).after incidents).engine.root.ahead = root.ahead := by
  have hscene := scene_chronicle (isSettled_start hfresh robot) incidents
  have hafter := Chronicle.after_flat hflat robot
    (((start root robot).history incidents).map .event)
  -- The chronicle has a scene of its own, which is that of the mission by `scene_chronicle` only.
  have hroot := congrArg Scene.root hscene
  rw [← show _ = ((start root robot).after incidents).engine.root from hroot]
  exact hafter

theorem keepsWord_after (incidents : List Incident) :
    ((start root robot).after incidents).KeepsWord := by
  induction incidents using List.reverseRecOn with
  | nil => exact fun hstatus =>
      nomatch hfresh.phase.symm.trans (status_eq_completed_iff.mp hstatus).2
  | append_singleton before last ih =>
      rw [after_append]
      exact keepsWord_step (isSettled_after (isSettled_start hfresh robot) before)
        (performed_flat hfresh hflat robot before).1 ih last

/-- Under an engine a flat routine performs its actions in their order, each at
most once, and all of them if it is completed; and that is what the robot shows. -/
theorem performs_flat (incidents : List Incident) :
    let mission := (start root robot).after incidents
    let deeds := (start root robot).deeds incidents
    let performed := deeds.map Deed.effect
    performed <+: root.ahead ∧
      (mission.engine.status = .completed → performed = root.ahead) ∧
      Deed.Lead robot deeds mission.robot ∧ Effect.Shown performed robot mission.robot := by
  intro mission deeds performed
  obtain ⟨-, hwhole⟩ := performed_flat hfresh hflat robot incidents
  have hlead := lead_deeds hfresh robot incidents
  refine ⟨⟨_, hwhole⟩, fun hcompleted => ?_, hlead, hlead.shown⟩
  rw [← hwhole, keepsWord_after hfresh hflat robot incidents hcompleted, List.append_nil]

end Runs

end Mission

end RobotRoutine
