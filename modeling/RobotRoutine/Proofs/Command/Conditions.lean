import RobotRoutine.Engine
import RobotRoutine.Proofs.Command.Run

/-!
# What a routine finds it leaves as it was

Sensors and clocks are read by the hooks of a command and never written. So a
poll, an abort and a tick leave the conditions of the robot alone, and whatever
changes them between two ticks is not the routine.
-/

namespace RobotRoutine

/-- The sensors and the clocks of the robot. -/
def Robot.conditions (robot : Robot) : Conditions where
  encoder := robot.distance.sensor
  gyro := robot.heading.sensor
  clock := robot.clock
  separateMatchClock := robot.separateMatchClock

namespace Leaf

variable {work work' : Leaf} {robot robot' : Robot}

theorem conditions_start (work : Leaf) (robot : Robot) :
    (work.start robot).2.conditions = robot.conditions := by
  cases work with
  | convergence mode target count measured => cases mode <;> rfl
  | action | timed | waitUntil => rfl

theorem conditions_run (h : work.run robot = .ok (work', robot')) :
    robot'.conditions = robot.conditions := by
  cases work with
  | action effect =>
      obtain ⟨rfl, rfl⟩ := Prod.mk.inj (Except.ok.inj h)
      cases effect with
      | print words | stopDrive => rfl
      | send mechanism position => cases mechanism <;> rfl
  | timed duration output startedAt =>
      cases output with
      | idle | tank =>
          obtain ⟨rfl, rfl⟩ := Prod.mk.inj (Except.ok.inj h)
          rfl
  | convergence mode target count measured =>
      rw [run] at h
      split at h
      · cases h
      · obtain ⟨rfl, rfl⟩ := Prod.mk.inj (Except.ok.inj h)
        cases mode <;> rfl
  | waitUntil time =>
      obtain ⟨rfl, rfl⟩ := Prod.mk.inj (Except.ok.inj h)
      rfl

theorem conditions_finish (work : Leaf) (robot : Robot) :
    (work.finish robot).conditions = robot.conditions := by
  cases work with
  | timed duration output startedAt => cases output <;> rfl
  | convergence mode target count measured => cases mode <;> rfl
  | action | waitUntil => rfl

end Leaf

namespace Command

theorem Move.conditions {command command' : Command} {robot robot' : Robot}
    (h : Move command robot command' robot') : robot'.conditions = robot.conditions := by
  induction h with
  | start => exact Leaf.conditions_start _ _
  | run hrun => exact Leaf.conditions_run hrun
  | finish => exact Leaf.conditions_finish _ _
  | child _ _ _ _ ih => exact ih
  | check | spawn | respawn | note | cancel | leave | enter | advance | close => rfl

theorem Moves.conditions {before after : Command × Robot} (h : Moves before after) :
    after.2.conditions = before.2.conditions := by
  induction h with
  | refl => rfl
  | tail _ hlast ih => exact hlast.conditions.trans ih

/-! ## The walks of a poll -/

theorem conditions_poll (command : Command) (robot : Robot) :
    (command.poll robot).robot.conditions = robot.conditions :=
  (poll_moves command robot).conditions

theorem conditions_pollAll (commands : List Command) (robot : Robot) :
    (pollAll commands robot).robot.conditions = robot.conditions := by
  induction commands generalizing robot with
  | nil => rfl
  | cons command rest ih =>
      rw [pollAll]
      cases (command.poll robot).fault with
      | some error => exact conditions_poll command robot
      | none => exact (ih _).trans (conditions_poll command robot)

theorem conditions_pollStep (step : Step Command) (robot : Robot) :
    (pollStep step robot).robot.conditions = robot.conditions := by
  obtain ⟨primary, companions, beside⟩ := step
  have hfirst := conditions_poll primary robot
  have hsecond := (conditions_pollAll companions (primary.poll robot).robot).trans hfirst
  rw [pollStep]
  cases (primary.poll robot).fault with
  | some error => exact hfirst
  | none =>
      simp only
      cases (pollAll companions (primary.poll robot).robot).fault with
      | some error => exact hsecond
      | none => exact (conditions_pollAll beside _).trans hsecond

theorem conditions_pollFinished (steps : List (Step Command)) (robot : Robot) :
    (pollFinished steps robot).robot.conditions = robot.conditions := by
  induction steps generalizing robot with
  | nil => rfl
  | cons step rest ih =>
      obtain ⟨primary, companions, beside⟩ := step
      rw [pollFinished]
      cases (pollAll beside robot).fault with
      | some error => exact conditions_pollAll beside robot
      | none => exact (ih _).trans (conditions_pollAll beside robot)

end Command

namespace Engine

theorem conditions_abort (engine : Engine) (robot : Robot) :
    (engine.abort robot).2.conditions = robot.conditions := by
  rw [abort]
  split
  · rfl
  · exact (Command.abort_moves engine.root robot).conditions

/-- A tick writes neither a sensor nor a clock. -/
theorem conditions_tick (engine : Engine) (robot : Robot) :
    (engine.tick robot).robot.conditions = robot.conditions := by
  have hpoll := (Command.poll_moves engine.root robot).conditions
  rw [tick]
  split
  · simp only
    split
    · exact (conditions_abort _ _).trans hpoll
    · exact hpoll
  · rfl

end Engine

/-! ## A round of every worker -/

namespace Command

theorem conditions_iterateAllWorkers {commands : List Command}
    (h : ∀ command ∈ commands, ∀ robot,
      (command.iterateWorkers robot).2.conditions = robot.conditions)
    (robot : Robot) : (iterateAllWorkers commands robot).2.conditions = robot.conditions := by
  induction commands generalizing robot with
  | nil => rfl
  | cons command rest ih =>
      exact (ih (fun c hc => h c (List.mem_cons_of_mem _ hc)) _).trans
        (h command List.mem_cons_self robot)

theorem conditions_iterateStepWorkers {step : Step Command}
    (h : ∀ command ∈ step.members, ∀ robot,
      (command.iterateWorkers robot).2.conditions = robot.conditions)
    (robot : Robot) : (iterateStepWorkers step robot).2.conditions = robot.conditions := by
  obtain ⟨primary, companions, beside⟩ := step
  rw [iterateStepWorkers]
  refine (conditions_iterateAllWorkers (fun c hc => ?_) _).trans
    ((conditions_iterateAllWorkers (fun c hc => ?_) _).trans (h primary List.mem_cons_self robot))
  · exact h c (List.mem_cons_of_mem _ (List.mem_append_right _ hc))
  · exact h c (List.mem_cons_of_mem _ (List.mem_append_left _ hc))

theorem conditions_iterateStepsWorkers {steps : List (Step Command)}
    (h : ∀ step ∈ steps, ∀ command ∈ step.members, ∀ robot,
      (command.iterateWorkers robot).2.conditions = robot.conditions)
    (robot : Robot) : (iterateStepsWorkers steps robot).2.conditions = robot.conditions := by
  induction steps generalizing robot with
  | nil => rfl
  | cons step rest ih =>
      exact (ih (fun s hs => h s (List.mem_cons_of_mem _ hs)) _).trans
        (conditions_iterateStepWorkers (h step List.mem_cons_self) robot)

/-- A round of every worker reads sensors and clocks, and leaves them alone. -/
theorem conditions_iterateWorkers (command : Command) (robot : Robot) :
    (command.iterateWorkers robot).2.conditions = robot.conditions := by
  induction command using childInduction generalizing robot with
  | step command ih =>
  match command with
  | .leaf .. | .threaded _ _ _ none _ => rfl
  | .threaded name phase cadence (some task) inner =>
      rw [iterateWorkers]
      split
      · rfl
      · next hcancelled =>
          have hinner := ih .inner inner rfl robot
          simp only [Worker.iterate, if_neg hcancelled]
          exact (poll_moves _ _).conditions.trans hinner
  | .group name phase finished remaining =>
      have hmember : ∀ step ∈ finished ++ remaining, ∀ member ∈ step.members, ∀ robot,
          (member.iterateWorkers robot).2.conditions = robot.conditions :=
        forall_members_of_child? ih
      rw [iterateWorkers]
      refine (conditions_iterateStepsWorkers (fun step hstep => ?_) _).trans
        (conditions_iterateStepsWorkers (fun step hstep => ?_) _)
      · exact hmember step (List.mem_append_right _ hstep)
      · exact hmember step (List.mem_append_left _ hstep)

theorem phase_iterateWorkers (command : Command) (robot : Robot) :
    (command.iterateWorkers robot).1.phase = command.phase := by
  match command with
  | .leaf .. | .threaded _ _ _ none _ | .group .. => rfl
  | .threaded name phase cadence (some task) inner =>
      rw [iterateWorkers]
      split
      · rfl
      · rfl

end Command

theorem Engine.status_iterateWorkers (engine : Engine) (robot : Robot) :
    (engine.iterateWorkers robot).1.status = engine.status := by
  have hcompleted : (engine.root.iterateWorkers robot).1.isCompleted = engine.root.isCompleted := by
    rw [Command.isCompleted, Command.phase_iterateWorkers]
    rfl
  rw [status, status, ← hcompleted]
  rfl

end RobotRoutine
