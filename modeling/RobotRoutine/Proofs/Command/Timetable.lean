import RobotRoutine.Proofs.Command.Conditions
import RobotRoutine.Proofs.Command.Equivalence
import RobotRoutine.Proofs.Command.Hooks
import RobotRoutine.Proofs.Command.Steps
import RobotRoutine.Proofs.Engine.HostRun
import Mathlib.GroupTheory.GroupAction.Ring

/-!
# When the steps of a timed routine start and end

In a group whose steps hold outputs for a time, everything is decided by what
the clock reads at each poll. The first step opens at the first poll. A step
closes at the first poll since it opened at which the clock reads at least as much
more than then as its slowest member takes, and the next one opens at that same
poll. A clock that goes back reads no time at all.

`Hold.at`, `TimedStep.at` and `planAt` say what a member, a step and a group are
after a number of polls, given when they open; `runSteps_planAt` is the step
from one poll to the next, in which any number of steps may close. The numbers are
taken from ℕ∞, as a step whose time never comes does not close, and nothing
after it opens.
-/

namespace RobotRoutine

/-- An output held for a time. -/
structure Hold where
  name : String
  duration : Duration
  output : TimedOutput

/-- The commands of a step that all hold outputs. -/
structure TimedStep where
  primary : Hold
  companions : List Hold

/-- What the clock reads at each poll. -/
abbrev Readings := ℕ → Duration

namespace Hold

/-- The command that holds the output. -/
def command (hold : Hold) : Command :=
  .timed hold.name hold.duration hold.output

end Hold

namespace TimedStep

/-- The holds of a timed step. -/
def holds (stage : TimedStep) : List Hold :=
  stage.primary :: stage.companions

/-- The step that its holds make. -/
def step (stage : TimedStep) : Step Command :=
  ⟨stage.primary.command, stage.companions.map Hold.command, []⟩

/-- How long the slowest member takes, in nanoseconds. -/
def nanos (stage : TimedStep) : ℕ :=
  stage.companions.foldr (fun hold longest => max hold.duration.nanos longest)
    stage.primary.duration.nanos

theorem nanos_le (stage : TimedStep) {hold : Hold} (h : hold ∈ stage.holds) :
    hold.duration.nanos ≤ stage.nanos := by
  obtain ⟨primary, companions⟩ := stage
  induction companions with
  | nil => exact (List.mem_singleton.mp h) ▸ le_rfl
  | cons first rest ih =>
      rcases List.mem_cons.mp h with heq | h
      · exact (ih (heq ▸ List.mem_cons_self)).trans (le_max_right ..)
      · rcases List.mem_cons.mp h with heq | h
        · exact heq ▸ le_max_left ..
        · exact (ih (List.mem_cons_of_mem _ h)).trans (le_max_right ..)

theorem exists_nanos_eq (stage : TimedStep) :
    ∃ hold ∈ stage.holds, hold.duration.nanos = stage.nanos := by
  obtain ⟨primary, companions⟩ := stage
  induction companions with
  | nil => exact ⟨primary, List.mem_cons_self, rfl⟩
  | cons first rest ih =>
      rcases le_total first.duration.nanos (TimedStep.nanos ⟨primary, rest⟩) with hle | hle
      · obtain ⟨hold, hmem, heq⟩ := ih
        refine ⟨hold, ?_, heq.trans (max_eq_right hle).symm⟩
        rcases List.mem_cons.mp hmem with rfl | hmem
        · exact List.mem_cons_self
        · exact List.mem_cons_of_mem _ (List.mem_cons_of_mem _ hmem)
      · exact ⟨first, List.mem_cons_of_mem _ List.mem_cons_self, (max_eq_left hle).symm⟩

end TimedStep

/-! ## The poll at which a time is up -/

section Closing

variable (reading : Readings)

/-- The first poll from the opening one on at which the clock reads enough time
since then. -/
noncomputable def closing (nanos : ℕ) (opening : ℕ∞) : ℕ∞ :=
  firstOf fun n => opening ≤ n ∧ nanos ≤ ((reading n).since (reading opening.toNat)).nanos

/-- The poll at which the last of some steps closes, when the first one opens at
a poll; if there are none, that poll itself. -/
noncomputable def lastClosing (start : ℕ∞) (stages : List TimedStep) : ℕ∞ :=
  stages.foldl (fun start stage => closing reading stage.nanos start) start

/-- The poll at which the step with an index opens: the first one, or the one at
which the step before it closes. -/
noncomputable def opening (stages : List TimedStep) (index : ℕ) : ℕ∞ :=
  lastClosing reading 1 (stages.take index)

variable {reading} {nanos : ℕ} {start : ℕ∞} {n : ℕ}

theorem le_closing (reading : Readings) (nanos : ℕ) (start : ℕ∞) :
    start ≤ closing reading nanos start :=
  le_firstOf fun _ h => h.1

theorem le_lastClosing (reading : Readings) (start : ℕ∞) (stages : List TimedStep) :
    start ≤ lastClosing reading start stages := by
  induction stages generalizing start with
  | nil => exact le_rfl
  | cons stage rest ih => exact (le_closing reading stage.nanos start).trans (ih _)

theorem closing_mono {nanos' : ℕ} (h : nanos ≤ nanos') (start : ℕ∞) :
    closing reading nanos start ≤ closing reading nanos' start :=
  le_firstOf fun _ hm => firstOf_le ⟨hm.1, h.trans hm.2⟩

/-- Whether a time that was not up before is up at the next poll. -/
theorem closing_le_succ_iff (hlt : (n : ℕ∞) < closing reading nanos start)
    (hstart : start ≤ (n + 1 : ℕ)) :
    closing reading nanos start ≤ (n + 1 : ℕ) ↔
      nanos ≤ ((reading (n + 1)).since (reading start.toNat)).nanos := by
  constructor
  · intro h
    obtain ⟨m, hm, hopen, henough⟩ := firstOf_le_iff.mp h
    rcases Nat.le_succ_iff.mp hm with hle | rfl
    · exact absurd (firstOf_le_iff.mpr ⟨m, hle, hopen, henough⟩) (not_le.mpr hlt)
    · exact henough
  · intro h
    exact firstOf_le ⟨hstart, h⟩

end Closing

/-! ## Members, steps and groups at a poll -/

/-- The phase of what opens and closes at some polls, after a number of them. -/
noncomputable def phaseAt (start stop : ℕ∞) (n : ℕ) : Phase :=
  if (n : ℕ∞) < start then .notStarted
  else if (n : ℕ∞) < stop then .running
  else .completed

/-- A member of a step that opens at some poll, after a number of them. -/
noncomputable def Hold.at (reading : Readings) (start : ℕ∞) (n : ℕ) (hold : Hold) : Command :=
  .leaf hold.name (phaseAt start (closing reading hold.duration.nanos start) n)
    (.timed hold.duration hold.output
      (if (n : ℕ∞) < start then none else some (reading start.toNat)))

/-- A step that opens at some poll, after a number of them. -/
noncomputable def TimedStep.at (reading : Readings) (start : ℕ∞) (n : ℕ) (stage : TimedStep) :
    Step Command :=
  ⟨stage.primary.at reading start n, stage.companions.map (Hold.at reading start n), []⟩

/-- The steps of a group, the first of which opens at some poll, after a number of them. -/
noncomputable def planAt (reading : Readings) (n : ℕ) : ℕ∞ → List TimedStep →
    List (Step Command) × List (Step Command)
  | _, [] => ([], [])
  | start, stage :: rest =>
    let stop := closing reading stage.nanos start
    if stop ≤ n then
      let plan := planAt reading n stop rest
      (stage.at reading start n :: plan.1, plan.2)
    else
      ([], stage.at reading start n :: rest.map TimedStep.step)

section Members

variable {reading : Readings} {start : ℕ∞} {n : ℕ}

theorem phaseAt_eq_completed_iff {stop : ℕ∞} (h : start ≤ stop) :
    phaseAt start stop n = .completed ↔ stop ≤ n := by
  rw [phaseAt]
  split
  · next hstart => simp [hstart.trans_le h]
  · split
    · next hstop => simp [hstop]
    · next hstop => simpa using hstop

theorem Hold.at_of_lt (h : (n : ℕ∞) < start) (hold : Hold) :
    hold.at reading start n = hold.command := by
  rw [Hold.at, phaseAt, if_pos h, if_pos h]
  rfl

theorem TimedStep.at_of_lt (h : (n : ℕ∞) < start) (stage : TimedStep) :
    stage.at reading start n = stage.step := by
  rw [TimedStep.at, Hold.at_of_lt h, List.map_congr_left fun hold _ => Hold.at_of_lt h hold]
  rfl

theorem TimedStep.blocking_at (reading : Readings) (start : ℕ∞) (n : ℕ) (stage : TimedStep) :
    (stage.at reading start n).blocking = stage.holds.map (Hold.at reading start n) :=
  rfl

/-- A step is complete when the time of its slowest member is up. -/
theorem TimedStep.isComplete_at_iff (stage : TimedStep) :
    (stage.at reading start n).isComplete = true ↔ closing reading stage.nanos start ≤ n := by
  have hcompleted : ∀ hold : Hold, (hold.at reading start n).isCompleted = true ↔
      closing reading hold.duration.nanos start ≤ n := by
    intro hold
    rw [Command.isCompleted, decide_eq_true_eq]
    exact phaseAt_eq_completed_iff (le_closing ..)
  rw [Step.isComplete, TimedStep.blocking_at, List.all_map, List.all_eq_true]
  constructor
  · intro h
    obtain ⟨hold, hmem, heq⟩ := stage.exists_nanos_eq
    exact heq ▸ (hcompleted hold).mp (h hold hmem)
  · intro h hold hmem
    exact (hcompleted hold).mpr ((closing_mono (stage.nanos_le hmem) start).trans h)

/-! ## From one poll to the next -/

theorem pollLeaf_timed (name : String) (duration : Duration) (output : TimedOutput)
    (since : Duration) (robot : Robot) :
    (Command.pollLeaf name (.timed duration output (some since)) robot).fault = none ∧
      (Command.pollLeaf name (.timed duration output (some since)) robot).item =
        .leaf name
          (if duration.nanos ≤ (robot.clock.since since).nanos then .completed else .running)
          (.timed duration output (some since)) := by
  have hcheck : ∀ robot', robot'.clock = robot.clock →
      (Leaf.timed duration output (some since)).check robot' =
        (.timed duration output (some since),
          !decide (duration.nanos ≤ (robot.clock.since since).nanos)) := by
    intro robot' hclock
    rw [Leaf.check, hclock, ← decide_not]
    simp only [Option.getD_some, not_le]
    rfl
  obtain ⟨robot', hclock, hrun⟩ : ∃ robot' : Robot, robot'.clock = robot.clock ∧
      (Leaf.timed duration output (some since)).run robot =
        .ok (.timed duration output (some since), robot') := by
    cases output with
    | idle => exact ⟨robot, rfl, rfl⟩
    | tank left right => exact ⟨robot.tank left right, rfl, rfl⟩
  rw [Command.pollLeaf, hrun]
  simp only [hcheck robot' hclock, Bool.not_not]
  by_cases h : duration.nanos ≤ (robot.clock.since since).nanos
  · simp [h, Command.Polled.finishIf, Command.abort]
  · simp [h, Command.Polled.finishIf]

theorem Hold.at_succ_of_le {hold : Hold} (h : closing reading hold.duration.nanos start ≤ n) :
    hold.at reading start (n + 1) = hold.at reading start n := by
  have hstart := (le_closing reading hold.duration.nanos start).trans h
  have hnext : (n : ℕ∞) ≤ (n + 1 : ℕ) := ENat.natCast_le_natCast.mpr (Nat.le_succ n)
  rw [Hold.at, Hold.at, phaseAt, phaseAt, if_neg (not_lt.mpr hstart), if_neg (not_lt.mpr hstart),
    if_neg (not_lt.mpr (hstart.trans hnext)), if_neg (not_lt.mpr (hstart.trans hnext)),
    if_neg (not_lt.mpr h), if_neg (not_lt.mpr (h.trans hnext))]

theorem Hold.at_succ_of_lt {hold : Hold} (hstart : start ≤ (n + 1 : ℕ))
    (h : (n : ℕ∞) < closing reading hold.duration.nanos start) :
    hold.at reading start (n + 1) = .leaf hold.name
      (if hold.duration.nanos ≤ ((reading (n + 1)).since (reading start.toNat)).nanos then
        .completed else .running)
      (.timed hold.duration hold.output (some (reading start.toNat))) := by
  rw [Hold.at, phaseAt, if_neg (not_lt.mpr hstart), if_neg (not_lt.mpr hstart)]
  by_cases hstop : closing reading hold.duration.nanos start ≤ (n + 1 : ℕ)
  · rw [if_neg (not_lt.mpr hstop), if_pos ((closing_le_succ_iff h hstart).mp hstop)]
  · rw [if_pos (not_le.mp hstop), if_neg fun hup => hstop ((closing_le_succ_iff h hstart).mpr hup)]

theorem Hold.poll_at (hold : Hold) (hstart : start ≤ (n + 1 : ℕ)) {robot : Robot}
    (hclock : robot.clock = reading (n + 1)) :
    ((hold.at reading start n).poll robot).fault = none ∧
      ((hold.at reading start n).poll robot).item = hold.at reading start (n + 1) := by
  by_cases hstop : closing reading hold.duration.nanos start ≤ n
  · have hphase : (hold.at reading start n).phase = .completed :=
      (phaseAt_eq_completed_iff (le_closing ..)).mpr hstop
    rw [Command.poll_of_phase_completed hphase, Hold.at_succ_of_le hstop]
    exact ⟨rfl, rfl⟩
  have hlt := not_le.mp hstop
  rw [Hold.at_succ_of_lt hstart hlt, ← hclock]
  by_cases hopen : (n : ℕ∞) < start
  · -- The step opens at this very poll, and the reading of this poll is the one that is kept.
    have hnow : start = (n + 1 : ℕ) := le_antisymm hstart (Order.add_one_le_of_lt hopen)
    have hkept : reading start.toNat = robot.clock := by rw [hnow, ENat.toNat_natCast, hclock]
    rw [Hold.at_of_lt hopen, hkept]
    exact pollLeaf_timed hold.name hold.duration hold.output robot.clock robot
  · rw [Hold.at, phaseAt, if_neg hopen, if_neg hopen, if_pos hlt]
    exact pollLeaf_timed hold.name hold.duration hold.output (reading start.toNat) robot

theorem pollAll_at (holds : List Hold) (hstart : start ≤ (n + 1 : ℕ)) {robot : Robot}
    (hclock : robot.clock = reading (n + 1)) :
    (Command.pollAll (holds.map (Hold.at reading start n)) robot).fault = none ∧
      (Command.pollAll (holds.map (Hold.at reading start n)) robot).item =
        holds.map (Hold.at reading start (n + 1)) := by
  induction holds generalizing robot with
  | nil => exact ⟨rfl, rfl⟩
  | cons hold rest ih =>
      obtain ⟨hfault, hitem⟩ := hold.poll_at hstart hclock
      have hclock' : ((hold.at reading start n).poll robot).robot.clock = reading (n + 1) :=
        (congrArg Conditions.clock (Command.conditions_poll _ robot)).trans hclock
      obtain ⟨hfault', hitem'⟩ := ih hclock'
      rw [List.map_cons, Command.pollAll, hfault, List.map_cons, ← hitem, ← hitem']
      exact ⟨hfault', rfl⟩

theorem TimedStep.poll_at (stage : TimedStep) (hstart : start ≤ (n + 1 : ℕ)) {robot : Robot}
    (hclock : robot.clock = reading (n + 1)) :
    (Command.pollStep (stage.at reading start n) robot).fault = none ∧
      (Command.pollStep (stage.at reading start n) robot).item =
        stage.at reading start (n + 1) := by
  obtain ⟨hfault, hitem⟩ := stage.primary.poll_at hstart hclock
  have hclock' : ((stage.primary.at reading start n).poll robot).robot.clock = reading (n + 1) :=
    (congrArg Conditions.clock (Command.conditions_poll _ robot)).trans hclock
  obtain ⟨hfault', hitem'⟩ := pollAll_at stage.companions hstart hclock'
  rw [TimedStep.at, Command.pollStep, hfault]
  simp only
  rw [hfault', TimedStep.at, ← hitem, ← hitem']
  exact ⟨rfl, rfl⟩

end Members

section Plans

variable {reading : Readings} {start : ℕ∞} {n : ℕ}

theorem planAt_of_lt (h : (n : ℕ∞) < start) (stages : List TimedStep) :
    planAt reading n start stages = ([], stages.map TimedStep.step) := by
  cases stages with
  | nil => rfl
  | cons stage rest =>
      have hstop := h.trans_le (le_closing reading stage.nanos start)
      rw [planAt, if_neg (not_le.mpr hstop), TimedStep.at_of_lt h]
      rfl

/-- One poll of the steps that remain. -/
theorem runSteps_planAt (stages : List TimedStep) (hstart : start ≤ (n + 1 : ℕ)) {robot : Robot}
    (hclock : robot.clock = reading (n + 1)) :
    (Command.runSteps (planAt reading n start stages).2 robot).fault = none ∧
      ((planAt reading n start stages).1 ++
          (Command.runSteps (planAt reading n start stages).2 robot).item.1,
        (Command.runSteps (planAt reading n start stages).2 robot).item.2) =
        planAt reading (n + 1) start stages := by
  induction stages generalizing start robot with
  | nil => exact ⟨rfl, rfl⟩
  | cons stage rest ih =>
      have hnext : (n : ℕ∞) ≤ (n + 1 : ℕ) := ENat.natCast_le_natCast.mpr (Nat.le_succ n)
      by_cases hstop : closing reading stage.nanos start ≤ n
      · -- The step has closed before, and stays as it was.
        obtain ⟨hfault, hplan⟩ := ih (hstop.trans hnext) hclock
        have hsame : stage.at reading start (n + 1) = stage.at reading start n := by
          have hhold : ∀ hold ∈ stage.holds,
              hold.at reading start (n + 1) = hold.at reading start n := fun hold hmem =>
            Hold.at_succ_of_le ((closing_mono (stage.nanos_le hmem) start).trans hstop)
          rw [TimedStep.at, TimedStep.at, hhold stage.primary List.mem_cons_self,
            List.map_congr_left fun hold hmem => hhold hold (List.mem_cons_of_mem _ hmem)]
        rw [planAt, if_pos hstop, planAt, if_pos (hstop.trans hnext), hsame, ← hplan]
        exact ⟨hfault, rfl⟩
      · have hlt := not_le.mp hstop
        obtain ⟨hfault, hitem⟩ := stage.poll_at hstart hclock
        have hclock' : (Command.pollStep (stage.at reading start n) robot).robot.clock =
            reading (n + 1) :=
          (congrArg Conditions.clock (Command.conditions_pollStep _ robot)).trans hclock
        rw [planAt, if_neg hstop, Command.runSteps, hfault, hitem]
        simp only
        by_cases hclose : closing reading stage.nanos start ≤ (n + 1 : ℕ)
        · -- The step closes at this poll, and the next one opens at once.
          obtain ⟨hfault', hplan⟩ := ih hclose hclock'
          rw [planAt_of_lt hlt] at hfault' hplan
          rw [if_pos (stage.isComplete_at_iff.mpr hclose), planAt, if_pos hclose, ← hplan]
          exact ⟨hfault', rfl⟩
        · rw [if_neg fun h => hclose (stage.isComplete_at_iff.mp h), planAt, if_neg hclose]
          simp only [Command.Polled.map, hitem]
          exact ⟨hfault, rfl⟩

theorem isSettled_planAt (stages : List TimedStep) :
    Command.IsSettled (planAt reading n start stages).1 := by
  induction stages generalizing start with
  | nil => exact Command.isSettled_nil
  | cons stage rest ih =>
      rw [planAt]
      split
      · next hstop =>
          exact (Command.IsSettled.of_isComplete rfl (stage.isComplete_at_iff.mpr hstop)).append ih
      · exact Command.isSettled_nil

/-- Steps are left until the last one has closed. -/
theorem planAt_left_eq_nil_iff (stages : List TimedStep) (hstart : start ≤ n) :
    (planAt reading n start stages).2 = [] ↔ lastClosing reading start stages ≤ n := by
  induction stages generalizing start with
  | nil => exact ⟨fun _ => hstart, fun _ => rfl⟩
  | cons stage rest ih =>
      rw [planAt]
      split
      · next hstop => exact ih hstop
      · next hstop =>
          refine ⟨nofun, fun h => absurd ?_ hstop⟩
          exact (le_lastClosing reading _ rest).trans h

/-- A group whose first step opens at the first poll, after a number of them. -/
noncomputable def groupAt (reading : Readings) (name : String) (stages : List TimedStep) (n : ℕ) :
    Command :=
  .group name (phaseAt 1 (lastClosing reading 1 stages) n) (planAt reading n 1 stages).1
    (planAt reading n 1 stages).2

/-- One poll of a group of timed steps. -/
theorem poll_groupAt (reading : Readings) (name : String) (stages : List TimedStep) (n : ℕ)
    {robot : Robot} (hclock : robot.clock = reading (n + 1)) :
    ((groupAt reading name stages n).poll robot).fault = none ∧
      ((groupAt reading name stages n).poll robot).item = groupAt reading name stages (n + 1) := by
  have hfirst : (1 : ℕ∞) ≤ (n + 1 : ℕ) := by
    exact_mod_cast Nat.le_add_left 1 n
  have hnext : (n : ℕ∞) ≤ (n + 1 : ℕ) := ENat.natCast_le_natCast.mpr (Nat.le_succ n)
  obtain ⟨hfault, hplan⟩ := runSteps_planAt stages hfirst hclock
  have hphase : ∀ n, phaseAt 1 (lastClosing reading 1 stages) n = .completed ↔
      lastClosing reading 1 stages ≤ n := fun n =>
    phaseAt_eq_completed_iff (le_lastClosing ..)
  have hsettled : Command.IsSettled (planAt reading (n + 1) 1 stages).1 :=
    isSettled_planAt stages
  by_cases hover : lastClosing reading 1 stages ≤ n
  · have hnone : (planAt reading n 1 stages).2 = [] :=
      (planAt_left_eq_nil_iff stages ((le_lastClosing ..).trans hover)).mpr hover
    have hsame : planAt reading (n + 1) 1 stages = planAt reading n 1 stages := by
      rw [← hplan, hnone, Command.runSteps, List.append_nil, ← hnone]
    have hcompleted : (groupAt reading name stages n).phase = .completed := (hphase n).mpr hover
    rw [Command.poll_of_phase_completed hcompleted, groupAt, groupAt, hsame,
      (hphase n).mpr hover, (hphase (n + 1)).mpr (hover.trans hnext)]
    exact ⟨rfl, rfl⟩
  · rw [groupAt, Command.poll_group_of_isSettled (fun h => hover ((hphase n).mp h))
      (isSettled_planAt stages), groupAt]
    obtain ⟨hdone, hleft⟩ := Prod.mk.inj hplan
    by_cases hends : lastClosing reading 1 stages ≤ (n + 1 : ℕ)
    · have hnone := (planAt_left_eq_nil_iff stages hfirst).mpr hends
      rw [hleft, hnone, (hphase (n + 1)).mpr hends, Command.Polled.finishIf,
        if_pos (by rw [Bool.or_eq_true]; exact Or.inr rfl)]
      simp only [Command.Polled.map, hdone, hleft, hnone, Command.abort, Command.abortSteps,
        Command.abortSteps_of_isAtRest hsettled.isAtRest, and_true]
      exact hfault
    · have hsome := fun h => hends ((planAt_left_eq_nil_iff stages hfirst).mp h)
      have hrunning : phaseAt 1 (lastClosing reading 1 stages) (n + 1) = .running := by
        rw [phaseAt, if_neg (not_lt.mpr hfirst), if_pos (not_le.mp hends)]
      rw [hleft, List.isEmpty_eq_false_iff.mpr hsome, hrunning, Command.Polled.finishIf,
        if_neg (by simp [Command.Polled.map, hfault])]
      exact ⟨hfault, by rw [Command.Polled.map, hdone, hleft]⟩

/-- The steps of the group in a row, each with the poll at which it opens. -/
theorem planAt_row (stages : List TimedStep) :
    (planAt reading n start stages).1 ++ (planAt reading n start stages).2 =
      stages.mapIdx fun index stage =>
        stage.at reading (lastClosing reading start (stages.take index)) n := by
  induction stages generalizing start with
  | nil => rfl
  | cons stage rest ih =>
      have hrest := @ih (closing reading stage.nanos start)
      rw [planAt, List.mapIdx_cons]
      split
      · exact congrArg (List.cons _) hrest
      · next hstop =>
          rw [planAt_of_lt (not_le.mp hstop)] at hrest
          exact congrArg (List.cons _) hrest

end Plans

/-! ## Readings at a steady pace -/

section Periodic

variable {reading : Readings} {first period : ℕ}

theorem closing_of_periodic {start nanos : ℕ} (hperiod : 0 < period) (hstart : 1 ≤ start)
    (h : ∀ n, 1 ≤ n → n ≤ start + nanos ⌈/⌉ period → (reading n).nanos = first + (n - 1) * period) :
    closing reading nanos start = (start + nanos ⌈/⌉ period : ℕ) := by
  have hsince : ∀ n, start ≤ n → n ≤ start + nanos ⌈/⌉ period →
      ((reading n).since (reading start)).nanos = period * (n - start) := by
    intro n hn hle
    obtain ⟨more, rfl⟩ := Nat.exists_eq_add_of_le hn
    have hnow := h (start + more) (hstart.trans hn) hle
    have hthen := h start hstart (Nat.le_add_right ..)
    have hperiods : start + more - 1 - (start - 1) = more := by omega
    rw [Duration.since, hnow, hthen, Nat.add_sub_cancel_left, Nat.add_sub_add_left,
      ← Nat.sub_mul, hperiods, Nat.mul_comm]
  apply le_antisymm
  · refine firstOf_le ⟨ENat.natCast_le_natCast.mpr (Nat.le_add_right ..), ?_⟩
    rw [ENat.toNat_natCast, hsince _ (Nat.le_add_right ..) le_rfl, Nat.add_sub_cancel_left]
    exact (ceilDiv_le_iff_le_mul hperiod).mp le_rfl
  · refine le_firstOf fun n hn => ENat.natCast_le_natCast.mpr ?_
    obtain ⟨hopen, henough⟩ := hn
    have hopen : start ≤ n := ENat.natCast_le_natCast.mp hopen
    by_contra hlt
    rw [ENat.toNat_natCast, hsince n hopen (by omega)] at henough
    have hceil := (ceilDiv_le_iff_le_mul hperiod).mpr henough
    omega

theorem lastClosing_of_periodic (stages : List TimedStep) {start : ℕ} (hperiod : 0 < period)
    (hstart : 1 ≤ start)
    (h : ∀ n, 1 ≤ n → n ≤ start + (stages.map fun stage => stage.nanos ⌈/⌉ period).sum →
      (reading n).nanos = first + (n - 1) * period) :
    lastClosing reading start stages =
      (start + (stages.map fun stage => stage.nanos ⌈/⌉ period).sum : ℕ) := by
  induction stages generalizing start with
  | nil => rfl
  | cons stage rest ih =>
      rw [List.map_cons, List.sum_cons, ← Nat.add_assoc] at h ⊢
      have hclosing : closing reading stage.nanos start =
          (start + stage.nanos ⌈/⌉ period : ℕ) :=
        closing_of_periodic hperiod hstart
          fun n hn hle => h n hn (hle.trans (Nat.le_add_right ..))
      have hrest := ih (hstart.trans (Nat.le_add_right ..)) h
      rw [← hclosing] at hrest
      exact hrest

end Periodic

/-! ## The run of a timed routine -/

/-- One poll after another, each under its own conditions. -/
def polls (conditions : ℕ → Conditions) (n : ℕ) : List Event :=
  (List.range n).flatMap fun i => [.change (conditions (i + 1)), .poll]

theorem polls_succ (conditions : ℕ → Conditions) (n : ℕ) :
    polls conditions (n + 1) = polls conditions n ++ [.change (conditions (n + 1)), .poll] := by
  rw [polls, List.range_succ, List.flatMap_append]
  rfl

namespace Scene

/-- What a timed routine is after a number of polls. -/
theorem root_after_polls (name : String) (stages : List TimedStep) (conditions : ℕ → Conditions)
    (robot : Robot) (n : ℕ) :
    ((Scene.mk (.ofSteps name (stages.map TimedStep.step)) robot).after (polls conditions n)).root =
      groupAt (fun n => (conditions n).clock) name stages n := by
  induction n with
  | zero =>
      have hfirst : ((0 : ℕ) : ℕ∞) < 1 := by decide
      rw [groupAt, planAt_of_lt hfirst, phaseAt, if_pos hfirst]
      rfl
  | succ n ih =>
      rw [polls_succ, after_append]
      have hclock : (((Scene.mk (.ofSteps name (stages.map TimedStep.step)) robot).after
          (polls conditions n)).robot.under (conditions (n + 1))).clock =
            (conditions (n + 1)).clock := rfl
      have hpoll := poll_groupAt (fun n => (conditions n).clock) name stages n hclock
      rw [← ih] at hpoll
      exact hpoll.2

/-- A routine of timed steps keeps to its timetable, whatever the clock reads.
After any number of polls each member of each step is what its step's opening
makes it; a step is complete from the poll at which it closes, and the routine from the
poll at which the last one does. The first step opens at the first poll and each
other one at the poll at which the one before it closes. At a steady
pace the routine comes to its end after as many periods as its steps take, each
rounded up. -/
theorem timed_steps_keep_timetable (name : String) (stages : List TimedStep)
    (conditions : ℕ → Conditions) (robot : Robot) :
    let reading : Readings := fun n => (conditions n).clock
    let scene (n : ℕ) : Scene :=
      (Scene.mk (.ofSteps name (stages.map TimedStep.step)) robot).after (polls conditions n)
    (∀ n, (∃ finished remaining,
        (scene n).root = .group name (phaseAt 1 (opening reading stages stages.length) n)
          finished remaining ∧
        finished ++ remaining = stages.mapIdx fun index stage =>
          stage.at reading (opening reading stages index) n) ∧
      ((scene n).root.poll ((scene n).robot.under (conditions (n + 1)))).result =
        .ok (phaseAt 1 (opening reading stages stages.length) (n + 1))) ∧
    opening reading stages 0 = 1 ∧
    (∀ index stage, stages[index]? = some stage →
      opening reading stages (index + 1) =
        closing reading stage.nanos (opening reading stages index) ∧
      ∀ n : ℕ, (stage.at reading (opening reading stages index) n).isComplete = true ↔
        opening reading stages (index + 1) ≤ n) ∧
    ∀ first period : ℕ, 0 < period →
      let last := 1 + (stages.map fun stage => stage.nanos ⌈/⌉ period).sum
      (∀ n, 1 ≤ n → n ≤ last → (reading n).nanos = first + (n - 1) * period) →
        opening reading stages stages.length = last := by
  intro reading scene
  have hlast : opening reading stages stages.length = lastClosing reading 1 stages := by
    rw [opening, List.take_length]
  refine ⟨fun n => ⟨?_, ?_⟩, rfl, fun index stage hstage => ?_, fun first period hperiod h => ?_⟩
  · refine ⟨_, _, ?_, planAt_row stages⟩
    rw [hlast]
    exact root_after_polls name stages conditions robot n
  · have hclock : ((scene n).robot.under (conditions (n + 1))).clock = reading (n + 1) := rfl
    obtain ⟨hfault, hitem⟩ := poll_groupAt reading name stages n hclock
    have hroot : (scene n).root = groupAt reading name stages n :=
      root_after_polls name stages conditions robot n
    rw [Command.Polled.result, hroot, hfault, hitem, hlast]
    rfl
  · have hnext : opening reading stages (index + 1) =
        closing reading stage.nanos (opening reading stages index) := by
      rw [opening, List.take_add_one, hstage, lastClosing, List.foldl_append]
      rfl
    refine ⟨hnext, fun n => ?_⟩
    rw [hnext]
    exact stage.isComplete_at_iff
  · rw [hlast]
    exact lastClosing_of_periodic stages hperiod le_rfl h

/-- A drive for three periods with two shorter waits beside it, a step that takes
no time, and a wait for a little over two periods: the last tick is the seventh. -/
theorem timed_steps_keep_timetable_three :
    let stages : List TimedStep := [
      ⟨⟨"tank", ⟨30⟩, .tank 1 1⟩, [⟨"wait", ⟨10⟩, .idle⟩, ⟨"wait", ⟨25⟩, .idle⟩]⟩,
      ⟨⟨"nothing", ⟨0⟩, .idle⟩, []⟩, ⟨⟨"wait", ⟨21⟩, .idle⟩, []⟩]
    let robot := Robot.ofParameters {}
    let conditions (n : ℕ) : Conditions :=
      { robot.conditions with clock := ⟨500 + (n - 1) * 10⟩ }
    let answer (n : ℕ) : Except RoutineError Phase :=
      let scene := (Scene.mk (.ofSteps "routine" (stages.map TimedStep.step)) robot).after
        (polls conditions n)
      (scene.root.poll (scene.robot.under (conditions (n + 1)))).result
    (0 < 10 ∧ ∀ n, 1 ≤ n → n ≤ 7 → (conditions n).clock.nanos = 500 + (n - 1) * 10) ∧
      opening (fun n => (conditions n).clock) stages 3 = 7 ∧
      answer 5 = .ok .running ∧ answer 6 = .ok .completed := by
  intro stages robot conditions answer
  have hpace : ∀ n, 1 ≤ n → n ≤ 7 → (conditions n).clock.nanos = 500 + (n - 1) * 10 :=
    fun _ _ _ => rfl
  obtain ⟨hpolls, -, -, hperiodic⟩ :=
    timed_steps_keep_timetable "routine" stages conditions robot
  have hlast : opening (fun n => (conditions n).clock) stages 3 = 7 :=
    hperiodic 500 10 (by decide) hpace
  have hanswer : ∀ n, answer n = .ok (phaseAt 1 7 (n + 1)) := fun n =>
    (hpolls n).2.trans (congrArg (fun last => Except.ok (phaseAt 1 last (n + 1))) hlast)
  refine ⟨⟨by decide, hpace⟩, hlast, ?_, ?_⟩
  · rw [hanswer, phaseAt, if_neg (by decide), if_pos (by decide)]
  · rw [hanswer, phaseAt, if_neg (by decide), if_neg (by decide)]

end Scene

end RobotRoutine
