import Mathlib.Data.List.Basic
import RobotRoutine.HostLoop
import RobotRoutine.Proofs.Command.Symmetry
import RobotRoutine.Proofs.Engine.SafeStop

/-!
# The origin of the clock does not matter

A clock says how much time has passed since some moment, and nobody is to know
which. Timed commands and the host's budget go by differences of two readings, so
a run in which the clock is always ahead by the same time is the same run: every
tick is answered with the same, the robot differs by its clock only, and the host
sums up the same. The time in the match is another matter, and stays as it was.

`Symmetry.later` is what has to be known about single commands for that. Trees,
engines and host loops follow for any symmetry of the hooks; the loop adds its
own differences (`since_later`).
-/

namespace RobotRoutine

open Command

/-! ## Engines -/

section Image

variable (symmetry : Symmetry)

/-- The engine with every leaf of its routine changed that has started. -/
def Engine.image (change : Leaf → Leaf) (engine : Engine) : Engine :=
  { engine with root := engine.root.image change }

namespace Engine

@[simp]
theorem status_image (change : Leaf → Leaf) (engine : Engine) :
    (engine.image change).status = engine.status := by
  rw [status, status, image, isCompleted_image]

theorem abort_image (engine : Engine) (robot : Robot) :
    (engine.image symmetry.leaf).abort (symmetry.robot robot) =
      Prod.map (image symmetry.leaf) symmetry.robot (engine.abort robot) := by
  rw [abort, abort]
  by_cases h : engine.aborted = true
  · rw [if_pos h, if_pos (show (engine.image symmetry.leaf).aborted = true from h)]
    rfl
  · rw [if_neg h, if_neg (show ¬ (engine.image symmetry.leaf).aborted = true from h)]
    simp only [image, Command.abort_image engine.root robot]
    rfl

theorem tick_image (engine : Engine) (robot : Robot) :
    (engine.image symmetry.leaf).tick (symmetry.robot robot) =
      ⟨(engine.tick robot).engine.image symmetry.leaf, symmetry.robot (engine.tick robot).robot,
        (engine.tick robot).result⟩ := by
  by_cases hstatus : engine.status = .running
  case neg =>
    rw [tick_of_status_ne_running hstatus,
      tick_of_status_ne_running (by rw [status_image]; exact hstatus), status_image]
  rw [tick, tick, status_image, hstatus]
  simp only [image, Command.poll_image engine.root robot, Polled.image]
  cases (engine.root.poll robot).fault with
  | some error =>
      have habort := abort_image symmetry
        { engine with root := (engine.root.poll robot).item, ticks := engine.ticks + 1 }
        (engine.root.poll robot).robot
      simp only [image] at habort
      simp only [habort]
      rfl
  | none => simp only [isCompleted_image]

theorem drop_image (engine : Engine) (robot : Robot) :
    (engine.image symmetry.leaf).drop (symmetry.robot robot) =
      Prod.map (image symmetry.leaf) symmetry.robot (engine.drop robot) := by
  have hrelease (engine : Engine) (robot : Robot) :
      (engine.image symmetry.leaf).root.release (symmetry.robot robot) =
        Prod.map (Command.image symmetry.leaf) symmetry.robot (engine.root.release robot) :=
    release_image engine.root robot
  rw [drop, drop, status_image]
  by_cases hstatus : engine.status = .running
  · simp only [if_pos hstatus, abort_image, Prod.map_fst, Prod.map_snd, hrelease]
    rfl
  · simp only [if_neg hstatus, hrelease]
    rfl

end Engine

end Image

/-! ## A clock that is ahead -/

/-- The time that a clock shows which is ahead by `lead`. -/
def Duration.later (time lead : Duration) : Duration :=
  ⟨time.nanos + lead.nanos⟩

theorem Duration.since_later (now start lead : Duration) :
    (now.later lead).since (start.later lead) = now.since start :=
  congrArg Duration.mk (Nat.add_sub_add_right now.nanos lead.nanos start.nanos)

/-- The robot with its clock ahead and the time in the match as it is. -/
def Robot.later (lead : Duration) (robot : Robot) : Robot :=
  { robot with clock := robot.clock.later lead, separateMatchClock := some robot.matchTime }

/-- The conditions with the clock ahead and the time in the match as it is. -/
def Conditions.later (lead : Duration) (conditions : Conditions) : Conditions :=
  { conditions with
    clock := conditions.clock.later lead
    separateMatchClock := some (conditions.separateMatchClock.getD conditions.clock) }

/-- The leaf with the time at which it started read off a clock that is ahead. -/
def Leaf.later (lead : Duration) : Leaf → Leaf
  | .timed duration output startedAt =>
    .timed duration output (startedAt.map (·.later lead))
  | work => work

/-- No hook can tell by how much the clock is ahead. -/
def Symmetry.later (lead : Duration) : Symmetry where
  leaf := Leaf.later lead
  robot := Robot.later lead
  start work robot := by
    cases work with
    | convergence mode => cases mode <;> rfl
    | action | timed | waitUntil => rfl
  run work robot := by
    cases work with
    | action effect =>
        cases effect with
        | print | stopDrive => rfl
        | send mechanism => cases mechanism <;> rfl
    | timed duration output => cases output <;> rfl
    | convergence mode target count measured =>
        have hsensor : mode.sensor (robot.later lead) = mode.sensor robot := by cases mode <;> rfl
        have hsteer : mode.steer (robot.later lead) = (mode.steer robot).later lead := by
          cases mode <;> rfl
        change (Leaf.convergence mode target count measured).run (robot.later lead) = _
        rw [Leaf.run, Leaf.run, hsensor, hsteer]
        cases (mode.sensor robot).read <;> rfl
    | waitUntil => rfl
  check work robot := by
    cases work with
    | timed duration output startedAt =>
        have hstarted : (startedAt.map (·.later lead)).getD (robot.later lead).clock =
            (startedAt.getD robot.clock).later lead := by cases startedAt <;> rfl
        have hclock : (robot.later lead).clock = robot.clock.later lead := rfl
        rw [Leaf.later, Leaf.check, Leaf.check, hstarted, hclock, Duration.since_later]
        rfl
    | action | convergence | waitUntil => rfl
  finish work robot := by
    cases work with
    | timed duration output => cases output <;> rfl
    | convergence mode => cases mode <;> rfl
    | action | waitUntil => rfl

/-! ## Runs of an engine -/

/-- The same incident with the clock ahead. -/
def Incident.later (lead : Duration) : Incident → Incident
  | .change conditions => .change (conditions.later lead)
  | incident => incident

namespace Mission

/-- The mission with the clock ahead since it began. -/
def later (lead : Duration) (mission : Mission) : Mission :=
  ⟨mission.engine.image (Leaf.later lead), mission.robot.later lead⟩

theorem later_start {root : Command} (hroot : root.IsFresh) (robot : Robot) (lead : Duration) :
    (start root robot).later lead = start root (robot.later lead) := by
  rw [later, start, start, Engine.image, Engine.ofRoot, image_of_isFresh _ hroot]

theorem step_later (mission : Mission) (lead : Duration) (incident : Incident) :
    (mission.later lead).step (incident.later lead) = (mission.step incident).later lead := by
  cases incident with
  | tick =>
      have htick := Engine.tick_image (.later lead) mission.engine mission.robot
      exact congrArg (fun ticked : Engine.Ticked => Mission.mk ticked.engine ticked.robot) htick
  | abort =>
      have habort := Engine.abort_image (.later lead) mission.engine mission.robot
      exact congrArg (fun aborted : Engine × Robot => Mission.mk aborted.1 aborted.2) habort
  | drop =>
      have hdrop := Engine.drop_image (.later lead) mission.engine mission.robot
      exact congrArg (fun dropped : Engine × Robot => Mission.mk dropped.1 dropped.2) hdrop
  | work place =>
      have hwork :=
        visit_iterateWorker_image (.later lead) mission.engine.root place mission.robot
      exact congrArg (fun worked : Command × Robot =>
        Mission.mk { mission.engine with root := worked.1 } worked.2) hwork
  | change conditions => rfl

/-- A run with the clock ahead keeps in step. -/
theorem after_later (mission : Mission) (lead : Duration) (incidents : List Incident) :
    (mission.later lead).after (incidents.map (Incident.later lead)) =
      (mission.after incidents).later lead := by
  induction incidents generalizing mission with
  | nil => rfl
  | cons incident rest ih =>
      rw [List.map_cons, after, List.foldl_cons, step_later]
      exact ih (mission.step incident)

end Mission

/-! ## Runs of a host loop -/

section Loop

variable {σ : Type} {lead : Duration}

/-- The session with the clock ahead since it began. -/
def Session.later (lead : Duration) (session : Session σ) : Session σ :=
  { session with
    engine := session.engine.image (Leaf.later lead)
    robot := session.robot.later lead }

namespace HostLoop

theorem breakOff_later (started : Duration) (outcome : RunOutcome) (session : Session σ) :
    breakOff (started.later lead) outcome (session.later lead) =
      Prod.map (Session.later lead) id (breakOff started outcome session) := by
  have habort : (session.later lead).engine.abort (session.later lead).robot = _ :=
    Engine.abort_image (.later lead) session.engine session.robot
  rw [breakOff, breakOff, habort]
  obtain ⟨engine, robot⟩ := session.engine.abort session.robot
  have hclock : (robot.later lead).clock = robot.clock.later lead := rfl
  simp only [Prod.map_apply, Symmetry.later, hclock, Duration.since_later]
  rfl

/-- Two hosts of which one does with the clock ahead what the other does come through
their loops alike. -/
theorem runFrom_later {host host' : Host σ} (hstop : host'.stopRequested = host.stopRequested)
    (hbetween : ∀ period session, host'.between period (session.later lead) =
      (host.between period session).map (Session.later lead))
    (loop : HostLoop) (started : Duration) (limit : ℕ) (session : Session σ) :
    loop.runFrom host' (started.later lead) limit (session.later lead) =
      Prod.map (Session.later lead) id (loop.runFrom host started limit session) := by
  induction limit generalizing session with
  | zero => rfl
  | succ limit ih =>
      have hsince : (session.later lead).robot.clock.since (started.later lead) =
          session.robot.clock.since started := Duration.since_later ..
      have htick : (session.later lead).engine.tick (session.later lead).robot = _ :=
        Engine.tick_image (.later lead) session.engine session.robot
      have hstate : (session.later lead).state = session.state := rfl
      rw [runFrom, runFrom, hstop, hsince, hstate, htick]
      by_cases hstopped : host.stopRequested session.state = true
      · rw [if_pos hstopped, if_pos hstopped]
        exact breakOff_later started .interrupted session
      · rw [if_neg hstopped, if_neg hstopped]
        by_cases hbudget : loop.budget ≤ session.robot.clock.since started
        · rw [if_pos hbudget, if_pos hbudget]
          exact breakOff_later started .budgetExpired session
        · rw [if_neg hbudget, if_neg hbudget]
          obtain ⟨engine, robot, result⟩ := session.engine.tick session.robot
          have hafter : ((robot.later lead).clock).since (started.later lead) =
              robot.clock.since started := Duration.since_later ..
          match result with
          | .error error => rfl
          | .ok .completed | .ok .aborted =>
              simp only [Symmetry.later, hafter]
              rfl
          | .ok .running =>
              have hnext := hbetween loop.period { session with engine, robot }
              simp only [Session.later] at hnext
              simp only [Symmetry.later, hnext]
              cases host.between loop.period { session with engine, robot } with
              | none => rfl
              | some session => exact ih session

end HostLoop

/-- A host that goes by a schedule: what happens in each period between two ticks, and
before which of the ticks somebody asks to stop. -/
def Host.scheduled (stop : ℕ → Bool) (schedule : ℕ → List Incident) : Host ℕ where
  stopRequested := stop
  between _ session :=
    let mission := (Mission.mk session.engine session.robot).after (schedule session.state)
    some ⟨mission.engine, mission.robot, session.state + 1⟩

theorem HostLoop.run_scheduled_later (loop : HostLoop) (stop : ℕ → Bool)
    (schedule : ℕ → List Incident) (limit : ℕ) (session : Session ℕ) :
    loop.run (.scheduled stop fun n => (schedule n).map (Incident.later lead)) limit
        (session.later lead) =
      Prod.map (Session.later lead) id (loop.run (.scheduled stop schedule) limit session) := by
  have hstop : (Host.scheduled stop fun n => (schedule n).map (Incident.later lead)).stopRequested =
      (Host.scheduled stop schedule).stopRequested := rfl
  have hbetween (period : Duration) (session : Session ℕ) :
      (Host.scheduled stop fun n => (schedule n).map (Incident.later lead)).between period
          (session.later lead) =
        ((Host.scheduled stop schedule).between period session).map (Session.later lead) := by
    have hafter := Mission.after_later ⟨session.engine, session.robot⟩ lead
      (schedule session.state)
    exact congrArg (fun mission : Mission =>
      some (Session.mk mission.engine mission.robot (session.state + 1))) hafter
  exact runFrom_later hstop hbetween loop session.robot.clock limit session

end Loop

/-- Where the clock has its origin does not matter. Take any run of an engine, and the
same run with all readings of the clock ahead by the same time and those of the match
as they were. At any point of it the next tick is answered with the same and the robots
differ by their clocks only. A host loop that takes over at that point, whatever its
schedule, comes to the same summary or failure and leaves the robot the same too; that
holds after any number of rounds, since it holds with any limit. -/
theorem Mission.clock_origin_is_arbitrary {root : Command} (hroot : root.IsFresh) (robot : Robot)
    (lead : Duration) (incidents : List Incident) :
    let mission := (start root robot).after incidents
    let ahead := (start root (robot.later lead)).after (incidents.map (Incident.later lead))
    (ahead.engine.tick ahead.robot).result = (mission.engine.tick mission.robot).result ∧
      ahead.robot = mission.robot.later lead ∧
      ∀ (loop : HostLoop) (stop : ℕ → Bool) (schedule : ℕ → List Incident) (limit : ℕ),
        let run := loop.run (.scheduled stop schedule) limit ⟨mission.engine, mission.robot, 0⟩
        let runAhead := loop.run (.scheduled stop fun n => (schedule n).map (Incident.later lead))
          limit ⟨ahead.engine, ahead.robot, 0⟩
        runAhead.2 = run.2 ∧ runAhead.1.robot = run.1.robot.later lead := by
  intro mission ahead
  have hahead : ahead = mission.later lead := by
    rw [← after_later, later_start hroot]
  rw [hahead]
  have htick := Engine.tick_image (.later lead) mission.engine mission.robot
  refine ⟨(congrArg Engine.Ticked.result htick).trans rfl, rfl, ?_⟩
  intro loop stop schedule limit run runAhead
  have hrun : runAhead = Prod.map (Session.later lead) id run :=
    HostLoop.run_scheduled_later loop stop schedule limit ⟨mission.engine, mission.robot, 0⟩
  rw [hrun]
  exact ⟨rfl, rfl⟩

/-- A pause of fifty nanoseconds until the seventieth in the match, on a clock that is an
hour ahead of the match. -/
theorem Mission.clock_origin_is_arbitrary_an_hour :
    let root : Command := .ofSteps "pause" ([.sequential (.timed "wait" ⟨50⟩ .idle),
      .concurrent (.waitUntil "window" ⟨70⟩)].foldl Addition.addTo [])
    let reading (nanos : ℕ) : Conditions :=
      { encoder := ⟨"encoder", 0, none⟩, gyro := ⟨"gyro", 0, none⟩, clock := ⟨nanos⟩
        separateMatchClock := none }
    let hour : Duration := ⟨3600 * Duration.perSecond⟩
    let incidents : List Incident := [.tick, .change (reading 20)]
    let ahead := (start root ((Robot.ofParameters {}).later hour)).after
      (incidents.map (Incident.later hour))
    let schedule (n : ℕ) : List Incident := [.change (reading (20 * (n + 2)))]
    let runAhead := HostLoop.run ⟨⟨20⟩, ⟨200⟩⟩
      (.scheduled (fun _ => false) fun n => (schedule n).map (Incident.later hour)) 9
      ⟨ahead.engine, ahead.robot, 0⟩
    root.IsFresh ∧ (ahead.engine.tick ahead.robot).result = .ok .running ∧
      runAhead.2 = .ok ⟨.completed, 5, ⟨60⟩⟩ := by
  intro root reading hour incidents ahead schedule runAhead
  have hroot : root.IsFresh := by
    refine Assembled.isFresh (.group _ _ ?_)
    simp only [List.forall_mem_cons, List.not_mem_nil, false_imp_iff, implies_true, and_true]
    exact ⟨.timed .., .waitUntil ..⟩
  obtain ⟨htick, -, hhost⟩ :=
    clock_origin_is_arbitrary hroot (Robot.ofParameters {}) hour incidents
  obtain ⟨hrun, -⟩ := hhost ⟨⟨20⟩, ⟨200⟩⟩ (fun _ => false) schedule 9
  subst runAhead ahead
  exact ⟨hroot, htick.trans (by decide +kernel), hrun.trans (by decide +kernel)⟩

end RobotRoutine
