import RobotRoutine.Proofs.Decimal.Scaling
import RobotRoutine.Proofs.Engine.HostRun
import RobotRoutine.Proofs.RobotConfig.Acceptance

/-!
# What a valid configuration runs

A valid configuration has a period and a cadence of a millisecond at least, since
both are whole numbers of milliseconds and not zero. Its budget is a positive
number of seconds, but what the host loop compares with is a duration, and half a
nanosecond or less is rounded to none (`budget_pos_iff`). A loop without a budget
is over before its first look at the engine, and any other polls the engine at
least once (`lt_ticks_run_iff`), whatever the host does in between: it has no
hands on the count of ticks, which never goes down.
-/

namespace RobotRoutine

open Decimal

/-! ## Rounding to nothing -/

/-- A quotient is rounded to nothing up to a half, which goes to the even side. -/
theorem Decimal.roundDiv_toEven_pos_iff (num : ℕ) {den : ℕ} (h : 0 < den) :
    0 < roundDiv .toEven num den ↔ den < 2 * num := by
  rw [roundDiv]
  by_cases hless : num < den
  · rw [Nat.div_eq_of_lt hless, Nat.mod_eq_of_lt hless]
    cases hcompare : compare (2 * num) den with
    | lt => simp [(Nat.compare_eq_lt.mp hcompare).le]
    | eq => simp [Nat.compare_eq_eq.mp hcompare]
    | gt => simp [Nat.compare_eq_gt.mp hcompare]
  · have hone : 0 < num / den := Nat.div_pos (Nat.le_of_not_lt hless) h
    refine iff_of_true ?_ (by omega)
    split
    · exact hone
    · omega
    · split
      · exact hone
      · omega

namespace Duration

/-- A positive number of seconds is a quotient, and too large or rounded to nanoseconds. -/
theorem exists_ofSeconds? {seconds : Float} {v : ℚ} (h : StandsFor seconds v) :
    ∃ num den : ℕ, 0 < den ∧ v = num / den ∧
      ofSeconds? seconds =
        if twoTo 64 * den ≤ num then none
        else some ⟨roundDiv .toEven (num * perSecond) den⟩ := by
  obtain ⟨m, e, pos, hparts, rfl⟩ := h
  refine ⟨m * twoTo e.toNat, twoTo (-e).toNat, Nat.pow_pos Nat.two_pos, ?_, ?_⟩
  · rw [Nat.cast_mul, cast_twoTo, cast_twoTo, zpow_eq_div two_ne_zero, mul_div_assoc]
  · rw [ofSeconds?, Binary.ofFloat_eq, hparts]
    simp [Binary.ofUnpacked, isNegative]

end Duration

namespace RobotConfig

variable {config : RobotConfig}

theorem budget_pos_iff {v : ℚ} (h : StandsFor config.budgetSeconds v) :
    0 < config.budget.nanos ↔ 1 / 2 < v * Duration.perSecond := by
  obtain ⟨num, den, hden, rfl, hbudget⟩ := Duration.exists_ofSeconds? h
  have hvalue : (1 / 2 : ℚ) < num / den * Duration.perSecond ↔
      den < 2 * (num * Duration.perSecond) := by
    rw [div_mul_eq_mul_div, div_lt_div_iff₀ two_pos (Nat.cast_pos.mpr hden)]
    norm_cast
    rw [one_mul, Nat.mul_comm]
  rw [budget, hbudget, hvalue]
  split
  · next hlarge =>
      have hleast : den ≤ num := (Nat.le_mul_of_pos_left den (by decide)).trans hlarge
      have hnanos : num ≤ num * Duration.perSecond := Nat.le_mul_of_pos_right num (by decide)
      have hlongest : 0 < Duration.longest.nanos := by decide
      exact iff_of_true hlongest (by omega)
  · exact roundDiv_toEven_pos_iff _ hden

end RobotConfig

/-! ## The first tick -/

/-- Whether a host leaves the ticking of the engine to its loop. -/
def Host.LeavesTicks {σ : Type} (host : Host σ) : Prop :=
  ∀ period before after, host.between period before = some after →
    after.engine.ticks = before.engine.ticks

theorem CommandLine.leavesTicks_simulation : simulation.LeavesTicks :=
  fun _ _ _ h => (passes_of_simulation_between h).ticks

theorem Session.ticks_le_tick {σ : Type} (session : Session σ) :
    session.engine.ticks ≤ session.tick.engine.ticks := by
  by_cases hstatus : session.engine.status = .running
  · rw [(Session.ticks_tick hstatus).1]
    exact Nat.le_succ _
  · rw [Session.tick, Engine.tick_of_status_ne_running hstatus]

namespace HostLoop

variable {σ : Type} {loop : HostLoop} {host : Host σ} {session : Session σ}

/-- A round of the loop is a tick and what is left of the run, in which the count goes on. -/
theorem ticks_tick_le_runFrom {started : Duration} {limit : ℕ}
    (hstop : host.stopRequested session.state = false)
    (hbudget : ¬ loop.budget ≤ session.robot.clock.since started)
    (hrest : ∀ next, host.between loop.period session.tick = some next →
      session.tick.engine.ticks ≤ (loop.runFrom host started limit next).1.engine.ticks) :
    session.tick.engine.ticks ≤
      (loop.runFrom host started (limit + 1) session).1.engine.ticks := by
  rw [runFrom, if_neg (by rw [hstop]; decide), if_neg hbudget]
  dsimp only
  split
  · exact Nat.le_refl _
  · exact Nat.le_refl _
  · exact Nat.le_refl _
  · split
    · exact Nat.le_refl _
    · next next hnext => exact hrest next hnext

/-- No run takes ticks back. -/
theorem ticks_le_runFrom (hleaves : host.LeavesTicks) (started : Duration) (limit : ℕ)
    (session : Session σ) :
    session.engine.ticks ≤ (loop.runFrom host started limit session).1.engine.ticks := by
  induction limit generalizing session with
  | zero => exact Nat.le_refl _
  | succ limit ih =>
      by_cases hstop : host.stopRequested session.state = true
      · rw [runFrom, if_pos hstop, breakOff_eq]
        exact session.ticks_abort.ge
      by_cases hbudget : loop.budget ≤ session.robot.clock.since started
      · rw [runFrom, if_neg hstop, if_pos hbudget, breakOff_eq]
        exact session.ticks_abort.ge
      refine session.ticks_le_tick.trans
        (ticks_tick_le_runFrom (Bool.not_eq_true _ ▸ hstop) hbudget fun next hnext => ?_)
      rw [← hleaves _ _ _ hnext]
      exact ih next

/-- Unless somebody asks to stop, a run polls a routine that is running exactly if it has a budget. -/
theorem lt_ticks_run_iff (hleaves : host.LeavesTicks) (hstatus : session.engine.status = .running)
    (hstop : host.stopRequested session.state = false) (limit : ℕ) :
    session.engine.ticks < (loop.run host (limit + 1) session).1.engine.ticks ↔
      0 < loop.budget.nanos := by
  have hstart : session.robot.clock.since session.robot.clock = ⟨0⟩ :=
    congrArg Duration.mk (Nat.sub_self _)
  by_cases hbudget : loop.budget ≤ session.robot.clock.since session.robot.clock
  · have hticks : (loop.run host (limit + 1) session).1.engine.ticks = session.engine.ticks := by
      rw [run, runFrom, if_neg (by rw [hstop]; decide), if_pos hbudget, breakOff_eq]
      exact session.ticks_abort
    rw [hstart] at hbudget
    rw [hticks]
    exact iff_of_false (Nat.lt_irrefl _) (Nat.not_lt.mpr hbudget)
  · have hfirst : session.tick.engine.ticks ≤
        (loop.run host (limit + 1) session).1.engine.ticks :=
      ticks_tick_le_runFrom hstop hbudget fun next hnext => by
        rw [← hleaves _ _ _ hnext]
        exact ticks_le_runFrom hleaves _ limit next
    rw [(Session.ticks_tick hstatus).1] at hfirst
    rw [hstart] at hbudget
    exact iff_of_true hfirst (Nat.lt_of_not_le hbudget)

end HostLoop

namespace RobotConfig

/-- A valid configuration has a period and a cadence that are not zero, and a
budget that is not zero exactly if it is given as more than half a nanosecond. The
loop that it makes polls a routine that is running, whatever the host is that
leaves the ticking to it and does not ask to stop, exactly if the budget is not
zero. -/
theorem polls_iff_of_valid {config : RobotConfig} (valid : config.validate = .ok ()) :
    0 < config.period.nanos ∧ 0 < config.tuning.cadence.nanos ∧
      (∃ v : ℚ, StandsFor config.budgetSeconds v ∧
        (0 < config.budget.nanos ↔ 1 / 2 < v * Duration.perSecond)) ∧
      ∀ (σ : Type) (host : Host σ) (session : Session σ) (limit : ℕ),
        host.LeavesTicks → session.engine.status = .running →
          host.stopRequested session.state = false →
            (session.engine.ticks <
                (config.hostLoop.run host (limit + 1) session).1.engine.ticks ↔
              0 < config.budget.nanos) := by
  obtain ⟨-, -, hperiod, hbudget, htuning⟩ := config.validate_eq_ok_iff.mp valid
  obtain ⟨-, -, hcadence⟩ := config.tuning.validate_eq_ok_iff.mp htuning
  have hmilli : 0 < (Duration.ofMillis 1).nanos := by decide
  obtain ⟨m, e, pos, hparts⟩ := (isPositive_iff _).mp hbudget
  have hstands : StandsFor config.budgetSeconds (m * 2 ^ e) := ⟨m, e, pos, hparts, rfl⟩
  exact ⟨hmilli.trans_le (Duration.ofMillis_one_le hperiod),
    hmilli.trans_le (Duration.ofMillis_one_le hcadence),
    ⟨_, hstands, budget_pos_iff hstands⟩, fun _ _ _ limit hleaves hstatus hstop =>
      HostLoop.lt_ticks_run_iff hleaves hstatus hstop limit⟩

/-- A tenth of a nanosecond is a valid budget, and no tick is made within it. -/
theorem polls_iff_of_valid_tenth_nanosecond :
    let config : RobotConfig := { budgetSeconds := 1e-10 }
    let session : Session Unit := ⟨.ofRoot (.action "stop" .stopDrive), .ofParameters {}, ()⟩
    config.validate = .ok () ∧ config.budget = ⟨0⟩ ∧
      session.engine.status = .running ∧
      ¬ session.engine.ticks <
        (config.hostLoop.run CommandLine.simulation 2 session).1.engine.ticks := by
  intro config session
  have valid : config.validate = .ok () := by decide +kernel
  have hbudget : config.budget = ⟨0⟩ := by decide +kernel
  have hstatus : session.engine.status = .running := by decide +kernel
  obtain ⟨-, -, -, hpolls⟩ := polls_iff_of_valid valid
  refine ⟨valid, hbudget, hstatus, fun hticks => ?_⟩
  have hpositive := (hpolls Unit CommandLine.simulation session 1
    CommandLine.leavesTicks_simulation hstatus rfl).mp hticks
  rw [hbudget] at hpositive
  cases hpositive

end RobotConfig

end RobotRoutine
