import RobotRoutine.Proofs.RobotConfig.Budget

/-!
# Runs that the clock has no room for

A duration has an end, and the clock of a simulated robot refuses a sum beyond it. The loop looks at
the budget before it ticks and not at what the clock will hold after the next period, so a budget of
nearly the longest duration does not keep it from asking for one period too many. The clock starts
at zero and goes on by whole periods, so there is one call of the host at which that can happen: the
one after the last period that fits (`between_eq_none_iff`). The loop makes this call exactly if the
budget is not used up by then and the routine is still running (`OutlivesClock`), which takes a
thousand ticks at least with the period of a valid configuration.

Everything is said of any host that moves the clock as the simulation does, so that what workers do
between two ticks, and how often, does not matter.
-/

namespace RobotRoutine

/-- How a host goes about the clock: nobody asks it to stop, and it moves the clock by the period
unless that is beyond the longest duration. -/
structure Host.MovesClock {σ : Type} (host : Host σ) : Prop where
  unasked : ∀ state, host.stopRequested state = false
  passes : ∀ {period before after}, host.between period before = some after →
    Passes period before after
  refuses : ∀ period before, host.between period before = none ↔
    Duration.longest.nanos < before.robot.clock.nanos + period.nanos

theorem CommandLine.movesClock_simulation : simulation.MovesClock := by
  refine ⟨fun _ => rfl, passes_of_simulation_between, fun period before => ?_⟩
  rw [simulation_between, Duration.add?, Option.map_eq_none_iff]
  split
  · next hfits => simp; omega
  · next hlong => simp; omega

namespace HostLoop

variable {σ : Type} {loop : HostLoop} {host : Host σ} {session : Session σ}

theorem stopCall_of_movesClock (hhost : host.MovesClock) : loop.stopCall host session = ⊤ := by
  refine top_le_iff.mp (le_firstOf fun n ⟨last, _, hasked⟩ => ?_)
  rw [hhost.unasked] at hasked
  cases hasked

/-- The number of whole periods that a clock has room for. -/
def clockCall (loop : HostLoop) : ℕ :=
  Duration.longest.nanos / loop.period.nanos

/-- Whether the budget lasts and the routine runs on when the clock has no room for one more
period. -/
def OutlivesClock (loop : HostLoop) (host : Host σ) (session : Session σ) : Prop :=
  loop.clockCall * loop.period.nanos < loop.budget.nanos ∧
    ∃ last, loop.rounds host loop.clockCall session = some last ∧
      last.tickResult = .ok .running

/-! ## The call that is refused -/

section Refusal

variable (hhost : host.MovesClock) (hperiod : 0 < loop.period.nanos)
  (hstart : session.robot.clock = .zero)
include hhost hstart

theorem clock_tick_of_rounds {n : ℕ} {last : Session σ}
    (h : loop.rounds host n session = some last) :
    last.tick.robot.clock.nanos = n * loop.period.nanos := by
  have hzero : session.robot.clock.nanos = 0 := by rw [hstart]; rfl
  rw [last.clock_tick, clock_of_rounds hhost.passes h, hzero, Nat.zero_add]

include hperiod

theorem le_clockCall {n : ℕ} {last : Session σ} (h : loop.rounds host n session = some last) :
    n ≤ loop.clockCall := by
  rw [clockCall, Nat.le_div_iff_mul_le hperiod]
  cases n with
  | zero => omega
  | succ n =>
      -- The last of the periods has passed, so the clock had room for it.
      obtain ⟨before, hbefore, -, hbetween⟩ := rounds_succ h
      by_contra hlong
      rw [Nat.add_one_mul] at hlong
      have hclock := clock_tick_of_rounds hhost hstart hbefore
      have hrefused := (hhost.refuses loop.period before.tick).mpr (by omega)
      rw [hbetween] at hrefused
      cases hrefused

/-- A period is refused as soon as all that fit have passed, and not before. -/
theorem between_eq_none_iff {n : ℕ} {last : Session σ}
    (h : loop.rounds host n session = some last) :
    host.between loop.period last.tick = none ↔ n = loop.clockCall := by
  have hle := le_clockCall hhost hperiod hstart h
  have hfull : loop.clockCall ≤ n ↔
      Duration.longest.nanos < n * loop.period.nanos + loop.period.nanos := by
    rw [← Nat.add_one_mul, clockCall, ← Nat.div_lt_iff_lt_mul hperiod, Nat.lt_succ_iff]
  rw [hhost.refuses, clock_tick_of_rounds hhost hstart h, ← hfull]
  omega

/-- The clock has room for every period of a run exactly if the run does not outlive it. -/
theorem keepsTime_iff_not_outlivesClock :
    loop.KeepsTime host session ↔ ¬ loop.OutlivesClock host session := by
  constructor
  · intro hkeeps ⟨hbudget, last, hrounds, hresult⟩
    have hstop : (loop.clockCall : ℕ∞) < loop.stopCall host session := by
      rw [stopCall_of_movesClock hhost]
      exact ENat.natCast_lt_top _
    obtain ⟨next, hnext, -⟩ := hkeeps loop.clockCall last hrounds hresult hstop
      ((lt_budgetCall_iff hperiod).mpr hbudget)
    rw [(between_eq_none_iff hhost hperiod hstart hrounds).mpr rfl] at hnext
    cases hnext
  · intro hdone n last hrounds hresult _ hbudget
    cases hnext : host.between loop.period last.tick with
    | some next => exact ⟨next, rfl, hhost.passes hnext⟩
    | none =>
        obtain rfl := (between_eq_none_iff hhost hperiod hstart hrounds).mp hnext
        exact absurd ⟨(lt_budgetCall_iff hperiod).mp hbudget, last, hrounds, hresult⟩ hdone

end Refusal

/-! ## The answer of the run -/

/-- A run that ends because the clock is full has come to a call that is refused, with the routine
running and the budget not used up. -/
theorem exists_of_runFrom_eq_clockOverflow (hhost : host.MovesClock)
    (hperiod : 0 < loop.period.nanos) {limit n : ℕ} {last : Session σ}
    (hrounds : loop.rounds host n session = some last)
    (h : (loop.runFrom host session.robot.clock limit last).2 = .error .clockOverflow) :
    ∃ m later, loop.rounds host m session = some later ∧ later.tickResult = .ok .running ∧
      m < loop.budgetCall ∧ host.between loop.period later.tick = none := by
  induction limit generalizing n last with
  | zero => cases h
  | succ limit ih =>
      have hclock := clock_of_rounds hhost.passes hrounds
      rw [runFrom, if_neg (by rw [hhost.unasked]; decide)] at h
      split at h
      · cases h
      · next hbudget =>
          rw [budget_le_iff hperiod hclock, not_le] at hbudget
          dsimp only at h
          split at h
          · cases h
          · cases h
          · cases h
          · next hresult =>
              split at h
              · next hnone => exact ⟨n, last, hrounds, hresult, hbudget, hnone⟩
              · next next hnext =>
                  have hround : loop.rounds host (n + 1) session = some next := by
                    have hrunning : last.tickResult = .ok .running := hresult
                    rw [rounds, hrounds, Option.bind_some, round, hrunning]
                    exact hnext
                  exact ih hround h

theorem run_eq_clockOverflow_iff (hhost : host.MovesClock) (hperiod : 0 < loop.period.nanos)
    (hstart : session.robot.clock = .zero) {limit : ℕ} (hlimit : loop.tickLimit ≤ limit) :
    (loop.run host limit session).2 = .error .clockOverflow ↔ loop.OutlivesClock host session := by
  constructor
  · intro h
    obtain ⟨m, last, hrounds, hresult, hbudget, hnone⟩ :=
      exists_of_runFrom_eq_clockOverflow hhost hperiod (n := 0) rfl h
    obtain rfl := (between_eq_none_iff hhost hperiod hstart hrounds).mp hnone
    exact ⟨(lt_budgetCall_iff hperiod).mp hbudget, last, hrounds, hresult⟩
  · intro ⟨hbudget, last, hrounds, hresult⟩
    have hcall := (lt_budgetCall_iff hperiod).mpr hbudget
    have hclock := clock_of_rounds hhost.passes hrounds
    -- One round of the limit is left for the tick after which the clock refuses.
    obtain ⟨rest, rfl⟩ : ∃ rest, limit = rest + 1 + loop.clockCall :=
      ⟨limit - 1 - loop.clockCall, by have := budgetCall_lt_tickLimit hperiod; omega⟩
    rw [run, runFrom_of_clock hperiod (rest + 1) hrounds
      (fun k _ before hbefore => clock_of_rounds hhost.passes hbefore)
      (by rw [stopCall_of_movesClock hhost]; exact le_top) hcall.le]
    rw [runFrom, if_neg (by rw [hhost.unasked]; decide),
      if_neg fun hspent => absurd ((budget_le_iff hperiod hclock).mp hspent) (not_le.mpr hcall)]
    have htick : (last.engine.tick last.robot).result = .ok .running := hresult
    have hnone : host.between loop.period last.tick = none :=
      (between_eq_none_iff hhost hperiod hstart hrounds).mpr rfl
    simp only [htick]
    rw [Session.tick] at hnone
    rw [hnone]

end HostLoop

namespace RobotConfig

section Valid

variable {config : RobotConfig} (valid : config.validate = .ok ())
include valid

theorem period_pos_of_valid : 0 < config.hostLoop.period.nanos := by
  obtain ⟨-, -, hmillis, -⟩ := config.validate_eq_ok_iff.mp valid
  have hmilli : 0 < (Duration.ofMillis 1).nanos := by decide
  exact hmilli.trans_le (Duration.ofMillis_one_le hmillis)

theorem le_clockCall_of_valid : 1000 ≤ config.hostLoop.clockCall := by
  have hnanos : config.hostLoop.period.nanos = config.periodMillis.toNat * 1000000 := rfl
  have hlongest : Duration.longest.nanos = 2 ^ 64 * 1000000000 - 1 := by decide
  have hmillis := config.periodMillis.toNat_lt
  rw [HostLoop.clockCall, Nat.le_div_iff_mul_le (period_pos_of_valid valid), hnanos, hlongest]
  -- A thousand of the longest periods are less than a second short of the longest duration.
  omega

end Valid

/-- Which runs of a valid configuration leave the range of the clock, on a robot at rest and with any
routine: none within a thousand ticks; after that exactly those that still run, within their budget,
when the clock has no room for one more period. All others find room for every period. -/
theorem outlives_clock_iff_of_valid {config : RobotConfig} (valid : config.validate = .ok ())
    {σ : Type} {host : Host σ} (hhost : host.MovesClock) (root : Command) (plant : PlantParameters)
    (state : σ) {limit : ℕ} (hlimit : config.hostLoop.tickLimit ≤ limit) :
    let loop := config.hostLoop
    let session : Session σ := ⟨.ofRoot root, .ofParameters plant, state⟩
    1000 ≤ loop.clockCall ∧
      (loop.KeepsTime host session ↔ ¬ loop.OutlivesClock host session) ∧
      ((loop.run host limit session).2 = .error .clockOverflow ↔
        loop.OutlivesClock host session) := by
  intro loop session
  have hperiod : 0 < loop.period.nanos := period_pos_of_valid valid
  exact ⟨le_clockCall_of_valid valid,
    HostLoop.keepsTime_iff_not_outlivesClock hhost hperiod rfl,
    HostLoop.run_eq_clockOverflow_iff hhost hperiod rfl hlimit⟩

/-- A wait that is not over after a thousand periods, each of nearly the longest possible, asks for
one more than the clock can hold. -/
theorem outlives_clock_iff_of_valid_long_wait :
    let config : RobotConfig := { periodMillis := 18446744073699551616, budgetSeconds := 1e20 }
    let loop := config.hostLoop
    config.validate = .ok () ∧ loop.clockCall = 1000 ∧
      ∃ root, Routine.compile "wait(18446744073709549568)" .builtins config.tuning = .ok root ∧
        let session : Session Unit := ⟨.ofRoot root, .ofParameters config.plant, ()⟩
        (loop.run CommandLine.simulation loop.tickLimit session).2 = .error .clockOverflow ∧
          loop.OutlivesClock CommandLine.simulation session := by
  intro config loop
  have hfacts : config.validate = .ok () ∧ loop.clockCall = 1000 ∧
      (Routine.compile "wait(18446744073709549568)" .builtins config.tuning).toOption.map
        (fun root => (loop.run CommandLine.simulation loop.tickLimit
          ⟨.ofRoot root, .ofParameters config.plant, ()⟩).2) = some (.error .clockOverflow) := by
    decide +kernel
  obtain ⟨valid, hcall, hruns⟩ := hfacts
  refine ⟨valid, hcall, ?_⟩
  cases hroot : Routine.compile "wait(18446744073709549568)" .builtins config.tuning with
  | error error =>
      rw [hroot] at hruns
      cases hruns
  | ok root =>
      rw [hroot] at hruns
      have hrun := Option.some.inj hruns
      obtain ⟨-, -, hiff⟩ := outlives_clock_iff_of_valid valid CommandLine.movesClock_simulation root
        config.plant () (Nat.le_refl loop.tickLimit)
      exact ⟨root, rfl, hrun, hiff.mp hrun⟩

end RobotConfig

end RobotRoutine
