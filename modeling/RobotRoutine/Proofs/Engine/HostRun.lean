import Mathlib.Algebra.Order.Floor.Div
import Mathlib.Data.ENat.Lattice
import RobotRoutine.CommandLine.Perform
import RobotRoutine.HostLoop
import RobotRoutine.Proofs.Command.Conditions
import RobotRoutine.Proofs.Engine.SafeStop

/-!
# How many ticks a host makes, and how it ends

A host that moves the clock by the period between two ticks leaves its loop in
one of four ways, and three numbers decide in which: the number of the tick
that does not leave the routine running, the number of periods after which
somebody asks to stop, and the number of periods that fit into the budget,
rounded up. The least of them is the number of ticks; the first one wins a tie
against both others, and a request to stop wins it against the budget.

The numbers are said of `rounds`, which ticks and lets the host act without
looking at requests or the budget, so that it is the engine and the host that
decide them and not the loop. `runFrom_of_clock` says that as long as neither
the request nor the budget is due the loop does the same rounds; what is left
is the last look at the session that it has come to.
-/

namespace RobotRoutine

namespace Session

variable {σ : Type}

/-- The session after one tick. -/
def tick (session : Session σ) : Session σ :=
  { session with
    engine := (session.engine.tick session.robot).engine
    robot := (session.engine.tick session.robot).robot }

/-- What the tick answers. -/
def tickResult (session : Session σ) : Except RoutineError RoutineStatus :=
  (session.engine.tick session.robot).result

/-- The session with its routine aborted. -/
def abort (session : Session σ) : Session σ :=
  { session with
    engine := (session.engine.abort session.robot).1
    robot := (session.engine.abort session.robot).2 }

theorem clock_tick (session : Session σ) : session.tick.robot.clock = session.robot.clock :=
  congrArg Conditions.clock (Engine.conditions_tick session.engine session.robot)

theorem clock_abort (session : Session σ) : session.abort.robot.clock = session.robot.clock :=
  congrArg Conditions.clock (Engine.conditions_abort session.engine session.robot)

theorem status_abort (session : Session σ) : session.abort.engine.status ≠ .running :=
  Engine.status_ne_running_iff.mpr (Or.inl (Engine.aborted_abort _ _))

theorem ticks_abort (session : Session σ) : session.abort.engine.ticks = session.engine.ticks := by
  rw [abort, Engine.abort]
  split
  · rfl
  · rfl

/-- What a tick of an engine that is running does to its count and its status. -/
theorem ticks_tick {session : Session σ} (h : session.engine.status = .running) :
    session.tick.engine.ticks = session.engine.ticks + 1 ∧
      (session.tick.engine.status = .running ↔ session.tickResult = .ok .running) ∧
      session.tickResult ≠ .ok .aborted := by
  cases hfault : (session.engine.root.poll session.robot).fault with
  | some error =>
      obtain ⟨hengine, -, hresult⟩ := Engine.tick_of_fault h hfault
      rw [tick, tickResult, hengine, hresult]
      refine ⟨rfl, ⟨fun hrunning => ?_, fun hok => nomatch hok⟩, fun hok => nomatch hok⟩
      exact absurd hrunning (Engine.status_ne_running_iff.mpr (Or.inl rfl))
  | none =>
      obtain ⟨hengine, -, hresult⟩ := Engine.tick_of_fault_none h hfault
      have haborted := Engine.aborted_of_status_running h
      rw [tick, tickResult, hengine, hresult, Engine.status]
      simp only [haborted]
      cases (session.engine.root.poll session.robot).item.isCompleted <;> simp

end Session

/-- What one call of the host does, whatever else it does: time passes by the
period, and the engine, which only the loop can tick or abort, has neither
ticked nor ended. -/
structure Passes {σ : Type} (period : Duration) (before after : Session σ) : Prop where
  clock : after.robot.clock.nanos = before.robot.clock.nanos + period.nanos
  ticks : after.engine.ticks = before.engine.ticks
  status : after.engine.status = before.engine.status

/-- The first number of which something holds; none if it holds of no number. -/
noncomputable def firstOf (property : ℕ → Prop) : ℕ∞ :=
  sInf {n : ℕ∞ | ∃ k : ℕ, n = k ∧ property k}

theorem firstOf_le {property : ℕ → Prop} {n : ℕ} (h : property n) : firstOf property ≤ n :=
  sInf_le ⟨n, rfl, h⟩

theorem not_of_lt_firstOf {property : ℕ → Prop} {n : ℕ} (h : (n : ℕ∞) < firstOf property) :
    ¬ property n :=
  fun hn => absurd (firstOf_le hn) (not_le.mpr h)

theorem of_firstOf_eq {property : ℕ → Prop} {n : ℕ} (h : firstOf property = n) : property n := by
  have hne : {n : ℕ∞ | ∃ k : ℕ, n = k ∧ property k}.Nonempty := by
    by_contra hempty
    rw [firstOf, Set.not_nonempty_iff_eq_empty.mp hempty, sInf_empty] at h
    exact ENat.top_ne_natCast n h
  obtain ⟨k, hk, hproperty⟩ := csInf_mem hne
  rw [← firstOf, h] at hk
  rwa [ENat.natCast_inj.mp hk]

theorem le_firstOf {property : ℕ → Prop} {bound : ℕ∞} (h : ∀ n : ℕ, property n → bound ≤ n) :
    bound ≤ firstOf property := by
  refine le_sInf fun n hn => ?_
  obtain ⟨k, rfl, hk⟩ := hn
  exact h k hk

theorem firstOf_le_iff {property : ℕ → Prop} {n : ℕ} :
    firstOf property ≤ n ↔ ∃ m ≤ n, property m := by
  constructor
  · intro h
    obtain ⟨m, hm⟩ := ENat.ne_top_iff_exists.mp (ne_top_of_le_ne_top (ENat.natCast_ne_top n) h)
    rw [← hm] at h
    exact ⟨m, ENat.natCast_le_natCast.mp h, of_firstOf_eq hm.symm⟩
  · intro ⟨m, hm, hproperty⟩
    exact (firstOf_le hproperty).trans (ENat.natCast_le_natCast.mpr hm)

namespace HostLoop

variable {σ : Type} (loop : HostLoop) (host : Host σ)

/-- A tick that leaves the routine running, and what the host does after it. -/
def round (session : Session σ) : Option (Session σ) :=
  match session.tickResult with
  | .ok .running => host.between loop.period session.tick
  | _ => none

/-- One round after another, without a look at requests or the budget. -/
def rounds : ℕ → Session σ → Option (Session σ)
  | 0, session => some session
  | n + 1, session => (rounds n session).bind (round loop host)

/-- The number of the tick that does not leave the routine running. -/
noncomputable def endingTick (session : Session σ) : ℕ∞ :=
  firstOf fun n => ∃ calls last, n = calls + 1 ∧ loop.rounds host calls session = some last ∧
    last.tickResult ≠ .ok .running

/-- The number of calls of the host after which somebody asks to stop. -/
noncomputable def stopCall (session : Session σ) : ℕ∞ :=
  firstOf fun n => ∃ last, loop.rounds host n session = some last ∧
    host.stopRequested last.state = true

/-- The number of periods after which the budget is used up. -/
def budgetCall : ℕ :=
  loop.budget.nanos ⌈/⌉ loop.period.nanos

/-- How a run that made a number of ticks has ended: the session that it leaves,
reached by as many calls of the host as are counted, and its answer. -/
inductive Ending (session : Session σ) :
    ℕ → Session σ × Except RunFailure RunSummary → Prop
  | completed {calls : ℕ} {last : Session σ}
      (hrounds : loop.rounds host calls session = some last)
      (hfirst : loop.endingTick host session ≤ min (loop.stopCall host session) loop.budgetCall)
      (hresult : last.tickResult = .ok .completed) :
      Ending session (calls + 1) (last.tick, .ok
        { outcome := .completed
          ticks := session.engine.ticks + (calls + 1)
          elapsed := ⟨calls * loop.period.nanos⟩ })
  | failed {calls : ℕ} {last : Session σ} {error : RoutineError}
      (hrounds : loop.rounds host calls session = some last)
      (hfirst : loop.endingTick host session ≤ min (loop.stopCall host session) loop.budgetCall)
      (hresult : last.tickResult = .error error) :
      Ending session (calls + 1) (last.tick, .error (.routine error))
  | interrupted {calls : ℕ} {last : Session σ}
      (hrounds : loop.rounds host calls session = some last)
      (hlate : min (loop.stopCall host session) loop.budgetCall < loop.endingTick host session)
      (hfirst : loop.stopCall host session ≤ loop.budgetCall) :
      Ending session calls (last.abort, .ok
        { outcome := .interrupted
          ticks := session.engine.ticks + calls
          elapsed := ⟨calls * loop.period.nanos⟩ })
  | budgetExpired {calls : ℕ} {last : Session σ}
      (hrounds : loop.rounds host calls session = some last)
      (hlate : min (loop.stopCall host session) loop.budgetCall < loop.endingTick host session)
      (hfirst : loop.budgetCall < loop.stopCall host session) :
      Ending session calls (last.abort, .ok
        { outcome := .budgetExpired
          ticks := session.engine.ticks + calls
          elapsed := ⟨calls * loop.period.nanos⟩ })

variable {loop host} {session : Session σ}

theorem round_eq_some {last next : Session σ} (h : loop.round host last = some next) :
    last.tickResult = .ok .running ∧ host.between loop.period last.tick = some next := by
  rw [round] at h
  split at h
  · next hresult => exact ⟨hresult, h⟩
  · cases h

theorem rounds_succ {n : ℕ} {next : Session σ} (h : loop.rounds host (n + 1) session = some next) :
    ∃ last, loop.rounds host n session = some last ∧ last.tickResult = .ok .running ∧
      host.between loop.period last.tick = some next := by
  obtain ⟨last, hlast, hround⟩ := Option.bind_eq_some_iff.mp h
  exact ⟨last, hlast, round_eq_some hround⟩

theorem clock_of_rounds (hpasses : ∀ {before after : Session σ},
      host.between loop.period before = some after → Passes loop.period before after)
    {n : ℕ} {last : Session σ} (h : loop.rounds host n session = some last) :
    last.robot.clock.nanos = session.robot.clock.nanos + n * loop.period.nanos := by
  induction n generalizing last with
  | zero =>
      obtain rfl := Option.some.inj h
      rw [Nat.zero_mul, Nat.add_zero]
  | succ n ih =>
      obtain ⟨before, hbefore, -, hbetween⟩ := rounds_succ h
      rw [(hpasses hbetween).clock, before.clock_tick, ih hbefore, Nat.succ_mul, Nat.add_assoc]

theorem lt_budgetCall_iff (hperiod : 0 < loop.period.nanos) {n : ℕ} :
    n < loop.budgetCall ↔ n * loop.period.nanos < loop.budget.nanos := by
  rw [← not_le, budgetCall, ceilDiv_le_iff_le_mul hperiod, not_le, Nat.mul_comm]

/-- Whether the host keeps time in every call that the loop makes. -/
def KeepsTime (loop : HostLoop) (host : Host σ) (session : Session σ) : Prop :=
  ∀ (n : ℕ) (last : Session σ), loop.rounds host n session = some last →
    last.tickResult = .ok .running → (n : ℕ∞) < loop.stopCall host session →
    n < loop.budgetCall →
      ∃ next, host.between loop.period last.tick = some next ∧ Passes loop.period last.tick next

section Rounds

variable (hhost : loop.KeepsTime host session) (hstatus : session.engine.status = .running)
include hhost hstatus

/-- What is known of the session after some rounds: as many ticks were made and
as many periods have passed, and the engine is running. -/
theorem session_of_rounds {n : ℕ} {last : Session σ}
    (h : loop.rounds host n session = some last) (hstop : (n : ℕ∞) ≤ loop.stopCall host session)
    (hbudget : n ≤ loop.budgetCall) :
    last.engine.ticks = session.engine.ticks + n ∧ last.engine.status = .running ∧
      last.robot.clock.nanos = session.robot.clock.nanos + n * loop.period.nanos := by
  induction n generalizing last with
  | zero =>
      obtain rfl := Option.some.inj h
      exact ⟨rfl, hstatus, by rw [Nat.zero_mul, Nat.add_zero]⟩
  | succ n ih =>
      have hlt : (n : ℕ∞) < loop.stopCall host session :=
        lt_of_lt_of_le (by exact_mod_cast Nat.lt_succ_self n) hstop
      obtain ⟨before, hbefore, hresult, hbetween⟩ := rounds_succ h
      obtain ⟨hticks, hrunning, hclock⟩ := ih hbefore hlt.le (Nat.le_of_succ_le hbudget)
      obtain ⟨next, hnext, hpasses⟩ := hhost n before hbefore hresult hlt hbudget
      obtain rfl := Option.some.inj (hbetween.symm.trans hnext)
      obtain ⟨hcount, hstill, -⟩ := Session.ticks_tick hrunning
      refine ⟨?_, hpasses.status.trans (hstill.mpr hresult), ?_⟩
      · rw [hpasses.ticks, hcount, hticks, Nat.add_assoc]
      · rw [hpasses.clock, before.clock_tick, hclock, Nat.succ_mul, Nat.add_assoc]

omit hstatus in
/-- Until one of the three numbers is reached there is a next round. -/
theorem exists_rounds {n : ℕ} (hend : (n : ℕ∞) < loop.endingTick host session)
    (hstop : (n : ℕ∞) ≤ loop.stopCall host session) (hbudget : n ≤ loop.budgetCall) :
    ∃ last, loop.rounds host n session = some last := by
  induction n with
  | zero => exact ⟨session, rfl⟩
  | succ n ih =>
      have hsucc : (n : ℕ∞) < ((n + 1 : ℕ) : ℕ∞) := by exact_mod_cast Nat.lt_succ_self n
      obtain ⟨last, hlast⟩ := ih (hsucc.trans hend) (hsucc.le.trans hstop)
        (Nat.le_of_succ_le hbudget)
      have hresult : last.tickResult = .ok .running := by
        by_contra hresult
        exact not_of_lt_firstOf hend ⟨n, last, rfl, hlast, hresult⟩
      obtain ⟨next, hnext, -⟩ := hhost n last hlast hresult (hsucc.trans_le hstop) hbudget
      exact ⟨next, by rw [rounds, hlast, Option.bind_some, round, hresult, hnext]⟩

end Rounds

end HostLoop

/-! ## The simulation keeps time -/

namespace CommandLine

variable {loop : HostLoop} {session next : Session Unit}

/-- Between two ticks of the simulation the workers do a round, the robot moves
and the clock goes on, in this order, and only the clock can refuse. -/
theorem simulation_between (session : Session Unit) (period : Duration) :
    simulation.between period session =
      (session.robot.clock.add? period).map fun clock =>
        { session with
          engine := (session.engine.iterateWorkers session.robot).1
          robot :=
            { (session.engine.root.iterateWorkers session.robot).2.move period with clock } } := by
  have hclock : ((session.engine.root.iterateWorkers session.robot).2.move period).clock =
      session.robot.clock :=
    congrArg Conditions.clock (Command.conditions_iterateWorkers session.engine.root session.robot)
  simp only [simulation, Engine.iterateWorkers, Robot.advance?, Robot.advanceClock?, hclock,
    Option.map_map]
  rfl

theorem passes_of_simulation_between {period : Duration}
    (h : simulation.between period session = some next) : Passes period session next := by
  rw [simulation_between, Duration.add?] at h
  split at h
  · obtain rfl := Option.some.inj h
    exact ⟨rfl, rfl, session.engine.status_iterateWorkers session.robot⟩
  · exact nomatch h

/-- The simulation keeps time as long as its clock can hold the budget and one
period more. -/
theorem keepsTime_simulation (hperiod : 0 < loop.period.nanos)
    (h : session.robot.clock.nanos + loop.budget.nanos + loop.period.nanos ≤
      Duration.longest.nanos) : loop.KeepsTime simulation session := by
  intro n last hrounds _ _ hbudget
  have hclock := HostLoop.clock_of_rounds passes_of_simulation_between hrounds
  have hwithin := (HostLoop.lt_budgetCall_iff hperiod).mp hbudget
  have hsum : last.tick.robot.clock.nanos + loop.period.nanos ≤ Duration.longest.nanos := by
    rw [last.clock_tick, hclock]
    omega
  cases hnext : simulation.between loop.period last.tick with
  | some next => exact ⟨next, rfl, passes_of_simulation_between hnext⟩
  | none =>
      rw [simulation_between, Duration.add?, if_pos hsum] at hnext
      exact nomatch hnext

end CommandLine

namespace HostLoop

variable {σ : Type} {loop : HostLoop} {host : Host σ} {session : Session σ}

/-! ## The loop makes the rounds -/

theorem breakOff_eq (started : Duration) (outcome : RunOutcome) (last : Session σ) :
    breakOff started outcome last =
      (last.abort, .ok
        { outcome, ticks := last.engine.ticks, elapsed := last.robot.clock.since started }) := by
  rw [← last.ticks_abort, ← last.clock_abort]
  rfl

theorem budget_le_iff (hperiod : 0 < loop.period.nanos) {n : ℕ} {started now : Duration}
    (hclock : now.nanos = started.nanos + n * loop.period.nanos) :
    loop.budget ≤ now.since started ↔ loop.budgetCall ≤ n := by
  have helapsed : (now.since started).nanos = n * loop.period.nanos := by
    rw [Duration.since, hclock, Nat.add_sub_cancel_left]
  rw [budgetCall, ceilDiv_le_iff_le_mul hperiod, Nat.mul_comm, ← helapsed]
  rfl

theorem since_eq {n : ℕ} {started now : Duration}
    (hclock : now.nanos = started.nanos + n * loop.period.nanos) :
    now.since started = ⟨n * loop.period.nanos⟩ := by
  rw [Duration.since, hclock, Nat.add_sub_cancel_left]

/-- As long as the clock goes on by the period, nobody asks to stop and the budget
lasts, the loop looks at request and budget in vain and makes the round. -/
theorem runFrom_of_clock (hperiod : 0 < loop.period.nanos) (limit : ℕ) {n : ℕ} {last : Session σ}
    (h : loop.rounds host n session = some last)
    (hclock : ∀ k < n, ∀ before, loop.rounds host k session = some before →
      before.robot.clock.nanos = session.robot.clock.nanos + k * loop.period.nanos)
    (hstop : (n : ℕ∞) ≤ loop.stopCall host session) (hbudget : n ≤ loop.budgetCall) :
    loop.runFrom host session.robot.clock (limit + n) session =
      loop.runFrom host session.robot.clock limit last := by
  induction n generalizing last limit with
  | zero =>
      obtain rfl := Option.some.inj h
      rfl
  | succ n ih =>
      have hlt : (n : ℕ∞) < loop.stopCall host session :=
        lt_of_lt_of_le (by exact_mod_cast Nat.lt_succ_self n) hstop
      obtain ⟨before, hbefore, hresult, hbetween⟩ := rounds_succ h
      rw [← Nat.add_assoc, Nat.add_right_comm, ih (limit + 1) hbefore
        (fun k hk => hclock k (by omega)) hlt.le (Nat.le_of_succ_le hbudget)]
      rw [runFrom, if_neg fun hasked => not_of_lt_firstOf hlt ⟨before, hbefore, hasked⟩,
        if_neg fun hspent => absurd
          ((budget_le_iff hperiod (hclock n (by omega) before hbefore)).mp hspent)
          (Nat.not_le_of_gt hbudget)]
      have htick : (before.engine.tick before.robot).result = .ok .running := hresult
      simp only [htick]
      have hcall : host.between loop.period before.tick = some last := hbetween
      rw [Session.tick] at hcall
      rw [hcall]

section Run

variable (hhost : loop.KeepsTime host session) (hstatus : session.engine.status = .running)
  (hperiod : 0 < loop.period.nanos)
include hhost hstatus hperiod

theorem runFrom_of_rounds (limit : ℕ) {n : ℕ} {last : Session σ}
    (h : loop.rounds host n session = some last) (hstop : (n : ℕ∞) ≤ loop.stopCall host session)
    (hbudget : n ≤ loop.budgetCall) :
    loop.runFrom host session.robot.clock (limit + n) session =
      loop.runFrom host session.robot.clock limit last := by
  refine runFrom_of_clock hperiod limit h (fun k hk before hbefore => ?_) hstop hbudget
  have hearlier : (k : ℕ∞) ≤ n := by exact_mod_cast hk.le
  exact (session_of_rounds hhost hstatus hbefore (hearlier.trans hstop)
    (hk.le.trans hbudget)).2.2

/-- The first tick that does not leave the routine running ends the loop, also
when a request to stop or the end of the budget would have come right after it. -/
theorem runFrom_of_endingTick (limit : ℕ) {made : ℕ}
    (hmade : loop.endingTick host session = made)
    (hfirst : loop.endingTick host session ≤ min (loop.stopCall host session) loop.budgetCall) :
    loop.Ending host session made
      (loop.runFrom host session.robot.clock (limit + made) session) := by
  obtain ⟨calls, last, rfl, hrounds, hresult⟩ := of_firstOf_eq hmade
  have hlast := hfirst
  rw [hmade, le_min_iff] at hlast
  have hlt : (calls : ℕ∞) < loop.stopCall host session :=
    lt_of_lt_of_le (by exact_mod_cast Nat.lt_succ_self calls) hlast.1
  have hbudget : calls < loop.budgetCall := by exact_mod_cast hlast.2
  obtain ⟨hticks, hrunning, hclock⟩ :=
    session_of_rounds hhost hstatus hrounds hlt.le hbudget.le
  obtain ⟨hcount, -, hnotAborted⟩ := Session.ticks_tick hrunning
  rw [← Nat.add_assoc, Nat.add_right_comm,
    runFrom_of_rounds hhost hstatus hperiod (limit + 1) hrounds hlt.le hbudget.le]
  rw [runFrom, if_neg fun hasked => not_of_lt_firstOf hlt ⟨last, hrounds, hasked⟩,
    if_neg fun hspent => absurd ((budget_le_iff hperiod hclock).mp hspent)
      (Nat.not_le_of_gt hbudget)]
  have htick : (last.engine.tick last.robot).result = last.tickResult := rfl
  have hafter : last.tick.robot.clock.since session.robot.clock = ⟨calls * loop.period.nanos⟩ := by
    rw [last.clock_tick, since_eq hclock]
  rw [hticks, Nat.add_assoc] at hcount
  simp only [htick]
  split
  · next error herror => exact .failed hrounds hfirst herror
  · next hcompleted =>
      have h := Ending.completed hrounds hfirst hcompleted
      rw [← hcount, ← hafter] at h
      exact h
  · next haborted => exact absurd haborted hnotAborted
  · next hstill => exact absurd hstill hresult

/-- A request to stop, or the end of the budget, ends the loop before its next
tick; the request is seen first. -/
theorem runFrom_of_min (limit : ℕ) {made : ℕ}
    (hmade : min (loop.stopCall host session) loop.budgetCall = made)
    (hlate : min (loop.stopCall host session) loop.budgetCall < loop.endingTick host session) :
    loop.Ending host session made
      (loop.runFrom host session.robot.clock (limit + 1 + made) session) := by
  have hstop : (made : ℕ∞) ≤ loop.stopCall host session := hmade ▸ min_le_left _ _
  have hbudget : made ≤ loop.budgetCall := by
    exact_mod_cast hmade ▸ min_le_right (loop.stopCall host session) (loop.budgetCall : ℕ∞)
  obtain ⟨last, hrounds⟩ := exists_rounds hhost (hmade ▸ hlate) hstop hbudget
  obtain ⟨hticks, -, hclock⟩ := session_of_rounds hhost hstatus hrounds hstop hbudget
  rw [runFrom_of_rounds hhost hstatus hperiod (limit + 1) hrounds hstop hbudget, runFrom,
    breakOff_eq, breakOff_eq, since_eq hclock, hticks]
  rcases le_or_gt (loop.stopCall host session) loop.budgetCall with hfirst | hfirst
  · rw [min_eq_left hfirst] at hmade
    obtain ⟨asked, hasked, hrequest⟩ := of_firstOf_eq hmade
    obtain rfl := Option.some.inj (hrounds.symm.trans hasked)
    rw [if_pos hrequest]
    exact .interrupted hrounds hlate hfirst
  · have hcall : loop.budgetCall = made := by
      rw [min_eq_right hfirst.le] at hmade
      exact_mod_cast hmade
    rw [if_neg fun hrequest => not_of_lt_firstOf (hcall ▸ hfirst) ⟨last, hrounds, hrequest⟩]
    have hspent : loop.budget ≤ (⟨made * loop.period.nanos⟩ : Duration) := by
      rw [← since_eq hclock]
      exact (budget_le_iff hperiod hclock).mpr hcall.le
    rw [if_pos hspent]
    exact .budgetExpired hrounds hlate hfirst

omit hperiod in
/-- Every way out leaves an engine that has made the ticks and does not run. -/
theorem engine_of_ending {made : ℕ} {left : Session σ × Except RunFailure RunSummary}
    (h : loop.Ending host session made left)
    (hstop : (made : ℕ∞) ≤ loop.stopCall host session) (hbudget : made ≤ loop.budgetCall) :
    left.1.engine.ticks = session.engine.ticks + made ∧ left.1.engine.status ≠ .running := by
  have hticked : ∀ (calls : ℕ) (last : Session σ), made = calls + 1 →
      loop.rounds host calls session = some last → last.tickResult ≠ .ok .running →
      last.tick.engine.ticks = session.engine.ticks + made ∧
        last.tick.engine.status ≠ .running := by
    rintro calls last rfl hrounds hresult
    obtain ⟨hticks, hrunning, -⟩ := session_of_rounds hhost hstatus hrounds
      (le_trans (by exact_mod_cast Nat.le_succ calls) hstop) (Nat.le_of_succ_le hbudget)
    obtain ⟨hcount, hstill, -⟩ := Session.ticks_tick hrunning
    refine ⟨?_, fun hrun => hresult (hstill.mp hrun)⟩
    rw [hcount, hticks, Nat.add_assoc]
  have haborted : ∀ last : Session σ, loop.rounds host made session = some last →
      last.abort.engine.ticks = session.engine.ticks + made ∧
        last.abort.engine.status ≠ .running := by
    intro last hrounds
    obtain ⟨hticks, -, -⟩ := session_of_rounds hhost hstatus hrounds hstop hbudget
    exact ⟨last.ticks_abort.trans hticks, last.status_abort⟩
  cases h with
  | completed hrounds _ hresult => exact hticked _ _ rfl hrounds (by rw [hresult]; decide)
  | failed hrounds _ hresult => exact hticked _ _ rfl hrounds (by rw [hresult]; exact nofun)
  | interrupted hrounds => exact haborted _ hrounds
  | budgetExpired hrounds => exact haborted _ hrounds

omit hhost hstatus in
theorem budgetCall_lt_tickLimit : loop.budgetCall < loop.tickLimit := by
  rw [tickLimit, Nat.lt_succ_iff, budgetCall, ceilDiv_le_iff_le_mul hperiod, Nat.mul_add_one]
  exact (Nat.lt_mul_div_succ _ hperiod).le

end Run

/-- The loop makes as many ticks as the least of the three numbers says, and
ends in the way of the first of them; the limit on its rounds is out of reach. -/
theorem run_makes_least (hhost : loop.KeepsTime host session)
    (hstatus : session.engine.status = .running) (hperiod : 0 < loop.period.nanos) :
    ∃ made : ℕ,
      (made : ℕ∞) =
        min (loop.endingTick host session) (min (loop.stopCall host session) loop.budgetCall) ∧
      ∀ limit, loop.tickLimit ≤ limit →
        loop.Ending host session made (loop.run host limit session) ∧
        (loop.run host limit session).1.engine.ticks = session.engine.ticks + made ∧
        (loop.run host limit session).1.engine.status ≠ .running := by
  have hfinite : min (loop.endingTick host session)
      (min (loop.stopCall host session) loop.budgetCall) ≤ (loop.budgetCall : ℕ∞) :=
    (min_le_right _ _).trans (min_le_right _ _)
  obtain ⟨made, hmade, hbudget⟩ := ENat.le_natCast_iff.mp hfinite
  refine ⟨made, hmade.symm, fun limit hlimit => ?_⟩
  -- One round of the limit is for the last look at the session, which may make no tick.
  have hleft : made + 1 ≤ limit := Nat.succ_le_of_lt
    (hbudget.trans_lt ((budgetCall_lt_tickLimit hperiod).trans_le hlimit))
  have hending : loop.Ending host session made (loop.run host limit session) := by
    rw [run, ← Nat.sub_add_cancel hleft]
    rcases le_or_gt (loop.endingTick host session)
      (min (loop.stopCall host session) loop.budgetCall) with hfirst | hlate
    · rw [← Nat.add_assoc, Nat.add_right_comm]
      exact runFrom_of_endingTick hhost hstatus hperiod _ (min_eq_left hfirst ▸ hmade) hfirst
    · rw [Nat.add_comm made 1, ← Nat.add_assoc]
      exact runFrom_of_min hhost hstatus hperiod _ (min_eq_right hlate.le ▸ hmade) hlate
  refine ⟨hending, engine_of_ending hhost hstatus hending ?_ hbudget⟩
  exact hmade ▸ (min_le_right _ _).trans (min_le_left _ _)

/-- A tank drive of three nanoseconds is looked at by a simulation with a period
of two: it is done at the third tick, after two periods, well within its budget. -/
theorem run_makes_least_simulated :
    let loop : HostLoop := ⟨⟨2⟩, ⟨10⟩⟩
    let session : Session Unit :=
      ⟨.ofRoot (.timed "tank" ⟨3⟩ (.tank 1 1)), .ofParameters {}, ()⟩
    let run := loop.run CommandLine.simulation loop.tickLimit session
    (loop.KeepsTime CommandLine.simulation session ∧ session.engine.status = .running ∧
        0 < loop.period.nanos) ∧
      min (loop.endingTick CommandLine.simulation session)
        (min (loop.stopCall CommandLine.simulation session) loop.budgetCall) = 3 ∧
      loop.Ending CommandLine.simulation session 3 run ∧
      run.2 = .ok { outcome := .completed, ticks := 3, elapsed := ⟨4⟩ } := by
  intro loop session run
  have hperiod : 0 < loop.period.nanos := by decide
  have hkeeps : loop.KeepsTime CommandLine.simulation session :=
    CommandLine.keepsTime_simulation hperiod (by decide +kernel)
  have hstatus : session.engine.status = .running := by decide +kernel
  have hrun : run.2 = .ok { outcome := .completed, ticks := 3, elapsed := ⟨4⟩ } := by
    decide +kernel
  have hticks : run.1.engine.ticks = 3 := by decide +kernel
  obtain ⟨made, hmade, hending⟩ := run_makes_least hkeeps hstatus hperiod
  obtain ⟨hending, hcount, -⟩ := hending loop.tickLimit (Nat.le_refl _)
  obtain rfl : made = 3 := by
    have hcount : 3 = 0 + made := hticks.symm.trans hcount
    omega
  exact ⟨⟨hkeeps, hstatus, hperiod⟩, hmade.symm, hending, hrun⟩

end HostLoop

end RobotRoutine
