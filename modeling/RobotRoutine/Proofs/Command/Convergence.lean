import RobotRoutine.Proofs.Command.Debounce
import RobotRoutine.Proofs.Command.Equivalence

/-!
# When a feedback loop is done

A convergence command is given one reading of its sensor at each poll. It is done
at the first poll of two kinds: one whose reading is a fault, and one that ends a
row of readings around the target which is as long as it takes. The verdict of a
poll is said here of the readings alone (`Verdict`), so the controllers, the other
sensor and everything else about the robot have no say in it, and each poll may
find another robot.

As long as the command is not done, the count in it has been given the errors of
all readings so far (`isUnderWay_polledUnder`), so the next reading decides, by
`Debounce.isSettled_after_iff`, what the next poll is answered with.
-/

namespace RobotRoutine

/-- What a sensor answers. -/
abbrev Reading := Except SensorFault Float

/-- What a feedback loop is to come to: which value, how closely, and how many times in a row. -/
structure Goal where
  target : Float
  tolerance : Float
  required : UInt32

namespace Goal

variable (goal : Goal) (readings : ℕ → Reading) (n : ℕ)

/-- Whether a reading lies around the target. -/
def IsMetBy (reading : Reading) : Prop :=
  ∃ value, reading = .ok value ∧ (value - goal.target).abs < goal.tolerance

/-- Whether the readings up to one end with as many around the target as it takes. -/
structure SettledAt : Prop where
  enough : goal.required.toNat ≤ n + 1
  met : ∀ k ≤ n, n < k + goal.required.toNat → goal.IsMetBy (readings k)

/-- Whether a reading is one after which there is nothing left to do. -/
def EndsAt : Prop :=
  (∃ fault, readings n = .error fault) ∨ goal.SettledAt readings n

/-- What the poll that takes a reading is answered with. -/
inductive Verdict (name : String) : Except RoutineError Phase → Prop
  | running (h : ∀ k ≤ n, ¬ goal.EndsAt readings k) : Verdict name (.ok .running)
  | faulted {fault : SensorFault} (hfirst : ∀ k < n, ¬ goal.EndsAt readings k)
      (hfault : readings n = .error fault) : Verdict name (.error (.sensor name fault))
  | settled {value : Float} (hfirst : ∀ k < n, ¬ goal.EndsAt readings k)
      (hvalue : readings n = .ok value) (h : goal.SettledAt readings n) :
      Verdict name (.ok .completed)
  | past {k : ℕ} (hk : k < n) (h : goal.EndsAt readings k) : Verdict name (.ok .completed)

/-- How far a reading is from the target; a fault is not far, and never asked. -/
def errorOf : Reading → Float
  | .ok value => value - goal.target
  | .error _ => 0

/-- A count that has seen no reading yet. -/
def count : Debounce :=
  .start goal.tolerance goal.required

variable {goal readings n} {name : String}

theorem not_endsAt_iff :
    ¬ goal.EndsAt readings n ↔
      (∃ value, readings n = .ok value) ∧ ¬ goal.SettledAt readings n := by
  rw [EndsAt, not_or]
  refine and_congr_left fun _ => ?_
  cases readings n with
  | error fault => simp
  | ok value => simp

/-- The readings alone decide on the verdict. -/
theorem Verdict.unique {first second : Except RoutineError Phase}
    (hfirst : goal.Verdict readings n name first)
    (hsecond : goal.Verdict readings n name second) : first = second := by
  cases hfirst with
  | running h =>
      cases hsecond with
      | running => rfl
      | faulted _ hfault => exact absurd (.inl ⟨_, hfault⟩) (h n (Nat.le_refl _))
      | settled _ _ hsettled => exact absurd (.inr hsettled) (h n (Nat.le_refl _))
      | past hk hends => exact absurd hends (h _ (Nat.le_of_lt hk))
  | faulted h hfault =>
      cases hsecond with
      | running hrunning => exact absurd (.inl ⟨_, hfault⟩) (hrunning n (Nat.le_refl _))
      | faulted _ hfault' =>
          obtain rfl := Except.error.inj (hfault.symm.trans hfault')
          rfl
      | settled _ hvalue => exact nomatch hfault.symm.trans hvalue
      | past hk hends => exact absurd hends (h _ hk)
  | settled h hvalue hsettled =>
      cases hsecond with
      | running hrunning => exact absurd (.inr hsettled) (hrunning n (Nat.le_refl _))
      | faulted _ hfault => exact nomatch hvalue.symm.trans hfault
      | settled | past => rfl
  | past hk hends =>
      cases hsecond with
      | running hrunning => exact absurd hends (hrunning _ (Nat.le_of_lt hk))
      | faulted h => exact absurd hends (h _ hk)
      | settled | past => rfl

/-- As long as all readings were values, the count that was given their errors has
settled exactly if the last of them lie around the target. -/
theorem isSettled_count_iff (h : ∀ k ≤ n, ∃ value, readings k = .ok value) :
    (goal.count.after ((List.range (n + 1)).map fun k => goal.errorOf (readings k))).isSettled
      = true ↔ goal.SettledAt readings n := by
  have hmet : ∀ k ≤ n, Debounce.inTolerance goal.tolerance (goal.errorOf (readings k)) = true ↔
      goal.IsMetBy (readings k) := by
    intro k hk
    obtain ⟨value, hvalue⟩ := h k hk
    rw [hvalue, errorOf, Debounce.inTolerance, decide_eq_true_iff]
    constructor
    · intro hnear
      exact ⟨value, rfl, hnear⟩
    · intro hmet
      obtain ⟨_, hsame, hnear⟩ := hmet
      exact Except.ok.inj hsame ▸ hnear
  rw [count, Debounce.isSettled_after_iff, le_trailingRun_range_iff]
  constructor
  · rintro ⟨henough, hrun⟩
    exact ⟨henough, fun k hk hlate => (hmet k hk).mp (hrun k (by omega) (by omega))⟩
  · rintro ⟨henough, hrun⟩
    exact ⟨henough, fun k hk hlate =>
      (hmet k (by omega)).mpr (hrun k (by omega) (by omega))⟩

end Goal

namespace Command

theorem sensor_engage (mode : ConvergenceMode) (target : Float) (robot : Robot) :
    mode.sensor (mode.engage target robot) = mode.sensor robot := by
  cases mode <;> rfl

/-! ## One poll -/

section Poll

variable {mode : ConvergenceMode} {target measured : Float} {count : Debounce} {robot : Robot}

theorem pollLeaf_of_fault {fault : SensorFault} (h : (mode.sensor robot).read = .error fault)
    (name : String) :
    pollLeaf name (.convergence mode target count measured) robot =
      ⟨.leaf name .completed (.convergence mode target count measured), mode.disengage robot,
        some (.sensor name fault)⟩ := by
  rw [pollLeaf, Leaf.run, h]
  rfl

theorem pollLeaf_of_value {value : Float} (h : (mode.sensor robot).read = .ok value)
    (name : String) (target : Float) (count : Debounce) (measured : Float) :
    ∃ robot', pollLeaf name (.convergence mode target count measured) robot =
      ⟨.leaf name (if (count.update (value - target)).isSettled then .completed else .running)
        (.convergence mode target (count.update (value - target)) value), robot', none⟩ := by
  rw [pollLeaf, Leaf.run, h]
  simp only [Leaf.check, Polled.finishIf, Option.isSome_none, Bool.false_or]
  cases (count.update (value - target)).isSettled with
  | true => exact ⟨_, rfl⟩
  | false => exact ⟨_, rfl⟩

theorem poll_convergence {phase : Phase} (hphase : phase ≠ .completed) (name : String)
    (robot : Robot) :
    ∃ before, (mode.sensor before).read = (mode.sensor robot).read ∧
      (Command.leaf name phase (.convergence mode target count measured)).poll robot =
        pollLeaf name (.convergence mode target count measured) before := by
  cases phase with
  | notStarted =>
      exact ⟨mode.engage target robot, by rw [sensor_engage], rfl⟩
  | running => exact ⟨robot, rfl, rfl⟩
  | completed => exact absurd rfl hphase

end Poll

/-- Whether a command is completed and no poll will ever do anything to it. -/
structure IsSpent (command : Command) : Prop where
  completed : command.phase = .completed
  poll : ∀ robot, command.poll robot = ⟨command, robot, none⟩
  calls : ∀ robot, (command.pollRecorded robot).item.2 = []

theorem isSpent_of_phase_completed {command : Command} (h : command.phase = .completed) :
    command.IsSpent where
  completed := h
  poll := poll_of_phase_completed h
  calls robot := by cases command <;> cases h <;> rfl

/-! ## One poll after another -/

/-- The command after some polls, each of which finds a robot of its own. -/
def polledUnder (command : Command) (robots : ℕ → Robot) : ℕ → Command
  | 0 => command
  | n + 1 => ((polledUnder command robots n).poll (robots n)).item

/-- The poll that finds one of these robots. -/
def pollAt (command : Command) (robots : ℕ → Robot) (n : ℕ) : Polled Command :=
  (command.polledUnder robots n).poll (robots n)

variable (name : String) (mode : ConvergenceMode) (goal : Goal) (robots : ℕ → Robot)

/-- A feedback loop towards a goal, with nothing done yet. -/
def towards : Command :=
  .convergence name mode goal.target goal.tolerance goal.required

/-- What the mode's sensor answers at each poll. -/
def readingsOf (n : ℕ) : Reading :=
  (mode.sensor (robots n)).read

variable {name mode goal robots} {n : ℕ}

/-- The errors of all readings before a poll. -/
def countBefore (mode : ConvergenceMode) (goal : Goal) (robots : ℕ → Robot) (n : ℕ) : Debounce :=
  goal.count.after ((List.range n).map fun k => goal.errorOf (readingsOf mode robots k))

theorem countBefore_succ {value : Float} (h : readingsOf mode robots n = .ok value) :
    (countBefore mode goal robots n).update (value - goal.target) =
      countBefore mode goal robots (n + 1) := by
  rw [countBefore, countBefore, List.range_succ, List.map_append, List.map_singleton,
    Debounce.after_concat, h]
  rfl

/-- Whether a command has taken note of the readings before a poll, and is not done. -/
def IsUnderWay (name : String) (mode : ConvergenceMode) (goal : Goal) (robots : ℕ → Robot) (n : ℕ)
    (command : Command) : Prop :=
  ∃ phase measured, phase ≠ .completed ∧ command =
    .leaf name phase (.convergence mode goal.target (countBefore mode goal robots n) measured)

/-- The poll of a command that is not done: the reading that it takes decides. -/
theorem poll_of_isUnderWay {command : Command} (h : IsUnderWay name mode goal robots n command)
    (hfirst : ∀ k < n, ¬ goal.EndsAt (readingsOf mode robots) k) :
    goal.Verdict (readingsOf mode robots) n name (command.poll (robots n)).result ∧
      (goal.EndsAt (readingsOf mode robots) n →
        (command.poll (robots n)).item.phase = .completed) ∧
      (¬ goal.EndsAt (readingsOf mode robots) n →
        IsUnderWay name mode goal robots (n + 1) (command.poll (robots n)).item) := by
  obtain ⟨phase, measured, hphase, rfl⟩ := h
  obtain ⟨before, hread, hpoll⟩ := poll_convergence hphase name (robots n)
  rw [hpoll]
  cases hreading : readingsOf mode robots n with
  | error fault =>
      have hends : goal.EndsAt (readingsOf mode robots) n := .inl ⟨fault, hreading⟩
      rw [pollLeaf_of_fault (hread.trans hreading)]
      exact ⟨.faulted hfirst hreading, fun _ => rfl, fun h => absurd hends h⟩
  | ok value =>
      have hvalues : ∀ k ≤ n, ∃ value, readingsOf mode robots k = .ok value := by
        intro k hk
        rcases Nat.lt_or_eq_of_le hk with hlt | rfl
        · exact (Goal.not_endsAt_iff.mp (hfirst k hlt)).1
        · exact ⟨value, hreading⟩
      have hsettled : (countBefore mode goal robots (n + 1)).isSettled = true ↔
          goal.SettledAt (readingsOf mode robots) n := Goal.isSettled_count_iff hvalues
      obtain ⟨robot, hafter⟩ := pollLeaf_of_value (hread.trans hreading) name goal.target
        (countBefore mode goal robots n) measured
      rw [hafter, countBefore_succ hreading]
      by_cases hnow : goal.SettledAt (readingsOf mode robots) n
      · rw [if_pos (hsettled.mpr hnow)]
        exact ⟨.settled hfirst hreading hnow, fun _ => rfl, fun h => absurd (.inr hnow) h⟩
      · have hgoesOn : ¬ goal.EndsAt (readingsOf mode robots) n :=
          Goal.not_endsAt_iff.mpr ⟨⟨value, hreading⟩, hnow⟩
        rw [if_neg (mt hsettled.mp hnow)]
        refine ⟨.running fun k hk => ?_, fun h => absurd h hgoesOn, fun _ => ?_⟩
        · rcases Nat.lt_or_eq_of_le hk with hlt | rfl
          · exact hfirst k hlt
          · exact hgoesOn
        · exact ⟨.running, value, nofun, rfl⟩

/-- Until a reading ends it, the command takes note of one reading after another. -/
theorem isUnderWay_polledUnder (h : ∀ k < n, ¬ goal.EndsAt (readingsOf mode robots) k) :
    IsUnderWay name mode goal robots n ((towards name mode goal).polledUnder robots n) := by
  induction n with
  | zero => exact ⟨.notStarted, 0, nofun, rfl⟩
  | succ n ih =>
      have hfirst : ∀ k < n, ¬ goal.EndsAt (readingsOf mode robots) k :=
        fun k hk => h k (Nat.lt_succ_of_lt hk)
      exact (poll_of_isUnderWay (ih hfirst) hfirst).2.2 (h n (Nat.lt_succ_self n))

/-- After a reading that ends it, the command is completed. -/
theorem phase_polledUnder_of_endsAt {k : ℕ} (hk : k < n)
    (h : goal.EndsAt (readingsOf mode robots) k) :
    ((towards name mode goal).polledUnder robots n).phase = .completed := by
  induction n generalizing k with
  | zero => exact absurd hk (Nat.not_lt_zero k)
  | succ n ih =>
      by_cases hearlier : ∃ k < n, goal.EndsAt (readingsOf mode robots) k
      · obtain ⟨j, hj, hends⟩ := hearlier
        rw [polledUnder, poll_of_phase_completed (ih hj hends)]
        exact ih hj hends
      · have hfirst : ∀ k < n, ¬ goal.EndsAt (readingsOf mode robots) k :=
          fun k hk hends => hearlier ⟨k, hk, hends⟩
        have hlast : k = n := (Nat.lt_succ_iff_lt_or_eq.mp hk).resolve_left fun hlt =>
          hfirst k hlt h
        exact (poll_of_isUnderWay (isUnderWay_polledUnder hfirst) hfirst).2.1 (hlast ▸ h)

theorem verdict_pollAt (name : String) (mode : ConvergenceMode) (goal : Goal)
    (robots : ℕ → Robot) (n : ℕ) :
    goal.Verdict (readingsOf mode robots) n name
      ((towards name mode goal).pollAt robots n).result := by
  by_cases hearlier : ∃ k < n, goal.EndsAt (readingsOf mode robots) k
  · obtain ⟨k, hk, hends⟩ := hearlier
    have hdone : ((towards name mode goal).polledUnder robots n).phase = .completed :=
      phase_polledUnder_of_endsAt hk hends
    rw [pollAt, poll_of_phase_completed hdone, Polled.result, hdone]
    exact .past hk hends
  · have hfirst : ∀ k < n, ¬ goal.EndsAt (readingsOf mode robots) k :=
      fun k hk hends => hearlier ⟨k, hk, hends⟩
    exact (poll_of_isUnderWay (isUnderWay_polledUnder hfirst) hfirst).1

/-- A convergence command is done at its first reading that is a fault or ends a long
enough row of readings around the target, and says so at this very poll. After that
every poll says that it is completed, calls none of its hooks and leaves any robot as
it is. What the mode's sensor reads at each poll is all that this depends on. -/
theorem settles_at_first_window (name : String) (mode : ConvergenceMode) (goal : Goal)
    (robots : ℕ → Robot) :
    (∀ n, goal.Verdict (readingsOf mode robots) n name
      ((towards name mode goal).pollAt robots n).result) ∧
    (∀ n, ∀ k ≤ n, goal.EndsAt (readingsOf mode robots) k →
      ((towards name mode goal).pollAt robots n).item.IsSpent) ∧
    (∀ others : ℕ → Robot, (∀ n, readingsOf mode others n = readingsOf mode robots n) →
      ∀ n, ((towards name mode goal).pollAt others n).result =
        ((towards name mode goal).pollAt robots n).result) := by
  refine ⟨verdict_pollAt name mode goal robots, fun n k hk hends => ?_, fun others hsame n => ?_⟩
  · exact isSpent_of_phase_completed (phase_polledUnder_of_endsAt (Nat.lt_succ_of_le hk) hends)
  · have hother := verdict_pollAt name mode goal others n
    rw [funext hsame] at hother
    exact hother.unique (verdict_pollAt name mode goal robots n)

/-- Ten, within one, twice in a row. The second reading is too far away, so the row that
counts is the one of the third and the fourth, and a gyro that is out of order is no matter. -/
theorem settles_at_first_window_four_readings :
    let goal : Goal := ⟨10, 1, 2⟩
    let robots : ℕ → Robot := fun n => (Robot.ofParameters {}).senseDistance fun encoder =>
      { encoder with value := [9.5, 5, 10.5, 9.5].getD n 0 }
    let others : ℕ → Robot := fun n => (robots n).senseHeading fun gyro =>
      { gyro with outOfOrder := some "unplugged" }
    let loop := towards "approach" .distance goal
    (goal.EndsAt (readingsOf .distance robots) 3 ∧
        ∀ n, readingsOf .distance others n = readingsOf .distance robots n) ∧
      (List.range 4).map (fun n => (loop.pollAt robots n).result) =
        [.ok .running, .ok .running, .ok .running, .ok .completed] ∧
      (loop.pollAt robots 3).item.IsSpent ∧
      ∀ n, (loop.pollAt others n).result = (loop.pollAt robots n).result := by
  intro goal robots others loop
  have hends : goal.EndsAt (readingsOf .distance robots) 3 := by
    refine .inr ⟨by decide, fun k hk hlate => ?_⟩
    have hlast : k = 2 ∨ k = 3 := by
      have hwindow : 3 < k + 2 := hlate
      omega
    rcases hlast with rfl | rfl
    · exact ⟨10.5, rfl, by decide +kernel⟩
    · exact ⟨9.5, rfl, by decide +kernel⟩
  have hsame : ∀ n, readingsOf .distance others n = readingsOf .distance robots n := fun _ => rfl
  obtain ⟨-, hspent, hothers⟩ := settles_at_first_window "approach" .distance goal robots
  exact ⟨⟨hends, hsame⟩, by decide +kernel, hspent 3 3 (Nat.le_refl _) hends,
    hothers others hsame⟩

end Command

end RobotRoutine
