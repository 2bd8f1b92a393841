import Mathlib.Data.List.Induction
import Mathlib.Data.List.TakeWhile
import Mathlib.Order.Bounds.Basic
import RobotRoutine.Command.Debounce

/-!
# The streak of a count is the run at the end

A count of errors in a row knows how many of the errors at the end of all that it
was given lay within its tolerance, up to the greatest number that it can hold.
What it takes to have settled is a number of the same kind, so a count that has
stopped counting has settled already, and the verdict is that of the run itself.
-/

namespace RobotRoutine

section TrailingRun

variable {α : Type} {p : α → Bool}

/-- How many elements at the end of a list have a property, without one between
them that has it not. -/
def trailingRun (p : α → Bool) (list : List α) : ℕ :=
  (list.reverse.takeWhile p).length

theorem trailingRun_concat (p : α → Bool) (list : List α) (a : α) :
    trailingRun p (list ++ [a]) = if p a = true then trailingRun p list + 1 else 0 := by
  rw [trailingRun, List.reverse_concat, List.takeWhile_cons]
  split
  · rfl
  · rfl

theorem isGreatest_trailingRun (p : α → Bool) (list : List α) :
    IsGreatest {n | ∃ run, run <:+ list ∧ (∀ a ∈ run, p a = true) ∧ run.length = n}
      (trailingRun p list) := by
  constructor
  · refine ⟨(list.reverse.takeWhile p).reverse, ?_, ?_, ?_⟩
    · rw [← List.reverse_prefix, List.reverse_reverse]
      exact List.takeWhile_prefix p
    · intro a ha
      exact List.mem_takeWhile_imp (List.mem_reverse.mp ha)
    · rw [List.length_reverse, trailingRun]
  · intro n h
    obtain ⟨run, ⟨before, hlist⟩, hrun, hlength⟩ := h
    have hreverse : ∀ a ∈ run.reverse, p a = true := fun a ha => hrun a (List.mem_reverse.mp ha)
    rw [trailingRun, ← hlist, List.reverse_append, List.takeWhile_append_of_pos hreverse,
      List.length_append, List.length_reverse, hlength]
    exact Nat.le_add_right n _

/-- The run at the end of the first values of a sequence. -/
theorem le_trailingRun_range_iff (f : ℕ → α) {length n : ℕ} :
    length ≤ trailingRun p ((List.range n).map f) ↔
      length ≤ n ∧ ∀ k < n, n ≤ k + length → p (f k) = true := by
  induction n generalizing length with
  | zero => simp [trailingRun]
  | succ n ih =>
      rw [List.range_succ, List.map_append, List.map_singleton, trailingRun_concat]
      cases length with
      | zero => exact ⟨fun _ => ⟨Nat.zero_le _, fun k hk hlate => by omega⟩, fun _ => Nat.zero_le _⟩
      | succ length =>
          by_cases hlast : p (f n) = true
          · rw [if_pos hlast, Nat.succ_le_succ_iff, ih, Nat.succ_le_succ_iff]
            refine and_congr_right fun _ => ⟨fun h k hk hlate => ?_, fun h k hk hlate => ?_⟩
            · rcases Nat.lt_succ_iff_lt_or_eq.mp hk with hlt | rfl
              · exact h k hlt (by omega)
              · exact hlast
            · exact h k (Nat.lt_succ_of_lt hk) (by omega)
          · rw [if_neg hlast]
            refine ⟨fun h => absurd h (Nat.not_succ_le_zero _), fun ⟨_, h⟩ => ?_⟩
            exact absurd (h n (Nat.lt_succ_self n) (by omega)) hlast

end TrailingRun

namespace Debounce

/-- The count after one error after another. -/
def after (count : Debounce) (errors : List Float) : Debounce :=
  errors.foldl update count

theorem after_concat (count : Debounce) (errors : List Float) (error : Float) :
    count.after (errors ++ [error]) = (count.after errors).update error := by
  rw [after, List.foldl_append]
  rfl

theorem toNat_streak_update (count : Debounce) (error : Float) :
    (count.update error).streak.toNat =
      if inTolerance count.tolerance error = true then min (count.streak.toNat + 1) 0xffffffff
      else 0 := by
  rw [update]
  split
  · have hlt := count.streak.toNat_lt
    by_cases hfull : count.streak = 0xffffffff
    · rw [if_pos hfull, hfull]
      rfl
    · have hne : count.streak.toNat ≠ 0xffffffff := fun h =>
        hfull (UInt32.toNat_inj.mp h)
      simp only [if_neg hfull, UInt32.toNat_add, UInt32.toNat_one]
      omega
  · rfl

theorem required_update (count : Debounce) (error : Float) :
    (count.update error).required = count.required ∧
      (count.update error).tolerance = count.tolerance := by
  rw [update]
  split
  · exact ⟨rfl, rfl⟩
  · exact ⟨rfl, rfl⟩

theorem required_after (count : Debounce) (errors : List Float) :
    (count.after errors).required = count.required ∧
      (count.after errors).tolerance = count.tolerance := by
  induction errors using List.reverseRecOn with
  | nil => exact ⟨rfl, rfl⟩
  | append_singleton errors error ih =>
      rw [after_concat, (required_update _ error).1, (required_update _ error).2]
      exact ih

/-- The streak is the run of errors within the tolerance at the end, as far as the
count can hold it. -/
theorem toNat_streak_after (tolerance : Float) (required : UInt32) (errors : List Float) :
    ((start tolerance required).after errors).streak.toNat =
      min (trailingRun (inTolerance tolerance) errors) 0xffffffff := by
  induction errors using List.reverseRecOn with
  | nil => rfl
  | append_singleton errors error ih =>
      have htolerance : ((start tolerance required).after errors).tolerance = tolerance :=
        (required_after _ errors).2
      rw [after_concat, toNat_streak_update, htolerance, ih, trailingRun_concat]
      split
      · omega
      · rfl

/-- A count has settled when the run at the end is long enough, however long it is. -/
theorem isSettled_after_iff (tolerance : Float) (required : UInt32) (errors : List Float) :
    ((start tolerance required).after errors).isSettled = true ↔
      required.toNat ≤ trailingRun (inTolerance tolerance) errors := by
  have hrequired : ((start tolerance required).after errors).required = required :=
    (required_after _ errors).1
  have hlt := required.toNat_lt
  rw [isSettled, decide_eq_true_iff, UInt32.le_iff_toNat_le, hrequired, toNat_streak_after]
  omega

/-- A count that was given errors knows how long the run of errors within the tolerance at their end
is, as far as it can hold that, and whether it is long enough, also where it cannot hold it. One
error outside the tolerance unsettles it. -/
theorem counts_trailing_run (tolerance : Float) (required : UInt32) (errors : List Float) :
    let count := (start tolerance required).after errors
    ∃ length, IsGreatest {n | ∃ run, run <:+ errors ∧ (∀ error ∈ run, error.abs < tolerance) ∧
        run.length = n} length ∧
      count.streak.toNat = min length (UInt32.size - 1) ∧
      (count.isSettled = true ↔ required.toNat ≤ length) ∧
      ∀ error, 1 ≤ required.toNat → ¬ error.abs < tolerance →
        (count.update error).isSettled = false := by
  intro count
  refine ⟨trailingRun (inTolerance tolerance) errors, ?_, toNat_streak_after tolerance required errors,
    isSettled_after_iff tolerance required errors, fun error hrequired houtside => ?_⟩
  · have h := isGreatest_trailingRun (inTolerance tolerance) errors
    simpa only [inTolerance, decide_eq_true_eq] using h
  · have hrun : trailingRun (inTolerance tolerance) (errors ++ [error]) = 0 := by
      rw [trailingRun_concat, if_neg (by simpa [inTolerance] using houtside)]
    have hsettled := isSettled_after_iff tolerance required (errors ++ [error])
    rw [after_concat, hrun] at hsettled
    rw [Bool.eq_false_iff]
    intro h
    have hzero := hsettled.mp h
    omega

/-- One error of zero more than the count can hold leaves it full and settled; what is no number
unsettles it. -/
theorem counts_trailing_run_full :
    ∃ errors : List Float, errors.length = UInt32.size ∧
      let count := (start 1 0xffffffff).after errors
      count.streak.toNat = UInt32.size - 1 ∧ count.isSettled = true ∧
        (count.update (0 / 0)).isSettled = false := by
  have hgreatest : ∀ n : ℕ, IsGreatest {m | ∃ run, run <:+ List.replicate n (0 : Float) ∧
      (∀ error ∈ run, error.abs < 1) ∧ run.length = m} n := by
    intro n
    refine ⟨⟨_, List.suffix_rfl, ?_, List.length_replicate⟩, ?_⟩
    · intro error herror
      rw [List.eq_of_mem_replicate herror]
      decide +kernel
    · intro m h
      obtain ⟨run, hsuffix, -, hlength⟩ := h
      have hle := hsuffix.length_le
      rwa [List.length_replicate, hlength] at hle
  refine ⟨List.replicate UInt32.size 0, List.length_replicate, ?_⟩
  obtain ⟨length, hlength, hstreak, hsettled, hunsettled⟩ :=
    counts_trailing_run 1 0xffffffff (List.replicate UInt32.size 0)
  obtain rfl := hlength.unique (hgreatest _)
  exact ⟨hstreak, hsettled.mpr (by decide), hunsettled _ (by decide) (by decide +kernel)⟩

end Debounce

end RobotRoutine
