import Mathlib.Data.List.Induction
import Mathlib.Data.Nat.Digits.Defs
import Mathlib.Data.Option.Basic
import RobotRoutine.Proofs.Json.Numerals
import RobotRoutine.Registry.Builtin

/-!
# Targets and thresholds as they are written

A target is an integer of sixty-four bits and a threshold a positive integer of thirty-two, and
either may be written with a sign and any number of leading zeros. `Denotes` says which texts are
those of an integer, and of which one, by the value of the digits in base ten; the reader agrees with
it on every text (`readSigned_eq_some_iff`), since it counts without a bound and looks at the range
afterwards.

The arguments of a convergence command are then either given, as integers within bounds, or refused
for one of three reasons (`isGiven_or_isRefused`). Reading follows in both cases (`IsGiven.read`,
`IsRefused.read`), and as it has one answer, each case is just that of its answer.
-/

namespace RobotRoutine

namespace Decimal

/-- The number that a row of digits stands for, with the least digit at the end. -/
def digitsValue (digits : List Char) : ℕ :=
  Nat.ofDigits 10 (digits.reverse.map fun c => c.toNat - '0'.toNat)

theorem ofDigitChars_eq_digitsValue (digits : List Char) :
    Nat.ofDigitChars 10 digits 0 = digitsValue digits := by
  induction digits using List.reverseRecOn with
  | nil => rfl
  | append_singleton digits c ih =>
      have hlast : digitsValue (digits ++ [c]) = c.toNat - '0'.toNat + 10 * digitsValue digits := by
        simp [digitsValue, Nat.ofDigits_cons]
      rw [Nat.ofDigitChars_append, ih, hlast, Nat.add_comm]
      rfl

theorem isDigit_of_readDigitsFrom {text : List Char} {value n : ℕ}
    (h : readDigitsFrom value text = some n) : ∀ c ∈ text, c.isDigit = true := by
  induction text generalizing value with
  | nil => simp
  | cons c rest ih =>
      rw [readDigitsFrom] at h
      split at h
      · next hdigit =>
          simp only [List.forall_mem_cons]
          exact ⟨hdigit, ih h⟩
      · cases h

/-- Whether a text is one or more digits, and a number their value. -/
structure IsRow (text : List Char) (n : ℕ) : Prop where
  ne_nil : text ≠ []
  isDigit : ∀ c ∈ text, c.isDigit = true
  value : digitsValue text = n

theorem readDigits_eq_some_iff {text : List Char} {n : ℕ} :
    readDigits text = some n ↔ IsRow text n := by
  rw [readDigits]
  split
  · next hempty =>
      constructor
      · intro h
        cases h
      · intro h
        exact absurd (List.isEmpty_iff.mp hempty) h.ne_nil
  · next hempty =>
      constructor
      · intro h
        have hdigits := isDigit_of_readDigitsFrom h
        rw [readDigitsFrom_eq hdigits, ofDigitChars_eq_digitsValue] at h
        exact ⟨mt List.isEmpty_iff.mpr hempty, hdigits, Option.some.inj h⟩
      · intro h
        rw [readDigitsFrom_eq h.isDigit, ofDigitChars_eq_digitsValue, h.value]

/-- Whether a text is a sign or none and a row of digits behind it, and an integer their value. -/
inductive Denotes : List Char → ℤ → Prop
  | plain {digits : List Char} {n : ℕ} (h : IsRow digits n) : Denotes digits n
  | plus {digits : List Char} {n : ℕ} (h : IsRow digits n) : Denotes ('+' :: digits) n
  | minus {digits : List Char} {n : ℕ} (h : IsRow digits n) : Denotes ('-' :: digits) (-n)

theorem readSigned_eq_some_iff {text : List Char} {value : ℤ} :
    readSigned text = some value ↔ Denotes text value := by
  constructor
  · intro h
    rw [readSigned.eq_def] at h
    split at h
    · obtain ⟨n, hread, rfl⟩ := Option.map_eq_some_iff.mp h
      exact .plus (readDigits_eq_some_iff.mp hread)
    · obtain ⟨n, hread, rfl⟩ := Option.map_eq_some_iff.mp h
      exact .minus (readDigits_eq_some_iff.mp hread)
    · obtain ⟨n, hread, rfl⟩ := Option.map_eq_some_iff.mp h
      exact .plain (readDigits_eq_some_iff.mp hread)
  · intro h
    cases h with
    | plain hrow =>
        -- The reader looks for a sign first, and a digit is none.
        obtain ⟨c, rest, rfl⟩ := List.exists_cons_of_ne_nil hrow.ne_nil
        rw [readSigned_of_isDigit (hrow.isDigit c List.mem_cons_self),
          readDigits_eq_some_iff.mpr hrow]
        rfl
    | plus hrow =>
        rw [readSigned, readDigits_eq_some_iff.mpr hrow]
        rfl
    | minus hrow =>
        rw [readSigned, readDigits_eq_some_iff.mpr hrow]
        rfl

end Decimal

namespace Argument

/-- Whether a text is that of an integer of sixty-four bits. -/
def DenotesInteger (text : String) (value : ℤ) : Prop :=
  Decimal.Denotes text.toList value ∧ -2 ^ 63 ≤ value ∧ value ≤ 2 ^ 63 - 1

/-- Whether a text is that of a threshold: of a positive integer of thirty-two bits. -/
def DenotesThreshold (text : String) (threshold : UInt32) : Prop :=
  ∃ value, DenotesInteger text value ∧ (1 ≤ value ∧ value ≤ 2 ^ 32 - 1) ∧
    (threshold.toNat : ℤ) = value

variable {parameter text : String} {value : ℤ}

theorem integer_range_iff :
    -(Decimal.twoTo 63 : ℤ) ≤ value ∧ value < Decimal.twoTo 63 ↔
      -2 ^ 63 ≤ value ∧ value ≤ 2 ^ 63 - 1 := by
  have hpower : (Decimal.twoTo 63 : ℤ) = 2 ^ 63 := by decide
  omega

theorem threshold_range_iff :
    1 ≤ value ∧ value < Decimal.twoTo 32 ↔ 1 ≤ value ∧ value ≤ 2 ^ 32 - 1 := by
  have hpower : (Decimal.twoTo 32 : ℤ) = 2 ^ 32 := by decide
  omega

theorem integer_of_denotes (h : DenotesInteger text value) : integer parameter text = .ok value := by
  rw [integer, Decimal.readSigned_eq_some_iff.mpr h.1]
  exact if_pos (integer_range_iff.mpr h.2)

theorem integer_of_not_denotes (h : ∀ value, ¬ DenotesInteger text value) :
    integer parameter text = .error (.notInteger parameter text) := by
  rw [integer]
  split
  · next value hread =>
      have hdenotes := Decimal.readSigned_eq_some_iff.mp hread
      exact if_neg fun hrange => h value ⟨hdenotes, integer_range_iff.mp hrange⟩
  · rfl

theorem threshold_of_denotes {count : UInt32} (h : DenotesThreshold text count) :
    threshold text = .ok count := by
  obtain ⟨value, hdenotes, hrange, hcount⟩ := h
  rw [threshold, integer_of_denotes hdenotes]
  show (if 1 ≤ value ∧ value < Decimal.twoTo 32 then Except.ok (UInt32.ofNat value.toNat)
    else .error (ArgumentProblem.thresholdOutOfRange value)) = .ok count
  rw [if_pos (threshold_range_iff.mpr hrange), ← hcount, Int.toNat_natCast, UInt32.ofNat_toNat]

theorem threshold_of_not_denotes (h : ∀ value, ¬ DenotesInteger text value) :
    threshold text = .error (.notInteger "threshold" text) := by
  rw [threshold, integer_of_not_denotes h]
  rfl

theorem threshold_of_out_of_range (h : DenotesInteger text value)
    (hrange : ¬ (1 ≤ value ∧ value ≤ 2 ^ 32 - 1)) :
    threshold text = .error (.thresholdOutOfRange value) := by
  rw [threshold, integer_of_denotes h]
  exact if_neg (mt threshold_range_iff.mp hrange)

/-- An integer in the range of thresholds is that of one. -/
theorem exists_denotesThreshold (h : DenotesInteger text value)
    (hrange : 1 ≤ value ∧ value ≤ 2 ^ 32 - 1) : ∃ count, DenotesThreshold text count := by
  have hsize : value.toNat < UInt32.size := by
    have hpower : UInt32.size = 2 ^ 32 := rfl
    omega
  refine ⟨.ofNat value.toNat, value, h, hrange, ?_⟩
  rw [UInt32.toNat_ofNat_of_lt' hsize]
  omega

end Argument

open Argument

namespace TargetArguments

/-- What is expected instead of a target, and a threshold where there is one, and what there is.
The target is looked at first. -/
inductive IsRefused (target : String) (threshold : Option String) : String → String → Prop
  | target (hnone : ∀ value, ¬ DenotesInteger target value) :
    IsRefused target threshold "an integer for 'target'" ("got '" ++ target ++ "'")
  | threshold {value : ℤ} {text : String} (htarget : DenotesInteger target value)
    (htext : threshold = some text) (hnone : ∀ count, ¬ DenotesInteger text count) :
    IsRefused target threshold "an integer for 'threshold'" ("got '" ++ text ++ "'")
  | range {value count : ℤ} {text : String} (htarget : DenotesInteger target value)
    (htext : threshold = some text) (hcount : DenotesInteger text count)
    (hrange : ¬ (1 ≤ count ∧ count ≤ 2 ^ 32 - 1)) :
    IsRefused target threshold "a positive 'threshold'" ("got " ++ toString count)

/-- Whether a target, and a threshold where there is one, are written as integers within bounds. -/
def IsGiven (target : String) (threshold : Option String) (arguments : TargetArguments) : Prop :=
  DenotesInteger target arguments.target ∧
    Option.Rel DenotesThreshold threshold arguments.threshold

variable {target : String} {threshold : Option String}

theorem isGiven_or_isRefused (target : String) (threshold : Option String) :
    (∃ arguments, IsGiven target threshold arguments) ∨
      ∃ expected reason, IsRefused target threshold expected reason := by
  by_cases htarget : ∃ value, DenotesInteger target value
  · obtain ⟨value, hvalue⟩ := htarget
    cases threshold with
    | none => exact .inl ⟨⟨value, none⟩, hvalue, .none⟩
    | some text =>
        by_cases htext : ∃ count, DenotesInteger text count
        · obtain ⟨count, hcount⟩ := htext
          by_cases hrange : 1 ≤ count ∧ count ≤ 2 ^ 32 - 1
          · obtain ⟨threshold, hthreshold⟩ := exists_denotesThreshold hcount hrange
            exact .inl ⟨⟨value, some threshold⟩, hvalue, .some hthreshold⟩
          · exact .inr ⟨_, _, .range hvalue rfl hcount hrange⟩
        · exact .inr ⟨_, _, .threshold hvalue rfl (not_exists.mp htext)⟩
  · exact .inr ⟨_, _, .target (not_exists.mp htarget)⟩

theorem read_cons (target : String) (threshold : Option String) :
    read (target :: threshold.toList) = (integer "target" target).bind fun value =>
      match threshold with
      | none => .ok ⟨value, none⟩
      | some text => (Argument.threshold text).bind fun count => .ok ⟨value, some count⟩ := by
  cases threshold with
  | none => rfl
  | some text => rfl

theorem IsGiven.read {arguments : TargetArguments} (h : IsGiven target threshold arguments) :
    read (target :: threshold.toList) = .ok arguments := by
  obtain ⟨value, count⟩ := arguments
  obtain ⟨htarget, hthreshold⟩ := h
  rw [read_cons, integer_of_denotes htarget]
  cases hthreshold with
  | none => rfl
  | some hcount => simp only [Except.bind, threshold_of_denotes hcount]

theorem IsRefused.read {expected reason : String}
    (h : IsRefused target threshold expected reason) :
    ∃ problem, read (target :: threshold.toList) = .error problem ∧
      problem.expected = expected ∧ problem.reason = reason := by
  rw [read_cons]
  cases h with
  | target hnone =>
      refine ⟨.notInteger "target" target, ?_, rfl, rfl⟩
      rw [integer_of_not_denotes hnone]
      rfl
  | @threshold _ text htarget htext hnone =>
      subst htext
      refine ⟨.notInteger "threshold" text, ?_, rfl, rfl⟩
      simp only [Except.bind, integer_of_denotes htarget, threshold_of_not_denotes hnone]
  | @range _ count _ htarget htext hcount hrange =>
      subst htext
      refine ⟨.thresholdOutOfRange count, ?_, rfl, rfl⟩
      simp only [Except.bind, integer_of_denotes htarget, threshold_of_out_of_range hcount hrange]

/-- A command gets its target, and its threshold where there is one, as the integers that they are
written as, however many digits they have. What is no such integer is named in an error of the
command, the target first. -/
theorem reads_exactly (command target : String) (threshold : Option String) :
    let answer := (read (target :: threshold.toList)).mapError (ScriptError.argument command)
    (∀ make tuning, Builtin.reading command read make (target :: threshold.toList) tuning =
        answer.map fun arguments => make arguments tuning) ∧
      (∀ arguments, answer = .ok arguments ↔ IsGiven target threshold arguments) ∧
      (∀ error, answer = .error error → ∃ problem, error = .argument command problem) ∧
      ∀ expected reason, (∃ problem, answer = .error (.argument command problem) ∧
          problem.expected = expected ∧ problem.reason = reason) ↔
        IsRefused target threshold expected reason := by
  intro answer
  have hreading : ∀ make tuning, Builtin.reading command read make (target :: threshold.toList)
      tuning = answer.map fun arguments => make arguments tuning := by
    intro make tuning
    show _ = ((read (target :: threshold.toList)).mapError _).map _
    rw [Builtin.reading]
    cases read (target :: threshold.toList) with
    | error problem => rfl
    | ok arguments => rfl
  have hgiven : ∀ arguments, IsGiven target threshold arguments → answer = .ok arguments := by
    intro arguments h
    show (read (target :: threshold.toList)).mapError _ = _
    rw [h.read]
    rfl
  have hrefused : ∀ expected reason, IsRefused target threshold expected reason →
      ∃ problem, answer = .error (.argument command problem) ∧
        problem.expected = expected ∧ problem.reason = reason := by
    intro expected reason h
    obtain ⟨problem, hread, hwords⟩ := h.read
    refine ⟨problem, ?_, hwords⟩
    show (read (target :: threshold.toList)).mapError _ = _
    rw [hread]
    rfl
  -- The two cases exclude each other, since there is only one answer.
  rcases isGiven_or_isRefused target threshold with ⟨arguments, h⟩ | ⟨expected, reason, h⟩
  · have hanswer := hgiven arguments h
    refine ⟨hreading, fun other => ⟨fun hother => ?_, hgiven other⟩, fun error herror => ?_,
      fun expected reason => ⟨fun ⟨problem, herror, _⟩ => ?_, hrefused expected reason⟩⟩
    · obtain rfl := Except.ok.inj (hanswer.symm.trans hother)
      exact h
    · cases hanswer.symm.trans herror
    · cases hanswer.symm.trans herror
  · obtain ⟨problem, hanswer, hexpected, hreason⟩ := hrefused expected reason h
    refine ⟨hreading, fun other => ⟨fun hother => ?_, hgiven other⟩, fun error herror => ?_,
      fun expected reason => ⟨fun ⟨other, hother, hwords⟩ => ?_, hrefused expected reason⟩⟩
    · cases hanswer.symm.trans hother
    · exact ⟨problem, Except.error.inj (herror.symm.trans hanswer)⟩
    · obtain rfl := (ScriptError.argument.inj (Except.error.inj (hanswer.symm.trans hother))).2
      obtain ⟨rfl, rfl⟩ := hwords
      exact hexpected ▸ hreason ▸ h

end TargetArguments
end RobotRoutine
