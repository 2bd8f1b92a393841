import RobotRoutine.Proofs.Decimal.Shortest
import RobotRoutine.Proofs.Json.Numerals
import RobotRoutine.Proofs.RobotConfig.RoundTrip

/-!
# Doubles printed and read

What is printed for a double has few enough digits to be collected into a word without a loss, so
the number that is scaled is the decimal that was found for the double. At the ends of the range the
steps in which it is scaled could leave the doubles; the few numbers that are so close to an end are
read one by one.
-/

namespace RobotRoutine.Decimal

/-! ## Digits collected into a word -/

theorem le_ofDigitChars (cs : List Char) (value : ℕ) : value ≤ Nat.ofDigitChars 10 cs value := by
  induction cs generalizing value with
  | nil => exact le_rfl
  | cons c rest ih =>
      rw [Nat.ofDigitChars_cons]
      exact le_trans (by omega) (ih _)

theorem Numeral.collect_eq {cs : List Char} {value : ℕ}
    (h : Nat.ofDigitChars 10 cs value < 2 ^ 64) :
    collect value cs = (Nat.ofDigitChars 10 cs value, []) := by
  induction cs generalizing value with
  | nil => rfl
  | cons c rest ih =>
      rw [Nat.ofDigitChars_cons] at h ⊢
      have hfits : 10 * value + (c.toNat - '0'.toNat) < twoTo 64 :=
        lt_of_le_of_lt (le_ofDigitChars rest _) h
      rw [collect, if_pos hfits]
      exact ih h

/-- A numeral whose digits fit into a word is scaled as it is written. -/
theorem Numeral.collected_eq {numeral : Numeral}
    (h : Nat.ofDigitChars 10 (numeral.whole ++ numeral.fraction) 0 < 2 ^ 64) :
    numeral.collected = ⟨Nat.ofDigitChars 10 (numeral.whole ++ numeral.fraction) 0,
      numeral.exponent.getD 0 - numeral.fraction.length⟩ := by
  rw [Nat.ofDigitChars_append] at h ⊢
  have hwhole : Nat.ofDigitChars 10 numeral.whole 0 < 2 ^ 64 :=
    lt_of_le_of_lt (le_ofDigitChars numeral.fraction _) h
  simp only [collected, collect_eq hwhole, collect_eq h, List.length_nil, Nat.sub_zero,
    Scaled.mk.injEq, true_and]
  omega

/-! ## Layouts -/

theorem Scaled.value_dropZeros (fuel : ℕ) (x : Scaled) : (x.dropZeros fuel).value = x.value := by
  induction fuel generalizing x with
  | zero => rfl
  | succ fuel ih =>
      rw [dropZeros]
      split
      · rename_i hzero
        have hdigits : (x.digits : ℚ) = 10 * ((x.digits / 10 : ℕ) : ℚ) := by
          exact_mod_cast (by omega : x.digits = 10 * (x.digits / 10))
        rw [ih, value, value, hdigits, zpow_add_one₀ (by norm_num)]
        dsimp only
        ring
      · rfl

theorem Scaled.digits_dropZeros_le (fuel : ℕ) (x : Scaled) :
    (x.dropZeros fuel).digits ≤ x.digits := by
  induction fuel generalizing x with
  | zero => exact le_rfl
  | succ fuel ih =>
      rw [dropZeros]
      split
      · exact (ih _).trans (Nat.div_le_self _ _)
      · exact le_rfl

namespace Notation

open Numeral

variable {n : ℕ}

theorem take_append_drop_toDigits (n k : ℕ) :
    Nat.ofDigitChars 10 ((Nat.toDigits 10 n).take k ++ (Nat.toDigits 10 n).drop k) 0 = n := by
  rw [List.take_append_drop, Nat.ofDigitChars_ten_toDigits]

theorem collected_layScientific (negative : Bool) (lt : n < 2 ^ 64) (lead : ℤ) :
    (layScientific negative (Nat.toDigits 10 n) lead).collected =
      ⟨n, lead + 1 - digitCount n⟩ := by
  have hdigits := take_append_drop_toDigits n 1
  have hlength := digitCount_pos n
  rw [collected_eq (by rw [layScientific, hdigits]; exact lt)]
  simp only [layScientific, hdigits, Option.getD_some, List.length_drop, Scaled.mk.injEq, true_and]
  rw [← digitCount]
  omega

/-- A number with digits behind its point. -/
theorem collected_layPlain_of_lt (form : Notation) (negative : Bool) (lt : n < 2 ^ 64) {whole : ℤ}
    (h : whole < digitCount n) :
    (form.layPlain negative (Nat.toDigits 10 n) whole).collected =
      ⟨n, whole - digitCount n⟩ := by
  rw [layPlain]
  split
  · have hdigits : Nat.ofDigitChars 10 (['0'] ++ (List.replicate (-whole).toNat '0' ++
        Nat.toDigits 10 n)) 0 = n := by
      rw [Nat.ofDigitChars_append, Nat.ofDigitChars_append, Nat.ofDigitChars_replicate_zero]
      exact Nat.ofDigitChars_ten_toDigits
    rw [collected_eq (by rw [hdigits]; exact lt)]
    simp only [hdigits, Option.getD_none, List.length_append, List.length_replicate,
      Scaled.mk.injEq, true_and]
    rw [← digitCount]
    omega
  · have hsurplus : whole.toNat - (Nat.toDigits 10 n).length = 0 := by
      rw [← digitCount]
      omega
    have hfraction : form.fractionOf ((Nat.toDigits 10 n).drop whole.toNat) =
        (Nat.toDigits 10 n).drop whole.toNat := by
      cases hdrop : (Nat.toDigits 10 n).drop whole.toNat with
      | nil =>
          have := List.drop_eq_nil_iff.mp hdrop
          rw [← digitCount] at this
          omega
      | cons d rest => rfl
    have hdigits := take_append_drop_toDigits n whole.toNat
    rw [hsurplus, hfraction, List.replicate_zero, List.append_nil]
    rw [collected_eq (by rw [hdigits]; exact lt)]
    simp only [hdigits, Option.getD_none, List.length_drop, Scaled.mk.injEq, true_and]
    rw [← digitCount]
    omega

/-- A whole number, which is given a zero behind its point. -/
theorem collected_layPlain_of_le {form : Notation} (hform : form.pointZero = true) (negative : Bool)
    (k : ℕ) (lt : n * 10 ^ (k + 1) < 2 ^ 64) :
    (form.layPlain negative (Nat.toDigits 10 n) (digitCount n + k : ℕ)).collected =
      ⟨n * 10 ^ (k + 1), -1⟩ := by
  have hlength := digitCount_pos n
  have hdrop : (Nat.toDigits 10 n).drop (digitCount n + k) = [] :=
    List.drop_eq_nil_iff.mpr (Nat.le_add_right _ _)
  have htake : (Nat.toDigits 10 n).take (digitCount n + k) = Nat.toDigits 10 n :=
    List.take_of_length_le (Nat.le_add_right _ _)
  have hdigits : Nat.ofDigitChars 10 (Nat.toDigits 10 n ++ List.replicate k '0' ++ ['0']) 0 =
      n * 10 ^ (k + 1) := by
    rw [List.append_assoc, ← List.replicate_one, List.replicate_append_replicate,
      Nat.ofDigitChars_append, Nat.ofDigitChars_replicate_zero, Nat.ofDigitChars_ten_toDigits,
      Nat.mul_comm]
  rw [layPlain, if_neg (by omega), Int.toNat_natCast, hdrop, htake, fractionOf, if_pos hform,
    ← digitCount, Nat.add_sub_cancel_left]
  rw [collected_eq (by rw [hdigits]; exact lt)]
  simp only [hdigits]
  rfl

end Notation

end RobotRoutine.Decimal

namespace RobotRoutine.Json

open Decimal Decimal.Notation

variable {x : Scaled}

/-- What is printed for a decimal with few digits is scaled as that decimal. -/
theorem exists_collected_layOut (negative : Bool) (pos : 0 < x.digits) (le : x.digits ≤ 10 ^ 17) :
    ∃ n power, (numbers.layOut negative x).collected = ⟨n, power⟩ ∧ 0 < n ∧ n < 2 ^ 64 ∧
      (n : ℚ) * 10 ^ power = x.value := by
  have hpos := x.digits_dropZeros_pos pos 17
  have hle := (x.digits_dropZeros_le 17).trans le
  rw [← x.value_dropZeros 17, Notation.layOut]
  generalize x.dropZeros 17 = y at *
  have hlt : y.digits < 2 ^ 64 := lt_of_le_of_lt hle (by norm_num)
  rw [← digitCount]
  have hscaled : (y.digits : ℚ) * 10 ^ y.exponent = y.value := rfl
  split
  · rename_i hplain
    by_cases hshort : y.exponent + digitCount y.digits - 1 + 1 < digitCount y.digits
    · refine ⟨_, _, collected_layPlain_of_lt numbers negative hlt hshort, hpos, hlt, ?_⟩
      rw [← hscaled]
      congr 2
      omega
    · obtain ⟨k, hk⟩ : ∃ k : ℕ, y.exponent = k := ⟨y.exponent.toNat, by omega⟩
      have hlead : y.exponent + digitCount y.digits - 1 < 16 := (of_decide_eq_true hplain).2
      have hsmall : y.digits * 10 ^ (k + 1) < 2 ^ 64 :=
        calc y.digits * 10 ^ (k + 1) < 10 ^ digitCount y.digits * 10 ^ (k + 1) :=
              Nat.mul_lt_mul_of_pos_right (digitCount_bounds hpos).2 (by positivity)
          _ = 10 ^ (digitCount y.digits + (k + 1)) := (pow_add ..).symm
          _ ≤ 10 ^ 17 := Nat.pow_le_pow_right (by norm_num) (by omega)
          _ < 2 ^ 64 := by norm_num
      rw [show y.exponent + digitCount y.digits - 1 + 1 = ((digitCount y.digits + k : ℕ) : ℤ) by
        omega]
      refine ⟨_, _, collected_layPlain_of_le rfl negative k hsmall, ?_, hsmall, ?_⟩
      · positivity
      · rw [← hscaled, hk]
        push_cast
        rw [zpow_neg_one, zpow_natCast, pow_succ]
        field_simp
  · refine ⟨_, _, collected_layScientific negative hlt _, hpos, hlt, ?_⟩
    rw [← hscaled]
    congr 2
    omega

/-! ## Doubles -/

variable {significand : ℕ} {exponent : ℤ}

/-- The sign is written by itself. -/
theorem numeral_eq (form : Notation) (negative : Bool) (significand : ℕ) (exponent : ℤ) :
    form.numeral negative significand exponent =
      { form.numeral false significand exponent with negative } := by
  unfold Notation.numeral Notation.layOut Notation.layPlain layScientific
  dsimp only
  repeat' split
  all_goals rfl

/-- It is read by itself, too. -/
theorem toFloat?_numeral (negative : Bool) (significand : ℕ) (exponent : ℤ) :
    (numbers.numeral negative significand exponent).toFloat? =
      (numbers.numeral false significand exponent).toFloat?.map fun y =>
        if negative then -y else y := by
  have hpositive : (numbers.numeral false significand exponent).negative = false := by
    rw [numeral_eq]
  have hcollected : (numbers.numeral negative significand exponent).collected =
      (numbers.numeral false significand exponent).collected := by
    rw [numeral_eq]
    rfl
  have hnegative : (numbers.numeral negative significand exponent).negative = negative := by
    rw [numeral_eq]
  rw [Numeral.toFloat?, Numeral.toFloat?, hcollected, hnegative, hpositive, Option.map_map]
  rfl

/-- The least double is read as a positive one, and so are the greatest ones. -/
theorem isPositive_toFloat?_numeral :
    (numbers.numeral false 1 (-1074)).toFloat?.any isPositive = true ∧
      ∀ i : Fin 20,
        (numbers.numeral false (2 ^ 53 - 1 - i) 971).toFloat?.any isPositive = true := by
  decide +kernel

/-- Between the ends of the range half a unit is not enough to leave the numbers that are scaled to
a double. -/
theorem half_unit_bounds (canonical : IsCanonical significand exponent) (he : exponent ≤ 971)
    (hleast : 1 < significand) (hgreatest : significand < 2 ^ 53 - 20 ∨ exponent < 971) :
    3 * 2 ^ (-1075 : ℤ) ≤ ((significand : ℚ) - 1 / 2) * 2 ^ exponent ∧
      ((significand : ℚ) + 1 / 2) * 2 ^ exponent ≤ (2 ^ 53 - 20) * 2 ^ (971 : ℤ) := by
  have hpow (a b : ℤ) (h : a ≤ b) : (2 : ℚ) ^ a ≤ 2 ^ b := zpow_le_zpow_right₀ (by norm_num) h
  constructor
  · have htwo : (2 : ℚ) ≤ significand := by exact_mod_cast hleast
    calc 3 * (2 : ℚ) ^ (-1075 : ℤ) = 3 / 2 * 2 ^ (-1074 : ℤ) := by
          rw [show (-1074 : ℤ) = -1075 + (1 : ℕ) by norm_num, two_zpow_eq_mul]
          ring
      _ ≤ 3 / 2 * 2 ^ exponent :=
          mul_le_mul_of_nonneg_left (hpow _ _ canonical.le) (by norm_num)
      _ ≤ (significand - 1 / 2) * 2 ^ exponent :=
          mul_le_mul_of_nonneg_right (by linarith) (by positivity)
  · have hunit : (0 : ℚ) ≤ 2 ^ exponent := by positivity
    rcases hgreatest with hbelow | hbelow
    · have hsignificand : (significand : ℚ) + 1 ≤ 2 ^ 53 - 20 := by
        have : ((significand + 1 : ℕ) : ℚ) ≤ ((2 ^ 53 - 20 : ℕ) : ℚ) := Nat.cast_le.mpr hbelow
        push_cast at this
        norm_num at this ⊢
        exact this
      calc (significand + 1 / 2) * (2 : ℚ) ^ exponent ≤ (2 ^ 53 - 20) * 2 ^ exponent :=
            mul_le_mul_of_nonneg_right (by linarith) hunit
        _ ≤ (2 ^ 53 - 20) * 2 ^ (971 : ℤ) :=
            mul_le_mul_of_nonneg_left (hpow _ _ he) (by norm_num)
    · have hsignificand : (significand : ℚ) + 1 ≤ 2 ^ 53 := by exact_mod_cast canonical.lt
      calc (significand + 1 / 2) * (2 : ℚ) ^ exponent ≤ 2 ^ 53 * 2 ^ (970 : ℤ) :=
            mul_le_mul (by linarith) (hpow _ _ (by omega)) hunit (by norm_num)
        _ = 2 ^ 52 * 2 ^ (971 : ℤ) := by
            rw [show (971 : ℤ) = 970 + (1 : ℕ) by norm_num, two_zpow_eq_mul]
            ring
        _ ≤ (2 ^ 53 - 20) * 2 ^ (971 : ℤ) :=
            mul_le_mul_of_nonneg_right (by norm_num) (by positivity)

/-- A positive double is printed as what is read as a positive double. -/
theorem exists_toFloat?_numeral (pos : 0 < significand)
    (canonical : IsCanonical significand exponent) (he : exponent ≤ 971) :
    ∃ y, (numbers.numeral false significand exponent).toFloat? = some y ∧ isPositive y = true := by
  by_cases hleast : significand = 1
  · have hexponent : exponent = -1074 := canonical.full.resolve_left (by omega)
    rw [hleast, hexponent]
    exact (Option.any_eq_true _ _).mp isPositive_toFloat?_numeral.1
  by_cases hgreatest : 2 ^ 53 - 20 ≤ significand ∧ exponent = 971
  · have hlt := canonical.lt
    obtain ⟨i, hi, hsignificand⟩ : ∃ i < 20, significand = 2 ^ 53 - 1 - i :=
      ⟨2 ^ 53 - 1 - significand, by omega, by omega⟩
    rw [hsignificand, hgreatest.2]
    exact (Option.any_eq_true _ _).mp (isPositive_toFloat?_numeral.2 ⟨i, hi⟩)
  obtain ⟨hlow, hhigh⟩ := half_unit_bounds canonical he (by omega) (by omega)
  obtain ⟨hreads, hdigits⟩ := shortest_readsBack numbers.tie pos canonical.lt exponent
  obtain ⟨hbelow, habove⟩ := value_of_readsBack pos hreads
  obtain ⟨n, power, hcollected, hn, hword, hvalue⟩ :=
    exists_collected_layOut false (digits_pos_of_readsBack pos hreads) hdigits
  rw [← hvalue] at hbelow habove
  obtain ⟨y, v, hscale, hy⟩ :=
    Numeral.exists_scale? hn hword (hlow.trans hbelow) (habove.trans hhigh)
  refine ⟨y, ?_, hy.isPositive⟩
  have hnumeral : numbers.numeral false significand exponent =
      numbers.layOut false (shortest numbers.tie significand exponent) := by
    rw [Notation.numeral, if_neg (Nat.ne_of_gt pos)]
  rw [← hnumeral] at hcollected
  have hpositive : (numbers.numeral false significand exponent).negative = false := by
    rw [numeral_eq]
  rw [Numeral.toFloat?, hcollected, hscale, Option.map_some, hpositive]
  rfl

theorem reread?_of_finite {x : Float} {negative : Bool}
    (h : Binary.ofFloat x = .finite negative significand exponent) :
    reread? x = (numbers.numeral negative significand exponent).toFloat? := by
  rw [reread?, ofFloat, h]
  rfl

theorem isSome_toFloat?_numeral {negative : Bool} {bits : ℕ}
    (h : Binary.ofBits bits = .finite negative significand exponent) :
    (numbers.numeral negative significand exponent).toFloat?.isSome = true := by
  obtain ⟨canonical, he⟩ := Binary.isCanonical_of_ofBits h
  rw [toFloat?_numeral, Option.isSome_map]
  rcases Nat.eq_zero_or_pos significand with rfl | pos
  · rfl
  · obtain ⟨y, hy, -⟩ := exists_toFloat?_numeral pos canonical he
    rw [hy]
    rfl

/-- Every finite double is read as some double where it was printed, and no other double is. -/
theorem isSome_reread? (x : Float) : (reread? x).isSome = x.isFinite := by
  rw [Bool.eq_iff_iff, isFinite_iff]
  constructor
  · intro h
    rw [reread?, ofFloat] at h
    split at h
    · exact ⟨_, _, _, ‹_›⟩
    · cases h
  · rintro ⟨negative, significand, exponent, h⟩
    rw [reread?_of_finite h]
    exact isSome_toFloat?_numeral h

theorem exists_reread?_of_isPositive {x : Float} (h : isPositive x = true) :
    ∃ y, reread? x = some y ∧ isPositive y = true := by
  obtain ⟨m, e, pos, hparts⟩ := (isPositive_iff x).mp h
  obtain ⟨canonical, he⟩ := isCanonical_of_unpack hparts
  rw [reread?_of_finite (by rw [Binary.ofFloat_eq, hparts]; rfl)]
  exact exists_toFloat?_numeral pos canonical he

end RobotRoutine.Json
