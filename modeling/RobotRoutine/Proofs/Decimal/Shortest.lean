import RobotRoutine.Decimal.Shortest
import RobotRoutine.Proofs.Decimal.Scaling

/-!
# The decimal that is found for a double

Among the multiples of the seventeenth place of a double, its nearest neighbour is less than half a
unit in the last place away and so reads back. Hence a decimal with seventeen digits at most is
always found, and it is within half a unit of the double.
-/

namespace RobotRoutine.Decimal

/-- The number that a decimal stands for. -/
def Scaled.value (x : Scaled) : ℚ :=
  x.digits * 10 ^ x.exponent

/-! ## Comparing -/

theorem Scaled.compareBinary_eq (x : Scaled) (units : ℕ) (power : ℤ) :
    x.compareBinary units power = cmp x.value (units * 2 ^ power) := by
  obtain ⟨scale, hscale⟩ : ∃ scale : ℚ,
    scale = 10 ^ (-x.exponent).toNat * 2 ^ (-power).toNat := ⟨_, rfl⟩
  have hpos : 0 < scale := by rw [hscale]; positivity
  have hvalue : x.value =
      ((x.digits * tenTo x.exponent.toNat * twoTo (-power).toNat : ℕ) : ℚ) / scale := by
    rw [value, zpow_eq_div (by norm_num), Nat.cast_mul, Nat.cast_mul, cast_tenTo, cast_twoTo,
      hscale]
    field_simp
  have hunits : units * 2 ^ power =
      ((units * twoTo power.toNat * tenTo (-x.exponent).toNat : ℕ) : ℚ) / scale := by
    rw [zpow_eq_div two_ne_zero, Nat.cast_mul, Nat.cast_mul, cast_tenTo, cast_twoTo, hscale]
    field_simp
  have hmono : StrictMono fun n : ℕ => (n : ℚ) / scale := fun a b h =>
    div_lt_div_of_pos_right (Nat.cast_lt.mpr h) hpos
  rw [compareBinary, hvalue, hunits, ← cmp_eq_compare]
  exact (hmono.cmp_map_eq _ _).symm

variable {significand : ℕ} {exponent : ℤ} {isPower : Bool} {x : Scaled}

/-- Ends of intervals are given in quarters of a unit. -/
theorem unit_eq_four_mul (exponent : ℤ) : (2 : ℚ) ^ exponent = 4 * 2 ^ (exponent - 2) := by
  rw [zpow_sub₀ two_ne_zero]
  norm_num
  ring

/-- What reads back as a double is within half a unit of it. -/
theorem value_of_readsBack (pos : 0 < significand)
    (h : readsBack significand exponent isPower x = true) :
    (significand - 1 / 2) * 2 ^ exponent ≤ x.value ∧
      x.value ≤ (significand + 1 / 2) * 2 ^ exponent := by
  have hunit : (0 : ℚ) < 2 ^ (exponent - 2) := by positivity
  have habove : x.compareBinary (4 * significand + 2) (exponent - 2) ≠ .gt := by
    intro hgt
    simp [readsBack, hgt] at h
  have hbelow : x.compareBinary (4 * significand - if isPower then 1 else 2) (exponent - 2) ≠
      .lt := by
    intro hlt
    simp [readsBack, hlt] at h
  rw [Scaled.compareBinary_eq, Ne, cmp_eq_gt_iff, not_lt] at habove
  rw [Scaled.compareBinary_eq, Ne, cmp_eq_lt_iff, not_lt] at hbelow
  have hless : 4 * (significand : ℚ) - 2 ≤
      ((4 * significand - if isPower then 1 else 2 : ℕ) : ℚ) := by
    rw [Nat.cast_sub (by split <;> omega)]
    push_cast
    split <;> linarith
  rw [unit_eq_four_mul exponent]
  constructor
  · calc ((significand : ℚ) - 1 / 2) * (4 * 2 ^ (exponent - 2))
        = (4 * significand - 2) * 2 ^ (exponent - 2) := by ring
      _ ≤ _ := mul_le_mul_of_nonneg_right hless hunit.le
      _ ≤ x.value := hbelow
  · calc x.value ≤ _ := habove
      _ = (significand + 1 / 2) * (4 * 2 ^ (exponent - 2)) := by
        push_cast
        ring

/-- What is near enough to a double reads back as it: half a unit is enough above it, and below it
as well unless it is a power of two. -/
theorem readsBack_of_near (pos : 0 < significand)
    (habove : x.value < (significand + 1 / 2) * 2 ^ exponent)
    (hbelow : (significand - if isPower then 1 / 4 else 1 / 2) * 2 ^ exponent < x.value) :
    readsBack significand exponent isPower x = true := by
  have hlt : x.compareBinary (4 * significand + 2) (exponent - 2) = .lt := by
    rw [Scaled.compareBinary_eq, cmp_eq_lt_iff]
    calc x.value < (significand + 1 / 2) * 2 ^ exponent := habove
      _ = _ := by
        rw [unit_eq_four_mul exponent]
        push_cast
        ring
  have hgt : x.compareBinary (4 * significand - if isPower then 1 else 2) (exponent - 2) =
      .gt := by
    rw [Scaled.compareBinary_eq, cmp_eq_gt_iff]
    calc _ = ((significand : ℚ) - if isPower then 1 / 4 else 1 / 2) * 2 ^ exponent := by
          rw [unit_eq_four_mul exponent, Nat.cast_sub (by split <;> omega)]
          push_cast
          split <;> ring
      _ < x.value := hbelow
  simp [readsBack, hlt, hgt]

/-! ## The leading digit -/

variable {num den : ℕ}

theorem digitCount_pos (n : ℕ) : 0 < digitCount n :=
  List.length_pos_iff.mpr Nat.toDigits_ne_nil

theorem digitCount_bounds {n : ℕ} (pos : 0 < n) :
    10 ^ (digitCount n - 1) ≤ n ∧ n < 10 ^ digitCount n := by
  have hcount := digitCount_pos n
  refine ⟨?_, (Nat.length_toDigits_le_iff (by norm_num) hcount).mp le_rfl⟩
  by_cases hone : digitCount n = 1
  · rw [hone]
    exact pos
  · have hshort : ¬ digitCount n ≤ digitCount n - 1 := by omega
    exact not_lt.mp (mt (Nat.length_toDigits_le_iff (by norm_num) (by omega)).mpr hshort)

/-- A quotient is between the power of ten at its leading digit and the next one. -/
theorem leadingExponent_bounds (hnum : 0 < num) (hden : 0 < den) :
    (10 : ℚ) ^ leadingExponent num den ≤ num / den ∧
      (num : ℚ) / den < 10 ^ (leadingExponent num den + 1) := by
  have hnum' : (0 : ℚ) < num := Nat.cast_pos.mpr hnum
  have hden' : (0 : ℚ) < den := Nat.cast_pos.mpr hden
  rw [leadingExponent]
  split
  · rename_i hle
    have hquotient : 0 < num / den := Nat.div_pos hle hden
    obtain ⟨hlow, hhigh⟩ := digitCount_bounds hquotient
    obtain ⟨k, hk⟩ := Nat.exists_eq_add_one.mpr (digitCount_pos (num / den))
    rw [hk] at hlow hhigh ⊢
    rw [show ((k + 1 : ℕ) : ℤ) - 1 = (k : ℕ) by push_cast; ring]
    rw [le_div_iff₀ hden', div_lt_iff₀ hden', ← Nat.cast_succ, zpow_natCast, zpow_natCast]
    constructor
    · exact_mod_cast (Nat.le_div_iff_mul_le hden).mp hlow
    · exact_mod_cast (Nat.div_lt_iff_lt_mul hden).mp hhigh
  · rename_i hlt
    have hquotient : 0 < (den - 1) / num := Nat.div_pos (by omega) hnum
    obtain ⟨hlow, hhigh⟩ := digitCount_bounds hquotient
    obtain ⟨k, hk⟩ := Nat.exists_eq_add_one.mpr (digitCount_pos ((den - 1) / num))
    rw [hk] at hlow hhigh ⊢
    rw [show -((k + 1 : ℕ) : ℤ) + 1 = -(k : ℕ) by push_cast; ring, zpow_neg, zpow_neg,
      zpow_natCast, zpow_natCast, le_div_iff₀ hden', div_lt_iff₀ hden',
      inv_mul_le_iff₀ (by positivity), lt_inv_mul_iff₀ (by positivity)]
    have hlow' := (Nat.le_div_iff_mul_le hnum).mp hlow
    have hhigh' := (Nat.div_lt_iff_lt_mul hnum).mp hhigh
    constructor
    · exact_mod_cast (by omega : den ≤ 10 ^ (k + 1) * num)
    · exact_mod_cast (by rw [Nat.add_sub_cancel] at hlow'; omega : 10 ^ k * num < den)

/-! ## The nearest multiple of a power of ten -/

theorem abs_roundDiv_sub_le (tie : Tie) (num : ℕ) {den : ℕ} (h : 0 < den) :
    |(roundDiv tie num den : ℚ) - num / den| ≤ 1 / 2 := by
  have hrest : (0 : ℚ) ≤ ((num % den : ℕ) : ℚ) / den := by positivity
  have hone : ((num % den : ℕ) : ℚ) / den < 1 :=
    (div_lt_one (Nat.cast_pos.mpr h)).mpr (Nat.cast_lt.mpr (Nat.mod_lt num h))
  unfold roundDiv
  dsimp only
  rw [cast_div_eq_add num h, compare_two_mul _ h, abs_le]
  generalize ((num % den : ℕ) : ℚ) / den = rest at *
  generalize num / den = q
  cases hcompare : cmp rest (1 / 2)
  case lt =>
    have hhalf := (cmp_eq_lt_iff _ _).mp hcompare
    constructor <;> linarith
  case eq =>
    have hhalf := (cmp_eq_eq_iff _ _).mp hcompare
    cases tie <;> dsimp only <;> (try split) <;> push_cast <;> constructor <;> linarith
  case gt =>
    have hhalf := (cmp_eq_gt_iff _ _).mp hcompare
    push_cast
    constructor <;> linarith

theorem roundDiv_le (tie : Tie) (num den : ℕ) : roundDiv tie num den ≤ num / den + 1 := by
  unfold roundDiv
  dsimp only
  repeat' split
  all_goals omega

variable {tie : Tie} {place : ℤ}

/-- A double in multiples of a power of ten. -/
theorem cast_div_grid (significand : ℕ) (exponent place : ℤ) :
    ((significand * twoTo exponent.toNat * tenTo (-place).toNat : ℕ) : ℚ) /
        (tenTo place.toNat * twoTo (-exponent).toNat : ℕ) =
      significand * 2 ^ exponent / 10 ^ place := by
  rw [zpow_eq_div two_ne_zero, zpow_eq_div (b := 10) (by norm_num), Nat.cast_mul, Nat.cast_mul,
    Nat.cast_mul, cast_tenTo, cast_tenTo, cast_twoTo, cast_twoTo]
  field_simp

theorem digits_le_of_mem_neighbours (h : x ∈ neighbours tie significand exponent place) :
    (x.digits : ℚ) ≤ significand * 2 ^ exponent / 10 ^ place + 1 := by
  rw [← cast_div_grid]
  simp only [neighbours] at h
  generalize significand * twoTo exponent.toNat * tenTo (-place).toNat = num at *
  generalize tenTo place.toNat * twoTo (-exponent).toNat = den at *
  have hle : x.digits ≤ num / den + 1 := by
    simp only [List.mem_cons, List.not_mem_nil, or_false] at h
    rcases h with rfl | rfl | rfl
    · exact roundDiv_le tie num den
    · exact Nat.le_succ _
    · exact le_rfl
  calc (x.digits : ℚ) ≤ ((num / den + 1 : ℕ) : ℚ) := Nat.cast_le.mpr hle
    _ = ((num / den : ℕ) : ℚ) + 1 := by push_cast; rfl
    _ ≤ num / den + 1 := by gcongr; exact Nat.cast_div_le

/-- The first neighbour is half a step away at most. -/
theorem exists_near_neighbour (tie : Tie) (significand : ℕ) (exponent place : ℤ) :
    ∃ x ∈ neighbours tie significand exponent place,
      |x.value - significand * 2 ^ exponent| ≤ 10 ^ place / 2 := by
  have hstep : (0 : ℚ) < 10 ^ place := by positivity
  have hden : 0 < tenTo place.toNat * twoTo (-exponent).toNat :=
    Nat.mul_pos (Nat.pow_pos (by norm_num)) (Nat.pow_pos (by norm_num))
  refine ⟨_, List.mem_cons_self, ?_⟩
  have hround := abs_roundDiv_sub_le tie
    (significand * twoTo exponent.toNat * tenTo (-place).toNat) hden
  rw [cast_div_grid] at hround
  have hscaled := mul_le_mul_of_nonneg_right hround hstep.le
  rwa [← abs_of_pos hstep, ← abs_mul, abs_of_pos hstep, sub_mul, div_mul_cancel₀ _ hstep.ne',
    one_div_mul_eq_div] at hscaled

/-! ## What is found -/

/-- Seventeen digits are enough to read back. -/
theorem exists_readsBack (tie : Tie) (pos : 0 < significand) (lt : significand < 2 ^ 53)
    {lead : ℤ} (hlead : (10 : ℚ) ^ lead ≤ significand * 2 ^ exponent) :
    ∃ x ∈ neighbours tie significand exponent (lead - (16 : ℕ)),
      readsBack significand exponent (significand = twoTo 52 ∧ exponent ≠ -1074) x = true := by
  obtain ⟨x, hx, hnear⟩ := exists_near_neighbour tie significand exponent (lead - (16 : ℕ))
  refine ⟨x, hx, ?_⟩
  have hstep : (10 : ℚ) ^ (lead - (16 : ℕ)) / 2 ≤ significand * 2 ^ exponent / (2 * 10 ^ 16) := by
    rw [zpow_sub₀ (by norm_num), zpow_natCast, div_div, mul_comm (10 ^ 16 : ℚ)]
    gcongr
  obtain ⟨hbelow, habove⟩ := abs_le.mp (hnear.trans hstep)
  have hunit : (0 : ℚ) < 2 ^ exponent := by positivity
  have hsmall : (significand : ℚ) * 2 ^ exponent < 2 ^ 53 * 2 ^ exponent :=
    mul_lt_mul_of_pos_right (by exact_mod_cast lt) hunit
  apply readsBack_of_near pos
  · linarith
  · by_cases hpower : significand = twoTo 52 ∧ exponent ≠ -1074
    · have hcast : (significand : ℚ) = 2 ^ 52 := by rw [hpower.1, cast_twoTo]
      rw [if_pos (decide_eq_true hpower)]
      rw [hcast] at hbelow ⊢
      linarith
    · rw [if_neg (by simpa using hpower)]
      linarith

/-- The decimal that is found reads back and has seventeen digits at most. -/
theorem shortest_readsBack (tie : Tie) (pos : 0 < significand) (lt : significand < 2 ^ 53)
    (exponent : ℤ) :
    readsBack significand exponent (significand = twoTo 52 ∧ exponent ≠ -1074)
        (shortest tie significand exponent) = true ∧
      (shortest tie significand exponent).digits ≤ 10 ^ 17 := by
  obtain ⟨lead, hlead⟩ : ∃ lead, lead = leadingExponent (significand * twoTo exponent.toNat)
    (twoTo (-exponent).toNat) := ⟨_, rfl⟩
  have hnum : 0 < significand * twoTo exponent.toNat := Nat.mul_pos pos (Nat.pow_pos (by norm_num))
  have hden : 0 < twoTo (-exponent).toNat := Nat.pow_pos (by norm_num)
  have hvalue : ((significand * twoTo exponent.toNat : ℕ) : ℚ) / (twoTo (-exponent).toNat : ℕ) =
      significand * 2 ^ exponent := by
    rw [zpow_eq_div two_ne_zero, Nat.cast_mul, cast_twoTo, cast_twoTo, mul_div_assoc]
  obtain ⟨hlow, hhigh⟩ := leadingExponent_bounds hnum hden
  rw [hvalue, ← hlead] at hlow hhigh
  rw [shortest, ← hlead]
  cases hfound : (List.range 17).findSome? _ with
  | none =>
      obtain ⟨x, hx, hreads⟩ := exists_readsBack tie pos lt hlow
      have hnone := List.find?_eq_none.mp (List.findSome?_eq_none_iff.mp hfound 16 (by simp))
      exact absurd hreads (hnone x hx)
  | some x =>
      obtain ⟨n, hn, hfind⟩ := List.exists_of_findSome?_eq_some hfound
      refine ⟨List.find?_some hfind, ?_⟩
      have hdigits := digits_le_of_mem_neighbours (List.mem_of_find?_eq_some hfind)
      have hplaces : significand * 2 ^ exponent / 10 ^ (lead - (n : ℤ)) < (10 : ℚ) ^ 17 := by
        rw [div_lt_iff₀ (by positivity)]
        calc significand * 2 ^ exponent < (10 : ℚ) ^ (lead + 1) := hhigh
          _ ≤ 10 ^ ((17 : ℕ) + (lead - n)) :=
            zpow_le_zpow_right₀ (by norm_num) (by have := List.mem_range.mp hn; omega)
          _ = 10 ^ 17 * 10 ^ (lead - (n : ℤ)) := by rw [zpow_add₀ (by norm_num), zpow_natCast]
      have hlt : (x.digits : ℚ) < ((10 ^ 17 + 1 : ℕ) : ℚ) := by
        push_cast
        linarith
      exact Nat.le_of_lt_succ (Nat.cast_lt.mp hlt)

end RobotRoutine.Decimal
