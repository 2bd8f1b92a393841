import RobotRoutine.Proofs.Decimal.Parts

/-!
# How far an operation on doubles is from the exact one

A product or a quotient of doubles is computed exactly as far as needed, cut off behind the last
place that a double has there, and rounded by the two bits that are kept of what was cut off
(`Keeps`). So the outcome of one operation differs from the exact one by half a unit in its last
place at most, be it a normal number or a subnormal one (`IsNear`), and it is infinite only if it
would be no double without a bound on the exponent.
-/

namespace RobotRoutine.Decimal

open Float.Model Float.Model.UnpackedFloat

/-! ## Cutting bits off -/

/-- What a significand with its two further bits says about a number. -/
def Keeps (mantissa : ExtendedMantissa) (x : ℚ) : Prop :=
  match mantissa with
  | ⟨m, false, false⟩ => x = m
  | ⟨m, false, true⟩ => m < x ∧ x < m + 1 / 2
  | ⟨m, true, false⟩ => x = m + 1 / 2
  | ⟨m, true, true⟩ => m + 1 / 2 < x ∧ x < m + 1

theorem keeps_exact (m : ℕ) : Keeps (.ofMantissaAndAccuracy m .exact) m :=
  rfl

variable {mantissa : ExtendedMantissa} {x : ℚ}

theorem Keeps.bounds (h : Keeps mantissa x) :
    mantissa.mantissa ≤ x ∧ x < mantissa.mantissa + 1 := by
  obtain ⟨m, round, sticky⟩ := mantissa
  cases round <;> cases sticky <;> simp only [Keeps] at h ⊢ <;> constructor <;> linarith

theorem Keeps.shiftRightOne (h : Keeps mantissa x) : Keeps mantissa.shiftRightOne (x / 2) := by
  obtain ⟨m, round, sticky⟩ := mantissa
  have hsplit : (m : ℚ) = 2 * ((m / 2 : ℕ) : ℚ) + ((m % 2 : ℕ) : ℚ) := by
    exact_mod_cast (Nat.div_add_mod m 2).symm
  rcases Nat.mod_two_eq_zero_or_one m with hlast | hlast
  all_goals
    rw [hlast] at hsplit
    push_cast at hsplit
    cases round <;> cases sticky <;>
      simp [Keeps, ExtendedMantissa.shiftRightOne, hlast] at h ⊢ <;>
      first | linarith | constructor <;> linarith

theorem Keeps.shiftRight (h : Keeps mantissa x) (count : ℕ) :
    Keeps (mantissa >>> count) (x / 2 ^ count) := by
  change Keeps (count.repeat ExtendedMantissa.shiftRightOne mantissa) _
  induction count with
  | zero => simpa [Nat.repeat] using h
  | succ count ih =>
      rw [Nat.repeat, pow_succ, ← div_div]
      exact ih.shiftRightOne

theorem Keeps.abs_rounded_sub_le (h : Keeps mantissa x) :
    |(mantissa.roundedMantissa : ℚ) - x| ≤ 1 / 2 := by
  obtain ⟨m, round, sticky⟩ := mantissa
  have heven : m % 2 = 0 ∨ m % 2 = 1 := Nat.mod_two_eq_zero_or_one m
  rw [abs_le]
  cases round <;> cases sticky <;>
    simp only [Keeps, ExtendedMantissa.roundedMantissa, ExtendedMantissa.accuracy,
      Accuracy.roundToNearestEven] at h ⊢
  · constructor <;> linarith
  · constructor <;> linarith
  · rcases heven with hlast | hlast <;> rw [hlast] <;> push_cast <;> constructor <;> linarith
  · push_cast
    constructor <;> linarith

/-! ## One rounding -/

/-- Whether a number is within half a unit in the last place of another. -/
def IsNear (t v : ℚ) : Prop :=
  |v - t| ≤ t / 2 ^ 53 + 2 ^ (-1075 : ℤ)

theorem two_zpow_add_natCast (e : ℤ) (k : ℕ) : (2 : ℚ) ^ (e + k) = 2 ^ e * 2 ^ k := by
  rw [zpow_add₀ two_ne_zero, zpow_natCast]

theorem two_zpow_eq_mul (e : ℤ) (k : ℕ) : (2 : ℚ) ^ (e + k) = 2 ^ k * 2 ^ e := by
  rw [two_zpow_add_natCast, mul_comm]

theorem IsNear.abs_sub_le {t v : ℚ} (h : IsNear t v) (ht : 2 ^ (-1022 : ℤ) ≤ t) :
    |v - t| ≤ t / 2 ^ 52 := by
  have hleast : (2 : ℚ) ^ (-1075 : ℤ) ≤ t / 2 ^ 53 := by
    rw [le_div_iff₀ (by positivity), mul_comm]
    exact (two_zpow_eq_mul (-1075) 53).symm.le.trans ht
  calc |v - t| ≤ t / 2 ^ 53 + 2 ^ (-1075 : ℤ) := h
    _ ≤ t / 2 ^ 53 + t / 2 ^ 53 := by gcongr
    _ = t / 2 ^ 52 := by ring

theorem targetExponent_eq (m : ℕ) (e : ℤ) :
    Format.binary64.targetExponent (totalExponent m e) = max (m.log2 + e - 52) (-1074) := by
  simp only [Format.targetExponent, totalExponent, Format.mantissaBits, Format.minExponent]
  norm_num
  omega

/-- With the exponent low enough for the significand, only bits are cut off. -/
theorem exists_shiftToTargetExponent {m : ℕ} {e : ℤ} (fits : 52 ≤ m.log2 ∨ e ≤ -1074)
    (accuracy : Accuracy) : ∃ k : ℕ, e + k = max (m.log2 + e - 52) (-1074) ∧
      shiftToTargetExponent Format.binary64 m e accuracy =
        (ExtendedMantissa.ofMantissaAndAccuracy m accuracy >>> k, e + k) := by
  refine ⟨(max (m.log2 + e - 52) (-1074) - e).toNat, by omega, ?_⟩
  rw [shiftToTargetExponent, targetExponent_eq, shiftToExponent]

/-- A rounded significand has one bit too many only if all but that one are zero. -/
theorem exists_shiftToTargetExponent_exact {r : ℕ} {e : ℤ} (hr : r ≤ 2 ^ 53) (he : -1074 ≤ e) :
    ∃ m e', shiftToTargetExponent Format.binary64 r e .exact = (⟨m, false, false⟩, e') ∧
      (m : ℚ) * 2 ^ e' = r * 2 ^ e ∧ m < 2 ^ 53 ∧ e ≤ e' ∧ (2 ^ 52 ≤ r → 2 ^ 52 ≤ m) ∧
      (r < 2 ^ 52 → e' = e) := by
  rw [shiftToTargetExponent, targetExponent_eq, shiftToExponent]
  rcases hr.lt_or_eq with hlt | rfl
  · have hlog : r.log2 ≤ 52 := by
      by_cases hzero : r = 0
      · simp [hzero]
      · have := (Nat.log2_lt hzero).mpr hlt
        omega
    have hshift : (max (r.log2 + e - 52 : ℤ) (-1074) - e).toNat = 0 := by omega
    rw [hshift]
    exact ⟨r, e, by simp [HShiftRight.hShiftRight, Nat.repeat,
      ExtendedMantissa.ofMantissaAndAccuracy], rfl, hlt, le_refl _, id, fun _ => rfl⟩
  · have hshift : (max (((2 ^ 53 : ℕ).log2 : ℕ) + e - 52 : ℤ) (-1074) - e).toNat = 1 := by
      rw [Nat.log2_two_pow]
      omega
    rw [hshift]
    refine ⟨2 ^ 52, e + 1, by simp [HShiftRight.hShiftRight, Nat.repeat,
      ExtendedMantissa.ofMantissaAndAccuracy, ExtendedMantissa.shiftRightOne], ?_, by norm_num,
      by omega, fun _ => le_refl _, by norm_num⟩
    rw [zpow_add_one₀ two_ne_zero]
    push_cast
    ring

theorem pow_le_of_log2_eq {m k : ℕ} (h : m.log2 = 52 + k) : (2 : ℚ) ^ 52 * 2 ^ k ≤ m := by
  have hm : m ≠ 0 := by
    rintro rfl
    simp only [Nat.log2_zero] at h
    omega
  rw [← pow_add, ← h]
  exact_mod_cast Nat.log2_self_le hm

theorem lt_pow_of_log2_le {m k : ℕ} (h : m.log2 ≤ 52 + k) : (m : ℚ) + 1 ≤ 2 ^ 53 * 2 ^ k := by
  have hm : m + 1 ≤ 2 ^ (m.log2 + 1) := Nat.lt_log2_self
  rw [← pow_add]
  exact_mod_cast hm.trans (Nat.pow_le_pow_right (by norm_num) (by omega))

/-- Half a unit in the last place that is kept. -/
theorem half_unit_le {m k : ℕ} {e : ℤ} {x : ℚ} (hx : m ≤ x)
    (hunit : e + k = -1074 ∨ m.log2 = 52 + k) :
    (2 : ℚ) ^ (e + k) / 2 ≤ x * 2 ^ e / 2 ^ 53 + 2 ^ (-1075 : ℤ) := by
  have hpos : (0 : ℚ) < 2 ^ e := by positivity
  have hx0 : 0 ≤ x := (Nat.cast_nonneg m).trans hx
  rcases hunit with hleast | hlog
  · have hleast' : (2 : ℚ) ^ (-1074 : ℤ) / 2 = 2 ^ (-1075 : ℤ) := by
      rw [show (-1075 : ℤ) = -1074 - 1 by norm_num, zpow_sub_one₀ two_ne_zero, div_eq_mul_inv]
    rw [hleast, hleast']
    exact le_add_of_nonneg_left (by positivity)
  · have hunit' : (2 : ℚ) ^ (e + k) / 2 ≤ x * 2 ^ e / 2 ^ 53 := by
      rw [two_zpow_add_natCast, le_div_iff₀ (by positivity)]
      calc (2 : ℚ) ^ e * 2 ^ k / 2 * 2 ^ 53 = (2 ^ 52 * 2 ^ k) * 2 ^ e := by ring
        _ ≤ x * 2 ^ e := mul_le_mul_of_nonneg_right ((pow_le_of_log2_eq hlog).trans hx) hpos.le
    exact hunit'.trans (le_add_of_nonneg_right (by positivity))

theorem mantissa_ofMantissaAndAccuracy (m : ℕ) (accuracy : Accuracy) :
    (ExtendedMantissa.ofMantissaAndAccuracy m accuracy).mantissa = m := by
  cases accuracy with
  | exact => rfl
  | inexact order => cases order <;> rfl

/-- What is rounded comes out within half a unit in its last place, or as nothing if it is not more
than that. -/
theorem roundWithAccuracy_cases {m : ℕ} {e : ℤ} {accuracy : Accuracy} {x : ℚ} (sign : Sign)
    (fits : 52 ≤ m.log2 ∨ e ≤ -1074)
    (keeps : Keeps (.ofMantissaAndAccuracy m accuracy) x) :
    (roundWithAccuracy Format.binary64 sign m e accuracy = .zero sign ∧ IsNear (x * 2 ^ e) 0) ∨
      ∃ m' e' pos, roundWithAccuracy Format.binary64 sign m e accuracy = .finite sign m' e' pos ∧
        IsCanonical m' e' ∧ IsNear (x * 2 ^ e) (m' * 2 ^ e') := by
  obtain ⟨k, hk, hfirst⟩ := exists_shiftToTargetExponent fits accuracy
  have hunit : e + k = -1074 ∨ m.log2 = 52 + k := by omega
  have hbounds := keeps.bounds
  rw [mantissa_ofMantissaAndAccuracy] at hbounds
  generalize hr : (ExtendedMantissa.ofMantissaAndAccuracy m accuracy >>> k).roundedMantissa = r
  have hround : |(r : ℚ) - x / 2 ^ k| ≤ 1 / 2 := hr ▸ (keeps.shiftRight k).abs_rounded_sub_le
  obtain ⟨hlow, hhigh⟩ := abs_le.mp hround
  -- What is kept of the significand has fifty-three bits at most.
  have hle : r ≤ 2 ^ 53 := by
    have hx : x / 2 ^ k < 2 ^ 53 := by
      rw [div_lt_iff₀ (by positivity)]
      exact hbounds.2.trans_le (lt_pow_of_log2_le (by omega))
    have hr' : (r : ℚ) < ((2 ^ 53 + 1 : ℕ) : ℚ) := by
      push_cast
      linarith
    exact Nat.le_of_lt_succ (Nat.cast_lt.mp hr')
  -- It has all of them unless the cut is at the least exponent.
  have hfull : 2 ^ 52 ≤ r ∨ e + k = -1074 := by
    rcases hunit with hleast | hlog
    · exact .inr hleast
    · have hx : 2 ^ 52 ≤ x / 2 ^ k := by
        rw [le_div_iff₀ (by positivity)]
        exact (pow_le_of_log2_eq hlog).trans hbounds.1
      have hr' : ((2 ^ 52 : ℕ) : ℚ) < ((r + 1 : ℕ) : ℚ) := by
        push_cast
        linarith
      exact .inl (Nat.le_of_lt_succ (Nat.cast_lt.mp hr'))
  have herror : IsNear (x * 2 ^ e) (r * 2 ^ (e + k)) := by
    have hvalue : x * 2 ^ e = x / 2 ^ k * 2 ^ (e + k) := by
      rw [two_zpow_add_natCast]
      field_simp
    have hscaled : |(r : ℚ) * 2 ^ (e + k) - x * 2 ^ e| = |(r : ℚ) - x / 2 ^ k| * 2 ^ (e + k) := by
      have hpos : (0 : ℚ) < 2 ^ (e + k) := by positivity
      rw [hvalue, ← sub_mul, abs_mul, abs_of_pos hpos]
    rw [IsNear, hscaled]
    calc |(r : ℚ) - x / 2 ^ k| * 2 ^ (e + k) ≤ 1 / 2 * 2 ^ (e + k) :=
          mul_le_mul_of_nonneg_right hround (by positivity)
      _ = 2 ^ (e + k) / 2 := by ring
      _ ≤ x * 2 ^ e / 2 ^ 53 + 2 ^ (-1075 : ℤ) := half_unit_le hbounds.1 hunit
  obtain ⟨m', e', hsecond, hsame, hlt, hmono, hfull', hkept⟩ :=
    exists_shiftToTargetExponent_exact hle (show -1074 ≤ e + k by omega)
  rw [← hsame] at herror
  rw [roundWithAccuracy, hfirst]
  dsimp only
  rw [hr, hsecond]
  dsimp only
  by_cases hzero : m' = 0
  · left
    rw [dif_pos hzero]
    rw [hzero, Nat.cast_zero, zero_mul] at herror
    exact ⟨rfl, herror⟩
  · right
    rw [dif_neg hzero]
    refine ⟨m', e', _, rfl, ⟨hlt, by omega, ?_⟩, herror⟩
    by_cases hr52 : 2 ^ 52 ≤ r
    · exact .inl (hfull' hr52)
    · have := hkept (by omega)
      exact .inr (by omega)

/-! ## Operations on positive doubles -/

/-- Whether a double is the positive one that stands for a number. -/
def StandsFor (x : Float) (v : ℚ) : Prop :=
  ∃ m e pos, x.toModel.unpack = .finite .positive m e pos ∧ v = m * 2 ^ e

/-- A number that comes out as a positive double when it is rounded. -/
structure InRange (t : ℚ) : Prop where
  low : 5 / 4 * 2 ^ (-1075 : ℤ) ≤ t
  high : t ≤ (2 ^ 53 - 2) * 2 ^ (971 : ℤ)

variable {x y : Float} {v w : ℚ}

theorem StandsFor.isPositive (h : StandsFor x v) : isPositive x = true := by
  obtain ⟨m, e, pos, hparts, -⟩ := h
  exact (isPositive_iff x).mpr ⟨m, e, pos, hparts⟩

theorem StandsFor.isInf (h : StandsFor x v) : x.isInf = false := by
  obtain ⟨m, e, pos, hparts, -⟩ := h
  have hmodel : x.isInf = x.toModel.unpack.isInf := rfl
  rw [hmodel, hparts]
  rfl

theorem InRange.near_pos {t v : ℚ} (h : InRange t) (hnear : IsNear t v) :
    0 < v ∧ v < 2 ^ (1024 : ℤ) := by
  obtain ⟨hlow, hhigh⟩ := h
  obtain ⟨hbelow, habove⟩ := abs_le.mp hnear
  have hleast : (0 : ℚ) < 2 ^ (-1075 : ℤ) := by positivity
  have hsmall : (2 : ℚ) ^ (-1075 : ℤ) ≤ 1 := zpow_le_one_of_nonpos₀ (by norm_num) (by norm_num)
  have hlarge : (1 : ℚ) ≤ 2 ^ (971 : ℤ) := one_le_zpow₀ (by norm_num) (by norm_num)
  rw [show (1024 : ℤ) = 971 + (53 : ℕ) by norm_num, two_zpow_eq_mul]
  generalize (2 : ℚ) ^ (-1075 : ℤ) = least at *
  generalize (2 : ℚ) ^ (971 : ℤ) = large at *
  constructor <;> linarith

/-- What is rounded comes out as a positive double near it. -/
theorem standsFor_round {m : ℕ} {e : ℤ} {accuracy : Accuracy} {x : ℚ}
    (fits : 52 ≤ m.log2 ∨ e ≤ -1074) (keeps : Keeps (.ofMantissaAndAccuracy m accuracy) x)
    (range : InRange (x * 2 ^ e)) :
    ∃ v, StandsFor ⟨Float.Model.pack (roundWithAccuracy Format.binary64 .positive m e accuracy)⟩ v ∧
      IsNear (x * 2 ^ e) v := by
  rcases roundWithAccuracy_cases .positive fits keeps with ⟨-, hnear⟩ | ⟨m', e', pos, hround,
    hcanonical, hnear⟩
  · exact absurd (range.near_pos hnear).1 (lt_irrefl 0)
  · have hhigh := (range.near_pos hnear).2
    have he : e' ≤ 971 := by
      by_contra hgt
      have hfull : 2 ^ 52 ≤ m' := hcanonical.full.resolve_right (by omega)
      have hm : (2 : ℚ) ^ 52 ≤ m' := by exact_mod_cast hfull
      have hpow : (2 : ℚ) ^ (972 : ℤ) ≤ 2 ^ e' := zpow_le_zpow_right₀ (by norm_num) (by omega)
      have : (2 : ℚ) ^ (1024 : ℤ) ≤ m' * 2 ^ e' := by
        calc (2 : ℚ) ^ (1024 : ℤ) = 2 ^ 52 * 2 ^ (972 : ℤ) := two_zpow_eq_mul 972 52
          _ ≤ m' * 2 ^ e' := mul_le_mul hm hpow (by positivity) (by positivity)
      linarith
    refine ⟨_, ⟨m', e', pos, ?_, rfl⟩, hnear⟩
    rw [hround]
    exact unpack_pack hcanonical he .positive pos

theorem log2_mul_or_add_le {m n : ℕ} {e f : ℤ} (hm : IsCanonical m e) (hn : IsCanonical n f)
    (mpos : 0 < m) (npos : 0 < n) : 52 ≤ (m * n).log2 ∨ e + f ≤ -1074 := by
  have hlog (h : 2 ^ 52 ≤ m * n) : 52 ≤ (m * n).log2 :=
    (Nat.le_log2 (Nat.ne_of_gt (Nat.mul_pos mpos npos))).mpr h
  rcases hm.full with hfull | rfl
  · exact .inl (hlog (hfull.trans (Nat.le_mul_of_pos_right m npos)))
  · rcases hn.full with hfull | rfl
    · exact .inl (hlog (hfull.trans (Nat.le_mul_of_pos_left n mpos)))
    · exact .inr (by norm_num)

theorem StandsFor.mul (hx : StandsFor x v) (hy : StandsFor y w) (range : InRange (v * w)) :
    ∃ u, StandsFor (x * y) u ∧ IsNear (v * w) u := by
  obtain ⟨m, e, mpos, hmparts, rfl⟩ := hx
  obtain ⟨n, f, npos, hnparts, rfl⟩ := hy
  have hvalue : (m : ℚ) * 2 ^ e * (n * 2 ^ f) = ((m * n : ℕ) : ℚ) * 2 ^ (e + f) := by
    rw [zpow_add₀ two_ne_zero]
    push_cast
    ring
  have hproduct : x * y =
      ⟨Float.Model.pack (roundWithAccuracy Format.binary64 .positive (m * n) (e + f) .exact)⟩ := by
    change (⟨Float.Model.pack (UnpackedFloat.mul Format.binary64 x.toModel.unpack y.toModel.unpack)⟩
      : Float) = _
    rw [hmparts, hnparts]
    rfl
  rw [hproduct, hvalue]
  rw [hvalue] at range
  exact standsFor_round (log2_mul_or_add_le (isCanonical_of_unpack hmparts).1
    (isCanonical_of_unpack hnparts).1 mpos npos) (keeps_exact _) range

theorem cast_div_eq_add (m : ℕ) {n : ℕ} (h : 0 < n) :
    (m : ℚ) / n = ((m / n : ℕ) : ℚ) + ((m % n : ℕ) : ℚ) / n := by
  have hn : (n : ℚ) ≠ 0 := Nat.cast_ne_zero.mpr (Nat.ne_of_gt h)
  have hm : (m : ℚ) = n * ((m / n : ℕ) : ℚ) + ((m % n : ℕ) : ℚ) := by
    exact_mod_cast (Nat.div_add_mod m n).symm
  rw [hm]
  field_simp

/-- Twice the rest of a division is compared with the divisor to find out on which side of one half
the rest is. -/
theorem compare_two_mul (r : ℕ) {n : ℕ} (h : 0 < n) :
    compare (2 * r) n = cmp ((r : ℚ) / n) (1 / 2) := by
  have hn : (0 : ℚ) < n := Nat.cast_pos.mpr h
  have hmono : StrictMono fun k : ℕ => (k : ℚ) / (2 * n) := fun a b hab =>
    div_lt_div_of_pos_right (Nat.cast_lt.mpr hab) (by positivity)
  have hrest : ((2 * r : ℕ) : ℚ) / (2 * n) = r / n := by
    push_cast
    field_simp
  have hhalf : (n : ℚ) / (2 * n) = 1 / 2 := by field_simp
  rw [← cmp_eq_compare, ← hmono.cmp_map_eq, hrest, hhalf]

/-- What is left of a quotient below its last place is what the two further bits say. -/
theorem keeps_quotient (m : ℕ) {n : ℕ} (h : 0 < n) :
    Keeps (.ofMantissaAndAccuracy (m / n) (accuracyOfFraction (m % n) n)) (m / n) := by
  have hn : (0 : ℚ) < n := Nat.cast_pos.mpr h
  have hrest : m % n < n := Nat.mod_lt m h
  rw [cast_div_eq_add m h]
  generalize m / n = q at *
  generalize m % n = r at *
  have hr : (r : ℚ) / n < 1 := (div_lt_one hn).mpr (Nat.cast_lt.mpr hrest)
  unfold accuracyOfFraction
  split
  · rename_i hzero
    simp [Keeps, ExtendedMantissa.ofMantissaAndAccuracy, hzero]
  · rename_i hsome
    have hpos : (0 : ℚ) < r / n := div_pos (Nat.cast_pos.mpr (Nat.pos_of_ne_zero hsome)) hn
    cases hcompare : compare (2 * r) n <;> rw [compare_two_mul r h] at hcompare
    case lt =>
      have hhalf := (cmp_eq_lt_iff _ _).mp hcompare
      simp only [Keeps, ExtendedMantissa.ofMantissaAndAccuracy]
      constructor <;> linarith
    case eq =>
      have hhalf := (cmp_eq_eq_iff _ _).mp hcompare
      simp only [Keeps, ExtendedMantissa.ofMantissaAndAccuracy]
      linarith
    case gt =>
      have hhalf := (cmp_eq_gt_iff _ _).mp hcompare
      simp only [Keeps, ExtendedMantissa.ofMantissaAndAccuracy]
      constructor <;> linarith

theorem log2_quotient {m n k : ℕ} (mpos : 0 < m) (npos : 0 < n)
    (h : n.log2 + 53 ≤ m.log2 + k) : 52 ≤ (m <<< k / n).log2 := by
  have hquotient : 2 ^ 52 ≤ m <<< k / n := by
    rw [Nat.le_div_iff_mul_le npos, Nat.shiftLeft_eq]
    calc 2 ^ 52 * n ≤ 2 ^ 52 * 2 ^ (n.log2 + 1) :=
          Nat.mul_le_mul_left _ (Nat.le_of_lt Nat.lt_log2_self)
      _ = 2 ^ (n.log2 + 53) := by rw [← pow_add]; congr 1; omega
      _ ≤ 2 ^ (m.log2 + k) := Nat.pow_le_pow_right (by norm_num) h
      _ = 2 ^ m.log2 * 2 ^ k := pow_add ..
      _ ≤ m * 2 ^ k := Nat.mul_le_mul_right _ (Nat.log2_self_le (Nat.ne_of_gt mpos))
  exact (Nat.le_log2 (by omega)).mpr hquotient

theorem StandsFor.div (hx : StandsFor x v) (hy : StandsFor y w) (range : InRange (v / w)) :
    ∃ u, StandsFor (x / y) u ∧ IsNear (v / w) u := by
  obtain ⟨m, e, mpos, hmparts, rfl⟩ := hx
  obtain ⟨n, f, npos, hnparts, rfl⟩ := hy
  have hn : (n : ℚ) ≠ 0 := Nat.cast_ne_zero.mpr (Nat.ne_of_gt npos)
  -- The quotient is computed down to this exponent.
  obtain ⟨g, hg⟩ : ∃ g, g = min (e - f) (Format.binary64.targetExponent
    (totalExponent m e - totalExponent n f)) := ⟨_, rfl⟩
  obtain ⟨k, hk⟩ : ∃ k, k = (e - f - g).toNat := ⟨_, rfl⟩
  have hquotient : x / y = ⟨Float.Model.pack (roundWithAccuracy Format.binary64 .positive
      (m <<< k / n) g (accuracyOfFraction (m <<< k % n) n))⟩ := by
    change (⟨Float.Model.pack (UnpackedFloat.div Format.binary64 x.toModel.unpack y.toModel.unpack)⟩
      : Float) = _
    rw [hmparts, hnparts, hk, hg]
    rfl
  have hvalue : (m : ℚ) * 2 ^ e / (n * 2 ^ f) = ((m <<< k : ℕ) : ℚ) / n * 2 ^ g := by
    rw [Nat.shiftLeft_eq]
    push_cast
    have hexponent : e = k + g + f := by omega
    rw [hexponent, zpow_add₀ two_ne_zero, zpow_add₀ two_ne_zero, zpow_natCast]
    field_simp
  have fits : 52 ≤ (m <<< k / n).log2 ∨ g ≤ -1074 := by
    by_cases hleast : g ≤ -1074
    · exact .inr hleast
    · have htarget : Format.binary64.targetExponent (totalExponent m e - totalExponent n f) =
          max ((m.log2 : ℤ) + e - (n.log2 + f) - 53) (-1074) := by
        simp only [Format.targetExponent, totalExponent, Format.mantissaBits, Format.minExponent]
        norm_num
        omega
      exact .inl (log2_quotient mpos npos (by omega))
  rw [hquotient, hvalue]
  rw [hvalue] at range
  exact standsFor_round fits (keeps_quotient _ npos) range

end RobotRoutine.Decimal
