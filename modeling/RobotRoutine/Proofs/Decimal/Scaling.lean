import RobotRoutine.Json.Number
import RobotRoutine.Proofs.Decimal.Doubles

/-!
# Digits scaled by a power of ten

A word of digits and a power of ten are turned into doubles before one is multiplied with or divided
by the other, a division by more than the greatest power of ten being done in two steps. Each of
these roundings costs half a unit, so the outcome is a positive double unless the number is next to
the ends of the range already (`exists_scale?`).
-/

namespace RobotRoutine.Decimal

open Float.Model Float.Model.UnpackedFloat

variable {n p : ℕ}

/-! ## Whole numbers and powers of ten -/

/-- The greatest double is between two powers of ten. -/
theorem greatest_bounds : 3 / 2 * (10 : ℚ) ^ 308 ≤ (2 ^ 53 - 2) * 2 ^ (971 : ℤ) ∧
    (2 ^ 53 - 2) * 2 ^ (971 : ℤ) < (10 : ℚ) ^ 309 := by
  have hle : 3 * 10 ^ 308 ≤ 2 * (9007199254740990 * 2 ^ 971) ∧
      9007199254740990 * 2 ^ 971 < 10 ^ 309 := by decide +kernel
  have hcast : 3 * (10 : ℚ) ^ 308 ≤ 2 * (9007199254740990 * 2 ^ 971) ∧
      9007199254740990 * (2 : ℚ) ^ 971 < 10 ^ 309 := by
    have h := And.intro (Nat.cast_le (α := ℚ).mpr hle.1) (Nat.cast_lt (α := ℚ).mpr hle.2)
    rwa [Nat.cast_mul, Nat.cast_mul, Nat.cast_mul, Nat.cast_pow, Nat.cast_pow, Nat.cast_pow,
      Nat.cast_ofNat, Nat.cast_ofNat, Nat.cast_ofNat, Nat.cast_ofNat] at h
  rw [zpow_ofNat, show (2 : ℚ) ^ 53 - 2 = 9007199254740990 by norm_num]
  refine ⟨?_, hcast.2⟩
  generalize (10 : ℚ) ^ 308 = tens at *
  generalize (2 : ℚ) ^ 971 = units at *
  linarith

theorem inRange_of_le {s t : ℚ} (hs : s ≤ 10 ^ 308) (hlow : 1 / 2 ≤ t) (hhigh : t ≤ 3 / 2 * s) :
    InRange t := by
  constructor
  · have hleast : (2 : ℚ) ^ (-1075 : ℤ) ≤ 2 ^ (-2 : ℤ) :=
      zpow_le_zpow_right₀ (by norm_num) (by norm_num)
    calc 5 / 4 * (2 : ℚ) ^ (-1075 : ℤ) ≤ 5 / 4 * 2 ^ (-2 : ℤ) := by gcongr
      _ ≤ 1 / 2 := by norm_num
      _ ≤ t := hlow
  · calc t ≤ 3 / 2 * s := hhigh
      _ ≤ 3 / 2 * 10 ^ 308 := by gcongr
      _ ≤ (2 ^ 53 - 2) * 2 ^ (971 : ℤ) := greatest_bounds.1

theorem le_log2_shiftLeft {k : ℕ} (pos : 0 < n) (h : 52 ≤ n.log2 + k) : 52 ≤ (n <<< k).log2 := by
  have hle : 2 ^ 52 ≤ n <<< k := by
    rw [Nat.shiftLeft_eq]
    calc 2 ^ 52 ≤ 2 ^ (n.log2 + k) := Nat.pow_le_pow_right (by norm_num) h
      _ = 2 ^ n.log2 * 2 ^ k := pow_add ..
      _ ≤ n * 2 ^ k := Nat.mul_le_mul_right _ (Nat.log2_self_le (Nat.ne_of_gt pos))
  exact (Nat.le_log2 (by omega)).mpr hle

theorem cast_le_ten_pow (hn : n < 2 ^ 64) : (n : ℚ) ≤ 10 ^ 308 :=
  calc (n : ℚ) ≤ 10 ^ 64 := by exact_mod_cast hn.le.trans (by norm_num)
    _ ≤ 10 ^ 308 := pow_le_pow_right₀ (by norm_num) (by norm_num)

theorem shiftLeft_mul_zpow (n k : ℕ) : ((n <<< k : ℕ) : ℚ) * 2 ^ (-(k : ℤ)) = n := by
  rw [Nat.shiftLeft_eq, zpow_neg, zpow_natCast]
  push_cast
  field_simp

theorem standsFor_toFloat (pos : 0 < n) (hn : n < 2 ^ 64) :
    ∃ v, StandsFor n.toUInt64.toFloat v ∧ IsNear n v := by
  obtain ⟨k, hk⟩ : ∃ k : ℕ, k = (0 - max ((n.log2 : ℤ) + 0 - 52) (-1074)).toNat := ⟨_, rfl⟩
  have hword : n.toUInt64.toNat = n := UInt64.toNat_ofNat_of_lt hn
  have hfloat : n.toUInt64.toFloat =
      ⟨Float.Model.pack (roundWithAccuracy Format.binary64 .positive (n <<< k) (-k) .exact)⟩ := by
    change (⟨Float.Model.pack (UnpackedFloat.normalize Format.binary64 (n.toUInt64.toNat : ℤ) 0
      .positive)⟩ : Float) = _
    rw [hword, UnpackedFloat.normalize, Int.compare_eq_gt.mpr (by omega)]
    dsimp only
    rw [UnpackedFloat.round, targetExponent_eq, Int.toNat_natCast, decreaseExponent, ← hk, zero_sub]
  have hvalue := shiftLeft_mul_zpow n k
  have range : InRange (((n <<< k : ℕ) : ℚ) * 2 ^ (-(k : ℤ))) := by
    rw [hvalue]
    have hone : (1 : ℚ) ≤ n := by exact_mod_cast pos
    exact inRange_of_le (cast_le_ten_pow hn) (by linarith) (by linarith)
  have hround := standsFor_round (.inl (le_log2_shiftLeft pos (by omega))) (keeps_exact _) range
  rw [hvalue] at hround
  rw [hfloat]
  exact hround

theorem cast_twoTo (n : ℕ) : ((twoTo n : ℕ) : ℚ) = 2 ^ n := by
  rw [show twoTo n = 2 ^ n from rfl, Nat.cast_pow, Nat.cast_ofNat]

theorem cast_tenTo (n : ℕ) : ((tenTo n : ℕ) : ℚ) = 10 ^ n := by
  rw [show tenTo n = 10 ^ n from rfl, Nat.cast_pow, Nat.cast_ofNat]

/-- An integral power as a quotient of natural ones. -/
theorem zpow_eq_div {b : ℚ} (hb : b ≠ 0) (e : ℤ) : b ^ e = b ^ e.toNat / b ^ (-e).toNat := by
  rw [eq_div_iff (pow_ne_zero _ hb), ← zpow_natCast, ← zpow_natCast, ← zpow_add₀ hb]
  congr 1
  omega

theorem standsFor_of_ofFloat {x : Float} {m : ℕ} {e : ℤ}
    (h : Binary.ofFloat x = .finite false m e) (pos : 0 < m) : StandsFor x (m * 2 ^ e) := by
  rw [Binary.ofFloat_eq] at h
  cases hparts : x.toModel.unpack with
  | infinity sign => simp [hparts, Binary.ofUnpacked] at h
  | notANumber => simp [hparts, Binary.ofUnpacked] at h
  | zero sign =>
      simp only [hparts, Binary.ofUnpacked, Binary.finite.injEq] at h
      omega
  | finite sign m' e' pos' =>
      simp only [hparts, Binary.ofUnpacked, Binary.finite.injEq] at h
      obtain ⟨hsign, rfl, rfl⟩ := h
      cases sign with
      | negative => cases hsign
      | positive => exact ⟨m', e', pos', hparts, rfl⟩

/-- Whether a double is a power of ten. -/
def isTenTo (p : ℕ) (x : Float) : Bool :=
  match Binary.ofFloat x with
  | .finite false m e => 0 < m ∧ m * twoTo e.toNat = tenTo p * twoTo (-e).toNat
  | _ => false

theorem standsFor_of_isTenTo {x : Float} (h : isTenTo p x = true) : StandsFor x (10 ^ p) := by
  rw [isTenTo] at h
  split at h
  · rename_i m e hparts
    obtain ⟨pos, hsame⟩ := of_decide_eq_true h
    have hvalue : (m : ℚ) * 2 ^ e = 10 ^ p := by
      have hcast := congrArg (Nat.cast (R := ℚ)) hsame
      rw [Nat.cast_mul, Nat.cast_mul, cast_twoTo, cast_twoTo, cast_tenTo] at hcast
      rw [zpow_eq_div two_ne_zero, ← mul_div_assoc, hcast, mul_div_assoc, div_self (by positivity),
        mul_one]
    exact hvalue ▸ standsFor_of_ofFloat hparts pos
  · cases h

/-- The powers of ten that are doubles are at hand. -/
theorem isTenTo_exactlyRepresentablePowersOfTen
    (p : Fin Float.exactlyRepresentablePowersOfTen.size) :
    isTenTo p Float.exactlyRepresentablePowersOfTen[p] = true := by
  revert p
  decide +kernel

theorem one_le_of_pos (pos : 0 < n) (p : ℕ) : (1 : ℚ) ≤ n * 10 ^ p := by
  exact_mod_cast Nat.mul_pos pos (Nat.pow_pos (by norm_num))

theorem two_zpow_le_half : (2 : ℚ) ^ (-1022 : ℤ) ≤ 1 / 2 :=
  calc (2 : ℚ) ^ (-1022 : ℤ) ≤ 2 ^ (-1 : ℤ) := zpow_le_zpow_right₀ (by norm_num) (by norm_num)
    _ = 1 / 2 := by norm_num

/-- A word with zeros behind it is turned into a double within two units in the last place. -/
theorem standsFor_ofScientific (pos : 0 < n) (hn : n < 2 ^ 64) (hp : p ≤ 308)
    (hhigh : (n : ℚ) * 10 ^ p ≤ 10 ^ 308) :
    ∃ v, StandsFor (Float.ofScientific n false p) v ∧ |v - n * 10 ^ p| ≤ n * 10 ^ p / 2 ^ 50 := by
  have hone := one_le_of_pos pos p
  by_cases hsmall : n < 2 ^ 53 ∧ p ≤ 22
  · have hsize : p < Float.exactlyRepresentablePowersOfTen.size := Nat.lt_succ_of_le hsmall.2
    have hfloat : Float.ofScientific n false p =
        n.toUInt64.toFloat * Float.exactlyRepresentablePowersOfTen[p] := by
      rw [Float.ofScientific, dif_pos hsmall]
      rfl
    rw [hfloat]
    have hten : StandsFor _ (10 ^ p) := standsFor_of_isTenTo
      (isTenTo_exactlyRepresentablePowersOfTen ⟨p, hsize⟩)
    obtain ⟨v, hv, hnear⟩ := standsFor_toFloat pos hn
    have hn1 : (1 : ℚ) ≤ n := by exact_mod_cast pos
    have hword := hnear.abs_sub_le (two_zpow_le_half.trans (by linarith))
    have hscaled : |v * 10 ^ p - n * 10 ^ p| ≤ n * 10 ^ p / 2 ^ 52 := by
      rw [← sub_mul, abs_mul, abs_of_pos (by positivity : (0 : ℚ) < 10 ^ p), mul_div_right_comm]
      exact mul_le_mul_of_nonneg_right hword (by positivity)
    obtain ⟨hbelow, habove⟩ := abs_le.mp hscaled
    obtain ⟨u, hu, hnear'⟩ := hv.mul hten (inRange_of_le hhigh (by linarith) (by linarith))
    have hhalf : 1 / 2 ≤ v * 10 ^ p := by linarith
    have hproduct := hnear'.abs_sub_le (two_zpow_le_half.trans hhalf)
    refine ⟨u, hu, ?_⟩
    rw [abs_le] at hproduct ⊢
    constructor <;> linarith
  · have hfloat : Float.ofScientific n false p = ⟨Float.Model.pack (roundWithAccuracy
        Format.binary64 .positive (n <<< 53 * 10 ^ p) (-53) .exact)⟩ := by
      rw [Float.ofScientific, dif_neg hsmall]
      change (⟨Float.Model.pack (UnpackedFloat.ofScientific Format.binary64 n (p : ℤ))⟩ : Float) = _
      rw [UnpackedFloat.ofScientific, dif_neg (Nat.ne_of_gt pos), if_neg (by norm_num; omega),
        if_neg (by norm_num; omega), if_pos (Int.natCast_nonneg p)]
      rfl
    rw [hfloat]
    have hvalue : ((n <<< 53 * 10 ^ p : ℕ) : ℚ) * 2 ^ (-53 : ℤ) = n * 10 ^ p := by
      have hshift : ((n <<< 53 : ℕ) : ℚ) * 2 ^ (-53 : ℤ) = n := shiftLeft_mul_zpow n 53
      rw [Nat.cast_mul, mul_right_comm, hshift, Nat.cast_pow, Nat.cast_ofNat]
    have fits : 52 ≤ (n <<< 53 * 10 ^ p).log2 := by
      have hle : 2 ^ 52 ≤ n <<< 53 * 10 ^ p := by
        rw [Nat.shiftLeft_eq]
        calc 2 ^ 52 ≤ 1 * 2 ^ 53 * 1 := by norm_num
          _ ≤ n * 2 ^ 53 * 10 ^ p := by
            gcongr
            · exact pos
            · exact Nat.one_le_pow p 10 (by norm_num)
      exact (Nat.le_log2 (by omega)).mpr hle
    obtain ⟨v, hv, hnear⟩ := standsFor_round (.inl fits) (keeps_exact _)
      (by rw [hvalue]; exact inRange_of_le hhigh (by linarith) (by linarith))
    rw [hvalue] at hnear
    have hround := hnear.abs_sub_le (two_zpow_le_half.trans (by linarith))
    refine ⟨v, hv, hround.trans ?_⟩
    linarith

/-! ## Scaling -/

namespace Numeral

theorem standsFor_ofNat (pos : 0 < n) (hn : n < 2 ^ 64) :
    ∃ v, StandsFor (Float.ofNat n) v ∧ |v - n| ≤ n / 2 ^ 50 := by
  have h := standsFor_ofScientific (p := 0) pos hn (by norm_num)
    (by rw [pow_zero, mul_one]; exact cast_le_ten_pow hn)
  rwa [pow_zero, mul_one] at h

theorem standsFor_powerOfTen (hp : p ≤ 308) :
    ∃ w, StandsFor (powerOfTen p) w ∧ |w - 10 ^ p| ≤ 10 ^ p / 2 ^ 50 := by
  have h := standsFor_ofScientific (n := 1) (p := p) one_pos (by norm_num) hp
    (by rw [Nat.cast_one, one_mul]; exact pow_le_pow_right₀ (by norm_num) hp)
  rwa [Nat.cast_one, one_mul] at h

theorem bounds_of_abs_sub_le {a f : ℚ} (ha : 0 < a) (h : |f - a| ≤ a / 2 ^ 50) :
    0 < f ∧ 15 / 16 * a ≤ f ∧ f ≤ (1 + 1 / 2 ^ 50) * a := by
  obtain ⟨hbelow, habove⟩ := abs_le.mp h
  refine ⟨?_, ?_, ?_⟩ <;> linarith

/-- A quotient of doubles near two numbers is near their quotient. -/
theorem div_bounds {a b f w : ℚ} (ha : 0 < a) (hb : 0 < b) (hf : |f - a| ≤ a / 2 ^ 50)
    (hw : |w - b| ≤ b / 2 ^ 50) : 15 / 17 * (a / b) ≤ f / w ∧ f / w ≤ 17 / 15 * (a / b) := by
  obtain ⟨fpos, hlow, hhigh⟩ := bounds_of_abs_sub_le ha hf
  obtain ⟨wpos, hlow', hhigh'⟩ := bounds_of_abs_sub_le hb hw
  have hf' : f ≤ 17 / 16 * a := by linarith
  have hw' : w ≤ 17 / 16 * b := by linarith
  constructor
  · calc 15 / 17 * (a / b) = 15 / 16 * a / (17 / 16 * b) := by field_simp
      _ ≤ f / w := by gcongr
  · calc f / w ≤ 17 / 16 * a / (15 / 16 * b) := by gcongr
      _ = 17 / 15 * (a / b) := by field_simp

/-- A product of doubles near two numbers stays among the doubles if theirs is not the last. -/
theorem inRange_mul {a b f w : ℚ} (ha : 0 < a) (hb : 0 < b) (hf : |f - a| ≤ a / 2 ^ 50)
    (hw : |w - b| ≤ b / 2 ^ 50) (hlow : 1 ≤ a * b)
    (hhigh : a * b ≤ (2 ^ 53 - 20) * 2 ^ (971 : ℤ)) : InRange (f * w) := by
  obtain ⟨fpos, hf₁, hf₂⟩ := bounds_of_abs_sub_le ha hf
  obtain ⟨wpos, hw₁, hw₂⟩ := bounds_of_abs_sub_le hb hw
  constructor
  · have hleast : (2 : ℚ) ^ (-1075 : ℤ) ≤ 2 ^ (-1 : ℤ) :=
      zpow_le_zpow_right₀ (by norm_num) (by norm_num)
    calc 5 / 4 * (2 : ℚ) ^ (-1075 : ℤ) ≤ 5 / 4 * 2 ^ (-1 : ℤ) := by gcongr
      _ ≤ 15 / 16 * (15 / 16) * 1 := by norm_num
      _ ≤ 15 / 16 * (15 / 16) * (a * b) := by gcongr
      _ = 15 / 16 * a * (15 / 16 * b) := by ring
      _ ≤ f * w := by gcongr
  · have hlarge : (0 : ℚ) < 2 ^ (971 : ℤ) := by positivity
    calc f * w ≤ (1 + 1 / 2 ^ 50) * a * ((1 + 1 / 2 ^ 50) * b) := by gcongr
      _ = (1 + 1 / 2 ^ 50) * (1 + 1 / 2 ^ 50) * (a * b) := by ring
      _ ≤ (1 + 1 / 2 ^ 50) * (1 + 1 / 2 ^ 50) * ((2 ^ 53 - 20) * 2 ^ (971 : ℤ)) := by gcongr
      _ = (1 + 1 / 2 ^ 50) * (1 + 1 / 2 ^ 50) * (2 ^ 53 - 20) * 2 ^ (971 : ℤ) := by ring
      _ ≤ (2 ^ 53 - 2) * 2 ^ (971 : ℤ) := mul_le_mul_of_nonneg_right (by norm_num) hlarge.le

theorem le_greatest {t : ℚ} (h : t ≤ 2 ^ 100) : t ≤ (2 ^ 53 - 2) * 2 ^ (971 : ℤ) := by
  have hpow : (2 : ℚ) ^ (100 : ℤ) ≤ 2 ^ (971 : ℤ) := zpow_le_zpow_right₀ (by norm_num) (by norm_num)
  rw [zpow_ofNat] at hpow
  generalize (2 : ℚ) ^ (971 : ℤ) = large at *
  linarith

theorem div_le_of_one_le {a b : ℚ} (ha : a ≤ 2 ^ 64) (hb : 1 ≤ b) : a / b ≤ 2 ^ 64 :=
  (div_le_iff₀ (by linarith)).mpr (by linarith)

theorem mul_ten_zpow_neg (a : ℚ) (p : ℕ) : a * 10 ^ (-(p : ℤ)) = a / 10 ^ p := by
  rw [zpow_neg, zpow_natCast, div_eq_mul_inv]

/-- Powers of ten as far down as no double is. -/
theorem ten_zpow_lt_least {power : ℤ} (h : power < -616) :
    2 ^ 64 * (10 : ℚ) ^ power < 3 * 2 ^ (-1075 : ℤ) := by
  have hten : (10 : ℚ) ^ power ≤ 2 ^ (-1139 : ℤ) :=
    calc (10 : ℚ) ^ power ≤ 10 ^ (-617 : ℤ) := zpow_le_zpow_right₀ (by norm_num) (by omega)
      _ ≤ 8 ^ (-617 : ℤ) := by
        rw [zpow_neg, zpow_neg]
        exact inv_anti₀ (by positivity)
          (zpow_le_zpow_left₀ (by norm_num) (by norm_num) (by norm_num))
      _ = 2 ^ (-1851 : ℤ) := by
        rw [show (8 : ℚ) = 2 ^ (3 : ℤ) by norm_num, ← zpow_mul]
        norm_num
      _ ≤ 2 ^ (-1139 : ℤ) := zpow_le_zpow_right₀ (by norm_num) (by norm_num)
  calc 2 ^ 64 * (10 : ℚ) ^ power ≤ 2 ^ 64 * 2 ^ (-1139 : ℤ) := by gcongr
    _ = 2 ^ (-1075 : ℤ) := (two_zpow_eq_mul (-1139) 64).symm
    _ < 3 * 2 ^ (-1075 : ℤ) := lt_mul_of_one_lt_left (by positivity) (by norm_num)

/-- A number divided by the greatest power of ten is far above the least double. -/
theorem least_le_div {a : ℚ} (ha : 1 ≤ a) : 16 * 2 ^ (-1075 : ℤ) ≤ a / 10 ^ 308 := by
  have hten : (10 : ℚ) ^ 308 ≤ 2 ^ 53 * 2 ^ (971 : ℤ) := by
    have hlarge : (0 : ℚ) < 2 ^ (971 : ℤ) := by positivity
    have := greatest_bounds.1
    generalize (2 : ℚ) ^ (971 : ℤ) = large at *
    generalize (10 : ℚ) ^ 308 = tens at *
    linarith
  rw [le_div_iff₀ (by positivity)]
  calc 16 * (2 : ℚ) ^ (-1075 : ℤ) * 10 ^ 308
      ≤ 16 * 2 ^ (-1075 : ℤ) * (2 ^ 53 * 2 ^ (971 : ℤ)) := by gcongr
    _ = 2 ^ 57 * 2 ^ (-104 : ℤ) := by
      rw [show (-104 : ℤ) = -1075 + 971 by norm_num, zpow_add₀ two_ne_zero]
      ring
    _ ≤ 1 := by norm_num
    _ ≤ a := ha

/-- Dividing in a second step keeps to the range. -/
theorem inRange_div_of_near {a b q u w : ℚ} (hnear : IsNear q u)
    (hleast : 16 * 2 ^ (-1075 : ℤ) ≤ a) (hbelow : 15 / 17 * a ≤ q) (habove : q ≤ 17 / 15 * a)
    (htop : a ≤ 2 ^ 64) (hb : 1 ≤ b) (hw : |w - b| ≤ b / 2 ^ 50)
    (hlow : 3 * 2 ^ (-1075 : ℤ) ≤ a / b) : InRange (u / w) := by
  have hleast' : (0 : ℚ) < 2 ^ (-1075 : ℤ) := by positivity
  have ha : 0 < a := by linarith
  obtain ⟨hbelow', habove'⟩ := abs_le.mp hnear
  obtain ⟨wpos, hw₁, hw₂⟩ := bounds_of_abs_sub_le (by linarith) hw
  have hu₁ : 3 / 4 * (15 / 17) * a ≤ u := by linarith
  have hu₂ : u ≤ 2 * a := by linarith
  have hw₃ : w ≤ 17 / 16 * b := by linarith
  have hu₀ : 0 ≤ u := le_trans (by positivity) hu₁
  constructor
  · calc 5 / 4 * (2 : ℚ) ^ (-1075 : ℤ) ≤ 3 / 4 * (15 / 17) * (16 / 17) * (a / b) := by linarith
      _ = 3 / 4 * (15 / 17) * a / (17 / 16 * b) := by field_simp
      _ ≤ u / w := by gcongr
  · refine le_greatest ?_
    calc u / w ≤ 2 * a / (15 / 16 * b) := by gcongr
      _ = 32 / 15 * (a / b) := by field_simp; norm_num
      _ ≤ 32 / 15 * a := by gcongr; exact div_le_self ha.le hb
      _ ≤ 2 ^ 100 := by linarith

section Steps

variable (pos : 0 < n) (hn : n < 2 ^ 64) (hp : p ≤ 308)

include pos hn

theorem word_bounds : 1 ≤ (n : ℚ) ∧ (n : ℚ) ≤ 2 ^ 64 :=
  ⟨by exact_mod_cast pos, by exact_mod_cast hn.le⟩

include hp

theorem exists_standsFor_mul (hhigh : (n : ℚ) * 10 ^ p ≤ (2 ^ 53 - 20) * 2 ^ (971 : ℤ)) :
    ∃ u, StandsFor (Float.ofNat n * powerOfTen p) u := by
  obtain ⟨hn1, -⟩ := word_bounds pos hn
  obtain ⟨f, hf, hnear⟩ := standsFor_ofNat pos hn
  obtain ⟨w, hw, hnear'⟩ := standsFor_powerOfTen hp
  obtain ⟨u, hu, -⟩ := hf.mul hw (inRange_mul (by linarith) (by positivity) hnear hnear'
    (one_le_of_pos pos p) hhigh)
  exact ⟨u, hu⟩

theorem exists_standsFor_div (hlow : 3 * 2 ^ (-1075 : ℤ) ≤ (n : ℚ) / 10 ^ p) :
    ∃ u, StandsFor (Float.ofNat n / powerOfTen p) u := by
  obtain ⟨hn1, hn64⟩ := word_bounds pos hn
  obtain ⟨f, hf, hnear⟩ := standsFor_ofNat pos hn
  obtain ⟨w, hw, hnear'⟩ := standsFor_powerOfTen hp
  obtain ⟨hbelow, habove⟩ := div_bounds (by linarith) (by positivity) hnear hnear'
  have htop := div_le_of_one_le hn64 (one_le_pow₀ (by norm_num) : (1 : ℚ) ≤ 10 ^ p)
  obtain ⟨u, hu, -⟩ := hf.div hw ⟨by linarith, le_greatest (by linarith)⟩
  exact ⟨u, hu⟩

theorem exists_standsFor_div_div (hlow : 3 * 2 ^ (-1075 : ℤ) ≤ (n : ℚ) / 10 ^ 308 / 10 ^ p) :
    ∃ u, StandsFor (Float.ofNat n / powerOfTen 308 / powerOfTen p) u := by
  obtain ⟨hn1, hn64⟩ := word_bounds pos hn
  obtain ⟨f, hf, hnear⟩ := standsFor_ofNat pos hn
  obtain ⟨w, hw, hnear'⟩ := standsFor_powerOfTen hp
  obtain ⟨w', hw', hnear''⟩ := standsFor_powerOfTen (p := 308) le_rfl
  obtain ⟨hbelow, habove⟩ := div_bounds (by linarith) (by positivity) hnear hnear''
  have htop := div_le_of_one_le hn64 (one_le_pow₀ (by norm_num) : (1 : ℚ) ≤ 10 ^ 308)
  have hleast := least_le_div hn1
  generalize (n : ℚ) / 10 ^ 308 = a at *
  obtain ⟨u, hu, hnearu⟩ := hf.div hw' ⟨by linarith, le_greatest (by linarith)⟩
  obtain ⟨u', hu', -⟩ := hu.div hw (inRange_div_of_near hnearu hleast hbelow habove htop
    (one_le_pow₀ (by norm_num)) hnear' hlow)
  exact ⟨u', hu'⟩

end Steps

/-- Digits scaled by a power of ten are a positive double, unless what they stand for is below the
second double or close to the last one. -/
theorem exists_scale? {power : ℤ} (pos : 0 < n) (hn : n < 2 ^ 64)
    (hlow : 3 * 2 ^ (-1075 : ℤ) ≤ (n : ℚ) * 10 ^ power)
    (hhigh : (n : ℚ) * 10 ^ power ≤ (2 ^ 53 - 20) * 2 ^ (971 : ℤ)) :
    ∃ x v, scale? (Float.ofNat n) power = some x ∧ StandsFor x v := by
  obtain ⟨hn1, hn64⟩ := word_bounds pos hn
  rw [scale?]
  split
  · -- Nothing is that large.
    rename_i hgt
    have habove : (10 : ℚ) ^ (309 : ℤ) ≤ n * 10 ^ power :=
      calc (10 : ℚ) ^ (309 : ℤ) ≤ 10 ^ power := zpow_le_zpow_right₀ (by norm_num) (by omega)
        _ ≤ n * 10 ^ power := le_mul_of_one_le_left (by positivity) hn1
    have hbelow : (2 ^ 53 - 20) * (2 : ℚ) ^ (971 : ℤ) < 10 ^ (309 : ℤ) := by
      refine lt_of_le_of_lt ?_ greatest_bounds.2
      exact mul_le_mul_of_nonneg_right (by norm_num) (by positivity)
    exact absurd (habove.trans hhigh) (not_le.mpr hbelow)
  · split
    · rename_i hnonneg
      obtain ⟨p, rfl⟩ := Int.eq_ofNat_of_zero_le hnonneg
      rw [zpow_natCast] at hhigh
      obtain ⟨u, hu⟩ := exists_standsFor_mul pos hn (by omega) hhigh
      rw [Int.toNat_natCast]
      dsimp only
      rw [hu.isInf]
      exact ⟨_, u, rfl, hu⟩
    · split
      · obtain ⟨p, rfl⟩ : ∃ p : ℕ, power = -p := ⟨(-power).toNat, by omega⟩
        rw [mul_ten_zpow_neg] at hlow
        obtain ⟨u, hu⟩ := exists_standsFor_div pos hn (by omega) hlow
        rw [neg_neg, Int.toNat_natCast]
        exact ⟨_, u, rfl, hu⟩
      · split
        · obtain ⟨p, rfl⟩ : ∃ p : ℕ, power = -((308 + p : ℕ) : ℤ) :=
            ⟨(-power - 308).toNat, by omega⟩
          rw [mul_ten_zpow_neg, pow_add, ← div_div] at hlow
          obtain ⟨u, hu⟩ := exists_standsFor_div_div pos hn (by omega) hlow
          rw [show -(-((308 + p : ℕ) : ℤ)) - 308 = p by omega, Int.toNat_natCast]
          exact ⟨_, u, rfl, hu⟩
        · -- Nothing is that small.
          have htop : (n : ℚ) * 10 ^ power ≤ 2 ^ 64 * 10 ^ power := by gcongr
          exact absurd (hlow.trans htop) (not_le.mpr (ten_zpow_lt_least (by omega)))

end Numeral

end RobotRoutine.Decimal
