import Mathlib
import RobotRoutine.Decimal.Binary

/-!
# Doubles taken apart and put together

What is written about a double is computed from its bits; an operation on doubles takes them apart
by itself, and puts the outcome together. Both find the same parts in a double
(`Binary.ofFloat_eq`), and what an operation puts together is found again (`unpack_pack`).
-/

namespace RobotRoutine.Decimal

open Float.Model Float.Model.UnpackedFloat

/-- Whether a sign is that of the numbers below zero. -/
def isNegative : Sign → Bool
  | .negative => true
  | .positive => false

/-- The parts of a double as the operations on doubles take it apart. -/
def Binary.ofUnpacked : UnpackedFloat → Binary
  | .notANumber => .nan
  | .infinity sign => .infinite (isNegative sign)
  | .zero sign => .finite (isNegative sign) 0 (-1074)
  | .finite sign m e _ => .finite (isNegative sign) m e

/-! ## Taking apart -/

section

variable (b : BitVec Format.binary64.numBits)

theorem toNat_unpackMantissa :
    (unpackMantissa b).toNat = b.toNat % 2 ^ 52 := by
  simp [unpackMantissa, BitVec.extractLsb, BitVec.extractLsb'_toNat]

theorem toNat_unpackExponent :
    (unpackExponent b).toNat = b.toNat / 2 ^ 52 % 2 ^ 11 := by
  simp [unpackExponent, BitVec.extractLsb, BitVec.extractLsb'_toNat, Nat.shiftRight_eq_div_pow]

theorem isNegative_unpackSign :
    isNegative (Sign.ofBitVec (unpackSign b)) = decide (b.toNat / 2 ^ 63 % 2 = 1) := by
  have h : (unpackSign b).toNat = b.toNat / 2 ^ 63 % 2 := by
    simp [unpackSign, BitVec.extractLsb, BitVec.extractLsb'_toNat, Nat.shiftRight_eq_div_pow]
  rw [← h]
  rcases BitVec.eq_zero_or_eq_one (unpackSign b) with hzero | hone
  · rw [hzero]
    rfl
  · rw [hone]
    rfl

theorem toNat_one_append (fraction : BitVec 52) :
    (1#1 ++ fraction).toNat = fraction.toNat + 2 ^ 52 := by
  rw [BitVec.toNat_append, ← Nat.shiftLeft_add_eq_or_of_lt fraction.isLt, Nat.add_comm]
  rfl

theorem Binary.ofBits_toNat :
    ofBits b.toNat = ofUnpacked (UnpackedFloat.unpack Format.binary64 b) := by
  have hexponent := toNat_unpackExponent b
  have hmantissa := toNat_unpackMantissa b
  have hinfinite : unpackExponent b = -1#_ ↔ b.toNat / 2 ^ 52 % 2 ^ 11 = 2047 := by
    rw [← BitVec.toNat_inj, hexponent]
    rfl
  have hleast : unpackExponent b = 0#_ ↔ b.toNat / 2 ^ 52 % 2 ^ 11 = 0 := by
    rw [← BitVec.toNat_inj, hexponent]
    rfl
  have hzero : unpackMantissa b = 0#_ ↔ b.toNat % 2 ^ 52 = 0 := by
    rw [← BitVec.toNat_inj, hmantissa]
    rfl
  have hbias : ((Format.binary64.exponentBias : ℕ) : ℤ) + (52 : ℕ) = 1075 := by decide
  unfold ofBits UnpackedFloat.unpack
  dsimp only [twoTo, Nat.pow_eq]
  rw [← isNegative_unpackSign, hbias]
  by_cases h : unpackExponent b = -1#_
  · rw [if_pos (hinfinite.mp h), if_pos h]
    by_cases h' : unpackMantissa b = 0#_
    · rw [if_pos (hzero.mp h'), if_pos h']
      rfl
    · rw [if_neg (hzero.not.mp h'), if_neg h']
      rfl
  · rw [if_neg (hinfinite.not.mp h), if_neg h]
    by_cases h' : unpackExponent b = 0#_
    · rw [if_pos (hleast.mp h'), if_pos h']
      by_cases hm : unpackMantissa b = 0#_
      · rw [dif_pos hm, hzero.mp hm]
        rfl
      · rw [dif_neg hm, ofUnpacked, hmantissa, hexponent, hleast.mp h']
        rfl
    · rw [if_neg (hleast.not.mp h'), if_neg h', ofUnpacked, toNat_one_append, hmantissa,
        hexponent]

end

/-- The parts that are computed from the bits of a double are those that operations find in it. -/
theorem Binary.ofFloat_eq (x : Float) : ofFloat x = ofUnpacked x.toModel.unpack :=
  ofBits_toNat x.toModel.toBits.toBitVec

/-! ## Putting together -/

/-- The parts of a finite double: its significand has fifty-three bits, or fewer with the least
exponent. -/
structure IsCanonical (m : ℕ) (e : ℤ) : Prop where
  lt : m < 2 ^ 53
  le : -1074 ≤ e
  full : 2 ^ 52 ≤ m ∨ e = -1074

theorem Binary.isCanonical_of_ofBits {bits m : ℕ} {e : ℤ} {negative : Bool}
    (h : ofBits bits = .finite negative m e) : IsCanonical m e ∧ e ≤ 971 := by
  unfold ofBits at h
  dsimp only [twoTo, Nat.pow_eq] at h
  have hfraction : bits % 2 ^ 52 < 2 ^ 52 := Nat.mod_lt _ (by norm_num)
  have hbiased : bits / 2 ^ 52 % 2 ^ 11 < 2 ^ 11 := Nat.mod_lt _ (by norm_num)
  split at h
  · split at h <;> cases h
  · split at h
    · cases h
      exact ⟨⟨by omega, by omega, .inr rfl⟩, by omega⟩
    · cases h
      exact ⟨⟨by omega, by omega, .inl (by omega)⟩, by omega⟩

theorem isCanonical_of_unpack {x : Float.Model} {sign : Sign} {m : ℕ} {e : ℤ} {pos : 0 < m}
    (h : x.unpack = .finite sign m e pos) : IsCanonical m e ∧ e ≤ 971 := by
  have hparts := Binary.ofFloat_eq ⟨x⟩
  rw [h] at hparts
  exact Binary.isCanonical_of_ofBits hparts

/-- The parts of a finite double are what is found in it. -/
theorem unpack_pack {m : ℕ} {e : ℤ} (h : IsCanonical m e) (he : e ≤ 971) (sign : Sign)
    (pos : 0 < m) : (Float.Model.pack (.finite sign m e pos)).unpack = .finite sign m e pos := by
  obtain ⟨hlt, hle, hfull⟩ := h
  have hbias : ((Format.binary64.exponentBias : ℕ) : ℤ) + (52 : ℕ) = 1075 := by decide
  change UnpackedFloat.unpack Format.binary64 (UnpackedFloat.pack Format.binary64 _) = _
  rw [UnpackedFloat.pack]
  dsimp only
  rw [add_assoc, hbias, if_neg (by norm_num; omega)]
  unfold UnpackedFloat.unpack
  by_cases hnormal : 2 ^ 52 ≤ m
  · have hlog : m.log2 + 1 = Format.binary64.mantissaBits :=
      congrArg (· + 1) ((Nat.log2_eq_iff (Nat.ne_of_gt pos)).mpr ⟨hnormal, hlt⟩)
    have hexponent : (BitVec.ofNat 11 (e + 1075).toNat).toNat = (e + 1075).toNat := by
      rw [BitVec.toNat_ofNat]
      omega
    have hbetween (limit : BitVec 11) (h : (e + 1075).toNat ≠ limit.toNat) :
        BitVec.ofNat 11 (e + 1075).toNat ≠ limit := fun h' => h (hexponent ▸ congrArg _ h')
    rw [if_pos hlog]
    simp only [unpackExponent_packComponents, unpackMantissa_packComponents,
      unpackSign_packComponents, Sign.ofBitVec_toBitVec]
    rw [if_neg (hbetween _ (by norm_num; omega)), if_neg (hbetween _ (by norm_num; omega))]
    simp only [UnpackedFloat.finite.injEq, true_and]
    constructor
    · rw [toNat_one_append, BitVec.toNat_ofNat]
      omega
    · rw [hexponent, hbias]
      omega
  · obtain rfl : e = -1074 := hfull.resolve_left hnormal
    have hlog : m.log2 + 1 ≠ Format.binary64.mantissaBits := by
      have hlt' := (Nat.log2_lt (Nat.ne_of_gt pos)).mpr (Nat.lt_of_not_le hnormal)
      have : Format.binary64.mantissaBits = 53 := by decide
      omega
    have hfraction : (BitVec.ofNat 52 m).toNat = m := by
      rw [BitVec.toNat_ofNat]
      omega
    have hsome : BitVec.ofNat 52 m ≠ 0#52 := by
      intro h
      rw [h] at hfraction
      exact Nat.ne_of_gt pos hfraction.symm
    rw [if_neg hlog]
    simp only [unpackExponent_packComponents, unpackMantissa_packComponents,
      unpackSign_packComponents, Sign.ofBitVec_toBitVec]
    rw [if_neg (by decide), if_pos trivial, dif_neg hsome]
    simp only [UnpackedFloat.finite.injEq, true_and]
    exact ⟨hfraction, by rw [hbias]; rfl⟩

/-! ## Positive doubles -/

theorem isFinite_iff (x : Float) :
    x.isFinite = true ↔ ∃ negative m e, Binary.ofFloat x = .finite negative m e := by
  have h : x.isFinite = x.toModel.unpack.isFinite := rfl
  rw [h, Binary.ofFloat_eq]
  cases x.toModel.unpack <;> simp [UnpackedFloat.isFinite, Binary.ofUnpacked]

theorem unpack_zero : (0 : Float).toModel.unpack = .zero .positive :=
  rfl

theorem isPositive_iff (x : Float) :
    isPositive x = true ↔ ∃ m e pos, x.toModel.unpack = .finite .positive m e pos := by
  have hfinite : x.isFinite = x.toModel.unpack.isFinite := rfl
  have hle : decide (x ≤ 0) = x.toModel.unpack.le (0 : Float).toModel.unpack := by
    rw [Bool.eq_iff_iff, decide_eq_true_iff]
    exact decide_eq_true_iff
  rw [isPositive, hfinite, hle, unpack_zero]
  cases x.toModel.unpack with
  | infinity sign => simp [UnpackedFloat.isFinite]
  | notANumber => simp [UnpackedFloat.isFinite]
  | zero sign => simp [UnpackedFloat.isFinite, UnpackedFloat.le, UnpackedFloat.compare]
  | finite sign m e pos =>
      cases sign <;> simp [UnpackedFloat.isFinite, UnpackedFloat.le, UnpackedFloat.compare, pos]

end RobotRoutine.Decimal
