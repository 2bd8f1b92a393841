import Mathlib.Data.List.TakeWhile
import RobotRoutine.Json.Number

/-!
# Numerals written and read

A numeral comes back from its characters if it has a digit in front of its point and no zero in
front of another digit there. Every number is printed as such a numeral: a whole number by its
digits, a double by the digits of `shortest` in either layout.
-/

namespace RobotRoutine.Decimal

/-! ## Digits -/

theorem readDigitsFrom_eq {cs : List Char} (h : ∀ c ∈ cs, c.isDigit = true) (value : Nat) :
    readDigitsFrom value cs = some (Nat.ofDigitChars 10 cs value) := by
  induction cs generalizing value with
  | nil => rfl
  | cons c rest ih =>
    rw [readDigitsFrom, if_pos (h c List.mem_cons_self), Nat.ofDigitChars_cons]
    exact ih (fun d hd => h d (List.mem_cons_of_mem c hd)) _

theorem isDigit_of_mem_toDigits {n : Nat} {c : Char} (h : c ∈ Nat.toDigits 10 n) :
    c.isDigit = true :=
  Nat.isDigit_of_mem_toDigits (by omega) (by omega) h

theorem readDigits_toDigits (n : Nat) : readDigits (Nat.toDigits 10 n) = some n := by
  rw [readDigits, if_neg (by simp [Nat.toDigits_ne_nil]),
    readDigitsFrom_eq (fun c h => isDigit_of_mem_toDigits h),
    Nat.ofDigitChars_toDigits (by omega) (by omega)]

theorem readSigned_of_isDigit {c : Char} (h : c.isDigit = true) (rest : List Char) :
    readSigned (c :: rest) = (readDigits (c :: rest)).map Int.ofNat := by
  have hplus : c ≠ '+' := by rintro rfl; simp at h
  have hminus : c ≠ '-' := by rintro rfl; simp at h
  rw [readSigned] <;> grind

theorem readSigned_toDigits (n : Nat) : readSigned (Nat.toDigits 10 n) = some (n : Int) := by
  obtain ⟨c, rest, e⟩ := List.exists_cons_of_ne_nil (Nat.toDigits_ne_nil (b := 10) (n := n))
  rw [e, readSigned_of_isDigit (isDigit_of_mem_toDigits (e ▸ List.mem_cons_self)), ← e,
    readDigits_toDigits]
  rfl

/-- The digits of a number begin with a zero only if the number is zero. -/
theorem head?_toDigits {n : Nat} (h : 0 < n) : (Nat.toDigits 10 n).head? ≠ some '0' := by
  induction n using Nat.strongRecOn with
  | ind n ih =>
    rw [Nat.toDigits_eq_if (by omega)]
    split
    · intro hzero
      have : ∀ d < 10, 0 < d → ¬ d.digitChar = '0' := by decide
      exact this n ‹_› h (by simpa using hzero)
    · rw [List.head?_append, Option.or_of_isSome (by simp [Nat.toDigits_ne_nil])]
      exact ih (n / 10) (by omega) (by omega)

/-! ## Numerals -/

/-- A numeral as it may stand in JSON. -/
structure Numeral.IsWellFormed (numeral : Numeral) : Prop where
  ne_nil : numeral.whole ≠ []
  whole : ∀ c ∈ numeral.whole, c.isDigit = true
  lead : numeral.whole.head? = some '0' → numeral.whole.length = 1
  fraction : ∀ c ∈ numeral.fraction, c.isDigit = true

/-! ## Layouts -/

theorem Scaled.digits_dropZeros_pos {x : Scaled} (h : 0 < x.digits) (fuel : Nat) :
    0 < (x.dropZeros fuel).digits := by
  induction fuel generalizing x with
  | zero => exact h
  | succ fuel ih =>
    rw [Scaled.dropZeros]
    split
    · exact ih (show 0 < x.digits / 10 by omega)
    · exact h

/-- A decimal that reads back as a positive double is positive. -/
theorem digits_pos_of_readsBack {significand : Nat} {exponent : Int} {isPower : Bool} {x : Scaled}
    (hpos : 0 < significand) (h : readsBack significand exponent isPower x = true) :
    0 < x.digits := by
  by_contra hzero
  have hdigits : x.digits = 0 := by omega
  -- Zero is below all that rounds to a positive double.
  have hbelow : x.compareBinary (4 * significand - if isPower then 1 else 2) (exponent - 2)
      = .lt := by
    rw [Scaled.compareBinary, hdigits, Nat.zero_mul, Nat.zero_mul, Nat.compare_eq_lt]
    refine Nat.mul_pos (Nat.mul_pos ?_ (Nat.pow_pos (by omega))) (Nat.pow_pos (by omega))
    split <;> omega
  simp [readsBack, hbelow] at h

/-- The digits that `shortest` finds are those of a positive number; there are none without a
decimal on the grids that it looks at. -/
theorem shortest_cases (tie : Tie) {significand : Nat} (exponent : Int) (h : 0 < significand) :
    0 < (shortest tie significand exponent).digits ∨ shortest tie significand exponent = ⟨0, 0⟩ := by
  rw [shortest]
  cases hfound : (List.range 17).findSome? _ with
  | none => exact .inr rfl
  | some x =>
    obtain ⟨n, -, hn⟩ := List.exists_of_findSome?_eq_some hfound
    exact .inl (digits_pos_of_readsBack h (List.find?_some hn))

namespace Notation

theorem isDigit_of_mem_fractionOf (form : Notation) {digits : List Char}
    (h : ∀ c ∈ digits, c.isDigit = true) : ∀ c ∈ form.fractionOf digits, c.isDigit = true := by
  intro c hc
  cases digits with
  | nil =>
    rw [fractionOf] at hc
    split at hc
    · rw [List.mem_singleton.mp hc]
      rfl
    · cases hc
  | cons d rest => exact h c hc

theorem isWellFormed_layPlain (form : Notation) (negative : Bool) {n : Nat} (h : 0 < n)
    (whole : Int) : (form.layPlain negative (Nat.toDigits 10 n) whole).IsWellFormed := by
  have hdigits : ∀ c ∈ Nat.toDigits 10 n, c.isDigit = true := fun c => isDigit_of_mem_toDigits
  have hzeros : ∀ k, ∀ c ∈ List.replicate k '0', c.isDigit = true := by
    intro k c hc
    rw [List.eq_of_mem_replicate hc]
    rfl
  rw [layPlain]
  split
  · refine ⟨by simp, by simp, by simp, ?_⟩
    intro c hc
    obtain hzero | hdigit := List.mem_append.mp hc
    · exact hzeros _ c hzero
    · exact hdigits c hdigit
  · have hne : (Nat.toDigits 10 n).take whole.toNat ≠ [] := by
      simp [Nat.toDigits_ne_nil]
      omega
    refine ⟨by simp [hne], ?_, ?_, ?_⟩
    · intro c hc
      obtain hdigit | hzero := List.mem_append.mp hc
      · exact hdigits c (List.mem_of_mem_take hdigit)
      · exact hzeros _ c hzero
    · intro hzero
      rw [List.head?_append, Option.or_of_isSome (by simpa using hne), List.head?_take,
        if_neg (by omega)] at hzero
      exact absurd hzero (head?_toDigits h)
    · exact form.isDigit_of_mem_fractionOf fun c hc => hdigits c (List.mem_of_mem_drop hc)

theorem isWellFormed_layScientific (negative : Bool) (n : Nat) (lead : Int) :
    (layScientific negative (Nat.toDigits 10 n) lead).IsWellFormed := by
  have hdigits : ∀ c ∈ Nat.toDigits 10 n, c.isDigit = true := fun c => isDigit_of_mem_toDigits
  obtain ⟨d, rest, e⟩ := List.exists_cons_of_ne_nil (Nat.toDigits_ne_nil (b := 10) (n := n))
  rw [e] at hdigits ⊢
  exact ⟨by simp [layScientific], fun c hc => hdigits c (List.mem_of_mem_take hc),
    fun _ => by simp [layScientific], fun c hc => hdigits c (List.mem_of_mem_drop hc)⟩

theorem isWellFormed_layOut (form : Notation) (negative : Bool) {x : Scaled} (h : 0 < x.digits) :
    (form.layOut negative x).IsWellFormed := by
  rw [layOut]
  split
  · exact isWellFormed_layPlain form negative (x.digits_dropZeros_pos h 17) _
  · exact isWellFormed_layScientific negative _ _

end Notation

end RobotRoutine.Decimal

namespace RobotRoutine.Json

open Decimal Decimal.Numeral

/-- Every double that is no infinity and the like is printed as a numeral of JSON. -/
theorem isWellFormed_numeral_numbers (negative : Bool) (significand : Nat) (exponent : Int) :
    (numbers.numeral negative significand exponent).IsWellFormed := by
  rw [Notation.numeral]
  split
  · exact ⟨by simp, by simp, by simp, numbers.isDigit_of_mem_fractionOf (List.forall_mem_nil _)⟩
  · obtain hpos | hnone := shortest_cases numbers.tie exponent (Nat.pos_of_ne_zero ‹_›)
    · exact numbers.isWellFormed_layOut negative hpos
    · rw [hnone]
      exact Notation.isWellFormed_layScientific negative 0 17

/-- So is every whole number. -/
theorem isWellFormed_ofNat (n : Nat) :
    Numeral.IsWellFormed
      { negative := false, whole := Nat.toDigits 10 n, fraction := [], exponent := none } := by
  refine ⟨Nat.toDigits_ne_nil, fun c => isDigit_of_mem_toDigits, ?_, by simp⟩
  intro hzero
  obtain rfl | hpos := Nat.eq_zero_or_pos n
  · rfl
  · exact absurd hzero (head?_toDigits hpos)

/-- A run of characters is cut off where it ends. -/
theorem takeWhile_append {p : Char → Bool} {run rest : List Char} (h : ∀ c ∈ run, p c = true)
    (hrest : ∀ c ∈ rest.head?, p c = false) :
    (run ++ rest).takeWhile p = run ∧ (run ++ rest).dropWhile p = rest := by
  rw [List.takeWhile_append_of_pos h, List.dropWhile_append_of_pos h]
  cases rest with
  | nil => simp
  | cons c rest => simp [hrest c rfl]

theorem fractionText_cons (d : Char) (digits : List Char) :
    fractionText (d :: digits) = '.' :: d :: digits :=
  rfl

theorem head?_exponentText {plus : Bool} {power : Option Int} {c : Char}
    (h : c ∈ (exponentText plus power).head?) : c = 'e' := by
  cases power with
  | none => simp [exponentText] at h
  | some power => simpa [exponentText] using h.symm

theorem exponent?_exponentText (plus : Bool) (power : Option Int) :
    exponent? (exponentText plus power) = some power := by
  cases power with
  | none => rfl
  | some power =>
    have hsigned : readSigned ((if power < 0 then ['-'] else if plus then ['+'] else [])
        ++ Nat.toDigits 10 power.natAbs) = some power := by
      split
      · simp only [List.cons_append, List.nil_append, readSigned, readDigits_toDigits,
          Option.map_some]
        congr 1
        simp only [Int.ofNat_eq_natCast]
        omega
      · have hnat : ((power.natAbs : Nat) : Int) = power := by omega
        split
        · simp only [List.cons_append, List.nil_append, readSigned, readDigits_toDigits,
            Option.map_some, Int.ofNat_eq_natCast, hnat]
        · rw [List.nil_append, readSigned_toDigits, hnat]
    simp [exponentText, exponent?, hsigned]

theorem fraction?_fractionText {digits rest : List Char} (h : ∀ c ∈ digits, c.isDigit = true)
    (hrest : ∀ c ∈ rest.head?, c = 'e') :
    fraction? (fractionText digits ++ rest) = some (digits, rest) := by
  cases digits with
  | nil =>
    rw [fractionText, List.nil_append, fraction?]
    rintro rest' rfl
    simpa using hrest '.' rfl
  | cons d digits =>
    obtain ⟨htake, hdrop⟩ := takeWhile_append h (fun c hc => by rw [hrest c hc]; rfl)
    rw [fractionText_cons, List.cons_append, fraction?, htake, hdrop]
    rfl

theorem magnitude?_toChars {numeral : Numeral} (h : numeral.IsWellFormed) (plus : Bool) :
    magnitude? numeral.negative (numeral.whole ++ fractionText numeral.fraction
      ++ exponentText plus numeral.exponent) = some numeral := by
  have hboundary : ∀ c ∈ (fractionText numeral.fraction
      ++ exponentText plus numeral.exponent).head?, c.isDigit = false := by
    intro c hc
    cases hf : numeral.fraction with
    | nil =>
      rw [hf, fractionText, List.nil_append] at hc
      rw [head?_exponentText hc]
      rfl
    | cons d digits =>
      simp only [hf, fractionText_cons, List.cons_append, List.head?_cons, Option.mem_def,
        Option.some.injEq] at hc
      rw [← hc]
      rfl
  obtain ⟨htake, hdrop⟩ := takeWhile_append h.whole hboundary
  have hlead : ¬ (numeral.whole.isEmpty = true ∨
      (numeral.whole.head? = some '0' ∧ numeral.whole.length ≠ 1)) := by
    rintro (hnil | ⟨hzero, hlong⟩)
    · exact h.ne_nil (by simpa using hnil)
    · exact hlong (h.lead hzero)
  rw [magnitude?, List.append_assoc, htake, hdrop, if_neg hlead,
    fraction?_fractionText h.fraction (fun c hc => head?_exponentText hc)]
  simp [exponent?_exponentText]

/-- The first character of a numeral is a sign or a digit. -/
theorem toChars_eq_cons {numeral : Numeral} (h : numeral.IsWellFormed) (plus : Bool) :
    ∃ c rest, numeral.toChars plus = c :: rest ∧ (c = '-' ∨ c.isDigit = true) := by
  obtain ⟨d, digits, e⟩ := List.exists_cons_of_ne_nil h.ne_nil
  rw [toChars, e]
  cases numeral.negative with
  | true => exact ⟨'-', _, rfl, .inl rfl⟩
  | false => exact ⟨d, _, rfl, .inr (h.whole d (e ▸ List.mem_cons_self))⟩

/-- A numeral comes back from its characters. -/
theorem numeral?_toChars {numeral : Numeral} (h : numeral.IsWellFormed) (plus : Bool) :
    numeral? (numeral.toChars plus) = some numeral := by
  have hmagnitude := magnitude?_toChars h plus
  cases hsign : numeral.negative with
  | true =>
    rw [hsign] at hmagnitude
    simpa [toChars, hsign, numeral?] using hmagnitude
  | false =>
    obtain ⟨d, digits, e⟩ := List.exists_cons_of_ne_nil h.ne_nil
    have hd : d ≠ '-' := by
      rintro rfl
      simpa using h.whole '-' (e ▸ List.mem_cons_self)
    rw [hsign, e] at hmagnitude
    simp only [toChars, hsign, Bool.false_eq_true, if_false, List.nil_append, e, List.cons_append]
      at hmagnitude ⊢
    rw [numeral?]
    · exact hmagnitude
    · rintro rest ⟨⟩
      exact hd rfl

theorem isNumberPart_of_isDigit {c : Char} (h : c.isDigit = true) : isNumberPart c = true := by
  simp [isNumberPart, h]

theorem isNumberPart_of_mem_toChars {numeral : Numeral} (h : numeral.IsWellFormed) (plus : Bool)
    {c : Char} (hc : c ∈ numeral.toChars plus) : isNumberPart c = true := by
  simp only [toChars, List.mem_append] at hc
  obtain ((hsign | hwhole) | hfraction) | hpower := hc
  · split at hsign <;> simp_all [isNumberPart]
  · exact isNumberPart_of_isDigit (h.whole c hwhole)
  · cases hf : numeral.fraction with
    | nil => simp [hf, fractionText] at hfraction
    | cons d digits =>
      rw [hf, fractionText_cons, List.mem_cons, ← hf] at hfraction
      obtain rfl | hdigit := hfraction
      · rfl
      · exact isNumberPart_of_isDigit (h.fraction c hdigit)
  · cases hp : numeral.exponent with
    | none => simp [hp, exponentText] at hpower
    | some power =>
      simp only [hp, exponentText, List.mem_cons, List.mem_append] at hpower
      obtain rfl | hsign | hdigit := hpower
      · rfl
      · split at hsign
        · simp_all [isNumberPart]
        · split at hsign <;> simp_all [isNumberPart]
      · exact isNumberPart_of_isDigit (isDigit_of_mem_toDigits hdigit)

/-- A whole number below a limit comes back from what it is written as. -/
theorem natBelow?_ofNat {limit n : Nat} (h : n < limit) : natBelow? limit (ofNat n) = some n := by
  simp [natBelow?, ofNat, toNatBelow?, isInteger, readDigits_toDigits, h]

end RobotRoutine.Json
