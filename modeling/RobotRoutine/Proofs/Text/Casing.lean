import RobotRoutine.Proofs.Text.Trim
import RobotRoutine.Text.Lowercase

/-!
# Case, and where lower-casing looks

The case of an ASCII letter shows in nothing that is asked of a text: a letter is
no blank in either case, and the lower case of a text is that of the text with
its ASCII letters lowered already (`lower_map`).

Lower-casing is not done character by character, as a sigma is written
differently at the end of a word. But it does not look past the end of a word
either, and a text may be cut at any character that ends one
(`lower_append_cons`).
-/

namespace RobotRoutine.Text

/-! ## The two cases of a letter -/

theorem toLower_of_not_ascii {c : Char} (h : ¬ c.toNat < 0x80) : c.toLower = c := by
  have hrange : ¬ (c.val ≥ 'A'.val ∧ c.val ≤ 'Z'.val) := by
    intro hupper
    have hle : c.toNat ≤ 0x5a := UInt32.le_iff_toNat_le.mp hupper.2
    omega
  exact dif_neg hrange

/-- What does not tell the cases of the ASCII characters apart does not tell those of any. -/
theorem apply_toLower {α : Type*} {p : Char → α}
    (h : ∀ n < 0x80, p (Char.ofNat n).toLower = p (Char.ofNat n)) (c : Char) :
    p c.toLower = p c := by
  by_cases hascii : c.toNat < 0x80
  · have hc := h c.toNat hascii
    rwa [Char.ofNat_toNat] at hc
  · rw [toLower_of_not_ascii hascii]

theorem toLower_eq_iff {mark : Char}
    (h : ∀ n < 0x80, ((Char.ofNat n).toLower == mark) = (Char.ofNat n == mark)) (c : Char) :
    c.toLower = mark ↔ c = mark := by
  have hbeq : (c.toLower == mark) = (c == mark) := @apply_toLower _ (· == mark) h c
  rw [← beq_iff_eq, hbeq, beq_iff_eq]

/-- What is asked of characters while a text is lowered, for the ASCII ones in either case. -/
theorem toLower_ofNat : ∀ n < 0x80,
    (Char.ofNat n).toNat < 0x80 ∧ (Char.ofNat n).toLower.toNat < 0x80 ∧
      isBlank (Char.ofNat n).toLower = isBlank (Char.ofNat n) ∧
      lowerChar (Char.ofNat n).toLower = lowerChar (Char.ofNat n) ∧
      (CodeSet.mk (cased.changes.take 4)).mem (Char.ofNat n).toLower =
        (CodeSet.mk (cased.changes.take 4)).mem (Char.ofNat n) ∧
      (CodeSet.mk (caseIgnorable.changes.take 10)).mem (Char.ofNat n).toLower =
        (CodeSet.mk (caseIgnorable.changes.take 10)).mem (Char.ofNat n) ∧
      ((Char.ofNat n).toLower == 'Σ') = (Char.ofNat n == 'Σ') := by
  decide +kernel

@[simp]
theorem isBlank_toLower (c : Char) : isBlank c.toLower = isBlank c :=
  apply_toLower (fun n hn => (toLower_ofNat n hn).2.2.1) c

@[simp]
theorem lowerChar_toLower (c : Char) : lowerChar c.toLower = lowerChar c :=
  apply_toLower (fun n hn => (toLower_ofNat n hn).2.2.2.1) c

/-- Only the changes below it tell whether an ASCII character belongs to a set. -/
theorem CodeSet.mem_take {set : CodeSet} {count : Nat} {c : Char} (hascii : c.toNat < 0x80)
    (hrest : ∀ change ∈ set.changes.drop count, 0x80 ≤ change) :
    set.mem c = (CodeSet.mk (set.changes.take count)).mem c := by
  have hnone : (set.changes.drop count).countP (· ≤ c.toNat) = 0 := by
    rw [List.countP_eq_zero]
    intro change hchange
    have hle := hrest change hchange
    rw [decide_eq_true_eq]
    omega
  have hsplit : set.changes.countP (· ≤ c.toNat) =
      (set.changes.take count).countP (· ≤ c.toNat) := by
    rw [← Nat.add_zero ((set.changes.take count).countP _), ← hnone, ← List.countP_append,
      List.take_append_drop]
  rw [mem, hsplit]
  rfl

theorem CodeSet.mem_toLower {set : CodeSet} (count : Nat)
    (hrest : ∀ change ∈ set.changes.drop count, 0x80 ≤ change)
    (h : ∀ n < 0x80, (CodeSet.mk (set.changes.take count)).mem (Char.ofNat n).toLower =
      (CodeSet.mk (set.changes.take count)).mem (Char.ofNat n)) (c : Char) :
    set.mem c.toLower = set.mem c := by
  refine apply_toLower (fun n hn => ?_) c
  obtain ⟨hascii, hlower, -⟩ := toLower_ofNat n hn
  rw [mem_take hascii hrest, mem_take hlower hrest, h n hn]

/-- Neither of the sets that lower-casing asks changes again below the end of the ASCII
characters. -/
theorem ascii_le_changes : (∀ change ∈ cased.changes.drop 4, 0x80 ≤ change) ∧
    ∀ change ∈ caseIgnorable.changes.drop 10, 0x80 ≤ change := by
  decide +kernel

@[simp]
theorem mem_cased_toLower (c : Char) : cased.mem c.toLower = cased.mem c :=
  CodeSet.mem_toLower 4 ascii_le_changes.1 (fun n hn => (toLower_ofNat n hn).2.2.2.2.1) c

@[simp]
theorem mem_caseIgnorable_toLower (c : Char) :
    caseIgnorable.mem c.toLower = caseIgnorable.mem c :=
  CodeSet.mem_toLower 10 ascii_le_changes.2 (fun n hn => (toLower_ofNat n hn).2.2.2.2.2.1) c

theorem toLower_eq_sigma_iff (c : Char) : c.toLower = 'Σ' ↔ c = 'Σ' :=
  toLower_eq_iff (fun n hn => (toLower_ofNat n hn).2.2.2.2.2.2) c

theorem trimLeft_map (text : List Char) :
    trimLeft (text.map Char.toLower) = (trimLeft text).map Char.toLower := by
  have hblank : isBlank ∘ Char.toLower = isBlank := funext isBlank_toLower
  rw [trimLeft, List.dropWhile_map, hblank, trimLeft]

theorem trim_map (text : List Char) :
    trim (text.map Char.toLower) = (trim text).map Char.toLower := by
  rw [trim, trimRight, trimLeft_map, ← List.map_reverse, trimLeft_map, ← List.map_reverse, trim,
    trimRight]

theorem meetsLetter_map (text : List Char) :
    meetsLetter (text.map Char.toLower) = meetsLetter text := by
  have hignorable : caseIgnorable.mem ∘ Char.toLower = caseIgnorable.mem :=
    funext mem_caseIgnorable_toLower
  have hcased : cased.mem ∘ Char.toLower = cased.mem := funext mem_cased_toLower
  rw [meetsLetter, List.dropWhile_map, hignorable, List.head?_map, Option.map_map, hcased,
    meetsLetter]

theorem lowerAfter_map (before text : List Char) :
    lowerAfter (before.map Char.toLower) (text.map Char.toLower) = lowerAfter before text := by
  induction text generalizing before with
  | nil => rfl
  | cons c rest ih =>
      rw [List.map_cons, lowerAfter, lowerAfter, meetsLetter_map, meetsLetter_map, ← List.map_cons,
        ih, lowerChar_toLower]
      simp only [toLower_eq_sigma_iff]

theorem lower_map (text : List Char) : lower (text.map Char.toLower) = lower text :=
  lowerAfter_map [] text

/-! ## The end of a word -/

/-- Whether a character ends a word: it is no letter, and words do not contain it. -/
def EndsWord (c : Char) : Prop :=
  caseIgnorable.mem c = false ∧ cased.mem c = false

instance (c : Char) : Decidable (EndsWord c) :=
  inferInstanceAs (Decidable (_ ∧ _))

variable {c : Char}

theorem EndsWord.ne_sigma (h : EndsWord c) : c ≠ 'Σ' := by
  intro hc
  have hsigma : cased.mem 'Σ' = true := by decide +kernel
  rw [← hc, h.2] at hsigma
  cases hsigma

/-- The nearest letter of a word is looked for up to its end. -/
theorem meetsLetter_append_cons (h : EndsWord c) (text after : List Char) :
    meetsLetter (text ++ c :: after) = meetsLetter text := by
  rw [meetsLetter, meetsLetter, List.dropWhile_append]
  split
  · next hall =>
      have hend : (c :: after).dropWhile caseIgnorable.mem = c :: after :=
        List.dropWhile_cons_of_neg (by rw [h.1]; decide)
      rw [hend, List.isEmpty_iff.mp hall]
      exact h.2
  · next hall =>
      rw [List.isEmpty_iff] at hall
      rw [List.head?_append, Option.or_of_isSome (List.isSome_head?.mpr hall)]

theorem lowerAfter_append_before (h : EndsWord c) (recent earlier text : List Char) :
    lowerAfter (recent ++ c :: earlier) text = lowerAfter recent text := by
  induction text generalizing recent with
  | nil => rfl
  | cons d rest ih =>
      rw [lowerAfter, lowerAfter, meetsLetter_append_cons h, ← List.cons_append, ih]

theorem lowerAfter_append_cons (h : EndsWord c) (before text after : List Char) :
    lowerAfter before (text ++ c :: after) =
      lowerAfter before text ++ (lowerChar c ++ lower after) := by
  induction text generalizing before with
  | nil =>
      have hnothing := lowerAfter_append_before h [] before after
      rw [List.nil_append] at hnothing
      rw [List.nil_append, lowerAfter.eq_2, if_neg h.ne_sigma, hnothing]
      rfl
  | cons d rest ih =>
      rw [List.cons_append, lowerAfter, lowerAfter, meetsLetter_append_cons h, ih]
      split
      · rfl
      · rw [List.append_assoc]

/-- What stands on either side of a word's end is lowered for itself. -/
theorem lower_append_cons (h : EndsWord c) (before after : List Char) :
    lower (before ++ c :: after) = lower before ++ (lowerChar c ++ lower after) :=
  lowerAfter_append_cons h [] before after

end RobotRoutine.Text
