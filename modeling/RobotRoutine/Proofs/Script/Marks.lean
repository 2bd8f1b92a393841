import RobotRoutine.Proofs.Script.Reading

/-!
# A mark is the first character of its line

What an invocation asks for by way of a mark is decided far from the text: the
mark is read off the head of a trimmed line, put in front of the lower-cased
name, and taken off again when the entry becomes an invocation. On the way a
mark could be lost, or a name begin like one. Neither happens: a line that is
read as invoking a threaded command begins with `&` (`head?_of_threaded`), since
the lower case of an identifier begins with a letter or `_` and the first
character of the trimmed line is the first one of its trimmed head.

So a script tells by the first characters of its lines whether anything in its
routine is threaded (`placement_ne_threaded`).
-/

namespace RobotRoutine

namespace Text

/-! ## Trimming and the first character -/

theorem head?_trimRight {c : Char} (h : isBlank c = false) (rest : List Char) :
    (trimRight (c :: rest)).head? = some c := by
  rw [trimRight, trimLeft, List.reverse_cons, List.dropWhile_append]
  split
  · simp [h]
  · simp

/-- Trimming on the right leaves the first character that is not blank. -/
theorem head?_trim (text : List Char) : (trim text).head? = (trimLeft text).head? := by
  have hfirst := List.head?_dropWhile_not isBlank text
  rw [trim]
  rw [← trimLeft] at hfirst
  cases htext : trimLeft text with
  | nil => rfl
  | cons c rest =>
      rw [htext] at hfirst
      exact head?_trimRight hfirst rest

theorem trimLeft_cons {c : Char} (h : isBlank c = false) (rest : List Char) :
    trimLeft (c :: rest) = c :: rest :=
  List.dropWhile_cons_of_neg (by rw [h]; decide)

theorem isBlank_of_head?_trim {text : List Char} {c : Char} (h : (trim text).head? = some c) :
    isBlank c = false := by
  have hfirst := List.head?_dropWhile_not isBlank text
  rw [← trimLeft, ← head?_trim, h] at hfirst
  exact hfirst

end Text

namespace Script

open RobotRoutine.Text

/-! ## What is read of a line -/

theorem cutFirst_eq_some {sep : Char} {text before after : List Char}
    (h : cutFirst sep text = some (before, after)) : before = text.takeWhile (· != sep) := by
  rw [cutFirst] at h
  split at h
  · cases h
  · exact (Prod.mk.inj (Option.some.inj h)).1.symm

theorem head?_of_mark {head : List Char} {c : Char} (h : (Line.readHead head).1 = some c) :
    (trim head).head? = some c := by
  rw [Line.readHead] at h
  split at h
  · next c' rest hhead =>
      rw [hhead]
      split at h
      · exact h
      · exact nomatch h
  · exact nomatch h

/-- What is known of a line that invokes. -/
theorem readInvocation_eq_some {text : List Char} {line : Line}
    (h : Line.readInvocation text = some line) :
    line.kind = .invocation ∧ isIdentifier line.name = true ∧
      (line.mark, line.name) = Line.readHead (text.takeWhile (· != '(')) := by
  rw [Line.readInvocation] at h
  obtain ⟨⟨head, after⟩, hcut, h⟩ := Option.bind_eq_some_iff.mp h
  obtain ⟨⟨body, trailing⟩, -, h⟩ := Option.bind_eq_some_iff.mp h
  obtain rfl := cutFirst_eq_some hcut
  simp only at h
  split at h
  · next hname =>
      obtain rfl := Option.some.inj h
      exact ⟨rfl, (Bool.and_eq_true_iff.mp hname).2, rfl⟩
  · exact nomatch h

theorem kind_of_readAssignment {text : List Char} {line : Line}
    (h : Line.readAssignment text = some line) : line.kind = .assignment := by
  rw [Line.readAssignment] at h
  obtain ⟨⟨before, after⟩, -, h⟩ := Option.bind_eq_some_iff.mp h
  simp only at h
  split at h
  · obtain rfl := Option.some.inj h
    rfl
  · exact nomatch h

/-! ## Where marks come from -/

/-- A mark is the first character of its line. -/
theorem head?_of_readInvocation {raw : List Char} {line : Line} {c : Char}
    (h : Line.readInvocation (trim raw) = some line) (hmark : line.mark = some c) :
    (trim raw).head? = some c := by
  obtain ⟨-, -, hhead⟩ := readInvocation_eq_some h
  have hfirst := head?_of_mark ((congrArg Prod.fst hhead).symm.trans hmark)
  rw [head?_trim] at hfirst
  cases htext : trim raw with
  | nil =>
      rw [htext] at hfirst
      exact nomatch hfirst
  | cons first rest =>
      have hblank : isBlank first = false := isBlank_of_head?_trim (by rw [htext]; rfl)
      rw [htext, List.takeWhile_cons] at hfirst
      -- What stands before the first `(` begins as the line does, or is empty.
      split at hfirst
      · rw [trimLeft_cons hblank] at hfirst
        exact hfirst
      · exact nomatch hfirst

theorem toNat_of_isIdentifierStart {c : Char} (h : isIdentifierStart c = true) :
    c.toNat < 0x80 ∧ 0x41 ≤ c.toNat := by
  rcases Bool.or_eq_true_iff.mp h with hletter | hother
  · have hcase : c.isUpper = true ∨ c.isLower = true := Bool.or_eq_true_iff.mp hletter
    rcases hcase with hupper | hlower
    · have hrange : 0x41 ≤ c.toNat ∧ c.toNat ≤ 0x5a := of_decide_eq_true hupper
      omega
    · have hrange : 0x61 ≤ c.toNat ∧ c.toNat ≤ 0x7a := by
        obtain ⟨hleast, hgreatest⟩ := Bool.and_eq_true_iff.mp hlower
        exact ⟨of_decide_eq_true hleast, of_decide_eq_true hgreatest⟩
      omega
  · obtain rfl := beq_iff_eq.mp hother
    decide

theorem head?_lowerChar_ne :
    ∀ n < 0x80, 0x41 ≤ n → (lowerChar (Char.ofNat n)).head? ≠ some '&' := by
  decide +kernel

/-- The lower case of an identifier does not begin with a mark. -/
theorem head?_lower_of_isIdentifier {name : List Char} (h : isIdentifier name = true) :
    (lower name).head? ≠ some '&' := by
  cases name with
  | nil => exact nofun
  | cons c rest =>
      obtain ⟨hascii, hletter⟩ := toNat_of_isIdentifierStart (Bool.and_eq_true_iff.mp h).1
      have hsigma : c ≠ 'Σ' := fun hc => absurd hascii (by rw [hc]; decide)
      have hfirst := head?_lowerChar_ne c.toNat hascii hletter
      rw [Char.ofNat_toNat, lowerChar, if_pos hascii] at hfirst
      rw [lower, lowerAfter, if_neg hsigma, lowerChar, if_pos hascii]
      exact hfirst

theorem placement_of_splitKey {key : List Char} (h : (splitKey key).1 = .threaded) :
    key.head? = some '&' := by
  rw [splitKey.eq_def] at h
  split at h
  · exact nomatch h
  · rfl
  · exact nomatch h

/-- Only a line that begins with `&` invokes a threaded command. -/
theorem head?_of_threaded {raw : List Char} {line : Line} {number : Nat} {invocation : Invocation}
    (h : Line.read (trim raw) = some line)
    (hinvocation : Invocation.ofEntry? (line.toEntry number) = some invocation)
    (hthreaded : invocation.placement = .threaded) : (trim raw).head? = some '&' := by
  rw [Line.read] at h
  split at h
  · rw [Invocation.ofEntry?, Line.toEntry, kind_of_readAssignment h] at hinvocation
    exact nomatch hinvocation
  · obtain ⟨hkind, hname, -⟩ := readInvocation_eq_some h
    rw [Invocation.ofEntry?, Line.toEntry, hkind] at hinvocation
    obtain rfl := Option.some.inj hinvocation
    have hkey := placement_of_splitKey hthreaded
    rw [String.toList_ofList, Line.key] at hkey
    cases hmark : line.mark with
    | none =>
        rw [hmark] at hkey
        exact absurd hkey (head?_lower_of_isIdentifier hname)
    | some c =>
        rw [hmark] at hkey
        exact head?_of_readInvocation h (hmark.trans hkey)

/-! ## Scripts without threaded commands -/

/-- Every entry of a script is that of one of its lines. -/
theorem exists_line_of_mem {rows : List (List Char)} {number : Nat} {entries : List Entry}
    (h : readLines number rows = .ok entries) {entry : Entry} (hentry : entry ∈ entries) :
    ∃ raw ∈ rows, ∃ line number', Line.read (trim raw) = some line ∧
      entry = line.toEntry number' := by
  induction rows generalizing number entries with
  | nil =>
      obtain rfl := Except.ok.inj h
      cases hentry
  | cons raw rest ih =>
      rw [readLines] at h
      split at h
      · obtain ⟨raw', hraw, hline⟩ := ih h hentry
        exact ⟨raw', List.mem_cons_of_mem _ hraw, hline⟩
      · split at h
        · cases h
        · next line hread =>
            cases hrest : readLines (number + 1) rest with
            | error line =>
                rw [hrest] at h
                cases h
            | ok others =>
                rw [hrest] at h
                obtain rfl := Except.ok.inj h
                rcases List.mem_cons.mp hentry with rfl | hentry
                · exact ⟨raw, List.mem_cons_self, line, number, hread, rfl⟩
                · obtain ⟨raw', hraw, hline⟩ := ih hrest hentry
                  exact ⟨raw', List.mem_cons_of_mem _ hraw, hline⟩

/-- A script without a line that begins with `&` invokes no threaded command. -/
theorem placement_ne_threaded {text : String} {entries : List Entry}
    (hlines : ∀ line ∈ lines text, (trim line).head? ≠ some '&')
    (h : parse text = .ok entries) :
    ∀ invocation ∈ invocations entries, invocation.placement ≠ .threaded := by
  intro invocation hinvocation hthreaded
  obtain ⟨plain, hplain, rfl⟩ := List.mem_map.mp hinvocation
  obtain ⟨entry, hentry, hofEntry⟩ := List.mem_filterMap.mp hplain
  obtain ⟨raw, hraw, line, number, hread, rfl⟩ := exists_line_of_mem h hentry
  exact hlines raw hraw (head?_of_threaded hread hofEntry hthreaded)

end Script

end RobotRoutine
