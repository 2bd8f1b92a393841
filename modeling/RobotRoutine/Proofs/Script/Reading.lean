import RobotRoutine.Script

/-!
# Reading a script line by line

`readLines` stops at the first line of neither form and looks at nothing behind
it. A line of which this is not true adds its entry, or nothing if it is blank,
in front of what the rest of the script gives (`readLines_cons`); so what comes
first decides, and `readLines_of_malformed` and `exists_readLines` are the two
ways in which reading can end.
-/

namespace RobotRoutine.Script

open RobotRoutine.Text

/-- The lines of a text, as they stand between its line feeds. -/
def lines (text : String) : List (List Char) :=
  text.toList.splitOn '\n'

/-- Whether a line is not blank and neither assigns nor invokes. -/
def IsMalformed (raw : List Char) : Prop :=
  trim raw ≠ [] ∧ Line.read (trim raw) = none

/-- A line that is not malformed gives its entries, one or none, and reading goes on. -/
theorem readLines_cons {raw : List Char} (h : ¬ IsMalformed raw) (number : Nat)
    (rest : List (List Char)) :
    ∃ entries, readLines number (raw :: rest) =
      (readLines (number + 1) rest).map (entries ++ ·) := by
  rw [readLines]
  split
  · refine ⟨[], ?_⟩
    cases readLines (number + 1) rest <;> rfl
  · next hblank =>
      have hread : Line.read (trim raw) ≠ none :=
        fun hread => h ⟨fun htrim => hblank (List.isEmpty_iff.mpr htrim), hread⟩
      obtain ⟨line, hline⟩ := Option.ne_none_iff_exists'.mp hread
      refine ⟨[line.toEntry number], ?_⟩
      rw [hline]
      rfl

/-- The first malformed line is the error, whatever the lines behind it are. -/
theorem readLines_of_malformed {before : List (List Char)} {raw : List Char}
    (hbefore : ∀ line ∈ before, ¬ IsMalformed line) (h : IsMalformed raw)
    (number : Nat) (after : List (List Char)) :
    readLines number (before ++ raw :: after) =
      .error ⟨number + before.length, String.ofList (trim raw)⟩ := by
  induction before generalizing number with
  | nil =>
      have hblank : ¬ (trim raw).isEmpty = true := fun hempty => h.1 (List.isEmpty_iff.mp hempty)
      rw [List.nil_append, readLines, if_neg hblank, h.2]
      rfl
  | cons line rest ih =>
      obtain ⟨entries, hcons⟩ := readLines_cons (hbefore line List.mem_cons_self) number
        (rest ++ raw :: after)
      rw [List.cons_append, hcons, ih (fun l hl => hbefore l (List.mem_cons_of_mem _ hl)),
        List.length_cons, Nat.add_assoc, Nat.add_comm 1]
      rfl

/-- A script without malformed lines can be read. -/
theorem exists_readLines {rows : List (List Char)} (h : ∀ line ∈ rows, ¬ IsMalformed line)
    (number : Nat) : ∃ entries, readLines number rows = .ok entries := by
  induction rows generalizing number with
  | nil => exact ⟨[], rfl⟩
  | cons line rest ih =>
      obtain ⟨first, hcons⟩ := readLines_cons (h line List.mem_cons_self) number rest
      obtain ⟨entries, hrest⟩ := ih (fun l hl => h l (List.mem_cons_of_mem _ hl)) (number + 1)
      exact ⟨first ++ entries, by rw [hcons, hrest]; rfl⟩

end RobotRoutine.Script
