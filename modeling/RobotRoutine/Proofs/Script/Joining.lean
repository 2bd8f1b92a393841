import RobotRoutine.Proofs.Script.Grammar

/-!
# One script behind another

A line is read without a look at any other, and of the lines before it only their
number matters, blank ones included. So the lines behind a script are read as they
are read alone, but for the numbers of their lines (`readLines_add`), unless
something before them is malformed (`readLines_append`).

Texts are joined by a line feed. The first of them has one line more than line
feeds, an empty text and one that ends in a line feed too (`length_splitOn`), and
that many lines further down stands what the second one holds.
-/

namespace RobotRoutine.Script

open RobotRoutine.Text

/-- The entry so many lines further down. -/
def Entry.movedBy (shift : Nat) (entry : Entry) : Entry :=
  { entry with line := entry.line + shift }

/-- The malformed line so many lines further down. -/
def MalformedLine.movedBy (shift : Nat) (bad : MalformedLine) : MalformedLine :=
  { bad with number := bad.number + shift }

/-- What has been read so many lines further down. -/
def movedBy (shift : Nat) : Except MalformedLine (List Entry) → Except MalformedLine (List Entry)
  | .ok entries => .ok (entries.map (Entry.movedBy shift))
  | .error bad => .error (bad.movedBy shift)

theorem movedBy_map_cons (shift : Nat) (entry : Entry)
    (reading : Except MalformedLine (List Entry)) :
    movedBy shift (reading.map (entry :: ·)) =
      (movedBy shift reading).map (entry.movedBy shift :: ·) := by
  cases reading <;> rfl

/-- Lines further down are read alike. -/
theorem readLines_add (shift number : Nat) (raws : List (List Char)) :
    readLines (number + shift) raws = movedBy shift (readLines number raws) := by
  induction raws generalizing number with
  | nil => rfl
  | cons raw rest ih =>
      have hrest : readLines (number + shift + 1) rest =
          movedBy shift (readLines (number + 1) rest) := by
        rw [Nat.add_right_comm, ih]
      by_cases hblank : trim raw = []
      · rw [readLines_blank hblank, readLines_blank hblank, hrest]
      cases hread : Line.read (trim raw) with
      | none =>
          rw [readLines_unread hblank hread, readLines_unread hblank hread]
          rfl
      | some line =>
          rw [readLines_read hblank hread, readLines_read hblank hread, hrest, movedBy_map_cons]
          rfl

/-- What stands behind other lines is read after them, unless one of them is malformed. -/
theorem readLines_append (number : Nat) (first second : List (List Char)) :
    readLines number (first ++ second) =
      (readLines number first).bind fun entries =>
        (readLines (number + first.length) second).map (entries ++ ·) := by
  induction first generalizing number with
  | nil =>
      rw [List.nil_append, readLines, List.length_nil, Nat.add_zero]
      cases readLines number second <;> rfl
  | cons raw rest ih =>
      have hlength : number + (raw :: rest).length = number + 1 + rest.length := by
        rw [List.length_cons, Nat.add_assoc, Nat.add_comm 1]
      rw [List.cons_append, hlength]
      by_cases hblank : trim raw = []
      · rw [readLines_blank hblank, readLines_blank hblank, ih]
      cases hread : Line.read (trim raw) with
      | none =>
          rw [readLines_unread hblank hread, readLines_unread hblank hread]
          rfl
      | some line =>
          rw [readLines_read hblank hread, readLines_read hblank hread, ih]
          -- Either reading fails in the same way, or the entry of this line is first on both sides.
          cases readLines (number + 1) rest with
          | error bad => rfl
          | ok entries =>
              cases readLines (number + 1 + rest.length) second <;> rfl

/-- There is one line more than there are line feeds. -/
theorem length_splitOn (sep : Char) (text : List Char) :
    (text.splitOn sep).length = text.count sep + 1 := by
  induction text with
  | nil => rfl
  | cons c rest ih =>
      rw [List.splitOn_cons_eq_if_modifyHead, List.count_cons]
      split
      · rw [List.length_cons, ih]
      · rw [List.length_modifyHead, ih, Nat.add_zero]

/-- Two texts that a line feed joins are read one after the other. -/
theorem parse_join (first second : String) :
    parse (first ++ "\n" ++ second) =
      (parse first).bind fun entries =>
        (movedBy (first.toList.count '\n' + 1) (parse second)).map (entries ++ ·) := by
  have hlines : (first ++ "\n" ++ second).toList.splitOn '\n' =
      first.toList.splitOn '\n' ++ second.toList.splitOn '\n' := by
    rw [← List.splitOn_append_cons_self]
    simp
  rw [parse, hlines, readLines_append, readLines_add, length_splitOn]
  rfl

/-- Reading is compositional over lines. Where the first of two texts cannot be read, the
two joined by a line feed cannot either, for the same reason. Where it can, what the second
text gives follows: its entries behind those of the first, or its malformed line, in either
case so many lines further down as the first text has lines. -/
theorem parse_joined (first second : String) :
    (∀ bad, parse first = .error bad → parse (first ++ "\n" ++ second) = .error bad) ∧
    (∀ entries more, parse first = .ok entries → parse second = .ok more →
      parse (first ++ "\n" ++ second) =
        .ok (entries ++ more.map (Entry.movedBy (first.toList.count '\n' + 1)))) ∧
    (∀ entries bad, parse first = .ok entries → parse second = .error bad →
      parse (first ++ "\n" ++ second) =
        .error (bad.movedBy (first.toList.count '\n' + 1))) := by
  have hjoin := parse_join first second
  refine ⟨fun bad hfirst => ?_, fun entries more hfirst hsecond => ?_,
    fun entries bad hfirst hsecond => ?_⟩
  · rw [hjoin, hfirst]
    rfl
  · rw [hjoin, hfirst, hsecond]
    rfl
  · rw [hjoin, hfirst, hsecond]
    rfl

/-- A malformed line before a text that can be read; a text of three lines, two of them blank,
before one of two lines; and an empty text before a malformed line. -/
theorem parse_joined_three_pairs :
    let speed : Entry := ⟨"speed", "0.4", .assignment, 1⟩
    let moves : List Entry := [⟨"!drive", "speed", .invocation, 1⟩, ⟨"wait", "1", .invocation, 2⟩]
    (parse "stop()\n\nTurn 90\n" = .error ⟨3, "Turn 90"⟩ ∧
      parse ("stop()\n\nTurn 90\n" ++ "\n" ++ "x = 1") = .error ⟨3, "Turn 90"⟩) ∧
    (parse "speed = 0.4\r\n\r\n" = .ok [speed] ∧ parse "!drive(speed)\nwait(1)" = .ok moves ∧
      parse ("speed = 0.4\r\n\r\n" ++ "\n" ++ "!drive(speed)\nwait(1)") =
        .ok (speed :: moves.map (Entry.movedBy 3))) ∧
    (parse "" = .ok [] ∧ parse "stop()\nnonsense" = .error ⟨2, "nonsense"⟩ ∧
      parse ("" ++ "\n" ++ "stop()\nnonsense") = .error ⟨3, "nonsense"⟩) := by
  intro speed moves
  have hfacts : (parse "stop()\n\nTurn 90\n" = .error ⟨3, "Turn 90"⟩ ∧
      parse "speed = 0.4\r\n\r\n" = .ok [speed] ∧ parse "!drive(speed)\nwait(1)" = .ok moves ∧
      parse "" = .ok [] ∧ parse "stop()\nnonsense" = .error ⟨2, "nonsense"⟩) ∧
      "speed = 0.4\r\n\r\n".toList.count '\n' = 2 := by
    decide +kernel
  obtain ⟨⟨hbad, hspeed, hmoves, hempty, hnonsense⟩, hcount⟩ := hfacts
  have hjoined := (parse_joined "speed = 0.4\r\n\r\n" _).2.1 _ _ hspeed hmoves
  rw [hcount] at hjoined
  exact ⟨⟨hbad, (parse_joined _ _).1 _ hbad⟩, ⟨hspeed, hmoves, hjoined⟩,
    hempty, hnonsense, (parse_joined "" _).2.2 _ _ hempty hnonsense⟩

end RobotRoutine.Script
