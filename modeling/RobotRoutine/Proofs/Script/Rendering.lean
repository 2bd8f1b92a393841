import RobotRoutine.Proofs.Script.Literals
import RobotRoutine.Proofs.Script.Surface

/-!
# Writing a script back

What has been read from a script can be written again, one entry to a line: an
assignment as `key = value`, an invocation as `key((value))`. The parser takes a
good deal off a line (blanks in five places, the case of letters, a pair of
parentheses), and finds its parts by the first `=`, the first `(` and the last
`)`, whatever the value contains. For what has been read before, none of this
does anything but undo the writing.

A line of which this is true is `Settled`: its parts are in lower case and
trimmed already. `spells_written` is the whole of the argument for one line, and
holds whatever marks of the grammar occur in the value. Lines that are read from
ASCII text are settled when their letters are lowered (`settled_lowered`), and
lowering them changes no entry. A script then goes line by line
(`readLines_written`), with no line that is blank.
-/

namespace RobotRoutine.Script

open RobotRoutine.Text

/-! ## Writing -/

/-- The line that an entry is written as. -/
def Entry.written (entry : Entry) : List Char :=
  match entry.kind with
  | .assignment => entry.key.toList ++ ' ' :: '=' :: ' ' :: entry.value.toList
  | .invocation => entry.key.toList ++ '(' :: '(' :: (entry.value.toList ++ [')', ')'])

/-- Entries written one to a line. -/
def render (entries : List Entry) : String :=
  String.ofList (['\n'].intercalate (entries.map Entry.written))

/-- An entry without the number of its line. -/
def Entry.unnumbered (entry : Entry) : Entry :=
  { entry with line := 0 }

/-- An invocation without the number of its line. -/
def Invocation.unnumbered (invocation : Invocation) : Invocation :=
  { invocation with line := 0 }

/-! ## Lines that are in lower case and trimmed -/

/-- Whether the parts of a line are what they would be read as. -/
structure Line.Settled (line : Line) : Prop where
  mark : ∀ mark ∈ line.mark, line.kind = .invocation ∧ isMark mark = true
  name : isIdentifier line.name = true
  lower_name : lower line.name = line.name
  trim_value : trim line.value = line.value
  lower_value : lower line.value = line.value
  one_line : '\n' ∉ line.value

namespace Line.Settled

variable {line : Line} (h : line.Settled)
include h

theorem key : line.key = line.mark.toList ++ line.name := by
  rw [Line.key, h.lower_name]

/-- No blank and no mark of the grammar but the line's own occurs in its key. -/
theorem of_mem_key {c : Char} (hc : c ∈ line.key) :
    isBlank c = false ∧ c ∉ ['=', '(', '\n'] := by
  rw [h.key, List.mem_append] at hc
  rcases hc with hmark | hname
  · rcases isMark_iff.mp (h.mark c (Option.mem_toList.mp hmark)).2 with rfl | rfl <;> decide
  · refine ⟨not_isBlank_of_isIdentifier h.name c hname, fun hmem => ?_⟩
    have hrest := isIdentifierRest_of_mem h.name c hname
    simp only [List.mem_cons, List.not_mem_nil, or_false] at hmem
    rcases hmem with rfl | rfl | rfl <;> exact absurd hrest (by decide)

theorem not_mem_key {c : Char} (hc : c ∈ ['=', '(', '\n']) : c ∉ line.key :=
  fun hkey => (h.of_mem_key hkey).2 hc

theorem trim_key : trim line.key = line.key :=
  trim_eq_self fun _ hc => (h.of_mem_key hc).1

theorem heads : Heads line.key line.mark line.name := by
  rw [h.key]
  cases hmark : line.mark with
  | none => exact .plain h.name
  | some mark =>
      exact .marked (isMark_iff.mp (h.mark mark hmark).2) (fun _ hc => absurd hc List.not_mem_nil)
        h.name

theorem key_of_assignment (hkind : line.kind = .assignment) :
    line.mark = none ∧ line.key = line.name := by
  cases hmark : line.mark with
  | none => exact ⟨rfl, by rw [h.key, hmark]; rfl⟩
  | some mark =>
      rw [(h.mark mark hmark).1] at hkind
      cases hkind

theorem written_of_assignment (hkind : line.kind = .assignment) (number : Nat) :
    (line.toEntry number).written = (line.key ++ [' ']) ++ '=' :: (' ' :: line.value) := by
  simp only [Entry.written, Line.toEntry, hkind, String.toList_ofList, h.lower_value,
    List.append_assoc, List.singleton_append]

theorem written_of_invocation (hkind : line.kind = .invocation) (number : Nat) :
    (line.toEntry number).written = line.key ++ '(' :: (('(' :: (line.value ++ [')'])) ++ [')']) := by
  simp only [Entry.written, Line.toEntry, hkind, String.toList_ofList, h.lower_value,
    List.cons_append, List.append_assoc, List.nil_append]

theorem spells_assignment (hkind : line.kind = .assignment) (number : Nat) :
    Spells (trim (line.toEntry number).written) line := by
  obtain ⟨hmark, hname⟩ := h.key_of_assignment hkind
  have hspace : isBlank ' ' = true := by decide
  have hblank : ∀ c ∈ [' '], isBlank c = true := List.forall_mem_singleton.mpr hspace
  have hbefore : trim (trimLeft (line.key ++ [' '])) = line.name := by
    rw [trim_trimLeft, trim_append hblank, h.trim_key, hname]
  have hafter : trim (trimRight (' ' :: line.value)) = line.value := by
    rw [trim_trimRight]
    exact (trim_prepend hblank line.value).trans h.trim_value
  -- The `=` that is written is the first one, whatever the value has behind it.
  have hnone : ∀ c ∈ ['=', '('], c ∉ trimLeft (line.key ++ [' ']) := by
    intro c hc hmem
    rcases List.mem_append.mp ((List.dropWhile_sublist _).mem hmem) with hkey | hspace
    · exact h.not_mem_key (List.mem_append_left ['\n'] hc) hkey
    · obtain rfl := List.mem_singleton.mp hspace
      exact absurd hc (by decide)
  have hline := @Spells.assignment _ (trimRight (' ' :: line.value)) (hnone '=' (by decide))
    (hnone '(' (by decide)) (by rw [hbefore]; exact h.name)
  rw [hbefore, hafter, ← hmark, ← hkind] at hline
  rw [h.written_of_assignment hkind, trim_append_cons (by decide)]
  exact hline

theorem spells_invocation (hkind : line.kind = .invocation) (number : Nat) :
    Spells (trim (line.toEntry number).written) line := by
  let body := '(' :: (line.value ++ [')'])
  have hbody : trim body = body := by
    have htrim := @trim_append_cons '(' (by decide) [] (line.value ++ [')'])
    rwa [@trimRight_append_cons ')' (by decide)] at htrim
  have hshape : ¬ HasAssignmentShape (line.key ++ '(' :: (body ++ ')' :: [])) := by
    rw [← isAssignment_iff, isAssignment_of_open (h.not_mem_key (by decide))]
    decide
  have hblank : ∀ c ∈ [], isBlank c = true := fun _ hc => absurd hc List.not_mem_nil
  have hhead : Heads (trim line.key) line.mark line.name := by
    rw [h.trim_key]
    exact h.heads
  -- The parentheses that are stripped are those that were written, whatever stands inside.
  have hstripped : Unwraps (trim body) line.value := by
    rw [hbody]
    exact .both line.value
  have hline := Spells.invocation hshape (h.not_mem_key (by decide)) List.not_mem_nil hblank hhead
    hstripped
  have hkey : trimLeft line.key = line.key := trimLeft_eq_self fun _ hc => (h.of_mem_key hc).1
  have hclosed : trimRight (body ++ ')' :: []) = body ++ ')' :: [] :=
    trimRight_append_cons (by decide) body []
  rw [h.trim_value, ← hkind] at hline
  rw [h.written_of_invocation hkind, trim_append_cons (by decide), hkey]
  rw [← hclosed] at hline
  exact hline

/-- A settled line is read as itself from what its entry is written as. -/
theorem spells_written (number : Nat) : Spells (trim (line.toEntry number).written) line := by
  cases hkind : line.kind with
  | assignment => exact h.spells_assignment hkind number
  | invocation => exact h.spells_invocation hkind number

end Line.Settled

/-! ## Lines that were read -/

/-- What stands between line feeds is part of the text, and no line feed. -/
theorem of_mem_splitOn {text raw : List Char} (hraw : raw ∈ text.splitOn '\n') {c : Char}
    (hc : c ∈ raw) : c ∈ text ∧ c ≠ '\n' := by
  induction text generalizing raw with
  | nil =>
      obtain rfl := List.mem_singleton.mp hraw
      cases hc
  | cons first rest ih =>
      rw [List.splitOn_cons_eq_if_modifyHead] at hraw
      split at hraw
      · rcases List.mem_cons.mp hraw with rfl | hraw
        · cases hc
        · exact (ih hraw hc).imp_left (List.mem_cons_of_mem first)
      · next hfeed =>
          obtain ⟨line, others, hsplit⟩ := List.exists_cons_of_ne_nil (List.splitOn_ne_nil '\n' rest)
          rw [hsplit, List.modifyHead_cons] at hraw
          rw [hsplit] at ih
          rcases List.mem_cons.mp hraw with rfl | hraw
          · rcases List.mem_cons.mp hc with rfl | hc
            · exact ⟨List.mem_cons_self, fun heq => hfeed (beq_iff_eq.mpr heq)⟩
            · exact (ih List.mem_cons_self hc).imp_left (List.mem_cons_of_mem first)
          · exact (ih (List.mem_cons_of_mem _ hraw) hc).imp_left (List.mem_cons_of_mem first)

theorem mem_of_mem_unwrapped {body inner : List Char} (h : Unwraps body inner) {c : Char}
    (hc : c ∈ inner) : c ∈ body := by
  cases h with
  | both => simp [hc]
  | front => exact List.mem_cons_of_mem _ hc
  | back => exact List.mem_append_left _ hc
  | neither => exact hc

/-- The value of a line is part of it. -/
theorem mem_of_mem_value {text : List Char} {line : Line} (h : Spells text line) {c : Char}
    (hc : c ∈ line.value) : c ∈ text := by
  cases h with
  | assignment => exact List.mem_append_right _ (List.mem_cons_of_mem _ (mem_of_mem_trim hc))
  | invocation _ _ _ _ _ hbody =>
      have hmem := mem_of_mem_trim (mem_of_mem_unwrapped hbody (mem_of_mem_trim hc))
      exact List.mem_append_right _ (List.mem_cons_of_mem _ (List.mem_append_left _ hmem))

theorem lowerChar_ofNat_toLower :
    ∀ n < 0x80, lowerChar (Char.ofNat n) = [(Char.ofNat n).toLower] ∧
      ((Char.ofNat n).toLower = '\n' → Char.ofNat n = '\n') := by
  decide +kernel

theorem lowerChar_toLower_of_ascii {c : Char} (h : c.toNat < 0x80) :
    lowerChar c = [c.toLower] ∧ (c.toLower = '\n' → c = '\n') := by
  have hc := lowerChar_ofNat_toLower c.toNat h
  rwa [Char.ofNat_toNat] at hc

theorem lower_of_ascii {text : List Char} (h : ∀ c ∈ text, c.toNat < 0x80) :
    lower text = text.map Char.toLower := by
  have hchar := List.flatMap_congr fun c hc => (lowerChar_toLower_of_ascii (h c hc)).1
  rw [lower, lowerAfter_of_ascii h, hchar, List.map_eq_flatMap]

theorem ne_nil_of_spells {text : List Char} {line : Line} (h : Spells text line) : text ≠ [] := by
  cases h with
  | assignment => exact List.append_ne_nil_of_right_ne_nil _ (List.cons_ne_nil _ _)
  | invocation => exact List.append_ne_nil_of_right_ne_nil _ (List.cons_ne_nil _ _)

theorem mark_of_spells {text : List Char} {line : Line} (h : Spells text line) :
    ∀ mark ∈ line.mark, line.kind = .invocation ∧ isMark mark = true := by
  intro mark hmark
  cases h with
  | assignment => cases hmark
  | @invocation head _ _ _ _ found _ _ _ _ hhead _ =>
      generalize trim head = text at hhead
      cases hhead with
      | plain => cases hmark
      | marked hform =>
          obtain rfl := Option.some.inj hmark
          exact ⟨rfl, isMark_iff.mpr hform⟩

theorem isIdentifier_of_spells {text : List Char} {line : Line} (h : Spells text line) :
    isIdentifier line.name = true := by
  cases h with
  | assignment _ _ hname => exact hname
  | invocation _ _ _ _ hhead _ => exact (readHead_of_heads hhead).2

theorem trim_value_of_spells {text : List Char} {line : Line} (h : Spells text line) :
    trim line.value = line.value := by
  cases h with
  | assignment => exact trim_trim _
  | invocation => exact trim_trim _

/-- With its letters lowered, a line that was read from ASCII text is settled. -/
theorem settled_lowered {text : List Char} {line : Line} (h : Spells text line)
    (hascii : ∀ c ∈ text, c.toNat < 0x80) (hfeed : '\n' ∉ text) : line.lowered.Settled where
  mark := fun mark hmark => mark_of_spells h mark hmark
  name := (isIdentifier_map line.name).trans (isIdentifier_of_spells h)
  lower_name := by
    have hname : ∀ c ∈ line.name, c.toNat < 0x80 := fun c hc =>
      toNat_of_isIdentifierRest (isIdentifierRest_of_mem (isIdentifier_of_spells h) c hc)
    exact (lower_map line.name).trans (lower_of_ascii hname)
  trim_value := (trim_map line.value).trans (congrArg _ (trim_value_of_spells h))
  lower_value := by
    have hvalue : ∀ c ∈ line.value, c.toNat < 0x80 := fun c hc => hascii c (mem_of_mem_value h hc)
    exact (lower_map line.value).trans (lower_of_ascii hvalue)
  one_line := by
    intro hmem
    obtain ⟨c, hc, hlower⟩ := List.mem_map.mp hmem
    have htext := mem_of_mem_value h hc
    obtain rfl := (lowerChar_toLower_of_ascii (hascii c htext)).2 hlower
    exact hfeed htext

/-- What every entry of an ASCII script is. -/
def Entry.IsSettled (entry : Entry) : Prop :=
  ∃ line number, Line.Settled line ∧ entry = line.toEntry number

theorem isSettled_of_parse {text : String} {entries : List Entry}
    (hascii : ∀ c ∈ text.toList, c.toNat < 0x80) (h : parse text = .ok entries) :
    ∀ entry ∈ entries, entry.IsSettled := by
  intro entry hentry
  obtain ⟨raw, hraw, line, number, hread, rfl⟩ := exists_line_of_mem h hentry
  have hchar : ∀ c ∈ trim raw, c ∈ text.toList ∧ c ≠ '\n' :=
    fun c hc => of_mem_splitOn hraw (mem_of_mem_trim hc)
  have hsettled := settled_lowered (read_eq_some_iff.mp hread)
    (fun c hc => hascii c (hchar c hc).1) fun hfeed => (hchar _ hfeed).2 rfl
  exact ⟨line.lowered, number, hsettled, (toEntry_lowered line number).symm⟩

/-! ## Reading what was written -/

theorem Entry.IsSettled.feed_not_mem {entry : Entry} (h : entry.IsSettled) :
    '\n' ∉ entry.written := by
  obtain ⟨line, number, hline, rfl⟩ := h
  have hkey : '\n' ∉ line.key := hline.not_mem_key (by decide)
  cases hkind : line.kind with
  | assignment =>
      rw [hline.written_of_assignment hkind]
      simp [hkey, hline.one_line]
  | invocation =>
      rw [hline.written_of_invocation hkind]
      simp [hkey, hline.one_line]

/-- Lines that settled entries are written as are read one for one. -/
theorem readLines_written {entries : List Entry} (h : ∀ entry ∈ entries, entry.IsSettled)
    (number : Nat) :
    ∃ again, readLines number (entries.map Entry.written) = .ok again ∧
      again.map Entry.unnumbered = entries.map Entry.unnumbered ∧
      again.map Entry.line = List.range' number entries.length := by
  induction entries generalizing number with
  | nil => exact ⟨[], rfl, rfl, rfl⟩
  | cons entry rest ih =>
      obtain ⟨line, before, hline, rfl⟩ := h entry List.mem_cons_self
      obtain ⟨again, hread, hagain, hnumbers⟩ :=
        ih (fun other hother => h other (List.mem_cons_of_mem _ hother)) (number + 1)
      have hspells := hline.spells_written before
      have hfirst : readLines number (((line.toEntry before) :: rest).map Entry.written) =
          .ok (line.toEntry number :: again) := by
        rw [List.map_cons, readLines_read (ne_nil_of_spells hspells) (read_eq_some_iff.mpr hspells),
          hread]
        rfl
      refine ⟨_, hfirst, ?_, ?_⟩
      · rw [List.map_cons, List.map_cons, hagain]
        rfl
      · rw [List.map_cons, hnumbers]
        rfl

theorem parse_render_of_settled {entries : List Entry} (h : ∀ entry ∈ entries, entry.IsSettled) :
    parse (render entries) = readLines 1 (entries.map Entry.written) := by
  rw [parse, render, String.toList_ofList]
  cases entries with
  | nil => exact readLines_blank rfl 1 []
  | cons entry rest =>
      rw [List.splitOn_intercalate '\n' (List.forall_mem_map.mpr fun entry hentry =>
        (h entry hentry).feed_not_mem) (List.cons_ne_nil _ _)]

/-- The number of its line is all that an invocation takes from that of its entry. -/
theorem invocations_unnumbered (entries : List Entry) :
    (invocations entries).map Invocation.unnumbered =
      invocations (entries.map Entry.unnumbered) := by
  have htable : Variables.ofEntries (entries.map Entry.unnumbered) =
      Variables.ofEntries entries := List.foldl_map
  have hplain : (entries.map Entry.unnumbered).filterMap Invocation.ofEntry? =
      (entries.filterMap Invocation.ofEntry?).map Invocation.unnumbered := by
    rw [List.filterMap_map, List.map_filterMap]
    refine List.filterMap_congr fun entry _ => ?_
    rw [Function.comp_apply, Invocation.ofEntry?, Invocation.ofEntry?, Entry.unnumbered]
    cases entry.kind <;> rfl
  rw [invocations, invocations, htable, hplain, List.map_map, List.map_map]
  rfl

/-- A script of ASCII characters that has been read can be written again, one entry
to a line, and is read as the same entries, on the lines one, two, three and so on.
Its invocations have the same placements, names and arguments. -/
theorem parse_render {text : String} {entries : List Entry}
    (hascii : ∀ c ∈ text.toList, c.toNat < 0x80) (h : parse text = .ok entries) :
    ∃ again, parse (render entries) = .ok again ∧
      again.map Entry.unnumbered = entries.map Entry.unnumbered ∧
      again.map Entry.line = List.range' 1 entries.length ∧
      (invocations again).map Invocation.unnumbered =
        (invocations entries).map Invocation.unnumbered := by
  have hsettled := isSettled_of_parse hascii h
  obtain ⟨again, hread, hagain, hnumbers⟩ := readLines_written hsettled 1
  refine ⟨again, (parse_render_of_settled hsettled).trans hread, hagain, hnumbers, ?_⟩
  rw [invocations_unnumbered, invocations_unnumbered, hagain]

/-- Blank lines, upper case, marks of the grammar in values and an empty body. -/
theorem parse_render_five_lines :
    let text := "Far = 10 = (x)\n\n! Wait ( a(b) ) \n&Print()\nturn((Far, 2)\n"
    let entries : List Entry := [⟨"far", "10 = (x)", .assignment, 1⟩,
      ⟨"!wait", "a(b", .invocation, 3⟩, ⟨"&print", "", .invocation, 4⟩,
      ⟨"turn", "far, 2", .invocation, 5⟩]
    text.toList.all (·.toNat < 0x80) = true ∧ parse text = .ok entries ∧
      render entries = "far = 10 = (x)\n!wait((a(b))\n&print(())\nturn((far, 2))" ∧
      ∃ again, parse (render entries) = .ok again ∧ again.map Entry.line = [1, 2, 3, 4] := by
  intro text entries
  have hfacts : text.toList.all (·.toNat < 0x80) = true ∧ parse text = .ok entries ∧
      render entries = "far = 10 = (x)\n!wait((a(b))\n&print(())\nturn((far, 2))" := by
    decide +kernel
  obtain ⟨hascii, hread, hrender⟩ := hfacts
  obtain ⟨again, hagain, -, hnumbers, -⟩ :=
    parse_render (fun c hc => of_decide_eq_true (List.all_eq_true.mp hascii c hc)) hread
  exact ⟨hascii, hread, hrender, again, hagain, hnumbers⟩

end RobotRoutine.Script
