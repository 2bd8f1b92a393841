import Mathlib.Data.List.Forall2
import RobotRoutine.Proofs.Script.Marks
import RobotRoutine.Proofs.Script.Slices
import RobotRoutine.Proofs.Text.Trim

/-!
# The grammar of scripts

What a line may look like is said here by putting lines together, where the
reader takes them apart: `Spells text line` holds when `text` is made of the
pieces that its form asks for, and names the parts of the line that come out.
Nothing in it searches, trims step by step or gives up.

`read_eq_some_iff` is the agreement of the two for one line, and has one lemma
for each thing that the reader does to a piece: to the head of an invocation
(`readHead_eq_iff`), to its body (`unwraps_iff`), and the question which of the
two forms a line is to be read as (`isAssignment_iff`). A whole text is then a
walk over its lines that are not blank, each with its number.
-/

namespace RobotRoutine.Script

open RobotRoutine.Text

/-! ## What a line looks like -/

/-- A line whose first `=` comes before any `(`. -/
def HasAssignmentShape (text : List Char) : Prop :=
  ∃ before after, text = before ++ '=' :: after ∧ '=' ∉ before ∧ '(' ∉ before

/-- An identifier, in front of which one mark may stand, and blanks after the mark. -/
inductive Heads : List Char → Option Char → List Char → Prop
  | plain {name : List Char} (hname : isIdentifier name = true) : Heads name none name
  | marked {mark : Char} {blanks name : List Char} (hmark : mark = '!' ∨ mark = '&')
      (hblanks : ∀ c ∈ blanks, isBlank c = true) (hname : isIdentifier name = true) :
      Heads (mark :: (blanks ++ name)) (some mark) name

/-- What is left of a body without one `(` in front of it and one `)` at its end, where
these stand there. -/
inductive Unwraps : List Char → List Char → Prop
  | both (inner : List Char) : Unwraps ('(' :: (inner ++ [')'])) inner
  | front {inner : List Char} (hlast : inner.getLast? ≠ some ')') : Unwraps ('(' :: inner) inner
  | back {inner : List Char} (hfirst : inner.head? ≠ some '(') : Unwraps (inner ++ [')']) inner
  | neither {inner : List Char} (hfirst : inner.head? ≠ some '(')
      (hlast : inner.getLast? ≠ some ')') : Unwraps inner inner

/-- The two forms of a trimmed line, with the parts that are read from it. -/
inductive Spells : List Char → Line → Prop
  | assignment {before after : List Char} (hfirst : '=' ∉ before) (hopen : '(' ∉ before)
      (hname : isIdentifier (trim before) = true) :
      Spells (before ++ '=' :: after) ⟨none, trim before, trim after, .assignment⟩
  | invocation {head body trailing name inner : List Char} {mark : Option Char}
      (hshape : ¬ HasAssignmentShape (head ++ '(' :: (body ++ ')' :: trailing)))
      (hopen : '(' ∉ head) (hclose : ')' ∉ trailing)
      (hblank : ∀ c ∈ trailing, isBlank c = true) (hhead : Heads (trim head) mark name)
      (hbody : Unwraps (trim body) inner) :
      Spells (head ++ '(' :: (body ++ ')' :: trailing)) ⟨mark, name, trim inner, .invocation⟩

/-! ## The reader takes apart what the grammar puts together -/

theorem isAssignment_iff {text : List Char} :
    isAssignment text = true ↔ HasAssignmentShape text := by
  constructor
  · intro h
    by_cases hequals : '=' ∈ text
    · obtain ⟨before, after, rfl, hbefore⟩ := List.eq_append_cons_of_mem hequals
      rw [isAssignment, cutFirst_append hbefore] at h
      exact ⟨before, after, rfl, hbefore, by simpa using h⟩
    · rw [isAssignment, cutFirst_of_not_mem hequals] at h
      cases h
  · rintro ⟨before, after, rfl, hbefore, hopen⟩
    rw [isAssignment, cutFirst_append hbefore]
    simpa using hopen

theorem toNat_of_isIdentifierRest {c : Char} (h : isIdentifierRest c = true) : c.toNat < 0x80 := by
  rw [isIdentifierRest, Char.isAlphanum, Bool.or_assoc, Bool.or_comm c.isDigit, ← Bool.or_assoc,
    Bool.or_eq_true] at h
  rcases h with hletter | hdigit
  · exact (toNat_of_isIdentifierStart hletter).1
  · have hrange := (Bool.and_eq_true_iff.mp hdigit).2
    have hrange : c.toNat ≤ 0x39 := of_decide_eq_true hrange
    omega

theorem not_isBlank_ofNat :
    ∀ n < 0x80, isIdentifierRest (Char.ofNat n) = true → isBlank (Char.ofNat n) = false := by
  decide +kernel

theorem isIdentifierRest_of_start {c : Char} (h : isIdentifierStart c = true) :
    isIdentifierRest c = true := by
  rw [isIdentifierStart, Bool.or_eq_true] at h
  rw [isIdentifierRest, Char.isAlphanum, Bool.or_eq_true, Bool.or_eq_true]
  exact h.imp_left Or.inl

theorem isIdentifierRest_of_mem {name : List Char} (h : isIdentifier name = true) :
    ∀ c ∈ name, isIdentifierRest c = true := by
  cases name with
  | nil => cases h
  | cons first rest =>
      obtain ⟨hfirst, hrest⟩ := Bool.and_eq_true_iff.mp h
      exact List.forall_mem_cons.mpr
        ⟨isIdentifierRest_of_start hfirst, List.all_eq_true.mp hrest⟩

theorem not_isBlank_of_isIdentifier {name : List Char} (h : isIdentifier name = true) :
    ∀ c ∈ name, isBlank c = false := by
  intro c hc
  have hrest := isIdentifierRest_of_mem h c hc
  have hblank := not_isBlank_ofNat c.toNat (toNat_of_isIdentifierRest hrest)
  rw [Char.ofNat_toNat] at hblank
  exact hblank hrest

theorem isMark_iff {c : Char} : isMark c = true ↔ c = '!' ∨ c = '&' := by
  simp [isMark]

theorem not_isMark_of_isIdentifier {c : Char} {rest : List Char}
    (h : isIdentifier (c :: rest) = true) : isMark c = false := by
  obtain ⟨-, hleast⟩ := toNat_of_isIdentifierStart (Bool.and_eq_true_iff.mp h).1
  rw [← Bool.not_eq_true, isMark_iff]
  rintro (rfl | rfl)
  · exact absurd hleast (by decide)
  · exact absurd hleast (by decide)

theorem readHead_of_heads {head name : List Char} {mark : Option Char}
    (h : Heads (trim head) mark name) :
    Line.readHead head = (mark, name) ∧ isIdentifier name = true := by
  generalize htrim : trim head = text at h
  rw [Line.readHead, htrim]
  cases h with
  | plain hname =>
      cases name with
      | nil => cases hname
      | cons c rest => simp [not_isMark_of_isIdentifier hname, hname]
  | @marked mark blanks name hmark hblanks hname =>
      have hrest := trim_append_append hblanks (fun c hc => absurd hc List.not_mem_nil) name
      rw [List.append_nil, trim_eq_self (not_isBlank_of_isIdentifier hname)] at hrest
      simp [isMark_iff.mpr hmark, hrest, hname]

theorem heads_of_readHead {head : List Char} (h : isIdentifier (Line.readHead head).2 = true) :
    Heads (trim head) (Line.readHead head).1 (Line.readHead head).2 := by
  cases htrim : trim head with
  | nil =>
      rw [Line.readHead, htrim] at h
      cases h
  | cons c rest =>
      rw [Line.readHead, htrim] at h ⊢
      by_cases hmark : isMark c = true
      case neg =>
        simp only [if_neg hmark] at h ⊢
        exact .plain h
      simp only [if_pos hmark] at h ⊢
      obtain ⟨left, right, hrest, hleft, hright⟩ := exists_trim rest
      -- The head was trimmed, so no blanks are left behind the name.
      have hnil : right = [] := by
        rcases List.eq_nil_or_concat right with hnil | ⟨init, last, rfl⟩
        · exact hnil
        · have hlast : (trim head).getLast? = some last := by
            rw [htrim, hrest, List.concat_eq_append, ← List.append_assoc, ← List.append_assoc,
              ← List.cons_append, List.getLast?_concat]
          have hblank := hright last (by simp)
          rw [isBlank_of_getLast?_trim hlast] at hblank
          cases hblank
      rw [hnil, List.append_nil] at hrest
      have hheads := Heads.marked (isMark_iff.mp hmark) hleft h
      rwa [← hrest] at hheads

theorem dropClose_append (inner : List Char) : dropClose (inner ++ [')']) = inner := by
  simp [dropClose]

theorem dropClose_of_getLast?_ne {text : List Char} (h : text.getLast? ≠ some ')') :
    dropClose text = text := by
  rw [List.getLast?_eq_head?_reverse] at h
  rw [dropClose]
  split
  · next hreverse =>
      rw [hreverse] at h
      exact absurd rfl h
  · rfl

theorem dropOpen_of_head?_ne {text : List Char} (h : text.head? ≠ some '(') :
    dropOpen text = text := by
  rw [dropOpen.eq_def]
  split
  · exact absurd rfl h
  · rfl

theorem unwraps_iff {text inner : List Char} :
    Unwraps text inner ↔ inner = dropClose (dropOpen text) := by
  constructor
  · intro h
    cases h with
    | both => rw [dropOpen, dropClose_append]
    | front hlast => rw [dropOpen, dropClose_of_getLast?_ne hlast]
    | back hfirst =>
        have hhead : (inner ++ [')']).head? ≠ some '(' := by
          cases inner with
          | nil => simp
          | cons c rest => exact hfirst
        rw [dropOpen_of_head?_ne hhead, dropClose_append]
    | neither hfirst hlast => rw [dropOpen_of_head?_ne hfirst, dropClose_of_getLast?_ne hlast]
  · rintro rfl
    by_cases hfirst : text.head? = some '('
    · obtain ⟨rest, rfl⟩ := List.head?_eq_some_iff.mp hfirst
      rw [dropOpen]
      by_cases hlast : rest.getLast? = some ')'
      · obtain ⟨inner, rfl⟩ := List.getLast?_eq_some_iff.mp hlast
        rw [dropClose_append]
        exact .both inner
      · rw [dropClose_of_getLast?_ne hlast]
        exact .front hlast
    · rw [dropOpen_of_head?_ne hfirst]
      by_cases hlast : text.getLast? = some ')'
      · obtain ⟨inner, rfl⟩ := List.getLast?_eq_some_iff.mp hlast
        rw [dropClose_append]
        refine .back fun hinner => hfirst ?_
        rw [List.head?_append, hinner]
        rfl
      · rw [dropClose_of_getLast?_ne hlast]
        exact .neither hfirst hlast

/-- A line is read if it has one of the two forms, and its parts are those of the form. -/
theorem read_eq_some_iff {text : List Char} {line : Line} :
    Line.read text = some line ↔ Spells text line := by
  constructor
  · intro h
    rw [Line.read] at h
    split at h
    · next hassigns =>
        obtain ⟨before, after, rfl, hfirst, hopen⟩ := isAssignment_iff.mp hassigns
        rw [Line.readAssignment, cutFirst_append hfirst] at h
        simp only [Option.bind_eq_bind, Option.bind_some] at h
        split at h
        · next hname =>
            obtain rfl := Option.some.inj h
            exact .assignment hfirst hopen hname
        · cases h
    · next hassigns =>
        by_cases hopen : '(' ∈ text
        case neg =>
          rw [Line.readInvocation, cutFirst_of_not_mem hopen] at h
          cases h
        obtain ⟨head, after, rfl, hhead⟩ := List.eq_append_cons_of_mem hopen
        by_cases hclose : ')' ∈ after
        case neg =>
          rw [readInvocation_of_not_mem hhead hclose] at h
          cases h
        obtain ⟨body, trailing, rfl, htrailing⟩ := exists_last_of_mem hclose
        rw [readInvocation_append hhead htrailing] at h
        split at h
        · next hread =>
            obtain ⟨hblank, hname⟩ := Bool.and_eq_true_iff.mp hread
            obtain rfl := Option.some.inj h
            exact .invocation (fun hshape => hassigns (isAssignment_iff.mpr hshape)) hhead
              htrailing (List.all_eq_true.mp hblank) (heads_of_readHead hname)
              (unwraps_iff.mpr rfl)
        · cases h
  · intro h
    cases h with
    | @assignment before after hfirst hopen hname =>
        have hassigns := isAssignment_iff.mpr ⟨before, after, rfl, hfirst, hopen⟩
        rw [Line.read, if_pos hassigns, Line.readAssignment, cutFirst_append hfirst]
        simp only [Option.bind_eq_bind, Option.bind_some, if_pos hname]
    | @invocation head body trailing name inner mark hshape hopen hclose hblank hhead hbody =>
        obtain ⟨hread, hname⟩ := readHead_of_heads hhead
        rw [Line.read, if_neg fun hassigns => hshape (isAssignment_iff.mp hassigns),
          readInvocation_append hopen hclose, hread, stripBody, ← unwraps_iff.mp hbody]
        simp [isAllBlank, List.all_eq_true.mpr hblank, hname]

/-! ## Scripts -/

/-- Whether a trimmed line has one of the two forms. -/
def IsInGrammar (text : List Char) : Prop :=
  ∃ line, Spells text line

/-- The lines of a script that are not blank, each trimmed and with its number. -/
def numbered (number : Nat) (raws : List (List Char)) : List (Nat × List Char) :=
  ((raws.zipIdx number).map fun raw => (raw.2, trim raw.1)).filter (!·.2.isEmpty)

/-- Whether an entry is what a line with a number stands for. -/
def IsEntryOf (row : Nat × List Char) (entry : Entry) : Prop :=
  ∃ line, Spells row.2 line ∧
    entry.key = String.ofList (line.mark.toList ++ lower line.name) ∧
    entry.value = String.ofList (lower line.value) ∧
    entry.kind = line.kind ∧ entry.line = row.1

theorem isEntryOf_iff {row : Nat × List Char} {entry : Entry} :
    IsEntryOf row entry ↔ ∃ line, Line.read row.2 = some line ∧ entry = line.toEntry row.1 := by
  simp only [IsEntryOf, read_eq_some_iff]
  constructor
  · rintro ⟨line, hline, hkey, hvalue, hkind, hnumber⟩
    refine ⟨line, hline, ?_⟩
    cases entry
    cases hkey
    cases hvalue
    cases hkind
    cases hnumber
    rfl
  · rintro ⟨line, hline, rfl⟩
    exact ⟨line, hline, rfl, rfl, rfl, rfl⟩

theorem numbered_cons_blank {raw : List Char} (h : trim raw = []) (number : Nat)
    (rest : List (List Char)) : numbered number (raw :: rest) = numbered (number + 1) rest := by
  simp [numbered, h]

theorem numbered_cons {raw : List Char} (h : trim raw ≠ []) (number : Nat)
    (rest : List (List Char)) :
    numbered number (raw :: rest) = (number, trim raw) :: numbered (number + 1) rest := by
  simp [numbered, h]

theorem readLines_blank {raw : List Char} (h : trim raw = []) (number : Nat)
    (rest : List (List Char)) : readLines number (raw :: rest) = readLines (number + 1) rest := by
  simp [readLines, h]

theorem readLines_read {raw : List Char} {line : Line} (h : trim raw ≠ [])
    (hread : Line.read (trim raw) = some line) (number : Nat) (rest : List (List Char)) :
    readLines number (raw :: rest) =
      (readLines (number + 1) rest).map (line.toEntry number :: ·) := by
  simp [readLines, h, hread]

theorem readLines_unread {raw : List Char} (h : trim raw ≠ [])
    (hread : Line.read (trim raw) = none) (number : Nat) (rest : List (List Char)) :
    readLines number (raw :: rest) = .error ⟨number, String.ofList (trim raw)⟩ := by
  simp [readLines, h, hread]

theorem isInGrammar_iff {text : List Char} : IsInGrammar text ↔ Line.read text ≠ none := by
  simp only [IsInGrammar, ← read_eq_some_iff, Option.ne_none_iff_exists']

theorem readLines_eq_ok_iff {number : Nat} {raws : List (List Char)} {entries : List Entry} :
    readLines number raws = .ok entries ↔
      List.Forall₂ IsEntryOf (numbered number raws) entries := by
  induction raws generalizing number entries with
  | nil =>
      rw [readLines, numbered, List.zipIdx_nil, List.map_nil, List.filter_nil,
        List.forall₂_nil_left_iff, Except.ok.injEq]
      exact eq_comm
  | cons raw rest ih =>
      by_cases hblank : trim raw = []
      · rw [readLines_blank hblank, numbered_cons_blank hblank, ih]
      rw [numbered_cons hblank, List.forall₂_cons_left_iff]
      cases hread : Line.read (trim raw) with
      | none =>
          rw [readLines_unread hblank hread]
          constructor
          · intro h
            cases h
          · rintro ⟨entry, others, hentry, -⟩
            obtain ⟨line, hline, -⟩ := isEntryOf_iff.mp hentry
            rw [hread] at hline
            cases hline
      | some line =>
          rw [readLines_read hblank hread]
          constructor
          · intro h
            cases hrest : readLines (number + 1) rest with
            | error bad =>
                rw [hrest] at h
                cases h
            | ok others =>
                rw [hrest] at h
                obtain rfl := Except.ok.inj h
                exact ⟨_, others, isEntryOf_iff.mpr ⟨line, hread, rfl⟩, ih.mp hrest, rfl⟩
          · rintro ⟨entry, others, hentry, hothers, rfl⟩
            obtain ⟨line', hline, rfl⟩ := isEntryOf_iff.mp hentry
            obtain rfl := Option.some.inj (hread.symm.trans hline)
            rw [ih.mpr hothers]
            rfl

/-- Whether a row is the first one of neither form, and the error names it. -/
def IsFirstOutside (rows : List (Nat × List Char)) (bad : MalformedLine) : Prop :=
  ∃ before row after, rows = before ++ row :: after ∧ (∀ r ∈ before, IsInGrammar r.2) ∧
    ¬ IsInGrammar row.2 ∧ bad = ⟨row.1, String.ofList row.2⟩

theorem isFirstOutside_cons {row : Nat × List Char} (h : IsInGrammar row.2)
    (rows : List (Nat × List Char)) (bad : MalformedLine) :
    IsFirstOutside (row :: rows) bad ↔ IsFirstOutside rows bad := by
  constructor
  · rintro ⟨before, found, after, hrows, hbefore, hfound, hbad⟩
    cases before with
    | nil =>
        cases hrows
        exact absurd h hfound
    | cons first rest =>
        cases hrows
        exact ⟨rest, found, after, rfl, fun r hr => hbefore r (List.mem_cons_of_mem _ hr), hfound,
          hbad⟩
  · rintro ⟨before, found, after, rfl, hbefore, hfound, hbad⟩
    exact ⟨row :: before, found, after, rfl, List.forall_mem_cons.mpr ⟨h, hbefore⟩, hfound, hbad⟩

theorem readLines_eq_error_iff {number : Nat} {raws : List (List Char)} {bad : MalformedLine} :
    readLines number raws = .error bad ↔ IsFirstOutside (numbered number raws) bad := by
  induction raws generalizing number with
  | nil =>
      constructor
      · intro h
        cases h
      · rintro ⟨before, row, after, hrows, -⟩
        simp [numbered] at hrows
  | cons raw rest ih =>
      by_cases hblank : trim raw = []
      · rw [readLines_blank hblank, numbered_cons_blank hblank, ih]
      rw [numbered_cons hblank]
      cases hread : Line.read (trim raw) with
      | none =>
          rw [readLines_unread hblank hread, Except.error.injEq]
          constructor
          · rintro rfl
            exact ⟨[], _, _, rfl, fun r hr => absurd hr List.not_mem_nil,
              fun h => isInGrammar_iff.mp h hread, rfl⟩
          · rintro ⟨before, row, after, hrows, hbefore, -, rfl⟩
            cases before with
            | nil =>
                cases hrows
                rfl
            | cons first others =>
                obtain ⟨rfl, -⟩ := List.cons.inj hrows
                exact absurd hread (isInGrammar_iff.mp (hbefore _ List.mem_cons_self))
      | some line =>
          have hform : IsInGrammar (trim raw) := isInGrammar_iff.mpr (by rw [hread]; simp)
          rw [readLines_read hblank hread, isFirstOutside_cons hform, ← ih]
          cases readLines (number + 1) rest with
          | error other => exact Iff.rfl
          | ok entries =>
              constructor
              · intro h
                cases h
              · intro h
                cases h

theorem exists_readLines_iff {number : Nat} {raws : List (List Char)} :
    (∃ entries, readLines number raws = .ok entries) ↔
      ∀ row ∈ numbered number raws, IsInGrammar row.2 := by
  constructor
  · rintro ⟨entries, h⟩
    have hrows : List.Forall₂ (fun row entry => IsInGrammar row.2 ∧ IsEntryOf row entry)
        (numbered number raws) entries :=
      (readLines_eq_ok_iff.mp h).imp fun _ _ hentry =>
        ⟨hentry.imp fun _ hline => hline.1, hentry⟩
    exact ((List.forall₂_and_left _ _).mp hrows).1
  · intro h
    cases hread : readLines number raws with
    | ok entries => exact ⟨entries, rfl⟩
    | error bad =>
        obtain ⟨before, row, after, hrows, -, houtside, -⟩ := readLines_eq_error_iff.mp hread
        exact absurd (h row (by rw [hrows]; simp)) houtside

/-- A script is read exactly if every line that is not blank has one of the two
forms. Its entries are then those of its lines, in order and each with its line's
number; otherwise the error names the first line of neither form. Reading by
byte positions comes to the same, so no slice of any text is out of range. -/
theorem parse_accepts_grammar (text : String) :
    ((∃ entries, parse text = .ok entries) ↔
      ∀ row ∈ numbered 1 (lines text), IsInGrammar row.2) ∧
    (∀ entries, parse text = .ok entries ↔
      List.Forall₂ IsEntryOf (numbered 1 (lines text)) entries) ∧
    (∀ bad, parse text = .error bad ↔ IsFirstOutside (numbered 1 (lines text)) bad) ∧
    readLinesSliced 1 (lines text) = some (parse text) :=
  ⟨exists_readLines_iff, fun _ => readLines_eq_ok_iff, fun _ => readLines_eq_error_iff,
    readLinesSliced_eq 1 (lines text)⟩

end RobotRoutine.Script
