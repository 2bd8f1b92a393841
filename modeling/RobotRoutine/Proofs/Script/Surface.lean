import Mathlib.Logic.Relation
import RobotRoutine.Proofs.Script.Grammar
import RobotRoutine.Proofs.Text.Casing

/-!
# The surface of a script

There are many ways of writing one line. `Touch` lists what a person may change
without a thought: the case of a letter, blanks at the ends of the line, a
carriage return before the line feed, and blanks around a comma in the argument
body. Blanks are taken off and letters lowered at a dozen places between the text
and the arguments, and a script reads the same whatever its surface because of
three facts about them.

Reading commutes with lower-casing (`read_map`): every mark that a line is taken
apart at is the same in both cases, so the parts of the lowered line are the
lowered parts. Blanks at the ends of a line are gone before it is looked at. And
a comma keeps what is left of it apart from what is right of it, through the
stripping of the body and through the lower case of words, so that the blanks
beside it are blanks at the end of an argument (`splitArguments_blanks`).

What is left of a line then is its `gist`, and only the gists of the entries reach
the invocations (`invocations_eq`).
-/

namespace RobotRoutine.Script

open RobotRoutine.Text

/-! ## Reading a line in lower case -/

/-- Whether a character is the lower case of no other one. -/
def IsCaseless (mark : Char) : Prop :=
  ∀ c : Char, c.toLower = mark ↔ c = mark

/-- What is asked of characters while a line is read, for the ASCII ones in either case. -/
theorem toLower_ofNat_line : ∀ n < 0x80,
    (['=', '(', ')', '!', '&', ','].all fun mark =>
        ((Char.ofNat n).toLower == mark) == (Char.ofNat n == mark)) ∧
      isIdentifierStart (Char.ofNat n).toLower = isIdentifierStart (Char.ofNat n) ∧
      isIdentifierRest (Char.ofNat n).toLower = isIdentifierRest (Char.ofNat n) ∧
      isMark (Char.ofNat n).toLower = isMark (Char.ofNat n) := by
  decide +kernel

theorem isCaseless_of_mem {mark : Char} (h : mark ∈ ['=', '(', ')', '!', '&', ',']) :
    IsCaseless mark :=
  toLower_eq_iff fun n hn => eq_of_beq (List.all_eq_true.mp (toLower_ofNat_line n hn).1 mark h)

theorem IsCaseless.mem_map {mark : Char} (h : IsCaseless mark) (text : List Char) :
    mark ∈ text.map Char.toLower ↔ mark ∈ text := by
  simp [List.mem_map, h _]

variable {mark : Char}

theorem cutFirst_map (h : IsCaseless mark) (text : List Char) :
    cutFirst mark (text.map Char.toLower) = (cutFirst mark text).map fun (before, after) =>
      (before.map Char.toLower, after.map Char.toLower) := by
  by_cases hmem : mark ∈ text
  · obtain ⟨before, after, rfl, hbefore⟩ := List.eq_append_cons_of_mem hmem
    have hbefore' : mark ∉ before.map Char.toLower := fun hc => hbefore ((h.mem_map _).mp hc)
    rw [List.map_append, List.map_cons, (h mark).mpr rfl, cutFirst_append hbefore,
      cutFirst_append hbefore']
    rfl
  · rw [cutFirst_of_not_mem hmem, cutFirst_of_not_mem fun hc => hmem ((h.mem_map _).mp hc)]
    rfl

theorem cutLast_map (h : IsCaseless mark) (text : List Char) :
    cutLast mark (text.map Char.toLower) = (cutLast mark text).map fun (before, after) =>
      (before.map Char.toLower, after.map Char.toLower) := by
  rw [cutLast, ← List.map_reverse, cutFirst_map h, cutLast, Option.map_map, Option.map_map]
  cases cutFirst mark text.reverse with
  | none => rfl
  | some cut => simp [List.map_reverse]

theorem isAssignment_map (text : List Char) :
    isAssignment (text.map Char.toLower) = isAssignment text := by
  rw [isAssignment, cutFirst_map (isCaseless_of_mem (by decide)), isAssignment]
  cases cutFirst '=' text with
  | none => rfl
  | some cut =>
      have hopen := (@isCaseless_of_mem '(' (by decide)).mem_map cut.1
      simp [hopen]

theorem isIdentifier_map (name : List Char) :
    isIdentifier (name.map Char.toLower) = isIdentifier name := by
  have hrest : isIdentifierRest ∘ Char.toLower = isIdentifierRest :=
    funext (apply_toLower fun n hn => (toLower_ofNat_line n hn).2.2.1)
  cases name with
  | nil => rfl
  | cons c rest =>
      have hstart : isIdentifierStart c.toLower = isIdentifierStart c :=
        apply_toLower (fun n hn => (toLower_ofNat_line n hn).2.1) c
      rw [List.map_cons, isIdentifier, hstart, List.all_map, hrest, isIdentifier]

theorem isAllBlank_map (text : List Char) :
    isAllBlank (text.map Char.toLower) = isAllBlank text := by
  have hblank : isBlank ∘ Char.toLower = isBlank := funext isBlank_toLower
  rw [isAllBlank, List.all_map, hblank, isAllBlank]

theorem readHead_map (head : List Char) :
    Line.readHead (head.map Char.toLower) =
      ((Line.readHead head).1, (Line.readHead head).2.map Char.toLower) := by
  rw [Line.readHead, trim_map, Line.readHead]
  cases trim head with
  | nil => rfl
  | cons c rest =>
      have hlower : isMark c.toLower = isMark c :=
        apply_toLower (fun n hn => (toLower_ofNat_line n hn).2.2.2) c
      rw [List.map_cons]
      by_cases hmark : isMark c = true
      · have hc : c.toLower = c := by
          rcases isMark_iff.mp hmark with rfl | rfl <;> rfl
        simp only [hc, hmark, if_true, trim_map]
      · simp [hlower, hmark]

theorem dropOpen_map (text : List Char) :
    dropOpen (text.map Char.toLower) = (dropOpen text).map Char.toLower := by
  by_cases hfirst : text.head? = some '('
  · obtain ⟨rest, rfl⟩ := List.head?_eq_some_iff.mp hfirst
    rfl
  · have hlower : (text.map Char.toLower).head? ≠ some '(' := by
      rw [List.head?_map, ne_eq, Option.map_eq_some_iff]
      rintro ⟨c, hc, hopen⟩
      exact hfirst (hc.trans (congrArg some ((isCaseless_of_mem (by decide) c).mp hopen)))
    rw [dropOpen_of_head?_ne hfirst, dropOpen_of_head?_ne hlower]

theorem dropClose_map (text : List Char) :
    dropClose (text.map Char.toLower) = (dropClose text).map Char.toLower := by
  by_cases hlast : text.getLast? = some ')'
  · obtain ⟨rest, rfl⟩ := List.getLast?_eq_some_iff.mp hlast
    rw [List.map_append, dropClose_append]
    exact dropClose_append _
  · have hlower : (text.map Char.toLower).getLast? ≠ some ')' := by
      rw [List.getLast?_map, ne_eq, Option.map_eq_some_iff]
      rintro ⟨c, hc, hclose⟩
      exact hlast (hc.trans (congrArg some ((isCaseless_of_mem (by decide) c).mp hclose)))
    rw [dropClose_of_getLast?_ne hlast, dropClose_of_getLast?_ne hlower]

theorem stripBody_map (body : List Char) :
    stripBody (body.map Char.toLower) = (stripBody body).map Char.toLower := by
  rw [stripBody, trim_map, dropOpen_map, dropClose_map, trim_map, stripBody]

/-- A line with its name and its value in lower case. -/
def Line.lowered (line : Line) : Line :=
  { line with name := line.name.map Char.toLower, value := line.value.map Char.toLower }

theorem readAssignment_map (text : List Char) :
    Line.readAssignment (text.map Char.toLower) =
      (Line.readAssignment text).map Line.lowered := by
  rw [Line.readAssignment, cutFirst_map (isCaseless_of_mem (by decide)), Line.readAssignment]
  cases cutFirst '=' text with
  | none => rfl
  | some cut =>
      simp only [Option.map_some, Option.bind_eq_bind, Option.bind_some, trim_map,
        isIdentifier_map]
      split <;> rfl

theorem readInvocation_map (text : List Char) :
    Line.readInvocation (text.map Char.toLower) =
      (Line.readInvocation text).map Line.lowered := by
  rw [Line.readInvocation, cutFirst_map (isCaseless_of_mem (by decide)), Line.readInvocation]
  cases cutFirst '(' text with
  | none => rfl
  | some cut =>
      simp only [Option.map_some, Option.bind_eq_bind, Option.bind_some]
      rw [cutLast_map (isCaseless_of_mem (by decide))]
      cases cutLast ')' cut.2 with
      | none => rfl
      | some cut' =>
          simp only [Option.map_some, Option.bind_some, readHead_map, isAllBlank_map,
            isIdentifier_map, stripBody_map]
          split <;> rfl

/-- The parts of a line in lower case are the parts of the line, in lower case. -/
theorem read_map (text : List Char) :
    Line.read (text.map Char.toLower) = (Line.read text).map Line.lowered := by
  rw [Line.read, isAssignment_map, readAssignment_map, readInvocation_map, Line.read]
  split <;> rfl

theorem toEntry_lowered (line : Line) (number : Nat) :
    line.lowered.toEntry number = line.toEntry number := by
  simp only [Line.toEntry, Line.key, Line.lowered, lower_map]

/-! ## Blanks beside a comma -/

/-- Whether a text is made of spaces and tabs. -/
def IsPad (pad : List Char) : Prop :=
  ∀ c ∈ pad, c = ' ' ∨ c = '\t'

variable {pad : List Char}

theorem IsPad.isBlank (h : IsPad pad) : ∀ c ∈ pad, isBlank c = true := by
  intro c hc
  rcases h c hc with rfl | rfl <;> decide

theorem IsPad.not_mem (h : IsPad pad) (hmark : mark ∈ ['=', '(', ')', '!', '&', ',']) :
    mark ∉ pad := by
  intro hmem
  rcases h mark hmem with rfl | rfl <;> exact absurd hmark (by decide)

theorem endsWord_mark : (EndsWord ' ' ∧ lowerChar ' ' = [' ']) ∧
    (EndsWord '\t' ∧ lowerChar '\t' = ['\t']) ∧ EndsWord ',' ∧ lowerChar ',' = [','] := by
  decide +kernel

theorem IsPad.endsWord (h : IsPad pad) : ∀ c ∈ pad, EndsWord c ∧ lowerChar c = [c] := by
  intro c hc
  rcases h c hc with rfl | rfl
  · exact endsWord_mark.1
  · exact endsWord_mark.2.1

theorem IsPad.reverse (h : IsPad pad) : IsPad pad.reverse :=
  fun c hc => h c (List.mem_reverse.mp hc)

theorem lower_append_pad (h : IsPad pad) (text : List Char) :
    lower (text ++ pad) = lower text ++ pad := by
  induction pad generalizing text with
  | nil => rw [List.append_nil, List.append_nil]
  | cons c rest ih =>
      -- No word goes on behind a space or a tab, so the rest is lowered for itself.
      obtain ⟨hend, hc⟩ := h.endsWord c List.mem_cons_self
      have hrest := ih (fun d hd => h d (List.mem_cons_of_mem _ hd)) []
      rw [lower_append_cons hend, hc, ← List.nil_append rest, hrest]
      rfl

theorem lower_pad_append (h : IsPad pad) (text : List Char) :
    lower (pad ++ text) = pad ++ lower text := by
  induction pad with
  | nil => rfl
  | cons c rest ih =>
      obtain ⟨hend, hc⟩ := h.endsWord c List.mem_cons_self
      have hfirst := lower_append_cons hend [] (rest ++ text)
      rw [List.nil_append] at hfirst
      rw [List.cons_append, hfirst, hc, ih fun d hd => h d (List.mem_cons_of_mem _ hd)]
      rfl

/-- The arguments that a part of a body gives, in lower case. -/
def pieces (text : List Char) : List (List Char) :=
  ((lower text).splitOn ',').map trim

/-- What is left of a comma and what is right of it give their arguments apart. -/
theorem splitArguments_lower (left right : List Char) :
    splitArguments (lower (left ++ ',' :: right)) = pieces left ++ pieces right := by
  have hcomma : EndsWord ',' ∧ lowerChar ',' = [','] := endsWord_mark.2.2
  rw [lower_append_cons hcomma.1, hcomma.2, List.singleton_append, splitArguments,
    if_neg (by simp), List.splitOn_append_cons_self, List.map_append]
  rfl

theorem pieces_append_pad (h : IsPad pad) (text : List Char) :
    pieces (text ++ pad) = pieces text := by
  have htrim : ∀ last : List Char, trim (last ++ pad) = trim last := trim_append h.isBlank
  have hpad : ',' ∉ pad := h.not_mem (by decide)
  rw [pieces, lower_append_pad h, pieces]
  by_cases hcomma : ',' ∈ lower text
  · obtain ⟨before, last, htext, hlast⟩ := exists_last_of_mem hcomma
    have hlast' : ',' ∉ last ++ pad := by simp [hlast, hpad]
    rw [htext, List.append_assoc, List.cons_append, List.splitOn_append_cons_self,
      List.splitOn_append_cons_self, List.splitOn_eq_singleton hlast,
      List.splitOn_eq_singleton hlast', List.map_append, List.map_append, List.map_singleton,
      List.map_singleton, htrim]
  · have hcomma' : ',' ∉ lower text ++ pad := by simp [hcomma, hpad]
    rw [List.splitOn_eq_singleton hcomma, List.splitOn_eq_singleton hcomma', List.map_singleton,
      List.map_singleton, htrim]

theorem pieces_pad_append (h : IsPad pad) (text : List Char) :
    pieces (pad ++ text) = pieces text := by
  have htrim : ∀ first : List Char, trim (pad ++ first) = trim first := trim_prepend h.isBlank
  have hpad : ',' ∉ pad := h.not_mem (by decide)
  rw [pieces, lower_pad_append h, pieces]
  by_cases hcomma : ',' ∈ lower text
  · obtain ⟨first, after, htext, hfirst⟩ := List.eq_append_cons_of_mem hcomma
    have hfirst' : ',' ∉ pad ++ first := by simp [hfirst, hpad]
    rw [htext, ← List.append_assoc, List.splitOn_append_cons_self_of_not_mem hfirst,
      List.splitOn_append_cons_self_of_not_mem hfirst', List.map_cons, List.map_cons, htrim]
  · have hcomma' : ',' ∉ pad ++ lower text := by simp [hcomma, hpad]
    rw [List.splitOn_eq_singleton hcomma, List.splitOn_eq_singleton hcomma', List.map_singleton,
      List.map_singleton, htrim]

/-! ## The body of an invocation -/

theorem dropOpen_append {left right : List Char} (h : left = [] → right.head? ≠ some '(') :
    dropOpen (left ++ right) = dropOpen left ++ right := by
  cases left with
  | nil => exact dropOpen_of_head?_ne (h rfl)
  | cons c rest =>
      by_cases hc : c = '('
      · rw [hc]
        rfl
      · have hfirst : ∀ rest : List Char, (c :: rest).head? ≠ some '(' :=
          fun _ heq => hc (Option.some.inj heq)
        rw [List.cons_append, dropOpen_of_head?_ne (hfirst _), dropOpen_of_head?_ne (hfirst _)]
        rfl

theorem dropClose_append_right {left right : List Char}
    (h : right = [] → left.getLast? ≠ some ')') :
    dropClose (left ++ right) = left ++ dropClose right := by
  by_cases hlast : right.getLast? = some ')'
  · obtain ⟨init, rfl⟩ := List.getLast?_eq_some_iff.mp hlast
    rw [← List.append_assoc, dropClose_append, dropClose_append]
  · have hlast' : (left ++ right).getLast? ≠ some ')' := by
      rw [List.getLast?_append]
      cases hright : right.getLast? with
      | none => exact h (List.getLast?_eq_none_iff.mp hright)
      | some c =>
          rw [hright] at hlast
          exact hlast
    rw [dropClose_of_getLast?_ne hlast, dropClose_of_getLast?_ne hlast']

/-- What stripping does to the part of a body that begins it. -/
def stripLeft (left : List Char) : List Char :=
  trimLeft (dropOpen (trimLeft left))

/-- What stripping does to the part of a body that ends it. -/
def stripRight (right : List Char) : List Char :=
  trimRight (dropClose (trimRight right))

/-- Stripping a body does not reach across a comma. -/
theorem stripBody_append_cons (left right : List Char) :
    stripBody (left ++ ',' :: right) = stripLeft left ++ ',' :: stripRight right := by
  have hcomma : isBlank ',' = false := by decide
  have hclose : ∀ left right : List Char,
      dropClose (left ++ ',' :: right) = left ++ ',' :: dropClose right := by
    intro left right
    have happend := @dropClose_append_right (left ++ [',']) right fun _ => by simp
    rwa [List.append_assoc, List.append_assoc] at happend
  rw [stripBody, trim_append_cons hcomma, dropOpen_append fun _ => by simp, hclose,
    trim_append_cons hcomma]
  rfl

theorem exists_trimLeft_pad (h : IsPad pad) (text : List Char) :
    ∃ rest, IsPad rest ∧ trimLeft (text ++ pad) = trimLeft text ++ rest := by
  rw [trimLeft, trimLeft, List.dropWhile_append]
  split
  · next hall =>
      refine ⟨[], fun c hc => absurd hc List.not_mem_nil, ?_⟩
      rw [List.isEmpty_iff.mp hall, List.append_nil, List.dropWhile_eq_nil_iff]
      exact h.isBlank
  · exact ⟨pad, h, rfl⟩

theorem exists_trimRight_pad (h : IsPad pad) (text : List Char) :
    ∃ rest, IsPad rest ∧ trimRight (pad ++ text) = rest ++ trimRight text := by
  obtain ⟨rest, hrest, htrim⟩ := exists_trimLeft_pad h.reverse text.reverse
  refine ⟨rest.reverse, hrest.reverse, ?_⟩
  rw [trimRight, List.reverse_append, htrim, List.reverse_append, trimRight]

theorem exists_stripLeft_pad (h : IsPad pad) (left : List Char) :
    ∃ rest, IsPad rest ∧ stripLeft (left ++ pad) = stripLeft left ++ rest := by
  -- Blanks that are left at the end are no `(`, so the same character is dropped.
  obtain ⟨first, hfirst, htrim⟩ := exists_trimLeft_pad h left
  have hopen : first.head? ≠ some '(' :=
    fun hc => hfirst.not_mem (by decide) (List.mem_of_head? hc)
  obtain ⟨rest, hrest, hstrip⟩ := exists_trimLeft_pad hfirst (dropOpen (trimLeft left))
  exact ⟨rest, hrest, by rw [stripLeft, htrim, dropOpen_append fun _ => hopen, hstrip, stripLeft]⟩

theorem exists_stripRight_pad (h : IsPad pad) (right : List Char) :
    ∃ rest, IsPad rest ∧ stripRight (pad ++ right) = rest ++ stripRight right := by
  obtain ⟨first, hfirst, htrim⟩ := exists_trimRight_pad h right
  have hclose : first.getLast? ≠ some ')' :=
    fun hc => hfirst.not_mem (by decide) (List.mem_of_getLast? hc)
  obtain ⟨rest, hrest, hstrip⟩ := exists_trimRight_pad hfirst (dropClose (trimRight right))
  refine ⟨rest, hrest, ?_⟩
  rw [stripRight, htrim, dropClose_append_right fun _ => hclose, hstrip, stripRight]

/-- Blanks beside a comma do not change the arguments of a body. -/
theorem splitArguments_blanks {first second : List Char} (hfirst : IsPad first)
    (hsecond : IsPad second) (left right : List Char) :
    splitArguments (lower (stripBody (left ++ first ++ ',' :: (second ++ right)))) =
      splitArguments (lower (stripBody (left ++ ',' :: right))) := by
  obtain ⟨before, hbefore, hleft⟩ := exists_stripLeft_pad hfirst left
  obtain ⟨after, hafter, hright⟩ := exists_stripRight_pad hsecond right
  rw [stripBody_append_cons, stripBody_append_cons, hleft, hright, splitArguments_lower,
    splitArguments_lower, pieces_append_pad hbefore, pieces_pad_append hafter]

/-! ## What is left of a line -/

/-- What the compiler looks at in an entry: a variable and its value, or an invocation with the
arguments that it was written with. -/
inductive Gist where
  | binding (name value : String)
  | command (invocation : Invocation)

/-- The variables after one more gist. -/
def Variables.addGist (table : Variables) : Gist → Variables
  | .binding name value => table.define name value
  | .command _ => table

def Gist.invocation? : Gist → Option Invocation
  | .binding _ _ => none
  | .command invocation => some invocation

def Entry.gist (entry : Entry) : Gist :=
  match Invocation.ofEntry? entry with
  | none => .binding entry.key entry.value
  | some invocation => .command invocation

theorem invocation?_gist (entry : Entry) :
    entry.gist.invocation? = Invocation.ofEntry? entry := by
  rw [Entry.gist]
  cases Invocation.ofEntry? entry <;> rfl

theorem addGist_gist (table : Variables) (entry : Entry) :
    table.addGist entry.gist = table.addEntry entry := by
  rw [Entry.gist, Invocation.ofEntry?, Variables.addEntry]
  cases entry.kind <;> rfl

/-- The invocations that gists come to, with their arguments expanded. -/
def invocationsOf (gists : List Gist) : List Invocation :=
  let table := gists.foldl Variables.addGist []
  (gists.filterMap Gist.invocation?).map fun invocation =>
    { invocation with arguments := invocation.arguments.map table.expand }

/-- Only the gists of entries reach the invocations. -/
theorem invocations_eq (entries : List Entry) :
    invocations entries = invocationsOf (entries.map Entry.gist) := by
  have htable : (entries.map Entry.gist).foldl Variables.addGist [] =
      Variables.ofEntries entries := by
    simp only [List.foldl_map, addGist_gist, Variables.ofEntries]
  have hplain : (entries.map Entry.gist).filterMap Gist.invocation? =
      entries.filterMap Invocation.ofEntry? := by
    rw [List.filterMap_map]
    exact List.filterMap_congr fun entry _ => invocation?_gist entry
  rw [invocationsOf, htable, hplain, invocations]

/-- The gist of a line with a number: none at all of a blank line, and none either, but for
another reason, of a line that cannot be read. -/
def lineGist (number : Nat) (raw : List Char) : Option (Option Gist) :=
  if (trim raw).isEmpty then
    none
  else
    some ((Line.read (trim raw)).map fun line => (line.toEntry number).gist)

/-- What the compiler looks at in a script: the number of the first line that cannot be read, or
the gists of the entries. -/
def outline (reading : Except MalformedLine (List Entry)) : Except Nat (List Gist) :=
  (reading.map (List.map Entry.gist)).mapError MalformedLine.number

theorem outline_readLines_cons (number : Nat) (raw : List Char) (rest : List (List Char)) :
    outline (readLines number (raw :: rest)) =
      match lineGist number raw with
      | none => outline (readLines (number + 1) rest)
      | some none => .error number
      | some (some gist) => (outline (readLines (number + 1) rest)).map (gist :: ·) := by
  rw [readLines, lineGist]
  by_cases hblank : (trim raw).isEmpty = true
  · simp only [if_pos hblank]
  · simp only [if_neg hblank]
    cases Line.read (trim raw) with
    | none => rfl
    | some line => cases readLines (number + 1) rest <;> rfl

/-- Whether two lines come to the same, whatever their number. -/
def IsAlike (raw raw' : List Char) : Prop :=
  ∀ number, lineGist number raw = lineGist number raw'

theorem outline_readLines_congr {raws raws' : List (List Char)}
    (h : List.Forall₂ IsAlike raws raws') (number : Nat) :
    outline (readLines number raws) = outline (readLines number raws') := by
  induction h generalizing number with
  | nil => rfl
  | cons hraw _ ih => rw [outline_readLines_cons, outline_readLines_cons, hraw number, ih]

/-! ## Touching a line -/

/-- What may be done to the surface of a line. -/
inductive Touch : List Char → List Char → Prop
  /-- An ASCII letter is written in its other case. -/
  | letter {c d : Char} (h : c.toLower = d.toLower) (before after : List Char) :
      Touch (before ++ c :: after) (before ++ d :: after)
  /-- Spaces and tabs are put at the start and at the end of the line. -/
  | ends {left right : List Char} (hleft : IsPad left) (hright : IsPad right)
      (raw : List Char) : Touch raw (left ++ (raw ++ right))
  /-- The line feed behind the line becomes a carriage return and a line feed. -/
  | carriageReturn (raw : List Char) : Touch raw (raw ++ ['\r'])
  /-- Spaces and tabs are put around a comma between the first `(` and the last `)` of a line that
  does not assign. -/
  | comma {head left first second right trailing : List Char} (hequals : '=' ∉ head)
      (hopen : '(' ∉ head) (hclose : ')' ∉ trailing) (hfirst : IsPad first)
      (hsecond : IsPad second) :
      Touch (head ++ '(' :: (left ++ ',' :: right ++ ')' :: trailing))
        (head ++ '(' :: (left ++ first ++ ',' :: (second ++ right) ++ ')' :: trailing))

theorem lineGist_map (number : Nat) (raw : List Char) :
    lineGist number (raw.map Char.toLower) = lineGist number raw := by
  rw [lineGist, trim_map, List.isEmpty_map, read_map, Option.map_map, lineGist]
  simp only [Function.comp_def, toEntry_lowered]

theorem isAlike_of_trim {raw raw' : List Char} (h : trim raw = trim raw') : IsAlike raw raw' := by
  intro number
  rw [lineGist, h, lineGist]

theorem isAssignment_of_open {head : List Char} (h : '=' ∉ head) (after : List Char) :
    isAssignment (head ++ '(' :: after) = false := by
  rw [← Bool.not_eq_true, isAssignment_iff]
  rintro ⟨before, value, hline, -, hopen⟩
  -- The first `=` would stand in the head, or have the `(` before it.
  rcases List.append_eq_append_iff.mp hline with ⟨middle, rfl, hmiddle⟩ | ⟨middle, rfl, hmiddle⟩
  · cases middle with
    | nil => cases hmiddle
    | cons c rest =>
        obtain ⟨rfl, -⟩ := List.cons.inj hmiddle
        simp at hopen
  · cases middle with
    | nil => cases hmiddle
    | cons c rest =>
        obtain ⟨rfl, -⟩ := List.cons.inj hmiddle
        simp at h

/-- How a line is read whose argument body has been found. -/
theorem lineGist_invocation {head body trailing : List Char} (hequals : '=' ∉ head)
    (hopen : '(' ∉ head) (hclose : ')' ∉ trailing) (number : Nat) :
    lineGist number (head ++ '(' :: (body ++ ')' :: trailing)) =
      some (if isAllBlank (trimRight trailing) &&
          isIdentifier (Line.readHead (trimLeft head)).2 then
        let key := (Line.readHead (trimLeft head)).1.toList ++
          lower (Line.readHead (trimLeft head)).2
        some (.command {
          placement := (splitKey key).1
          name := String.ofList (splitKey key).2
          arguments := (splitArguments (lower (stripBody body))).map String.ofList
          line := number })
      else
        none) := by
  have htrim : trim (head ++ '(' :: (body ++ ')' :: trailing)) =
      trimLeft head ++ '(' :: (body ++ ')' :: trimRight trailing) := by
    rw [trim_append_cons (by decide), trimRight_append_cons (by decide)]
  have hequals' : '=' ∉ trimLeft head := fun h => hequals ((List.dropWhile_sublist _).mem h)
  have hopen' : '(' ∉ trimLeft head := fun h => hopen ((List.dropWhile_sublist _).mem h)
  have hclose' : ')' ∉ trimRight trailing := by
    intro h
    obtain ⟨right, htrailing, -⟩ := exists_trimRight trailing
    exact hclose (htrailing ▸ List.mem_append_left right h)
  rw [lineGist, htrim, if_neg (by simp), Line.read, isAssignment_of_open hequals',
    if_neg (by decide), readInvocation_append hopen' hclose']
  split
  · simp only [Option.map_some, Entry.gist, Invocation.ofEntry?, Line.toEntry, Line.key,
      String.toList_ofList]
  · rfl

/-- A touched line comes to the same. -/
theorem Touch.isAlike {raw raw' : List Char} (h : Touch raw raw') : IsAlike raw raw' := by
  cases h with
  | letter hletter before after =>
      intro number
      rw [← lineGist_map, ← lineGist_map number (before ++ _), List.map_append, List.map_append,
        List.map_cons, List.map_cons, hletter]
  | ends hleft hright =>
      exact isAlike_of_trim (trim_append_append hleft.isBlank hright.isBlank raw).symm
  | carriageReturn =>
      have hreturn : isBlank '\r' = true := by decide
      exact isAlike_of_trim (trim_append (List.forall_mem_singleton.mpr hreturn) raw).symm
  | comma hequals hopen hclose hfirst hsecond =>
      intro number
      rw [lineGist_invocation hequals hopen hclose, lineGist_invocation hequals hopen hclose,
        splitArguments_blanks hfirst hsecond]

/-- Whether the lines of two texts are the same but for what has been touched. -/
def Resembles (text text' : String) : Prop :=
  List.Forall₂ (Relation.EqvGen Touch) (lines text) (lines text')

/-- Texts that resemble each other are read alike. -/
theorem outline_parse_congr {text text' : String} (h : Resembles text text') :
    outline (parse text) = outline (parse text') := by
  refine outline_readLines_congr (h.imp fun raw raw' hraw => ?_) 1
  induction hraw with
  | rel _ _ htouch => exact htouch.isAlike
  | refl => exact fun _ => rfl
  | symm _ _ _ ih => exact fun number => (ih number).symm
  | trans _ _ _ _ _ ih ih' => exact fun number => (ih number).trans (ih' number)

end RobotRoutine.Script
