import RobotRoutine.Proofs.Script.Grammar
import RobotRoutine.Proofs.Script.Variables

/-!
# Which names can rewrite a numeric literal

An argument is expanded by replacing pieces of text, and a literal is text. The
names of variables are identifiers, so a name that occurs in a literal begins at
a letter or `_`; the only such character in a literal is the `e` of its power of
ten. Hence a name occurs in a literal exactly if it is a beginning of the power,
such as `e` or `e1` in `1e10` (`isInfix_text_iff`), and a literal without a power
of ten is out of reach of every script.

Both directions are needed to say what substitution does to literals: names that
do not begin the power leave a literal as it is (`expand_literal`), and any name
that does rewrites it, if only its value differs from it (`replace_literal`).
-/

namespace RobotRoutine.Script

open RobotRoutine.Text

/-! ## Literals -/

/-- A sign in front of a number. -/
def IsSign (sign : Option Char) : Prop :=
  ∀ c ∈ sign, c = '+' ∨ c = '-'

/-- A power of ten: digits behind an `e`, with or without a sign. -/
structure Power where
  sign : Option Char
  digits : List Char
  isSign : IsSign sign
  isDigit : ∀ c ∈ digits, c.isDigit = true
  digits_ne_nil : digits ≠ []

/-- A decimal number as an argument may hold it, in lower case. -/
structure Literal where
  sign : Option Char
  whole : List Char
  /-- The digits behind the point, if there is a point. -/
  fraction : Option (List Char)
  power : Option Power
  isSign : IsSign sign
  isDigit : ∀ c ∈ whole ++ fraction.getD [], c.isDigit = true
  digits_ne_nil : whole ++ fraction.getD [] ≠ []

namespace Literal

/-- The literal up to its power of ten. -/
def mantissa (literal : Literal) : List Char :=
  literal.sign.toList ++ (literal.whole ++ (literal.fraction.map ('.' :: ·)).getD [])

/-- The power of ten with the `e`, empty if there is none. -/
def exponent (literal : Literal) : List Char :=
  (literal.power.map fun power => 'e' :: (power.sign.toList ++ power.digits)).getD []

/-- The literal as it is written. -/
def text (literal : Literal) : List Char :=
  literal.mantissa ++ literal.exponent

end Literal

/-- Whether a character may be part of a literal beside the `e`. -/
def isNumeric (c : Char) : Bool :=
  c.isDigit || c == '+' || c == '-' || c == '.'

theorem isNumeric_of_isSign {sign : Option Char} (h : IsSign sign) :
    ∀ c ∈ sign.toList, isNumeric c = true := by
  intro c hc
  rcases h c (Option.mem_toList.mp hc) with rfl | rfl
  · decide
  · decide

theorem isNumeric_of_isDigit {c : Char} (h : c.isDigit = true) : isNumeric c = true := by
  simp [isNumeric, h]

namespace Literal

variable (literal : Literal)

theorem isNumeric_mantissa : ∀ c ∈ literal.mantissa, isNumeric c = true := by
  intro c hc
  rw [mantissa, List.mem_append, List.mem_append] at hc
  rcases hc with hsign | hwhole | hfraction
  · exact isNumeric_of_isSign literal.isSign c hsign
  · exact isNumeric_of_isDigit (literal.isDigit c (List.mem_append_left _ hwhole))
  · have hdigits := literal.isDigit
    cases hpoint : literal.fraction with
    | none =>
        rw [hpoint] at hfraction
        cases hfraction
    | some digits =>
        rw [hpoint] at hfraction hdigits
        rcases List.mem_cons.mp hfraction with rfl | hdigit
        · decide
        · exact isNumeric_of_isDigit (hdigits c (List.mem_append_right _ hdigit))

/-- The power of ten is empty, or an `e` with no letter behind it. -/
theorem exponent_eq : literal.exponent = [] ∨
    ∃ rest, literal.exponent = 'e' :: rest ∧ ∀ c ∈ rest, isNumeric c = true := by
  rw [exponent]
  cases hpower : literal.power with
  | none => exact Or.inl rfl
  | some power =>
      refine Or.inr ⟨_, rfl, fun c hc => ?_⟩
      rcases List.mem_append.mp hc with hsign | hdigit
      · exact isNumeric_of_isSign power.isSign c hsign
      · exact isNumeric_of_isDigit (power.isDigit c hdigit)

theorem isNumeric_or_eq : ∀ c ∈ literal.text, isNumeric c = true ∨ c = 'e' := by
  intro c hc
  rcases List.mem_append.mp hc with hmantissa | hexponent
  · exact Or.inl (literal.isNumeric_mantissa c hmantissa)
  · rcases literal.exponent_eq with hnil | ⟨rest, hrest, hnumeric⟩
    · rw [hnil] at hexponent
      cases hexponent
    · rw [hrest] at hexponent
      rcases List.mem_cons.mp hexponent with rfl | hmem
      · exact Or.inr rfl
      · exact Or.inl (hnumeric c hmem)

theorem text_ne_nil : literal.text ≠ [] := by
  intro hnil
  have hmantissa := (List.append_eq_nil_iff.mp hnil).1
  have hnumber := (List.append_eq_nil_iff.mp (List.append_eq_nil_iff.mp hmantissa).2)
  apply literal.digits_ne_nil
  rw [hnumber.1, List.nil_append]
  cases hpoint : literal.fraction with
  | none => rfl
  | some digits =>
      rw [hpoint] at hnumber
      exact absurd hnumber.2 (List.cons_ne_nil _ _)

end Literal

/-! ## Where a name can occur -/

theorem identifier_ofNat :
    ∀ n < 0x80, (isIdentifierStart (Char.ofNat n) = true → isNumeric (Char.ofNat n) = false ∧
        isIdentifier (lowerChar (Char.ofNat n)) = true) ∧
      (isIdentifierRest (Char.ofNat n) = true →
        (lowerChar (Char.ofNat n)).all isIdentifierRest = true) := by
  decide +kernel

theorem not_isNumeric_of_isIdentifierStart {c : Char} (h : isIdentifierStart c = true) :
    isNumeric c = false := by
  have hc := (identifier_ofNat c.toNat (toNat_of_isIdentifierStart h).1).1
  rw [Char.ofNat_toNat] at hc
  exact (hc h).1

/-- A name that occurs in a literal is a beginning of its power of ten. -/
theorem isPrefix_exponent {literal : Literal} {name before after : List Char}
    (hname : isIdentifier name = true) (h : literal.text = before ++ (name ++ after)) :
    before = literal.mantissa ∧ literal.exponent = name ++ after := by
  cases name with
  | nil => cases hname
  | cons c rest =>
      have hc := not_isNumeric_of_isIdentifierStart (Bool.and_eq_true_iff.mp hname).1
      rw [Literal.text, List.cons_append] at h
      rcases List.append_eq_append_iff.mp h with ⟨between, rfl, hexponent⟩ | ⟨between, hmantissa, hrest⟩
      · -- The name begins within the power of ten.
        rcases literal.exponent_eq with hnil | ⟨others, hothers, hnumeric⟩
        · simp [hnil] at hexponent
        · rw [hothers] at hexponent
          cases between with
          | nil => exact ⟨List.append_nil _, hothers.trans hexponent⟩
          | cons first between =>
              obtain ⟨-, rfl⟩ := List.cons.inj hexponent
              rw [hnumeric c (by simp)] at hc
              cases hc
      · cases between with
        | nil => exact ⟨(List.append_nil _).symm.trans hmantissa.symm, hrest.symm⟩
        | cons first between =>
            obtain ⟨rfl, -⟩ := List.cons.inj hrest
            rw [literal.isNumeric_mantissa c (by simp [hmantissa])] at hc
            cases hc

/-! ## Replacing a piece of a text -/

section Replacing

variable {piece text : List Char}

theorem replaceFrom_of_not_occurs (value : List Char) (h : ¬ piece <:+: text) :
    replaceFrom piece value 0 text = text := by
  induction text with
  | nil => rfl
  | cons c rest ih =>
      have hbegins : ¬ piece.isPrefixOf (c :: rest) = true :=
        fun hbegins => h (List.isPrefixOf_iff_prefix.mp hbegins).isInfix
      rw [replaceFrom, if_neg hbegins,
        ih fun hoccurs => h (hoccurs.trans (List.suffix_cons c rest).isInfix)]

theorem replace_of_not_occurs (value : List Char) (h : ¬ piece <:+: text) :
    replace piece value text = text := by
  have hpiece : ¬ piece.isEmpty = true := by
    rw [List.isEmpty_iff]
    rintro rfl
    exact h List.nil_infix
  rw [replace, if_neg hpiece, replaceFrom_of_not_occurs value h]

theorem replaceFrom_owed (piece value owed rest : List Char) :
    replaceFrom piece value owed.length (owed ++ rest) = replaceFrom piece value 0 rest := by
  induction owed with
  | nil => rfl
  | cons c owed ih => exact ih

/-- An occurrence in front of which the piece cannot begin is replaced as it stands. -/
theorem replaceFrom_append {c : Char} {before rest : List Char} (value after : List Char)
    (h : c ∉ before) :
    replaceFrom (c :: rest) value 0 (before ++ (c :: rest ++ after)) =
      before ++ (value ++ replaceFrom (c :: rest) value 0 after) := by
  induction before with
  | nil =>
      have hbegins : (c :: rest).isPrefixOf (c :: (rest ++ after)) = true :=
        List.isPrefixOf_iff_prefix.mpr (List.prefix_append (c :: rest) after)
      rw [List.nil_append, List.cons_append, replaceFrom, if_pos hbegins, List.length_cons,
        Nat.add_sub_cancel, replaceFrom_owed]
      rfl
  | cons d before ih =>
      rw [List.mem_cons, not_or] at h
      have hbegins : ¬ (c :: rest).isPrefixOf (d :: (before ++ (c :: rest ++ after))) = true := by
        rw [List.isPrefixOf_iff_prefix, List.cons_prefix_cons]
        exact fun hbegins => h.1 hbegins.1
      rw [List.cons_append, replaceFrom, if_neg hbegins, ih h.2]
      rfl

end Replacing

/-! ## Expanding a literal -/

theorem isInfix_text_iff {literal : Literal} {name : List Char} (hname : isIdentifier name = true) :
    name <:+: literal.text ↔ name <+: literal.exponent := by
  constructor
  · rintro ⟨before, after, h⟩
    rw [List.append_assoc] at h
    exact ⟨after, (isPrefix_exponent hname h.symm).2.symm⟩
  · intro h
    exact h.isInfix.trans (List.suffix_append literal.mantissa _).isInfix

/-- A name that begins the power of ten is replaced there, and the value takes its place. -/
theorem replace_literal {literal : Literal} {name after : List Char}
    (hname : isIdentifier name = true) (h : literal.exponent = name ++ after) (value : List Char) :
    replace name value literal.text = literal.mantissa ++ (value ++ after) := by
  cases name with
  | nil => cases hname
  | cons c rest =>
      have hc := not_isNumeric_of_isIdentifierStart (Bool.and_eq_true_iff.mp hname).1
      have hmantissa : c ∉ literal.mantissa := by
        intro hmem
        rw [literal.isNumeric_mantissa c hmem] at hc
        cases hc
      have hafter : ¬ c :: rest <:+: after := by
        intro hoccurs
        have hmem : c ∈ after := hoccurs.subset List.mem_cons_self
        rcases literal.exponent_eq with hnil | ⟨others, hothers, hnumeric⟩
        · simp [hnil] at h
        · rw [hothers] at h
          obtain ⟨-, rfl⟩ := List.cons.inj h
          rw [hnumeric c (List.mem_append_right _ hmem)] at hc
          cases hc
      rw [replace, if_neg (by simp), Literal.text, h, replaceFrom_append value after hmantissa,
        replaceFrom_of_not_occurs value hafter]

/-- Names that do not begin the power of ten leave a literal as it is. -/
theorem expand_literal {literal : Literal} {table : Variables}
    (h : ∀ binding ∈ table, isIdentifier binding.1.toList = true ∧
      ¬ binding.1.toList <+: literal.exponent) :
    table.expand (String.ofList literal.text) = String.ofList literal.text := by
  induction table with
  | nil => rfl
  | cons binding rest ih =>
      obtain ⟨hname, hbegins⟩ := h binding List.mem_cons_self
      have hreplace := replace_of_not_occurs binding.2.toList
        fun hoccurs => hbegins ((isInfix_text_iff hname).mp hoccurs)
      rw [Variables.expand, List.foldl_cons, String.toList_ofList, hreplace]
      exact ih fun b hb => h b (List.mem_cons_of_mem _ hb)

/-! ## The names of variables -/

theorem lowerAfter_of_ascii {text : List Char} (h : ∀ c ∈ text, c.toNat < 0x80)
    (before : List Char) : lowerAfter before text = text.flatMap lowerChar := by
  induction text generalizing before with
  | nil => rfl
  | cons c rest ih =>
      have hsigma : c ≠ 'Σ' := by
        rintro rfl
        exact absurd (h _ List.mem_cons_self) (by decide)
      rw [lowerAfter, if_neg hsigma, ih fun d hd => h d (List.mem_cons_of_mem _ hd),
        List.flatMap_cons]

theorem isIdentifier_append {name others : List Char} (h : isIdentifier name = true)
    (hothers : others.all isIdentifierRest = true) : isIdentifier (name ++ others) = true := by
  cases name with
  | nil => cases h
  | cons c rest =>
      obtain ⟨hc, hrest⟩ := Bool.and_eq_true_iff.mp h
      rw [List.cons_append, isIdentifier, List.all_append, hc, hrest, hothers]
      rfl

/-- The lower case of an identifier is one. -/
theorem isIdentifier_lower {name : List Char} (h : isIdentifier name = true) :
    isIdentifier (lower name) = true := by
  have hascii : ∀ c ∈ name, c.toNat < 0x80 :=
    fun c hc => toNat_of_isIdentifierRest (isIdentifierRest_of_mem h c hc)
  rw [lower, lowerAfter_of_ascii hascii]
  cases name with
  | nil => cases h
  | cons c rest =>
      have hc := (identifier_ofNat c.toNat (hascii c List.mem_cons_self)).1
      rw [Char.ofNat_toNat] at hc
      have hrest : (rest.flatMap lowerChar).all isIdentifierRest = true := by
        rw [List.all_flatMap, List.all_eq_true]
        intro d hd
        have hall := (identifier_ofNat d.toNat (hascii d (List.mem_cons_of_mem _ hd))).2
        rw [Char.ofNat_toNat] at hall
        exact hall (isIdentifierRest_of_mem h d (List.mem_cons_of_mem _ hd))
      exact isIdentifier_append (hc (Bool.and_eq_true_iff.mp h).1).2 hrest

theorem isIdentifier_key {text : List Char} {line : Line} (h : Line.read text = some line)
    (hkind : line.kind = .assignment) : isIdentifier line.key = true := by
  cases read_eq_some_iff.mp h with
  | assignment hfirst hopen hname => exact isIdentifier_lower hname
  | invocation => cases hkind

/-! ## Scripts and literals -/

/-- Whether every argument that is written as the literal is still that after substitution. -/
def KeepsLiteral (entries : List Entry) (literal : Literal) : Prop :=
  ∀ (i j : Nat) (written : Invocation), (entries.filterMap Invocation.ofEntry?)[i]? = some written →
    written.arguments[j]? = some (String.ofList literal.text) →
      (invocations entries)[i]?.bind (·.arguments[j]?) = some (String.ofList literal.text)

theorem argument_invocations {entries : List Entry} {i j : Nat} {written : Invocation}
    {argument : String} (hwritten : (entries.filterMap Invocation.ofEntry?)[i]? = some written)
    (hargument : written.arguments[j]? = some argument) :
    (invocations entries)[i]?.bind (·.arguments[j]?) =
      some ((Variables.ofEntries entries).expand argument) := by
  simp [invocations, hwritten, hargument]

/-- A script keeps a literal whose power of ten no assigned name begins. -/
theorem keepsLiteral_of_parse {text : String} {entries : List Entry} {literal : Literal}
    (hparse : parse text = .ok entries)
    (hnames : ∀ entry ∈ entries, entry.kind = .assignment →
      ¬ entry.key.toList <+: literal.exponent) : KeepsLiteral entries literal := by
  intro i j written hwritten hargument
  rw [argument_invocations hwritten hargument, expand_literal]
  intro binding hbinding
  obtain ⟨entry, hentry, hkind, hkey⟩ := exists_assignment hbinding
  rw [← hkey]
  refine ⟨?_, hnames entry hentry hkind⟩
  obtain ⟨raw, -, line, number, hread, rfl⟩ := exists_line_of_mem hparse hentry
  rw [Line.toEntry, String.toList_ofList]
  exact isIdentifier_key hread hkind

/-! ## A script that rewrites a literal -/

theorem toNat_of_isNumeric {c : Char} (h : isNumeric c = true) : c.toNat < 0x80 := by
  simp only [isNumeric, Bool.or_eq_true, beq_iff_eq] at h
  rcases h with ((hdigit | rfl) | rfl) | rfl
  · exact toNat_of_isIdentifierRest (by simp [isIdentifierRest, Char.isAlphanum, hdigit])
  · decide
  · decide
  · decide

theorem literal_ofNat :
    ∀ n < 0x80, isNumeric (Char.ofNat n) = true ∨ Char.ofNat n = 'e' →
      isBlank (Char.ofNat n) = false ∧ lowerChar (Char.ofNat n) = [Char.ofNat n] ∧
        Char.ofNat n ∉ ['=', '(', ')', ',', '\n'] := by
  decide +kernel

namespace Literal

variable (literal : Literal)

/-- A literal has no blanks and no marks of the grammar in it, and is in lower case. -/
theorem of_mem_text {c : Char} (hc : c ∈ literal.text) :
    c.toNat < 0x80 ∧ isBlank c = false ∧ lowerChar c = [c] ∧
      c ∉ ['=', '(', ')', ',', '\n'] := by
  have hpart := literal.isNumeric_or_eq c hc
  have hascii : c.toNat < 0x80 := by
    rcases hpart with hnumeric | rfl
    · exact toNat_of_isNumeric hnumeric
    · decide
  have hfacts := literal_ofNat c.toNat hascii
  rw [Char.ofNat_toNat] at hfacts
  exact ⟨hascii, hfacts hpart⟩

theorem not_mem_text {c : Char} (h : c ∈ ['=', '(', ')', ',', '\n']) : c ∉ literal.text :=
  fun hc => (literal.of_mem_text hc).2.2.2 h

theorem trim_text : trim literal.text = literal.text :=
  trim_eq_self fun _ hc => (literal.of_mem_text hc).2.1

theorem lower_text : lower literal.text = literal.text := by
  rw [lower, lowerAfter_of_ascii fun _ hc => (literal.of_mem_text hc).1]
  have hself := List.flatMap_congr fun c hc => (literal.of_mem_text hc).2.2.1
  rw [hself, List.flatMap_singleton']

theorem splitArguments_text : splitArguments literal.text = [literal.text] := by
  rw [splitArguments, if_neg (by rw [List.isEmpty_iff]; exact literal.text_ne_nil),
    List.splitOn_eq_singleton (literal.not_mem_text (by decide)), List.map_singleton,
    literal.trim_text]

end Literal

/-- A line that assigns zero to a name. -/
def zeroLine (name : List Char) : List Char :=
  name ++ '=' :: ['0']

/-- A line that prints a literal. -/
def printLine (literal : Literal) : List Char :=
  "print".toList ++ '(' :: (literal.text ++ ')' :: [])

theorem spells_zeroLine {name : List Char} (h : isIdentifier name = true) :
    Spells (zeroLine name) ⟨none, name, ['0'], .assignment⟩ := by
  have htrim := trim_eq_self (not_isBlank_of_isIdentifier h)
  have hline := @Spells.assignment name ['0']
    (fun hc => absurd (isIdentifierRest_of_mem h _ hc) (by decide))
    (fun hc => absurd (isIdentifierRest_of_mem h _ hc) (by decide)) (by rwa [htrim])
  rw [htrim] at hline
  exact hline

theorem spells_printLine (literal : Literal) :
    Spells (printLine literal) ⟨none, "print".toList, literal.text, .invocation⟩ := by
  have hbody : Unwraps (trim literal.text) literal.text := by
    rw [literal.trim_text]
    refine .neither ?_ ?_
    · intro hfirst
      exact literal.not_mem_text (by decide) (List.mem_of_head? hfirst)
    · intro hlast
      exact literal.not_mem_text (by decide) (List.mem_of_getLast? hlast)
  have hshape : ¬ HasAssignmentShape (printLine literal) := by
    rintro ⟨before, after, hline, -⟩
    have hmem : '=' ∈ printLine literal := by rw [hline]; simp
    simp only [printLine, List.mem_append, List.mem_cons, List.not_mem_nil, or_false] at hmem
    rcases hmem with hprint | hopen | htext | hclose
    · exact absurd hprint (by decide)
    · exact absurd hopen (by decide)
    · exact literal.not_mem_text (by decide) htext
    · exact absurd hclose (by decide)
  have hline := Spells.invocation hshape (by decide) List.not_mem_nil
    (fun _ hc => absurd hc List.not_mem_nil) (.plain (by decide)) hbody
  rwa [literal.trim_text] at hline

theorem not_isBlank_of_mem_zeroLine {name : List Char} (h : isIdentifier name = true) {c : Char}
    (hc : c ∈ zeroLine name) : isBlank c = false ∧ c ≠ '\n' := by
  rcases List.mem_append.mp hc with hname | hrest
  · refine ⟨not_isBlank_of_isIdentifier h c hname, ?_⟩
    rintro rfl
    exact absurd (isIdentifierRest_of_mem h _ hname) (by decide)
  · simp only [List.mem_cons, List.not_mem_nil, or_false] at hrest
    rcases hrest with rfl | rfl
    · decide
    · decide

theorem not_isBlank_of_mem_printLine {literal : Literal} {c : Char}
    (hc : c ∈ printLine literal) : isBlank c = false ∧ c ≠ '\n' := by
  simp only [printLine, List.mem_append, List.mem_cons, List.not_mem_nil, or_false] at hc
  rcases hc with hname | rfl | htext | rfl
  · have hname : c ∈ ['p', 'r', 'i', 'n', 't'] := hname
    simp only [List.mem_cons, List.not_mem_nil, or_false] at hname
    rcases hname with rfl | rfl | rfl | rfl | rfl <;> decide
  · decide
  · refine ⟨(literal.of_mem_text htext).2.1, ?_⟩
    rintro rfl
    exact literal.not_mem_text (by decide) htext
  · decide

theorem parse_zero_print {name : List Char} (h : isIdentifier name = true) (literal : Literal) :
    parse (String.ofList (zeroLine name ++ '\n' :: printLine literal)) =
      .ok [⟨String.ofList (lower name), "0", .assignment, 1⟩,
        ⟨"print", String.ofList literal.text, .invocation, 2⟩] := by
  have hlines : lines (String.ofList (zeroLine name ++ '\n' :: printLine literal)) =
      [zeroLine name, printLine literal] := by
    rw [lines, String.toList_ofList,
      List.splitOn_append_cons_self_of_not_mem fun hc => (not_isBlank_of_mem_zeroLine h hc).2 rfl,
      List.splitOn_eq_singleton fun hc => (not_isBlank_of_mem_printLine hc).2 rfl]
  have htrimZero := trim_eq_self fun c hc => (not_isBlank_of_mem_zeroLine h hc).1
  have htrimPrint := trim_eq_self fun c hc => (@not_isBlank_of_mem_printLine literal c hc).1
  rw [parse, ← lines, hlines, readLines_eq_ok_iff, numbered_cons (by rw [htrimZero]; simp [zeroLine]),
    numbered_cons (by rw [htrimPrint]; simp [printLine]), htrimZero, htrimPrint]
  refine .cons ⟨_, spells_zeroLine h, rfl, rfl, rfl, rfl⟩ (.cons ?_ .nil)
  refine ⟨_, spells_printLine literal, rfl, ?_, rfl, rfl⟩
  rw [literal.lower_text]

theorem ofEntry?_print (literal : Literal) (line : Nat) :
    Invocation.ofEntry? ⟨"print", String.ofList literal.text, .invocation, line⟩ =
      some ⟨.sequential, "print", [String.ofList literal.text], line⟩ := by
  rw [Invocation.ofEntry?]
  simp only [String.toList_ofList, literal.splitArguments_text]
  rfl

/-- Any name that begins the power of ten rewrites the literal. -/
theorem exists_not_keepsLiteral {name : List Char} {literal : Literal}
    (hname : isIdentifier name = true) (hbegins : lower name <+: literal.exponent) :
    ∃ text entries, parse text = .ok entries ∧
      (∀ entry ∈ entries, entry.kind = .assignment → entry.key = String.ofList (lower name)) ∧
      ¬ KeepsLiteral entries literal := by
  refine ⟨_, _, parse_zero_print hname literal, ?_, ?_⟩
  · intro entry hentry hkind
    rcases List.mem_cons.mp hentry with rfl | hentry
    · rfl
    · obtain rfl := List.mem_singleton.mp hentry
      cases hkind
  · intro hkeeps
    obtain ⟨after, hexponent⟩ := hbegins
    have hlower := isIdentifier_lower hname
    have hfirst : (List.filterMap Invocation.ofEntry?
        [⟨String.ofList (lower name), "0", .assignment, 1⟩,
          ⟨"print", String.ofList literal.text, .invocation, 2⟩])[0]? =
        some ⟨.sequential, "print", [String.ofList literal.text], 2⟩ := by
      rw [List.filterMap_cons_none rfl, List.filterMap_cons_some (ofEntry?_print literal 2)]
      rfl
    have hkept := (argument_invocations hfirst rfl).symm.trans (hkeeps 0 0 _ hfirst rfl)
    -- With zero in its place the name is gone, and it was no zero.
    have hexpand : Variables.expand [(String.ofList (lower name), "0")]
        (String.ofList literal.text) = String.ofList (literal.mantissa ++ (['0'] ++ after)) := by
      rw [← replace_literal hlower hexponent.symm]
      simp only [Variables.expand, List.foldl_cons, List.foldl_nil, String.toList_ofList]
      rfl
    have htext := String.ofList_injective (hexpand.symm.trans (Option.some.inj hkept))
    rw [Literal.text, ← hexponent, List.append_cancel_left_eq, List.append_cancel_right_eq] at htext
    rw [← htext] at hlower
    exact absurd hlower (by decide)

/-- Assignments reach a numeric literal through its power of ten and in no other
way. A script none of whose assigned names begins the power of a literal leaves
every argument that is written as the literal as it is; and for every name that
does begin it there is a script that assigns to no other name and rewrites it. -/
theorem literals_rewritten_at_exponent (literal : Literal) :
    (∀ text entries, parse text = .ok entries →
      (∀ entry ∈ entries, entry.kind = .assignment → ¬ entry.key.toList <+: literal.exponent) →
        KeepsLiteral entries literal) ∧
    ∀ name, isIdentifier name = true → lower name <+: literal.exponent →
      ∃ text entries, parse text = .ok entries ∧
        (∀ entry ∈ entries, entry.kind = .assignment → entry.key = String.ofList (lower name)) ∧
        ¬ KeepsLiteral entries literal :=
  ⟨fun _ _ => keepsLiteral_of_parse, fun _ => exists_not_keepsLiteral⟩

/-- A thousand in scientific notation. -/
def thousand : Literal where
  sign := none
  whole := ['1']
  fraction := none
  power := some ⟨none, ['3'], by simp [IsSign], by simp, by simp⟩
  isSign := by simp [IsSign]
  isDigit := by simp
  digits_ne_nil := by simp

/-- `1e3` is kept where only `speed` is assigned, and rewritten where `E` is. -/
theorem literals_rewritten_at_exponent_thousand :
    KeepsLiteral [⟨"speed", "5", .assignment, 1⟩, ⟨"wait", "1e3", .invocation, 2⟩] thousand ∧
      ∃ text entries, parse text = .ok entries ∧
        (∀ entry ∈ entries, entry.kind = .assignment → entry.key = "e") ∧
        ¬ KeepsLiteral entries thousand :=
  ⟨(literals_rewritten_at_exponent thousand).1 "speed = 5\nwait(1e3)" _ rfl (by decide),
    (literals_rewritten_at_exponent thousand).2 ['E'] (by decide) (by decide)⟩

end RobotRoutine.Script
