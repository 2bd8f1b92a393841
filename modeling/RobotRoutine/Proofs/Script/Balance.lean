import RobotRoutine.Proofs.Script.Grammar
import RobotRoutine.Proofs.Text.Casing

/-!
# What stripping a body does to its parentheses

The body of an invocation loses one `(` from its front and one `)` from its end,
and the two are looked for apart. They belong together in `turn((90))`. In
`print(a(b))` there is only the one at the end, which closes a parenthesis
inside, and in `print((a)(b))` there are both, but not of one pair.

`balance_kept_iff` says for which bodies this does no harm. Those without a
parenthesis at either end are left alone, those that one pair encloses lose the
pair, and the parentheses of any other balanced body do not match any more.
Trimming and lower-casing have no part in this: neither a blank nor the lower
case of a character is a parenthesis unless the character is that parenthesis.
-/

namespace RobotRoutine.Script

open RobotRoutine.Text

/-! ## Parentheses that match -/

/-- Whether a character opens or closes. -/
def IsParenthesis (c : Char) : Prop :=
  c = '(' ∨ c = ')'

instance (c : Char) : Decidable (IsParenthesis c) :=
  inferInstanceAs (Decidable (_ ∨ _))

/-- How many parentheses are open behind one more character; nothing if it closes one
and none is open. -/
def nest (depth : Nat) (c : Char) : Option Nat :=
  if c = '(' then some (depth + 1)
  else if c = ')' then (if depth = 0 then none else some (depth - 1))
  else some depth

/-- How many parentheses are open behind a text in front of which `depth` are open. -/
def depthAfter (depth : Nat) (text : List Char) : Option Nat :=
  text.foldlM nest depth

/-- Whether the parentheses of a text match: none is closed before it is opened, and all
are closed in the end. -/
def IsBalanced (text : List Char) : Prop :=
  depthAfter 0 text = some 0

instance (text : List Char) : Decidable (IsBalanced text) :=
  inferInstanceAs (Decidable (_ = _))

/-- Whether a body is `inner` in a pair of parentheses that belong together. -/
def Encloses (body inner : List Char) : Prop :=
  body = '(' :: (inner ++ [')']) ∧ IsBalanced inner

/-- Whether a body has no parenthesis at its ends that could be stripped. -/
def IsBare (body : List Char) : Prop :=
  body.head? ≠ some '(' ∧ body.getLast? ≠ some ')'

variable {depth depth' : Nat} {text : List Char}

theorem depthAfter_cons (depth : Nat) (c : Char) (text : List Char) :
    depthAfter depth (c :: text) = (nest depth c).bind (depthAfter · text) :=
  List.foldlM_cons

theorem depthAfter_append (depth : Nat) (first second : List Char) :
    depthAfter depth (first ++ second) = (depthAfter depth first).bind (depthAfter · second) :=
  List.foldlM_append

theorem depthAfter_of_not_isParenthesis (h : ∀ c ∈ text, ¬ IsParenthesis c) (depth : Nat) :
    depthAfter depth text = some depth := by
  induction text with
  | nil => rfl
  | cons c rest ih =>
      obtain ⟨hopen, hclose⟩ := not_or.mp (h c List.mem_cons_self)
      rw [depthAfter_cons, nest, if_neg hopen, if_neg hclose, Option.bind_some,
        ih fun d hd => h d (List.mem_cons_of_mem _ hd)]

theorem nest_add_one {c : Char} (h : nest depth c = some depth') :
    nest (depth + 1) c = some (depth' + 1) := by
  rw [nest] at h ⊢
  split at h
  · rw [if_pos ‹_›, ← Option.some.inj h]
  · rw [if_neg ‹_›]
    split at h
    · split at h
      · cases h
      · rw [if_pos ‹_›, if_neg (Nat.succ_ne_zero depth), ← Option.some.inj h]
        exact congrArg some (by omega)
    · rw [if_neg ‹_›, Option.some.inj h]

/-- One more open parenthesis in front of a text is one more behind it. -/
theorem depthAfter_add_one (h : depthAfter depth text = some depth') :
    depthAfter (depth + 1) text = some (depth' + 1) := by
  induction text generalizing depth with
  | nil => rw [← Option.some.inj h]; rfl
  | cons c rest ih =>
      rw [depthAfter_cons] at h
      obtain ⟨next, hnext, hrest⟩ := Option.bind_eq_some_iff.mp h
      rw [depthAfter_cons, nest_add_one hnext, Option.bind_some, ih hrest]

/-! ## Blanks and case -/

theorem not_isParenthesis_of_isBlank {c : Char} (h : isBlank c = true) : ¬ IsParenthesis c := by
  rintro (rfl | rfl) <;> exact absurd h (by decide)

theorem isBalanced_trim (text : List Char) : IsBalanced (trim text) ↔ IsBalanced text := by
  obtain ⟨left, right, htext, hleft, hright⟩ := exists_trim text
  have hdepth : depthAfter 0 text = depthAfter 0 (trim text) := by
    rw [htext, depthAfter_append,
      depthAfter_of_not_isParenthesis fun c hc => not_isParenthesis_of_isBlank (hleft c hc),
      Option.bind_some, depthAfter_append, ← htext]
    cases depthAfter 0 (trim text) with
    | none => rfl
    | some depth =>
        exact depthAfter_of_not_isParenthesis
          (fun c hc => not_isParenthesis_of_isBlank (hright c hc)) depth
  rw [IsBalanced, IsBalanced, hdepth]

/-- The lower-case map leads to nothing below the letters. -/
theorem lt_shift_of_mem_lowercaseRuns {run : CaseRun} (h : run ∈ lowercaseRuns) :
    0x40 < run.first + run.shift := by
  have hall : (lowercaseRuns.all fun run => 0x40 < run.first + run.shift) = true := by
    decide +kernel
  exact of_decide_eq_true (List.all_eq_true.mp hall run h)

theorem lt_lowercaseCode {code : Nat} (h : 0x40 < code) : 0x40 < lowercaseCode code := by
  rw [lowercaseCode]
  cases himage : lowercaseRuns.findSome? (·.image? code) with
  | none => exact h
  | some image =>
      obtain ⟨run, hrun, hcode⟩ := List.exists_of_findSome?_eq_some himage
      have hshift := lt_shift_of_mem_lowercaseRuns hrun
      rw [CaseRun.image?] at hcode
      split at hcode
      · rw [← Option.some.inj hcode, Option.getD_some]
        omega
      · cases hcode

theorem not_isParenthesis_ofNat {code : Nat} (h : 0x40 < code) :
    ¬ IsParenthesis (Char.ofNat code) := by
  -- A code that belongs to no character stands for the zero character.
  have hcode : (Char.ofNat code).toNat = code ∨ (Char.ofNat code).toNat = 0 := by
    by_cases hvalid : code.isValidChar
    · exact Or.inl (by rw [Char.ofNat, dif_pos hvalid]; rfl)
    · exact Or.inr (by rw [Char.ofNat, dif_neg hvalid]; rfl)
  have hopen : '('.toNat = 0x28 ∧ ')'.toNat = 0x29 := by decide
  rintro (hc | hc) <;> rw [hc] at hcode <;> omega

/-- No other character becomes a parenthesis in lower case. -/
theorem not_isParenthesis_of_mem_lowerChar {c d : Char} (h : ¬ IsParenthesis c)
    (hd : d ∈ lowerChar c) : ¬ IsParenthesis d := by
  rw [lowerChar] at hd
  split at hd
  · obtain rfl := List.mem_singleton.mp hd
    split
    · exact not_isParenthesis_ofNat (by omega)
    · exact h
  · split at hd
    · simp only [List.mem_cons, List.not_mem_nil, or_false] at hd
      rcases hd with rfl | rfl <;> decide
    · obtain rfl := List.mem_singleton.mp hd
      exact not_isParenthesis_ofNat (lt_lowercaseCode (by omega))

theorem depthAfter_lowerChar (depth : Nat) (c : Char) :
    depthAfter depth (lowerChar c) = nest depth c := by
  by_cases h : IsParenthesis c
  · have hself : lowerChar c = [c] := by rcases h with rfl | rfl <;> decide
    rw [hself, depthAfter_cons]
    cases nest depth c <;> rfl
  · obtain ⟨hopen, hclose⟩ := not_or.mp h
    rw [depthAfter_of_not_isParenthesis fun d hd => not_isParenthesis_of_mem_lowerChar h hd, nest,
      if_neg hopen, if_neg hclose]

theorem depthAfter_lowerAfter (before text : List Char) (depth : Nat) :
    depthAfter depth (lowerAfter before text) = depthAfter depth text := by
  induction text generalizing before depth with
  | nil => rfl
  | cons c rest ih =>
      rw [lowerAfter, depthAfter_cons]
      split
      · next hsigma =>
          have hnest : nest depth c = some depth := by rw [hsigma]; rfl
          rw [depthAfter_cons, hnest]
          split <;> exact ih (c :: before) depth
      · rw [depthAfter_append, depthAfter_lowerChar]
        exact congrArg _ (funext fun next => ih (c :: before) next)

theorem isBalanced_lower (text : List Char) : IsBalanced (lower text) ↔ IsBalanced text := by
  rw [IsBalanced, lower, depthAfter_lowerAfter, IsBalanced]

/-! ## Stripping -/

/-- Of a body in which parentheses match only those keep this property that have none to strip,
or a pair. -/
theorem isBalanced_iff_of_unwraps {body inner : List Char} (h : Unwraps body inner)
    (hbody : IsBalanced body) :
    IsBalanced inner ↔ IsBare body ∨ ∃ inside, Encloses body inside := by
  cases h with
  | both =>
      constructor
      · exact fun hinner => Or.inr ⟨inner, rfl, hinner⟩
      · rintro (⟨hfirst, -⟩ | ⟨inside, hbody, hinside⟩)
        · exact absurd rfl hfirst
        · rw [List.cons.injEq, List.append_cancel_right_eq] at hbody
          rwa [hbody.2]
  | front hlast =>
      -- The `(` is closed somewhere inside, where nothing is open without it.
      have hdepth : depthAfter 1 inner = some 0 := hbody
      constructor
      · intro hinner
        have hmore := depthAfter_add_one hinner
        rw [Nat.zero_add, hdepth] at hmore
        cases hmore
      · rintro (⟨hfirst, -⟩ | ⟨inside, heq, -⟩)
        · exact absurd rfl hfirst
        · rw [List.cons.injEq] at heq
          rw [heq.2, List.getLast?_concat] at hlast
          exact absurd rfl hlast
  | back hfirst =>
      constructor
      · intro hinner
        rw [IsBalanced, depthAfter_append, hinner] at hbody
        cases hbody
      · rintro (⟨-, hlast⟩ | ⟨inside, heq, -⟩)
        · exact absurd List.getLast?_concat hlast
        · cases inner with
          | nil => cases heq
          | cons c rest =>
              rw [List.cons_append, List.cons.injEq] at heq
              exact absurd (congrArg some heq.1) hfirst
  | neither hfirst hlast => exact iff_of_true hbody (Or.inl ⟨hfirst, hlast⟩)

/-- What stripping leaves of a bare body, and of an enclosed one. -/
theorem eq_of_unwraps {body inner : List Char} (h : Unwraps body inner) :
    (IsBare body → inner = body) ∧ ∀ inside, Encloses body inside → inner = inside := by
  rw [unwraps_iff] at h
  subst h
  constructor
  · rintro ⟨hfirst, hlast⟩
    rw [dropOpen_of_head?_ne hfirst, dropClose_of_getLast?_ne hlast]
  · rintro inside ⟨rfl, -⟩
    rw [dropOpen, dropClose_append]

/-! ## Scripts -/

/-- What an entry has as its value for an argument body in which parentheses match. -/
structure Keeps (body value : List Char) : Prop where
  /-- They match in the value if there is none to strip, or a pair. -/
  balanced_iff : IsBalanced value ↔ IsBare (trim body) ∨ ∃ inner, Encloses (trim body) inner
  of_bare : IsBare (trim body) → value = lower (trim body)
  of_pair : ∀ inner, Encloses (trim body) inner → value = lower (trim inner)

/-- Whether the entry of an invocation keeps the body of its line, which is what stands between
the first `(` and the last `)`, if parentheses match there. -/
def KeepsBody (row : Nat × List Char) (entry : Entry) : Prop :=
  entry.kind = .invocation →
    ∃ head body trailing, row.2 = head ++ '(' :: (body ++ ')' :: trailing) ∧
      '(' ∉ head ∧ ')' ∉ trailing ∧ (IsBalanced body → Keeps body entry.value.toList)

theorem keepsBody_of_isEntryOf {row : Nat × List Char} {entry : Entry}
    (h : IsEntryOf row entry) : KeepsBody row entry := by
  obtain ⟨number, text⟩ := row
  obtain ⟨line, hline, -, hvalue, hkind, -⟩ := h
  intro hinvokes
  simp only at hline
  cases hline with
  | assignment => rw [hkind] at hinvokes; cases hinvokes
  | @invocation head body trailing name inner mark hshape hopen hclose hblank hhead hbody =>
      refine ⟨head, body, trailing, rfl, hopen, hclose, fun hbalanced => ?_⟩
      obtain ⟨hbare, hpair⟩ := eq_of_unwraps hbody
      rw [hvalue, String.toList_ofList]
      constructor
      · rw [isBalanced_lower, isBalanced_trim]
        exact isBalanced_iff_of_unwraps hbody ((isBalanced_trim body).mpr hbalanced)
      · intro h
        rw [hbare h, trim_trim]
      · intro inside h
        rw [hpair inside h]

/-- In every script that is read, parentheses that match in an argument body also match in the
value of its entry if the body has none at its ends that would be stripped, or if one pair
encloses it, and do not match otherwise. In the first case the value is the body and in the
second what the pair encloses, trimmed and in lower case. -/
theorem balance_kept_iff {text : String} {entries : List Entry}
    (h : parse text = .ok entries) : List.Forall₂ KeepsBody (numbered 1 (lines text)) entries :=
  (readLines_eq_ok_iff.mp h).imp fun _ _ => keepsBody_of_isEntryOf

/-- A call as an argument and two arguments in parentheses lose a parenthesis that belongs to
them; an extra pair is stripped as it should be. -/
theorem balance_kept_iff_three_bodies :
    let text := "print(a(b))\nprint((a)(b))\nturn((90))"
    let entries : List Entry := [⟨"print", "a(b", .invocation, 1⟩,
      ⟨"print", "a)(b", .invocation, 2⟩, ⟨"turn", "90", .invocation, 3⟩]
    parse text = .ok entries ∧ List.Forall₂ KeepsBody (numbered 1 (lines text)) entries ∧
      (∀ body ∈ ["a(b)", "(a)(b)", "(90)"], IsBalanced body.toList) ∧
      entries.map (fun entry => decide (IsBalanced entry.value.toList)) = [false, false, true] := by
  intro text entries
  have hfacts : parse text = .ok entries ∧
      (["a(b)", "(a)(b)", "(90)"].all fun body => decide (IsBalanced body.toList)) = true ∧
      entries.map (fun entry => decide (IsBalanced entry.value.toList)) = [false, false, true] := by
    decide +kernel
  obtain ⟨hparse, hbodies, hvalues⟩ := hfacts
  have hbodies : ∀ body ∈ ["a(b)", "(a)(b)", "(90)"], IsBalanced body.toList :=
    fun body hbody => of_decide_eq_true (List.all_eq_true.mp hbodies body hbody)
  exact ⟨hparse, balance_kept_iff hparse, hbodies, hvalues⟩

end RobotRoutine.Script
