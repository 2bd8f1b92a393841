import RobotRoutine.Decimal.Reading
import RobotRoutine.Json.Basic

/-!
# JSON tokens

A JSON text is cut into tokens: marks, words, numbers and strings. Blanks between tokens do not
matter, and neither does it that two tokens may touch: wherever numbers or words touch, the sequence
of tokens is no value in any case.
-/

namespace RobotRoutine.Json

/-- A token of a JSON text. -/
inductive Token where
  | arrayStart
  | arrayEnd
  | objectStart
  | objectEnd
  | colon
  | comma
  | null
  | bool (value : Bool)
  | number (numeral : Decimal.Numeral)
  | string (codes : List Nat)
deriving DecidableEq, Repr

/-! ## Numbers -/

/-- The digits after the point, if there is a point, and what follows them. -/
def fraction? : List Char → Option (List Char × List Char)
  | '.' :: rest =>
    let digits := rest.takeWhile Char.isDigit
    if digits.isEmpty then none else some (digits, rest.dropWhile Char.isDigit)
  | text => some ([], text)

/-- The power of ten that ends a number, if there is one. -/
def exponent? : List Char → Option (Option Int)
  | [] => some none
  | c :: rest => if c = 'e' ∨ c = 'E' then (Decimal.readSigned rest).map some else none

/-- A number without a sign. No digit comes before a zero that stands in front of the point. -/
def magnitude? (negative : Bool) (text : List Char) : Option Decimal.Numeral := do
  let whole := text.takeWhile Char.isDigit
  if whole.isEmpty ∨ (whole.head? = some '0' ∧ whole.length ≠ 1) then
    none
  else
    let (fraction, rest) ← fraction? (text.dropWhile Char.isDigit)
    let exponent ← exponent? rest
    some { negative, whole, fraction, exponent }

/-- A number. -/
def numeral? : List Char → Option Decimal.Numeral
  | '-' :: rest => magnitude? true rest
  | text => magnitude? false text

/-! ## Strings -/

/-- The value of a hexadecimal digit. -/
def hexDigit? (c : Char) : Option Nat :=
  if c.isDigit then some (c.toNat - '0'.toNat)
  else if 'a' ≤ c ∧ c ≤ 'f' then some (c.toNat - 'a'.toNat + 10)
  else if 'A' ≤ c ∧ c ≤ 'F' then some (c.toNat - 'A'.toNat + 10)
  else none

/-- The code point that four hexadecimal digits name. -/
def escapedCode? (a b c d : Char) : Option Nat := do
  return (((← hexDigit? a) * 16 + (← hexDigit? b)) * 16 + (← hexDigit? c)) * 16 + (← hexDigit? d)

/-- The code point that a letter or mark behind a backslash stands for. -/
def escapedMark? : Char → Option Nat
  | '"' => some 0x22
  | '\\' => some 0x5c
  | '/' => some 0x2f
  | 'b' => some 0x08
  | 'f' => some 0x0c
  | 'n' => some 0x0a
  | 'r' => some 0x0d
  | 't' => some 0x09
  | _ => none

/-- The code points of a string up to its closing quote, and what follows the quote. -/
def literal? : List Char → Option (List Nat × List Char)
  | [] => none
  | '"' :: rest => some ([], rest)
  | '\\' :: 'u' :: a :: b :: c :: d :: rest => do
    let code ← escapedCode? a b c d
    let (codes, rest) ← literal? rest
    return (code :: codes, rest)
  | '\\' :: c :: rest => do
    let code ← escapedMark? c
    let (codes, rest) ← literal? rest
    return (code :: codes, rest)
  | c :: rest => do
    if c.toNat < 0x20 then
      none
    else
      let (codes, rest) ← literal? rest
      return (c.toNat :: codes, rest)

/-- What follows a string is shorter than the string and what follows it. -/
theorem length_lt_of_literal?_eq_some {text : List Char} {codes : List Nat} {rest : List Char}
    (h : literal? text = some (codes, rest)) : rest.length < text.length := by
  fun_induction literal? text generalizing codes rest with
  | case1 => simp at h
  | case2 rest' =>
    simp only [Option.some.injEq, Prod.mk.injEq] at h
    simp [← h.2]
  | case3 a b c d rest' ih =>
    simp only [Option.bind_eq_bind, Option.bind_eq_some_iff, Option.pure_def, Option.some.injEq,
      Prod.mk.injEq] at h
    obtain ⟨_, _, ⟨codes', _⟩, hrest, _, rfl⟩ := h
    have := ih hrest
    simp only [List.length_cons]
    omega
  | case4 c rest' _ ih =>
    simp only [Option.bind_eq_bind, Option.bind_eq_some_iff, Option.pure_def, Option.some.injEq,
      Prod.mk.injEq] at h
    obtain ⟨_, _, ⟨codes', _⟩, hrest, _, rfl⟩ := h
    have := ih hrest
    simp only [List.length_cons]
    omega
  | case5 => simp at h
  | case6 c rest' _ _ _ _ ih =>
    simp only [Option.bind_eq_bind, Option.bind_eq_some_iff, Option.pure_def, Option.some.injEq,
      Prod.mk.injEq] at h
    obtain ⟨⟨codes', _⟩, hrest, _, rfl⟩ := h
    have := ih hrest
    simp only [List.length_cons]
    omega

/-! ## Texts -/

/-- Whether a character may stand between tokens. -/
def isSpace (c : Char) : Bool :=
  c = ' ' || c = '\t' || c = '\n' || c = '\r'

/-- Whether a character can be part of a number. -/
def isNumberPart (c : Char) : Bool :=
  c.isDigit || c = '-' || c = '+' || c = '.' || c = 'e' || c = 'E'

/-- The token that is a single mark. -/
def mark? : Char → Option Token
  | '[' => some .arrayStart
  | ']' => some .arrayEnd
  | '\x7b' => some .objectStart
  | '\x7d' => some .objectEnd
  | ':' => some .colon
  | ',' => some .comma
  | _ => none

/-- The token that is a word. -/
def word? (text : List Char) : Option Token :=
  match String.ofList text with
  | "null" => some .null
  | "true" => some (.bool true)
  | "false" => some (.bool false)
  | _ => none

/-- The tokens of a text. -/
def tokens? : List Char → Option (List Token)
  | [] => some []
  | c :: rest =>
    if isSpace c then
      tokens? rest
    else if c = '"' then
      match h : literal? rest with
      | none => none
      | some (codes, after) =>
        have := length_lt_of_literal?_eq_some h
        (tokens? after).map (.string codes :: ·)
    else if c = '-' ∨ c.isDigit then
      match numeral? (c :: rest.takeWhile isNumberPart) with
      | none => none
      | some numeral => (tokens? (rest.dropWhile isNumberPart)).map (.number numeral :: ·)
    else if c.isAlpha then
      match word? (c :: rest.takeWhile Char.isAlpha) with
      | none => none
      | some token => (tokens? (rest.dropWhile Char.isAlpha)).map (token :: ·)
    else
      match mark? c with
      | none => none
      | some token => (tokens? rest).map (token :: ·)
termination_by text => text.length
decreasing_by
  all_goals simp only [List.length_cons]
  · omega
  · omega
  · exact Nat.lt_succ_of_le (List.dropWhile_suffix _).length_le
  · exact Nat.lt_succ_of_le (List.dropWhile_suffix _).length_le
  · omega

end RobotRoutine.Json
