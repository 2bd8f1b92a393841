import RobotRoutine.Decimal.Layout

/-!
# JSON values

A value as a JSON text spells it. Numbers are kept as they are written, because what a number stands
for depends on who reads it. A string is a list of code points, in which an escape may have left
half of a surrogate pair without its other half; such a string is well formed but is no text.
-/

namespace RobotRoutine

/-- A JSON value. -/
inductive Json where
  | null
  | bool (value : Bool)
  | number (numeral : Decimal.Numeral)
  | string (codes : List Nat)
  | array (items : List Json)
  /-- The members in the order in which they are written; a key may occur more than once. -/
  | object (members : List (List Nat × Json))

namespace Json

/-- Whether a code point is the first half of a surrogate pair. -/
def isHighSurrogate (code : Nat) : Bool :=
  0xd800 ≤ code && code < 0xdc00

/-- Whether a code point is the second half of a surrogate pair. -/
def isLowSurrogate (code : Nat) : Bool :=
  0xdc00 ≤ code && code < 0xe000

/-- The character that two halves of a surrogate pair stand for. -/
def ofSurrogates (high low : Nat) : Char :=
  Char.ofNat (0x10000 + (high - 0xd800) * 0x400 + (low - 0xdc00))

/-- The characters of a string; none if half of a surrogate pair stands alone. -/
def characters? : List Nat → Option (List Char)
  | [] => some []
  | [code] =>
    if isHighSurrogate code || isLowSurrogate code then none else some [Char.ofNat code]
  | code :: next :: rest =>
    if isHighSurrogate code then
      if isLowSurrogate next then (characters? rest).map (ofSurrogates code next :: ·) else none
    else if isLowSurrogate code then none
    else (characters? (next :: rest)).map (Char.ofNat code :: ·)

/-- The text that a list of code points stands for. -/
def textOf? (codes : List Nat) : Option String :=
  (characters? codes).map String.ofList

/-- The code points of a text. -/
def codesOf (text : String) : List Nat :=
  text.toList.map Char.toNat

/-- No character is half of a surrogate pair. -/
theorem not_isSurrogate_toNat (c : Char) :
    isHighSurrogate c.toNat = false ∧ isLowSurrogate c.toNat = false := by
  have h := c.valid
  simp only [UInt32.isValidChar, Nat.isValidChar] at h
  have e : c.toNat = c.val.toNat := rfl
  simp only [isHighSurrogate, isLowSurrogate, e]
  constructor <;> simp <;> omega

theorem characters?_map_toNat (cs : List Char) : characters? (cs.map Char.toNat) = some cs := by
  induction cs with
  | nil => rfl
  | cons c rest ih =>
    obtain ⟨high, low⟩ := not_isSurrogate_toNat c
    cases rest with
    | nil => simp [characters?, high, low]
    | cons d rest =>
      simp only [List.map_cons] at ih ⊢
      simp [characters?, high, low, ih]

/-- A text comes back from its code points. -/
theorem textOf?_codesOf (text : String) : textOf? (codesOf text) = some text := by
  simp [textOf?, codesOf, characters?_map_toNat]

/-- A text as a JSON value. -/
def ofText (text : String) : Json :=
  .string (codesOf text)

/-- A whole number as a JSON value. -/
def ofNat (n : Nat) : Json :=
  .number { negative := false, whole := Nat.toDigits 10 n, fraction := [], exponent := none }

/-- Numbers in JSON: always with a fraction or a power of ten, which is split off from `1e16` up and
below `1e-5`. -/
def numbers : Decimal.Notation where
  tie := .toEven
  isPlain := fun lead => -5 ≤ lead ∧ lead < 16
  pointZero := true
  exponentPlus := true

/-- A double as a JSON value. JSON has no numbers for infinity and the like; they are written as
`null`. -/
def ofFloat (x : Float) : Json :=
  match Decimal.Binary.ofFloat x with
  | .finite negative significand exponent =>
    .number (numbers.numeral negative significand exponent)
  | _ => .null

/-- A JSON value with a key. -/
def member (key : String) (value : Json) : List Nat × Json :=
  (codesOf key, value)

/-- The text that a value is, if it is one. -/
def text? : Json → Option String
  | .string codes => textOf? codes
  | _ => none

end Json

end RobotRoutine
