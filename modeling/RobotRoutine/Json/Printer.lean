import RobotRoutine.Json.Basic

/-!
# Writing JSON

Every item and every member stands on a line of its own, two blanks further in than what holds it.
In strings only the quote, the backslash and the control characters below the blank are escaped.
-/

namespace RobotRoutine.Json

/-- A hexadecimal escape with four digits. -/
def hexEscape (code : Nat) : List Char :=
  let digits := Nat.toDigits 16 code
  '\\' :: 'u' :: (List.replicate (4 - digits.length) '0' ++ digits)

/-- How a code point is written in a string. -/
def escape (code : Nat) : List Char :=
  if code = 0x22 then ['\\', '"']
  else if code = 0x5c then ['\\', '\\']
  else if code = 0x08 then ['\\', 'b']
  else if code = 0x0c then ['\\', 'f']
  else if code = 0x0a then ['\\', 'n']
  else if code = 0x0d then ['\\', 'r']
  else if code = 0x09 then ['\\', 't']
  else if code < 0x20 ∨ isHighSurrogate code ∨ isLowSurrogate code then hexEscape code
  else [Char.ofNat code]

/-- A string between its quotes. -/
def quote (codes : List Nat) : List Char :=
  '"' :: codes.flatMap escape ++ ['"']

/-- A new line at a depth of nesting. -/
def newLine (depth : Nat) : List Char :=
  '\n' :: List.replicate (2 * depth) ' '

mutual

/-- The lines of a value that stands at a depth of nesting. -/
def layOut (depth : Nat) : Json → List Char
  | .null => ['n', 'u', 'l', 'l']
  | .bool true => ['t', 'r', 'u', 'e']
  | .bool false => ['f', 'a', 'l', 's', 'e']
  | .number numeral => numeral.toChars numbers.exponentPlus
  | .string codes => quote codes
  | .array [] => ['[', ']']
  | .array (item :: rest) =>
    '[' :: newLine (depth + 1) ++ item.layOut (depth + 1) ++ layOutItems (depth + 1) rest
      ++ newLine depth ++ [']']
  | .object [] => ['\x7b', '\x7d']
  | .object ((key, value) :: rest) =>
    '\x7b' :: newLine (depth + 1) ++ quote key ++ [':', ' '] ++ value.layOut (depth + 1)
      ++ layOutMembers (depth + 1) rest ++ newLine depth ++ ['\x7d']

/-- The further items of an array. -/
def layOutItems (depth : Nat) : List Json → List Char
  | [] => []
  | item :: rest => ',' :: newLine depth ++ item.layOut depth ++ layOutItems depth rest

/-- The further members of an object. -/
def layOutMembers (depth : Nat) : List (List Nat × Json) → List Char
  | [] => []
  | (key, value) :: rest =>
    ',' :: newLine depth ++ quote key ++ [':', ' '] ++ value.layOut depth
      ++ layOutMembers depth rest

end

/-- A value on lines. -/
def pretty (value : Json) : String :=
  String.ofList (value.layOut 0)

end RobotRoutine.Json
