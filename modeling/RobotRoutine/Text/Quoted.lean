import RobotRoutine.Text.CombiningMark
import RobotRoutine.Text.Unprintable

/-!
# Quoted text

A text between double quotes, with escapes for the characters that would not show as themselves: the
backslash and the quote, the line and tab controls, characters that combine with the one before
them, and characters without a visible form.
-/

namespace RobotRoutine.Text

/-- A code point as an escape with its hexadecimal digits. -/
def escapeCode (code : Nat) : List Char :=
  ['\\', 'u', '{'] ++ Nat.toDigits 16 code ++ ['}']

/-- How a character is written between double quotes. -/
def quoteChar (c : Char) : List Char :=
  if c = '\x00' then ['\\', '0']
  else if c = '\t' then ['\\', 't']
  else if c = '\r' then ['\\', 'r']
  else if c = '\n' then ['\\', 'n']
  else if c = '\\' ∨ c = '"' then ['\\', c]
  else if c.toNat < 0x7f ∧ 0x20 ≤ c.toNat then [c]
  else if combiningMark.mem c ∨ unprintable.mem c then escapeCode c.toNat
  else [c]

/-- A string between double quotes. -/
def quoted (s : String) : String :=
  String.ofList ('"' :: s.toList.flatMap quoteChar ++ ['"'])

end RobotRoutine.Text
