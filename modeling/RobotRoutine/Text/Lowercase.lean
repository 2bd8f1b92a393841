import RobotRoutine.Text.Cased
import RobotRoutine.Text.CaseIgnorable
import RobotRoutine.Text.LowercaseMap

/-!
# Lower case

The full lower-case mapping of Unicode. Only two characters need more than the map from code point
to code point: `İ` becomes an `i` with a combining dot above, and `Σ` becomes `ς` at the end of a
word and `σ` elsewhere. A word ends at `Σ` when a cased letter comes before it and none after it,
where characters that words may contain without being letters are looked past.
-/

namespace RobotRoutine.Text

/-- The lower case of one character, outside any word. -/
def lowerChar (c : Char) : List Char :=
  let n := c.toNat
  if n < 0x80 then
    [if 0x41 ≤ n ∧ n ≤ 0x5a then Char.ofNat (n + 0x20) else c]
  else if n = 0x130 then
    ['i', Char.ofNat 0x307]
  else
    [Char.ofNat (lowercaseCode n)]

/-- Whether the nearest character that a word does not merely contain is a letter. -/
def meetsLetter (text : List Char) : Bool :=
  ((text.dropWhile caseIgnorable.mem).head?.map cased.mem).getD false

/-- The lower case of what follows the text `before`, which is given from its end. -/
def lowerAfter (before : List Char) : List Char → List Char
  | [] => []
  | c :: rest =>
    if c = 'Σ' then
      (if meetsLetter before && !meetsLetter rest then 'ς' else 'σ') :: lowerAfter (c :: before) rest
    else
      lowerChar c ++ lowerAfter (c :: before) rest

/-- The lower case of a text. -/
def lower (text : List Char) : List Char :=
  lowerAfter [] text

/-- The lower case of a string. -/
def lowercase (s : String) : String :=
  String.ofList (lower s.toList)

end RobotRoutine.Text
