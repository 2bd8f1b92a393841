/-!
# Blanks and trimming

A blank is a character with the Unicode property `White_Space`; there are twenty-five of them.
Trimming takes blanks off the two ends of a text and leaves its inside alone.
-/

namespace RobotRoutine.Text

/-- Whether a character is one of the twenty-five blanks of Unicode. -/
def isBlank (c : Char) : Bool :=
  let n := c.toNat
  (9 ≤ n && n ≤ 13) || n == 0x20 || n == 0x85 || n == 0xa0 || n == 0x1680
    || (0x2000 ≤ n && n ≤ 0x200a) || n == 0x2028 || n == 0x2029 || n == 0x202f || n == 0x205f
    || n == 0x3000

/-- The text without the blanks it starts with. -/
def trimLeft (text : List Char) : List Char :=
  text.dropWhile isBlank

/-- The text without the blanks it ends with. -/
def trimRight (text : List Char) : List Char :=
  (trimLeft text.reverse).reverse

/-- The text without the blanks at its two ends. -/
def trim (text : List Char) : List Char :=
  trimRight (trimLeft text)

/-- Whether a text holds nothing but blanks. -/
def isAllBlank (text : List Char) : Bool :=
  text.all isBlank

end RobotRoutine.Text
