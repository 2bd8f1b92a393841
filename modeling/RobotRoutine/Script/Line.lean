import RobotRoutine.Script.Entry
import RobotRoutine.Text.Blank
import RobotRoutine.Text.Lowercase

/-!
# Reading a line

A line whose first `=` comes before any `(` assigns: an identifier, `=`, and the value. Any other
line invokes: a name, which may carry one placement mark, and a body between the line's first `(`
and its last `)`, after which nothing but blanks may follow. The body loses one `(` from its front
and one `)` from its end, so that `turn((90))` says the same as `turn(90)`.
-/

namespace RobotRoutine.Script

open RobotRoutine.Text

/-- Whether a character may start an identifier. -/
def isIdentifierStart (c : Char) : Bool :=
  c.isAlpha || c == '_'

/-- Whether a character may follow in an identifier. -/
def isIdentifierRest (c : Char) : Bool :=
  c.isAlphanum || c == '_'

/-- Whether a text is an identifier: an ASCII letter or `_`, then ASCII letters, digits and `_`. -/
def isIdentifier : List Char → Bool
  | [] => false
  | c :: rest => isIdentifierStart c && rest.all isIdentifierRest

/-- The marks that place a command beside the step before it. -/
def isMark (c : Char) : Bool :=
  c == '!' || c == '&'

/-- The text before the first `sep` and the text after it, if there is one. -/
def cutFirst (sep : Char) (text : List Char) : Option (List Char × List Char) :=
  match text.dropWhile (· != sep) with
  | [] => none
  | _ :: after => some (text.takeWhile (· != sep), after)

/-- The text before the last `sep` and the text after it, if there is one. -/
def cutLast (sep : Char) (text : List Char) : Option (List Char × List Char) :=
  (cutFirst sep text.reverse).map fun (after, before) => (before.reverse, after.reverse)

/-- Whether a line assigns: it has a `=`, and no `(` before it. -/
def isAssignment (line : List Char) : Bool :=
  match cutFirst '=' line with
  | none => false
  | some (before, _) => !before.contains '('

/-- The text without one `(` in front of it. -/
def dropOpen : List Char → List Char
  | '(' :: rest => rest
  | text => text

/-- The text without one `)` at its end. -/
def dropClose (text : List Char) : List Char :=
  match text.reverse with
  | ')' :: rest => rest.reverse
  | _ => text

/-- The argument body as an entry keeps it: trimmed, without one `(` and one `)` at its ends. -/
def stripBody (body : List Char) : List Char :=
  trim (dropClose (dropOpen (trim body)))

/-- The parts of a line, as written. -/
structure Line where
  /-- The placement mark, on an invocation that has one. -/
  mark : Option Char
  name : List Char
  value : List Char
  kind : EntryKind
deriving DecidableEq, Repr

namespace Line

/-- Splits the head of an invocation into its mark and its name. -/
def readHead (head : List Char) : Option Char × List Char :=
  match trim head with
  | c :: rest => if isMark c then (some c, trim rest) else (none, c :: rest)
  | [] => (none, [])

/-- Reads a trimmed line as an assignment. -/
def readAssignment (text : List Char) : Option Line := do
  let (before, after) ← cutFirst '=' text
  let name := trim before
  if isIdentifier name then
    some { mark := none, name, value := trim after, kind := .assignment }
  else
    none

/-- Reads a trimmed line as an invocation. -/
def readInvocation (text : List Char) : Option Line := do
  let (head, after) ← cutFirst '(' text
  let (body, trailing) ← cutLast ')' after
  let (mark, name) := readHead head
  if isAllBlank trailing && isIdentifier name then
    some { mark, name, value := stripBody body, kind := .invocation }
  else
    none

/-- Reads a trimmed line; nothing if it has neither form. -/
def read (text : List Char) : Option Line :=
  if isAssignment text then readAssignment text else readInvocation text

/-- The key of the line's entry: the name in lower case, behind its mark. -/
def key (line : Line) : List Char :=
  line.mark.toList ++ lower line.name

/-- The entry that a line stands for. -/
def toEntry (line : Line) (number : Nat) : Entry where
  key := String.ofList line.key
  value := String.ofList (lower line.value)
  kind := line.kind
  line := number

end Line

end RobotRoutine.Script
