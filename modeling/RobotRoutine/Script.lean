import RobotRoutine.Script.Line
import RobotRoutine.Script.Invocation
import RobotRoutine.Script.Variables

/-!
# Scripts

A script's text is cut into lines at line feeds alone. Lines that are blank are skipped but counted,
and reading stops at the first line of neither form. The invocations of a script carry their
arguments with every variable replaced, whatever lines the variables were assigned on.
-/

namespace RobotRoutine.Script

open RobotRoutine.Text

/-- A line that neither assigns nor invokes. -/
structure MalformedLine where
  /-- The line's number, from one. -/
  number : Nat
  /-- The line, trimmed. -/
  text : String
deriving DecidableEq, Repr

/-- The entries of lines that are numbered from `number` on. -/
def readLines (number : Nat) : List (List Char) → Except MalformedLine (List Entry)
  | [] => .ok []
  | raw :: rest =>
    let text := trim raw
    if text.isEmpty then
      readLines (number + 1) rest
    else
      match Line.read text with
      | none => .error { number, text := String.ofList text }
      | some line => (readLines (number + 1) rest).map (line.toEntry number :: ·)

/-- The entries of a script, in order. -/
def parse (text : String) : Except MalformedLine (List Entry) :=
  readLines 1 (text.toList.splitOn '\n')

/-- The invocations among the entries, with their arguments expanded. -/
def invocations (entries : List Entry) : List Invocation :=
  let table := Variables.ofEntries entries
  (entries.filterMap Invocation.ofEntry?).map fun invocation =>
    { invocation with arguments := invocation.arguments.map table.expand }

end RobotRoutine.Script
