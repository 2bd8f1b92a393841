import RobotRoutine.Script.Entry
import RobotRoutine.Text.Blank

/-!
# Invocations

What an invoking entry asks for: which command, with which arguments, and where it stands among the
steps of the routine. A `!` in front of the name puts the command beside the step before it, a `&`
does so on a cadence of its own, and a plain name opens the next step.
-/

namespace RobotRoutine.Script

open RobotRoutine.Text

/-- How a command is attached to the routine. -/
inductive Placement where
  /-- Opens the next step. -/
  | sequential
  /-- Runs beside the primary of the step before it. -/
  | concurrent
  /-- Runs beside the step before it on a cadence of its own. -/
  | threaded
deriving DecidableEq, Repr

/-- A command to be built. -/
structure Invocation where
  placement : Placement
  name : String
  arguments : List String
  line : Nat
deriving DecidableEq, Repr

/-- The arguments in a body: none in an empty one, else the trimmed texts between the commas. -/
def splitArguments (body : List Char) : List (List Char) :=
  if body.isEmpty then [] else (body.splitOn ',').map trim

/-- The placement that a key asks for, and the command's name. -/
def splitKey : List Char → Placement × List Char
  | '!' :: name => (.concurrent, name)
  | '&' :: name => (.threaded, name)
  | name => (.sequential, name)

namespace Invocation

/-- The invocation in an entry; nothing in an assignment. -/
def ofEntry? (entry : Entry) : Option Invocation :=
  match entry.kind with
  | .assignment => none
  | .invocation =>
    let (placement, name) := splitKey entry.key.toList
    some {
      placement
      name := String.ofList name
      arguments := (splitArguments entry.value.toList).map String.ofList
      line := entry.line }

/-- Whether the command stands beside an earlier one instead of opening a step. -/
def isConcurrent (invocation : Invocation) : Bool :=
  invocation.placement != .sequential

end Invocation

end RobotRoutine.Script
