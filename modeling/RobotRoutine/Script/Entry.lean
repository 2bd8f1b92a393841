/-!
# Entries

A script is a list of entries, one to a line that is not blank. An entry either gives a variable a
value or invokes a command; in both cases it is a key and a value, each in lower case.
-/

namespace RobotRoutine.Script

/-- What an entry does. -/
inductive EntryKind where
  /-- Gives the variable `key` the value. -/
  | assignment
  /-- Invokes the command `key`, whose argument body is the value. -/
  | invocation
deriving DecidableEq, Repr

/-- One line of a script that is not blank. -/
structure Entry where
  /-- The variable's name, or the command's name with its placement mark in front. -/
  key : String
  /-- The assigned value, or the argument body. -/
  value : String
  kind : EntryKind
  /-- The line's number in the script, from one. -/
  line : Nat
deriving DecidableEq, Repr

end RobotRoutine.Script
