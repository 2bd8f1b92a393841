import RobotRoutine.Script.Entry
import RobotRoutine.Text.Pieces

/-!
# Variables

The variables of a script are global. The table lists each name once, in the order of the first
assignments, with the value of the last one. An argument is expanded by replacing one variable
after another, each wherever its name occurs in what the earlier ones left.
-/

namespace RobotRoutine.Script

open RobotRoutine.Text

/-- Names and values, in the order in which the names were first assigned. -/
abbrev Variables := List (String × String)

namespace Variables

/-- The table after one more assignment: a known name keeps its place. -/
def define (name value : String) : Variables → Variables
  | [] => [(name, value)]
  | binding :: rest =>
    if binding.1 = name then (name, value) :: rest else binding :: define name value rest

/-- The table after one more entry. -/
def addEntry (table : Variables) (entry : Entry) : Variables :=
  match entry.kind with
  | .assignment => table.define entry.key entry.value
  | .invocation => table

/-- The table of a script's assignments. -/
def ofEntries (entries : List Entry) : Variables :=
  entries.foldl addEntry []

/-- Replaces every variable in an argument. -/
def expand (table : Variables) (argument : String) : String :=
  table.foldl
    (fun text binding =>
      String.ofList (replace binding.1.toList binding.2.toList text.toList))
    argument

end Variables

end RobotRoutine.Script
