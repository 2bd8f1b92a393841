import RobotRoutine.CommandLine.Request
import RobotRoutine.HostLoop
import RobotRoutine.RobotConfig.File

/-!
# Reports

What the program leaves behind: texts for its two outputs and an exit code. An error is told from
the outside in, first what could not be done and then the causes.
-/

namespace RobotRoutine.CommandLine

/-- What the program leaves behind. -/
structure Report where
  exitCode : UInt8
  output : String
  errors : String
  /-- How long the program takes if it keeps pace with the robot's clock. -/
  pace : Duration := .zero
deriving DecidableEq

/-- Something that could not be done, with its causes from the outside in. -/
structure Complaint where
  message : String
  causes : List String
deriving DecidableEq, Repr

namespace Complaint

/-- A text with blanks in front of every line but the first. -/
def indent (width : Nat) (text : String) : String :=
  ("\n" ++ String.ofList (List.replicate width ' ')).intercalate
    ((text.toList.splitOn '\n').map String.ofList)

/-- Several causes, numbered from `number` on, each on lines of its own. -/
def numbered (number : Nat) : List String → String
  | [] => ""
  | cause :: rest =>
    let label := Nat.toDigits 10 number
    "\n" ++ String.ofList (List.replicate (5 - label.length) ' ' ++ label) ++ ": " ++ indent 7 cause
      ++ numbered (number + 1) rest

/-- The causes, each on lines of its own. A single one has no number. -/
def causesText : List String → String
  | [] => ""
  | [cause] => "\n\nCaused by:\n    " ++ indent 4 cause
  | causes => "\n\nCaused by:" ++ numbered 0 causes

/-- The complaint in words. -/
def toText (complaint : Complaint) : String :=
  "Error: " ++ complaint.message ++ causesText complaint.causes ++ "\n"

/-- A complaint about a configuration. -/
def ofConfigError (error : ConfigError) : Complaint :=
  ⟨error.message, error.cause.toList.map FileFailure.message⟩

/-- A complaint about a script. -/
def ofScriptError (message : String) (error : ScriptError) : Complaint :=
  ⟨message, [error.message]⟩

/-- A complaint about a run that has no summary. -/
def ofRunFailure : RunFailure → Complaint
  | .routine error =>
    ⟨"Routine faulted", error.message :: match error with
      | .sensor _ fault => [fault.message]
      | .taskAlreadyStarted _ => []⟩
  | .clockOverflow => ⟨"The clock left its range", []⟩
  | .unfinished => ⟨"The routine did not end", []⟩

end Complaint

namespace Report

/-- The report of something done. -/
def done (output : String) : Report where
  exitCode := 0
  output
  errors := ""

/-- The report of something that could not be done. -/
def failed (complaint : Complaint) : Report where
  exitCode := 1
  output := ""
  errors := complaint.toText

/-- The program's name and version. -/
def version : String := "autoscript 1.0.0\n"

/-- How the program is used. -/
def usage : String :=
  "Usage: autoscript [-v] VERB\n\n"
    ++ "  check SCRIPT [-c CONFIG]\n"
    ++ "  run [-s SCRIPT] [-c CONFIG] [--alliance red|blue] [--realtime]\n"
    ++ "  commands\n"
    ++ "  init-config PATH\n"
    ++ "  help [VERB]\n"

/-- The report on arguments that make no request. -/
def refused : Refusal → Report
  | .helpAsked => done usage
  | .versionAsked => done version
  | _ => { exitCode := 2, output := "", errors := usage }

end Report

end RobotRoutine.CommandLine
