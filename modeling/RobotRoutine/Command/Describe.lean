import RobotRoutine.Command.Basic
import RobotRoutine.Decimal.Layout
import RobotRoutine.Text.Quoted

/-!
# Describing a command

The description of a command lists it and everything below it, a line each, indented by depth. A
line gives the name, the kind and what the command will do; it does not depend on how far the
command has come.
-/

namespace RobotRoutine

open Decimal (spelled inspected fixed)

namespace Effect

/-- The effect in words. -/
def summary : Effect → String
  | .print words => "print " ++ printed words
  | .stopDrive => "stop drive"
  | .send mechanism position => mechanism.toText ++ " -> " ++ position.toText

end Effect

namespace ConvergenceMode

/-- The inspection form of a mode. -/
def inspect : ConvergenceMode → String
  | .distance => "Distance"
  | .straight => "Straight"
  | .turn coefficient => "Turn \x7b coefficient: " ++ inspected.write coefficient ++ " \x7d"

end ConvergenceMode

namespace Leaf

/-- What the command will do. -/
def summary : Leaf → String
  | .action effect => effect.summary
  | .timed duration .idle _ => "idle for " ++ toString duration.wholeMillis ++ "ms"
  | .timed duration (.tank left right) _ =>
    "tank " ++ fixed 2 left ++ "/" ++ fixed 2 right ++ " for " ++ toString duration.wholeMillis
      ++ "ms"
  | .convergence mode target count _ =>
    mode.inspect ++ " to " ++ spelled.write target ++ " (±" ++ spelled.write count.tolerance
      ++ " for " ++ toString count.required.toNat ++ " polls)"
  | .waitUntil time => "until match time " ++ fixed 2 time.toSeconds ++ "s"

end Leaf

namespace Command

/-- What the command will do, without what is below it. -/
def summary : Command → String
  | .leaf _ _ work => work.summary
  | .threaded _ _ cadence .. => "every " ++ toString cadence.wholeMillis ++ "ms"
  | .group _ _ finished remaining =>
    toString (finished.length + remaining.length) ++ " step(s)"

/-- A line at a depth. -/
def indented (depth : Nat) (text : String) : String :=
  String.join (List.replicate depth "  ") ++ text ++ "\n"

/-- The command's own line. -/
def headline (depth : Nat) (command : Command) : String :=
  indented depth (command.name ++ " [" ++ command.kind ++ "] " ++ command.summary)

mutual

/-- The lines of a command at a depth. -/
def describeAt (depth : Nat) : Command → String
  | command@(.leaf ..) => headline depth command
  | command@(.threaded _ _ _ _ inner) => headline depth command ++ describeAt (depth + 1) inner
  | command@(.group _ _ finished remaining) =>
    headline depth command ++ describeSteps (depth + 1) 1 finished
      ++ describeSteps (depth + 1) (finished.length + 1) remaining

/-- The lines of several commands at a depth. -/
def describeAll (depth : Nat) : List Command → String
  | [] => ""
  | command :: rest => describeAt depth command ++ describeAll depth rest

/-- The lines of a step's commands. -/
def describeStep (depth : Nat) : Step Command → String
  | ⟨primary, companions, beside⟩ =>
    describeAt depth primary ++ describeAll depth companions ++ describeAll depth beside

/-- The lines of steps that are numbered from `number` on. -/
def describeSteps (depth number : Nat) : List (Step Command) → String
  | [] => ""
  | step :: rest =>
    indented depth ("step " ++ toString number ++ ":") ++ describeStep (depth + 1) step
      ++ describeSteps depth (number + 1) rest

end

/-- The description of a command and everything below it. -/
def describe (command : Command) : String :=
  command.describeAt 0

/-- The inspection form of a command. -/
def inspect (command : Command) : String :=
  "Command \x7b name: " ++ Text.quoted command.name ++ ", kind: \"" ++ command.kind
    ++ "\", state: " ++ command.phase.inspect ++ " \x7d"

end Command

end RobotRoutine
