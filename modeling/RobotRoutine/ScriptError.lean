import RobotRoutine.Decimal.Layout
import RobotRoutine.Files.Failure
import RobotRoutine.Registry.Arity
import RobotRoutine.Script

/-!
# Errors of a script

Why a script cannot be read or compiled. Every error is found before the routine starts.
-/

namespace RobotRoutine

/-- What is wrong with the arguments of a command. -/
inductive ArgumentProblem where
  | wrongCount (arity : Arity) (count : Nat)
  | notNumber (parameter text : String)
  | notInteger (parameter text : String)
  /-- A motor power outside the range from -1 to 1. -/
  | powerOutOfRange (parameter : String) (value : Float)
  /-- No whole number of milliseconds. -/
  | notMillis (parameter text : String)
  /-- A number of seconds that no duration has. -/
  | notSeconds (parameter : String) (value : Float)
  /-- A threshold outside the range of positive numbers of thirty-two bits. -/
  | thresholdOutOfRange (value : Int)
  /-- There is no argument at the position. -/
  | absent (position : Nat)
deriving DecidableEq

namespace ArgumentProblem

/-- What was expected instead. -/
def expected : ArgumentProblem → String
  | .wrongCount arity _ => arity.toText
  | .notNumber parameter _ => "a number for '" ++ parameter ++ "'"
  | .notInteger parameter _ => "an integer for '" ++ parameter ++ "'"
  | .powerOutOfRange parameter _ => "'" ++ parameter ++ "' between -1 and 1"
  | .notMillis parameter _ => "a non-negative integer of milliseconds for '" ++ parameter ++ "'"
  | .notSeconds parameter _ => "a non-negative number of seconds for '" ++ parameter ++ "'"
  | .thresholdOutOfRange _ => "a positive 'threshold'"
  | .absent position => "an argument at position " ++ toString position

/-- What there was. -/
def reason : ArgumentProblem → String
  | .wrongCount _ count => "got " ++ toString count
  | .notNumber _ text | .notInteger _ text | .notMillis _ text => "got '" ++ text ++ "'"
  | .powerOutOfRange _ value | .notSeconds _ value => "got " ++ Decimal.spelled.write value
  | .thresholdOutOfRange value => "got " ++ toString value
  | .absent _ => "got none"

end ArgumentProblem

/-- Why a script cannot be read or compiled. -/
inductive ScriptError where
  | malformed (line : Script.MalformedLine)
  | argument (command : String) (problem : ArgumentProblem)
  | unknownCommand (name : String)
  /-- None of the paths could be read; the failure is that of the last one. -/
  | unreadable (tried : List String) (failure : FileFailure)
deriving DecidableEq

namespace ScriptError

/-- The error in words. -/
def message : ScriptError → String
  | .malformed line =>
    "Parse error on line " ++ toString line.number ++ ": '" ++ line.text ++ "'"
  | .argument command problem =>
    "Invalid arguments to '" ++ command ++ "': expected " ++ problem.expected ++ " ("
      ++ problem.reason ++ ")"
  | .unknownCommand name => "Unknown command: '" ++ name ++ "'"
  | .unreadable tried failure =>
    "Unable to read script (tried " ++ ", ".intercalate tried ++ "): " ++ failure.message

end ScriptError

end RobotRoutine
