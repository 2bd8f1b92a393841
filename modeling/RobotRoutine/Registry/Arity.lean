/-!
# Arities

How many arguments a command takes: a least number, and a greatest one or no end.
-/

namespace RobotRoutine

/-- How many arguments a command takes. -/
structure Arity where
  least : Nat
  /-- The greatest number; no end if there is none. -/
  greatest : Option Nat
deriving DecidableEq, Repr

namespace Arity

/-- One number of arguments only. -/
def exactly (n : Nat) : Arity := ⟨n, some n⟩

/-- From `least` to `greatest` arguments. -/
def between (least greatest : Nat) : Arity := ⟨least, some greatest⟩

/-- Any number of arguments. -/
def any : Arity := ⟨0, none⟩

/-- Whether a number of arguments is right. -/
def accepts (arity : Arity) (count : Nat) : Bool :=
  arity.least ≤ count && arity.greatest.all (count ≤ ·)

/-- The arity in words. -/
def toText (arity : Arity) : String :=
  match arity.least, arity.greatest with
  | 0, some 0 => "no arguments"
  | 1, some 1 => "1 argument"
  | least, some greatest =>
    if least = greatest then toString least ++ " arguments"
    else toString least ++ " to " ++ toString greatest ++ " arguments"
  | 0, none => "any number of arguments"
  | least, none => "at least " ++ toString least ++ " arguments"

/-- The inspection form of an arity. -/
def inspect (arity : Arity) : String :=
  let greatest := match arity.greatest with
    | none => "None"
    | some n => "Some(" ++ toString n ++ ")"
  "Arity \x7b min: " ++ toString arity.least ++ ", max: " ++ greatest ++ " \x7d"

end Arity

end RobotRoutine
