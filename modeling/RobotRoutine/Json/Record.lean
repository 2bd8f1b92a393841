import RobotRoutine.Json.Basic

/-!
# Records in JSON

A record with named fields is an object, in which no field may occur twice and other keys do not
matter, or an array of its fields in order. Either way fields may be missing.
-/

namespace RobotRoutine.Json

/-- The members of an object by the texts of their keys, if every key is a text. -/
def named? : List (List Nat × Json) → Option (List (String × Json))
  | [] => some []
  | (key, value) :: rest => do
    let name ← textOf? key
    let rest ← named? rest
    return (name, value) :: rest

/-- The fields of a record that are given, by their names. -/
def fields? (names : List String) : Json → Option (List (String × Json))
  | .object members => do
    let fields := (← named? members).filter fun field => field.1 ∈ names
    if (fields.map Prod.fst).Nodup then some fields else none
  | .array items => if items.length ≤ names.length then some (names.zip items) else none
  | _ => none

/-- A field read with `read`, or its default if it is not given. -/
def fieldOr {α : Type} (fields : List (String × Json)) (name : String) (default : α)
    (read : Json → Option α) : Option α :=
  match fields.lookup name with
  | none => some default
  | some value => read value

end RobotRoutine.Json
