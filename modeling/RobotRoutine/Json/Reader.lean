import RobotRoutine.Json.Token

/-!
# Reading JSON

The tokens are taken one at a time. What has been read of the arrays and objects around the current
place is kept on a stack, the innermost first, so a text may nest to any depth.
-/

namespace RobotRoutine.Json

/-- An array or object of which the end has not been read. What was read of it is kept with the
latest first. -/
inductive Frame where
  | array (items : List Json)
  /-- An object in which a value is due for the key. -/
  | object (members : List (List Nat × Json)) (key : List Nat)

/-- What may come next. -/
inductive Awaited where
  | value
  /-- The first value of an array, or the array's end. -/
  | firstItem
  /-- The first key of an object, or the object's end. -/
  | firstKey
  /-- A further key of the object with these members. -/
  | key (members : List (List Nat × Json))
  /-- The colon behind a key of the object with these members. -/
  | colon (members : List (List Nat × Json)) (key : List Nat)
  /-- What follows a value. -/
  | after (value : Json)

/-- A place between two tokens. -/
structure Place where
  awaited : Awaited
  stack : List Frame

namespace Place

/-- The place in front of a value. -/
def start : Place := ⟨.value, []⟩

/-- The place after a token with which a value begins. -/
def begin? (stack : List Frame) : Token → Option Place
  | .null => some ⟨.after .null, stack⟩
  | .bool value => some ⟨.after (.bool value), stack⟩
  | .number numeral => some ⟨.after (.number numeral), stack⟩
  | .string codes => some ⟨.after (.string codes), stack⟩
  | .arrayStart => some ⟨.firstItem, stack⟩
  | .objectStart => some ⟨.firstKey, stack⟩
  | _ => none

/-- The place after a token that follows a value. -/
def follow? (value : Json) : List Frame → Token → Option Place
  | .array items :: stack, .comma => some ⟨.value, .array (value :: items) :: stack⟩
  | .array items :: stack, .arrayEnd => some ⟨.after (.array (value :: items).reverse), stack⟩
  | .object members key :: stack, .comma => some ⟨.key ((key, value) :: members), stack⟩
  | .object members key :: stack, .objectEnd =>
    some ⟨.after (.object ((key, value) :: members).reverse), stack⟩
  | _, _ => none

/-- The place after a token, if the token may come. -/
def next? : Place → Token → Option Place
  | ⟨.value, stack⟩, token => begin? stack token
  | ⟨.firstItem, stack⟩, .arrayEnd => some ⟨.after (.array []), stack⟩
  | ⟨.firstItem, stack⟩, token => begin? (.array [] :: stack) token
  | ⟨.firstKey, stack⟩, .objectEnd => some ⟨.after (.object []), stack⟩
  | ⟨.firstKey, stack⟩, .string key => some ⟨.colon [] key, stack⟩
  | ⟨.key members, stack⟩, .string key => some ⟨.colon members key, stack⟩
  | ⟨.colon members key, stack⟩, .colon => some ⟨.value, .object members key :: stack⟩
  | ⟨.after value, stack⟩, token => follow? value stack token
  | _, _ => none

/-- The value that ends at a place, if nothing is open there. -/
def value? : Place → Option Json
  | ⟨.after value, []⟩ => some value
  | _ => none

end Place

/-- The value that a sequence of tokens spells. -/
def ofTokens? (tokens : List Token) : Option Json :=
  (tokens.foldlM Place.next? Place.start).bind Place.value?

/-- The value that a text spells. -/
def parse? (text : String) : Option Json :=
  (tokens? text.toList).bind ofTokens?

end RobotRoutine.Json
