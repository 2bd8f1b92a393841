/-!
# Replacing a piece of a text

The occurrences of a piece are found from left to right and do not overlap. The empty piece occurs
in front of every character and at the end.
-/

namespace RobotRoutine.Text

/-- Replaces each occurrence of a piece that is not empty. The first `owed` characters of the text
belong to an occurrence that has been replaced already. -/
def replaceFrom (piece value : List Char) : (owed : Nat) → List Char → List Char
  | _, [] => []
  | owed + 1, _ :: rest => replaceFrom piece value owed rest
  | 0, c :: rest =>
    if piece.isPrefixOf (c :: rest) then
      value ++ replaceFrom piece value (piece.length - 1) rest
    else
      c :: replaceFrom piece value 0 rest

/-- The text with `value` in place of each occurrence of `piece`. -/
def replace (piece value text : List Char) : List Char :=
  if piece.isEmpty then
    text.foldr (fun c rest => value ++ c :: rest) value
  else
    replaceFrom piece value 0 text

end RobotRoutine.Text
