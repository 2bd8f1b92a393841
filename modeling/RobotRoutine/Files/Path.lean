/-!
# Paths

A path is a text in which a `/` ends every name but the last. Paths are joined as they stand;
nothing in them is resolved.
-/

namespace RobotRoutine.Path

/-- Whether a path begins at the root of all files. -/
def isAbsolute (path : List Char) : Bool :=
  path.head? = some '/'

/-- The path `right` as seen from `left`: itself if it is absolute, and otherwise both, with one `/`
between them unless `left` is empty or ends in one. -/
def joinChars (left right : List Char) : List Char :=
  if isAbsolute right then right
  else if left.isEmpty ∨ left.getLast? = some '/' then left ++ right
  else left ++ '/' :: right

/-- The path `right` as seen from `left`. -/
def join (left right : String) : String :=
  String.ofList (joinChars left.toList right.toList)

/-- The names in a path. A `/` at its end leaves an empty name there, and so does one that follows
another. -/
def names (path : String) : List String :=
  (path.toList.splitOn '/').map String.ofList

end RobotRoutine.Path
