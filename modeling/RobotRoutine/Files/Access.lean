import RobotRoutine.Files.Failure

/-!
# File access

What the program asks of the place where files are kept. The place is a parameter, so that a program
runs on the files of a machine and on files held in memory alike.
-/

namespace RobotRoutine

/-- A place where files are kept, as seen from a program that runs in `m`. -/
structure FileAccess (m : Type → Type) where
  /-- The content of the file at a path. -/
  read : String → m (Except FileFailure ByteArray)
  /-- Makes a text the content of the file at a path. -/
  write : String → String → m (Except FileFailure Unit)

namespace FileAccess

variable {m : Type → Type} [Monad m]

/-- The text that a file's content encodes. -/
def decode (content : ByteArray) : Except FileFailure String :=
  match String.fromUTF8? content with
  | some text => .ok text
  | none => .error .notText

/-- The text in the file at a path. -/
def readText (files : FileAccess m) (path : String) : m (Except FileFailure String) := do
  return (← files.read path).bind decode

end FileAccess

end RobotRoutine
