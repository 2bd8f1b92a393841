/-!
# Failures of file access

Why a file cannot be read or written, and how that is said.
-/

namespace RobotRoutine

/-- Why a file cannot be read or written. -/
inductive FileFailure where
  | notFound
  | isDirectory
  | notDirectory
  /-- A name in the path has more bytes than a name can have, or the whole path has. -/
  | nameTooLong
  /-- The path has a NUL in it. -/
  | nulInPath
  /-- The content is not UTF-8. -/
  | notText
  /-- Any other reason, in the words of the system. -/
  | other (reason : String)
deriving DecidableEq, Repr

namespace FileFailure

/-- The failure in words. -/
def message : FileFailure → String
  | .notFound => "No such file or directory (os error 2)"
  | .isDirectory => "Is a directory (os error 21)"
  | .notDirectory => "Not a directory (os error 20)"
  | .nameTooLong => "File name too long (os error 36)"
  | .nulInPath => "file name contained an unexpected NUL byte"
  | .notText => "stream did not contain valid UTF-8"
  | .other reason => reason

end FileFailure

end RobotRoutine
