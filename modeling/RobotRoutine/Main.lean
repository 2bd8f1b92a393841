import RobotRoutine.CommandLine.Perform

/-!
# The program

The command line on the files of the machine.
-/

open RobotRoutine

namespace RobotRoutine.CommandLine

/-- The failure that the machine reports. -/
def machineFailure : IO.Error → FileFailure
  | .noFileOrDirectory .. => .notFound
  | .inappropriateType _ code _ => if code = 21 then .isDirectory else .notDirectory
  | .permissionDenied .. => .other "Permission denied (os error 13)"
  | error => .other error.toString

/-- The files of the machine. -/
def machineFiles : FileAccess IO where
  read path := do
    try
      return .ok (← IO.FS.readBinFile path)
    catch error =>
      return .error (machineFailure error)
  write path text := do
    try
      IO.FS.writeFile path text
      return .ok ()
    catch error =>
      return .error (machineFailure error)

end RobotRoutine.CommandLine

/-- Does what the arguments ask for, and answers with the exit code. -/
def main (arguments : List String) : IO UInt32 := do
  let report ← CommandLine.respond CommandLine.machineFiles arguments
  IO.sleep (.ofNat (min report.pace.wholeMillis 0xffffffff))
  IO.print report.output
  IO.eprint report.errors
  return report.exitCode.toUInt32
