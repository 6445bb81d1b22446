import Std.Time.DateTime.Timestamp
import TransitQuery.CommandLine.Run
import TransitQuery.Scalar.Double

/-!
# The program

The program reads the files that its arguments name, asks the clock, and prints what
`CommandLine.output` answers.

This is the only module that acts on the world. The files that an invocation may read are known
from its arguments alone (`Invocation.fileNames`), so that all of them are read beforehand and the
rest is a function of their texts, of the time and of the arguments. A file that cannot be read is
not an error here: the reason is handed on, worded as the operating system words it, and counts
only if the command asks for the file. The exit code and both streams come from the answer.
-/

namespace TransitQuery

namespace CommandLine

/-- Why a missing file cannot be read. -/
def missingFile : String :=
  "No such file or directory (os error 2)"

/-- Why a file cannot be read, with the number that the operating system gives the reason. -/
def reasonUnread : IO.Error → String
  | .noFileOrDirectory .. => missingFile
  | .permissionDenied .. => "Permission denied (os error 13)"
  | .inappropriateType .. => "Is a directory (os error 21)"
  | .userError _ => "stream did not contain valid UTF-8"
  | e => toString e

/-- The text of a file, or why it cannot be read. -/
def textOfFile (name : String) : IO (Except String String) := do
  try
    return .ok (← IO.FS.readFile name)
  catch e =>
    return .error (reasonUnread e)

/-- The texts of the files that an invocation may read. Any other file counts as missing. -/
def textsOfFiles (names : List String) : IO Files := do
  let texts ← names.mapM fun name => return (name, ← textOfFile name)
  return fun name => (texts.lookup name).getD (.error missingFile)

/-- The time that the clock shows. -/
def currentInstant : IO Instant := do
  let nanoseconds := (← Std.Time.Timestamp.now).toNanosecondsSinceUnixEpoch.val
  return ⟨nanoseconds.fdiv 1000000000, (nanoseconds.fmod 1000000000).toNat⟩

end CommandLine

end TransitQuery

open TransitQuery in
/-- Answers the arguments and ends with the code of the answer. -/
def main (arguments : List String) : IO UInt32 := do
  let names := ((CommandLine.Invocation.ofArguments? arguments).elim [] (·.fileNames))
  let files ← CommandLine.textsOfFiles names
  let r := CommandLine.output (R := Float) files (← CommandLine.currentInstant) arguments
  (← IO.getStdout).putStr r.output
  (← IO.getStderr).putStr r.errors
  return r.code.toUInt32
