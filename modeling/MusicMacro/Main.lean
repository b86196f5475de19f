import MusicMacro.CommandLine.Run

/-! The program.  Everything it does is described by `CommandLine.run`; here the file of the
configuration is read and the result is written. -/

namespace MusicMacro.CommandLine

/-- The error with which the system answered.  It gives the number of some errors as a negative
one. -/
def fileError (error : IO.Error) : FileError :=
  let numbered (number : UInt32) (reason : String) : FileError :=
    .ofNumber reason number.toInt32.toInt.natAbs
  match error with
  | .noFileOrDirectory _ number reason => numbered number reason
  | .permissionDenied _ number reason => numbered number reason
  | .inappropriateType _ number reason => numbered number reason
  | .invalidArgument _ number reason => numbered number reason
  | .resourceExhausted _ number reason => numbered number reason
  | .noSuchThing _ number reason => numbered number reason
  | .hardwareFault number reason => numbered number reason
  | .otherError number reason => numbered number reason
  | error => .other (toString error) 0

def readFile (path : String) : IO (Except FileError ByteArray) :=
  try return .ok (← IO.FS.readBinFile path)
  catch error => return .error (fileError error)

end MusicMacro.CommandLine

open MusicMacro

def main (arguments : List String) : IO UInt32 := do
  let file ←
    match CommandLine.request {} arguments with
    | .ok (.run { config := some path, .. }) => CommandLine.readFile path
    | _ => pure (.error .notFound)
  let result := CommandLine.run (fun _ => file) arguments
  (← IO.getStdout).write result.output
  (← IO.getStderr).write result.diagnostics
  return result.exitCode.toUInt32
