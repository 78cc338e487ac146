import MiniPascal.CommandLine.Run

/-!
# The program

Reads the file of the command line, prints the report on it and exits with its status.
The editor needs a screen, which this program has none of.
-/

namespace MiniPascal.Main

/-- The failure that an error of the operating system stands for, if it is one of those
    reported to the user. -/
def failureOf? : IO.Error → Option AccessFailure
  | .noFileOrDirectory .. => some .missing
  | .inappropriateType _ code _ => some (if code = 21 then .isDirectory else .notDirectory)
  | _ => none

/-- The bytes of the file at a path. -/
def readBytes (path : String) : IO (Except FileFailure ByteArray) := do
  try
    return .ok (← IO.FS.readBinFile path)
  catch error =>
    match failureOf? error with
    | some failure => return .error (.access failure)
    | none => throw error

/-- The report on the file of a command line that does not ask for the editor. -/
def fileReport (options : CommandLine.Options) : IO CommandLine.Report := do
  let path := options.file.getD ""
  match FileSystem.encodingName options.encoding with
  | .error failure => return CommandLine.failureReport path failure
  | .ok encoding =>
    match ← readBytes path with
    | .error failure => return CommandLine.failureReport path failure
    | .ok bytes => return CommandLine.bytesReport options path encoding bytes

/-- Prints a report and answers the status to exit with. -/
def print (report : CommandLine.Report) : IO UInt32 := do
  (← IO.getStderr).putStr report.err
  (← IO.getStdout).putStr report.out
  match report.status with
  | .ok status => return status.toNat.toUInt32
  | .error abort =>
    IO.eprintln s!"{CommandLine.programName}: aborted: {repr abort}"
    return 1

end MiniPascal.Main

open MiniPascal in
/-- Runs the program on its arguments. -/
def main (arguments : List String) : IO UInt32 := do
  match CommandLine.readOptions arguments with
  | .error stop => Main.print stop.report
  | .ok options =>
    if options.ide then
      IO.eprintln s!"{CommandLine.programName}: the editor needs a screen"
      return 1
    else
      Main.print (← Main.fileReport options)
