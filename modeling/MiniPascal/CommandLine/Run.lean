import MiniPascal.CommandLine.Usage
import MiniPascal.Compile
import MiniPascal.FileSystem
import MiniPascal.Token.Table

/-!
# Running a command line

What the program prints and the status it exits with: 0 if the file is accepted or has
no lexical fault, 1 if it is rejected, 2 if the command line is misused or the file cannot
be opened. An abort has no status, and leaves only the log behind.
-/

namespace MiniPascal.CommandLine

/-- What a run prints, and how it ends. -/
structure Report where
  status : Except Abort Int
  out : String
  err : String

/-- The report on a command line that asks for no run. -/
def Stop.report : Stop → Report
  | .help => { status := .ok 0, out := CommandLine.help, err := "" }
  | .misuse mistake => { status := .ok 2, out := "", err := mistake.report }

/-- What is shown of a log. -/
def shownLog (options : Options) (log : List Event) : String :=
  match options.level? with
  | none => ""
  | some level => unlines (level.lines log)

/-- The report on a file that was not read. -/
def failureReport (path : String) : FileFailure → Report
  | .access failure =>
    { status := .ok 2, out := "", err := s!"Cannot read {path}: {failure.text}\n" }
  | .abort abort => { status := .error abort, out := "", err := "" }

/-- The report on the tokens of a text. -/
def tokensReport (options : Options) (text : String) : Report :=
  let tokens := tokenize text
  let err := shownLog options tokens.log
  match tokens.abort? with
  | some abort => { status := .error abort, out := "", err }
  | none =>
    { status := .ok (if tokens.fault?.isNone then 0 else 1)
      out := Token.table tokens.rows ++ lexicalReport tokens.fault? ++ "\n"
      err }

/-- The report on a check. -/
def checkReport (options : Options) (compilation : Compilation) : Report :=
  let err := shownLog options compilation.log
  match compilation.outcome with
  | .error abort => { status := .error abort, out := "", err }
  | .ok (.rejected fault) => { status := .ok 1, out := "", err := err ++ fault.message ++ "\n" }
  | .ok (.accepted symbols) =>
    let table := if options.symbols then symbols.format else ""
    { status := .ok 0, out := Verdict.successMessage ++ "\n" ++ table, err }

/-- The report on the bytes of a file in a named encoding. The tokens are listed of a whole
    text; the check reads the text as it goes. -/
def bytesReport (options : Options) (path encoding : String) (bytes : ByteArray) : Report :=
  if options.tokens then
    match FileSystem.textOf bytes encoding with
    | .error failure => failureReport path failure
    | .ok text => tokensReport options text
  else
    match FileSystem.readingOf bytes encoding with
    | .error failure => failureReport path failure
    | .ok reading => checkReport options (compileReading reading)

/-- The report on the file of a command line that does not ask for the editor. -/
def fileReport (files : FileSystem) (options : Options) : Report :=
  let path := options.file.getD ""
  match FileSystem.encodingName options.encoding with
  | .error failure => failureReport path failure
  | .ok encoding =>
    match files.read path with
    | .error failure => failureReport path failure
    | .ok bytes => bytesReport options path encoding bytes

/-- The report on a command line that does not ask for the editor. -/
def run (files : FileSystem) (arguments : List String) : Report :=
  match readOptions arguments with
  | .error stop => stop.report
  | .ok options => fileReport files options

end MiniPascal.CommandLine
