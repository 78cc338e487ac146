import MiniPascal.Parser.Statement
import MiniPascal.Text.Encoding

/-!
# Checking a text

The check of a whole text: it is accepted, with its symbol table, or rejected, with its
first fault (`Verdict`), unless the run is aborted. Nesting beyond the budget of the
parser is a fault like any other, found at the token looked at.
-/

namespace MiniPascal

/-- The result of a check that was not aborted. -/
inductive Verdict
  | accepted (symbols : SymbolTable)
  | rejected (fault : Fault)
  deriving DecidableEq

namespace Verdict

/-- The message for an accepted text. -/
def successMessage : String :=
  "Compilation finished without errors."

/-- Whether a verdict accepts its text. -/
def isAccepted : Verdict → Bool
  | accepted _ => true
  | rejected _ => false

/-- The message that reports a verdict. -/
def message : Verdict → String
  | accepted _ => successMessage
  | rejected fault => fault.message

/-- The symbol table of an accepted text as text, empty for a rejected one. -/
def symbolsText : Verdict → String
  | accepted symbols => symbols.format
  | rejected _ => ""

/-- The fault of a rejected text. -/
def fault? : Verdict → Option Fault
  | accepted _ => none
  | rejected fault => some fault

end Verdict

/-- A check: how it ended and what it logged. -/
structure Compilation where
  outcome : Except Abort Verdict
  log : List Event

/-- How a run of the parser ends a check. -/
def Compilation.ofRun : EStateM.Result Interrupt Parser Unit → Compilation
  | .ok () parser => ⟨.ok (.accepted parser.symbols), parser.log.toList⟩
  | .error (.fault fault) parser => ⟨.ok (.rejected fault), parser.log.toList⟩
  | .error (.abort abort) parser => ⟨.error abort, parser.log.toList⟩
  -- The parser gives up at the token that nests too deep, before what it holds is read.
  | .error .tooDeep parser =>
    let fault : Fault := ⟨.syntactic .lessNesting parser.look, some parser.line⟩
    ⟨.ok (.rejected fault), parser.log.toList⟩

/-- The check of a whole program in the global scope. -/
def Parsing.check : Parsing Unit := do
  start
  parse nestedParts

/-- The check of a stream of scans. -/
def compileScans (scans : List Scan) : Compilation :=
  .ofRun (Parsing.check.run (.ofScans scans))

/-- The check of a text. -/
def compile (text : String) : Compilation :=
  compileScans (Lexer.ofText text).scans

/-- The check of a text as it is read. If it cannot all be read, the check is aborted where it
    would read on. -/
def compileReading (reading : Text.Reading) : Compilation :=
  let scans := (Lexer.ofChars reading.text).scans
  compileScans <| match reading.failure? with
    | none => scans
    | some failure => Scan.cutOff failure scans

end MiniPascal
