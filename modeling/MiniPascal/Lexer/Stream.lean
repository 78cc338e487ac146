import MiniPascal.Lexer.Scan
import MiniPascal.Trace

/-!
# The stream of scans

All that a lexer yields on its way to the end of its text, failed scans included, is
the list of its `scans`. It is finite, as every scan but the last consumes something,
and its last element, and no other, is the scan that meets the end. A scan after that
would meet the end again.

`Lexer.tokenization` is the part of the stream up to the first failure, as rows of
tokens with the lines they end on.
-/

namespace MiniPascal

/-- What a scan yields, and the lexer after it. -/
structure Scan where
  result : Except ScanFailure (Option Token)
  lexer : Lexer

/-- The scans of a lexer up to the end of its text. -/
def Lexer.scans (lexer : Lexer) : List Scan :=
  match _h : lexer.scan with
  | (.ok none, after) => [⟨.ok none, after⟩]
  | (.ok (some token), after) => ⟨.ok (some token), after⟩ :: after.scans
  | (.error failure, after) => ⟨.error failure, after⟩ :: after.scans
termination_by lexer.text.length
decreasing_by
  · simpa [_h] using Lexer.length_scan_lt (show lexer.scan.1 ≠ .ok none by simp [_h])
  · simpa [_h] using Lexer.length_scan_lt (show lexer.scan.1 ≠ .ok none by simp [_h])

/-- The scans of a text that cannot be read beyond its end: as far as they do without that. A
    lexer with nothing before it has tried to read on. -/
def Scan.cutOff (failure : Text.DecodingFailure) : List Scan → List Scan
  | [] => []
  | scan :: scans =>
    -- A lexeme that ends with the text is known to end only once the end is read.
    if scan.lexer.text.isEmpty then [⟨.error (.unreadable failure), scan.lexer⟩]
    else scan :: cutOff failure scans

/-- The fault that a failed scan reports on a line, if it reports one. -/
def ScanFailure.fault? (line : Nat) : ScanFailure → Option Fault
  | lexical cause => some ⟨.lexical cause, some line⟩
  | _ => none

/-- What a failed scan aborts with, if it reports no fault. -/
def ScanFailure.abort? : ScanFailure → Option Abort
  | lexical _ => none
  | oversizedNumeral => some .oversizedNumeral
  | realOverflow => some .realOverflow
  | unreadable failure => some (.unreadable failure)

/-- The tokens of a text, each with the line of the lexer after it, up to the end of the
    text or the first failed scan. -/
structure Tokenization where
  rows : List (Nat × Token)
  failure : Option ScanFailure
  /-- The lexer after the last scan. -/
  lexer : Lexer

namespace Tokenization

/-- The tokens of a stream that follows a lexer. -/
def ofScans (lexer : Lexer) : List Scan → Tokenization
  | [] => { rows := [], failure := none, lexer }
  | ⟨.ok none, after⟩ :: _ => { rows := [], failure := none, lexer := after }
  | ⟨.error failure, after⟩ :: _ => { rows := [], failure := some failure, lexer := after }
  | ⟨.ok (some token), after⟩ :: scans =>
    let rest := ofScans after scans
    { rest with rows := (after.line, token) :: rest.rows }

/-- The fault that ends the tokens, if one does. -/
def fault? (tokens : Tokenization) : Option Fault :=
  tokens.failure.bind (·.fault? tokens.lexer.line)

/-- What the tokens are aborted with, if they are. -/
def abort? (tokens : Tokenization) : Option Abort :=
  tokens.failure.bind (·.abort?)

/-- The log of the scans: the tokens, and the end of the text if it was met. -/
def log (tokens : Tokenization) : List Event :=
  tokens.rows.map (fun (line, token) => .scanned line (some token)) ++
    if tokens.failure.isNone then [.scanned tokens.lexer.line none] else []

end Tokenization

/-- The tokens from a lexer on. -/
def Lexer.tokenization (lexer : Lexer) : Tokenization :=
  Tokenization.ofScans lexer lexer.scans

/-- The tokens of a text. -/
def tokenize (text : String) : Tokenization :=
  (Lexer.ofText text).tokenization

/-- The report on the lexemes of a text, given its fault, if it has one. -/
def lexicalReport : Option Fault → String
  | none => "No lexical errors."
  | some fault => fault.message

end MiniPascal
