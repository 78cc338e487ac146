import MiniPascal.CommandLine.Options

/-!
# Usage and help

The texts that tell how the program is called.
-/

namespace MiniPascal.CommandLine

/-- The name of the program. -/
def programName : String :=
  "tinypas"

/-- The lines of the usage. -/
def usageLines : List String :=
  [ "usage: tinypas [-h] [-v] [--encoding ENCODING] [--tokens] [--symbols] [--ide]",
    "               [FILE]" ]

/-- The lines of the help below the usage. -/
def helpLines : List String :=
  [ "",
    "lexical, syntax and type checker for the teaching language",
    "",
    "positional arguments:",
    "  FILE                 source file to check",
    "",
    "options:",
    "  -h, --help           show this help message and exit",
    "  -v, --verbose        trace scopes and symbols (-vv also traces every token)",
    "  --encoding ENCODING  encoding of FILE (default: utf-8)",
    "  --tokens             print the token table of FILE instead of compiling it",
    "  --symbols            print the symbol table after a successful compilation",
    "  --ide                open the graphical editor (requires PyQt5)" ]

/-- Lines as a text. -/
def unlines (lines : List String) : String :=
  String.join (lines.map (· ++ "\n"))

/-- The help. -/
def help : String :=
  unlines (usageLines ++ helpLines)

/-- The report of a misuse. -/
def Misuse.report (misuse : Misuse) : String :=
  unlines (usageLines ++ [s!"{programName}: error: {misuse.text}"])

end MiniPascal.CommandLine
