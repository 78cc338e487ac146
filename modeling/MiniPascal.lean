import MiniPascal.Editor.Highlight
import MiniPascal.Editor.Session
import MiniPascal.Main
import MiniPascal.Proofs.Aborts
import MiniPascal.Proofs.Acceptance
import MiniPascal.Proofs.CorrectPrefix
import MiniPascal.Proofs.FailFast
import MiniPascal.Proofs.Layout
import MiniPascal.Proofs.Lines
import MiniPascal.Proofs.Renaming
import MiniPascal.Proofs.Statements
import MiniPascal.Proofs.Tokenization
import MiniPascal.Proofs.Trace
import MiniPascal.Text.Source
import MiniPascal.Proofs.Lexer.Offset
import MiniPascal.Proofs.Concatenation
import MiniPascal.Proofs.Agreement
import MiniPascal.Proofs.CaseFolding
import MiniPascal.Proofs.ScopeStack
import MiniPascal.Proofs.DeclaredTypes
import MiniPascal.Proofs.LineEnds
import MiniPascal.Proofs.Printing
import MiniPascal.Proofs.Editor.Coats
import MiniPascal.Proofs.Editor.Comments
import MiniPascal.Proofs.Lexer.Pieces
import MiniPascal.Proofs.Editor.CommentAgreement
import MiniPascal.Proofs.Editor.Colouring
import MiniPascal.Proofs.Editor.OpenComments
import MiniPascal.Proofs.Editor.Turns
import MiniPascal.Proofs.Editor.Sessions
import MiniPascal.Proofs.Editor.Isolation
import MiniPascal.Proofs.Editor.Titles
import MiniPascal.Proofs.Editor.WindowTitle
import MiniPascal.Proofs.Editor.Saving
import MiniPascal.Proofs.Editor.SavedFiles
import MiniPascal.Proofs.FileSystem
import MiniPascal.Proofs.CommandLine.ExitStatus
import MiniPascal.Proofs.DeclarationLines
import MiniPascal.Proofs.Lexer.Progress
import MiniPascal.Proofs.Lexer.WordTable
import MiniPascal.Proofs.ScopeTrace
import MiniPascal.Proofs.Chains
import MiniPascal.Proofs.Editor.PaintedLines
import MiniPascal.Proofs.ScopeNames
import MiniPascal.Proofs.Editor.ExposedLines
import MiniPascal.Proofs.Legibility
import MiniPascal.Proofs.TableText
import MiniPascal.Proofs.Parser.Progress
