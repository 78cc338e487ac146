import MiniPascal.Compile
import MiniPascal.Editor.Gutter
import MiniPascal.FileSystem
import MiniPascal.Token.Table

/-!
# The editor's window

A window has a tab for each text being edited, one of which is current, panes for the
results of the compiler, and a title that names the current tab. A tab remembers the file
it was read from or written to, if any, and whether its text was changed since.

The window is changed by the commands of its menus (`Window.perform`) and by what its user does
with the tabs: typing, selecting and closing. A command may ask for a file, refuse with a
message, or write a file. The window always has a tab: closing the only one empties it.
-/

namespace MiniPascal.Editor

/-! ### Tabs -/

/-- A text being edited. -/
structure Tab where
  title : String
  text : String
  path : Option String
  modified : Bool
  deriving DecidableEq, Repr

namespace Tab

/-- The title of a tab whose text belongs to no file. -/
def freshTitle : String :=
  "New file"

/-- A tab with a text that nobody has changed. -/
def ofText (text title : String) : Tab :=
  { title, text, path := none, modified := false }

/-- The tab with its text replaced. -/
def type (tab : Tab) (text : String) : Tab :=
  { tab with text, modified := true }

/-- The number of lines of the text. -/
def lineCount (tab : Tab) : Nat :=
  tab.text.toList.count '\n' + 1

end Tab

/-- The last name of a path. -/
def baseName (path : String) : String :=
  String.ofList ((path.toList.splitOn '/').getLastD [])

/-! ### Windows -/

/-- The window of the editor. -/
structure Window where
  tabs : List Tab
  /-- The index of the current tab. -/
  current : Nat
  title : String
  tokens : String
  symbols : String
  result : String
  status : String
  deriving DecidableEq, Repr

namespace Window

/-- The current tab. -/
def tab? (window : Window) : Option Tab :=
  window.tabs[window.current]?

/-- The window with its title naming the current tab. -/
def refreshTitle (window : Window) : Window :=
  { window with
    title := match window.tab? with
      | some tab => s!"Compiler - {tab.title}"
      | none => "Compiler - IDE" }

/-- The window with the current tab changed. -/
def modifyTab (window : Window) (change : Tab → Tab) : Window :=
  { window with tabs := window.tabs.modify window.current change }

/-- The window with one more tab, which is current. -/
def addTab (window : Window) (tab : Tab) : Window :=
  { window with tabs := window.tabs ++ [tab], current := window.tabs.length }.refreshTitle

/-- The window with a new tab for a text that belongs to no file. -/
def newFile (window : Window) : Window :=
  window.addTab (.ofText "" Tab.freshTitle)

/-- The window as it first opens. -/
def initial : Window :=
  newFile
    { tabs := [], current := 0, title := "", tokens := "", symbols := "", result := ""
      status := "Ready" }

/-- The window after typing: the text of the current tab becomes `text`. -/
def type (window : Window) (text : String) : Window :=
  window.modifyTab (·.type text)

/-- The window with the tab of an index current, if there is one. Nothing is done if it is
    current already. -/
def select (window : Window) (index : Nat) : Window :=
  if index < window.tabs.length ∧ index ≠ window.current then
    { window with current := index }.refreshTitle
  else window

/-- The index of the current tab after the tab of an index is removed: the tab to its
    right, or to its left if it was the last, is current after it. -/
def currentAfterRemoval (current index count : Nat) : Nat :=
  if index < current then current - 1
  else if index = current then min current (count - 2)
  else current

/-- The window with the tab of an index closed; the only tab is emptied instead. -/
def close (window : Window) (index : Nat) : Window :=
  if index < window.tabs.length then
    (if 1 < window.tabs.length then
      { window with
        tabs := window.tabs.eraseIdx index
        current := currentAfterRemoval window.current index window.tabs.length }
    else
      window.modifyTab fun tab => { tab.type "" with path := none }).refreshTitle
  else window

/-- The width of the gutter beside the current text. -/
def gutterWidth (window : Window) : Int :=
  Gutter.width 10 ((window.tab?.map Tab.lineCount).getD 1)

/-! ### Commands -/

/-- The commands of the menus. -/
inductive Command
  | new
  | openFile
  | close
  | save
  | saveAs
  | lexicalAnalysis
  | compile
  deriving DecidableEq, Repr

/-- The label of a command. -/
def Command.label : Command → String
  | new => "New"
  | openFile => "Open"
  | close => "Close"
  | save => "Save"
  | saveAs => "Save as..."
  | lexicalAnalysis => "Lexical analysis"
  | compile => "Compile"

/-- The key that gives a command. -/
def Command.shortcut? : Command → Option String
  | compile => some "F5"
  | _ => none

/-- The menus: their titles and commands. -/
def menus : List (String × List Command) :=
  [("File", [.new, .openFile, .close, .save, .saveAs]), ("Compile", [.lexicalAnalysis, .compile])]

/-- The command of a menu's entry. -/
def command? (menu label : String) : Option Command :=
  (menus.lookup menu).bind fun commands => commands.find? fun command => command.label = label

/-- The command of a key. -/
def commandOfKey? (key : String) : Option Command :=
  (menus.flatMap Prod.snd).find? fun command => command.shortcut? = some key

/-- The files that dialogs offer. -/
def fileFilter : String :=
  "Source files (*.txt *.prg);;All files (*)"

/-- A dialog that asks for a file. -/
inductive Dialog
  | openFile
  | saveFile
  deriving DecidableEq, Repr

/-- The caption of a dialog. -/
def Dialog.caption : Dialog → String
  | openFile => "Open file"
  | saveFile => "Save file"

/-- What a command does: to the window and the files; the dialogs it shows, the errors it
    reports and what it logs; and what it aborts with, if it does. -/
structure Effect where
  window : Window
  files : FileSystem
  asked : List Dialog
  errors : List String
  log : List Event
  abort? : Option Abort

/-- An effect on the window alone. -/
def Effect.ofWindow (window : Window) (files : FileSystem) : Effect :=
  { window, files, asked := [], errors := [], log := [], abort? := none }

/-- The effect after having shown a dialog. -/
def Effect.afterAsking (effect : Effect) (dialog : Dialog) : Effect :=
  { effect with asked := dialog :: effect.asked }

/-- The effect of a file that could not be opened for a purpose. -/
def failed (window : Window) (files : FileSystem) (purpose path : String) : FileFailure → Effect
  | .access failure =>
    { Effect.ofWindow window files with
      errors := [s!"Could not {purpose} the file: {failure.report path}"] }
  | .abort abort => { Effect.ofWindow window files with abort? := some abort }

/-- Opens the file at a path in a new tab. -/
def openPath (window : Window) (files : FileSystem) (path : String) : Effect :=
  match files.readText path "utf-8" with
  | .error failure => failed window files "open" path failure
  | .ok text => .ofWindow (window.addTab { Tab.ofText text (baseName path) with path }) files

/-- Writes the current text to a file. -/
def writeTo (window : Window) (files : FileSystem) (path : String) : Effect :=
  match window.tab? with
  | none => .ofWindow window files
  | some tab =>
    match files.writeText path tab.text with
    | .error failure => failed window files "save" path failure
    | .ok files => .ofWindow (window.modifyTab fun tab => { tab with modified := false }) files

/-- Writes the current text to a file asked for, which is `answer`, or none if that is
    empty. The tab takes the file's name even if writing fails. -/
def saveAs (window : Window) (files : FileSystem) (answer : String) : Effect :=
  if answer = "" then (Effect.ofWindow window files).afterAsking .saveFile
  else
    -- From here on the tab belongs to the file, written or not.
    let window := window.modifyTab fun tab => { tab with path := some answer }
    let effect := (window.writeTo files answer).afterAsking .saveFile
    match effect.abort? with
    | some _ => effect
    | none =>
      let window := effect.window.modifyTab fun tab => { tab with title := baseName answer }
      { effect with window := window.refreshTitle }

/-- Writes the current text to its file, or to one asked for if it has none. -/
def save (window : Window) (files : FileSystem) (answer : String) : Effect :=
  match window.tab?.bind Tab.path with
  | some path => window.writeTo files path
  | none => window.saveAs files answer

/-- Lists the tokens of the current text. -/
def analyse (window : Window) (files : FileSystem) : Effect :=
  let tokens := tokenize ((window.tab?.map Tab.text).getD "")
  match tokens.abort? with
  | some abort => { Effect.ofWindow window files with log := tokens.log, abort? := abort }
  | none =>
    let window := { window with
      tokens := Token.table tokens.rows
      result := lexicalReport tokens.fault? }
    { Effect.ofWindow window files with log := tokens.log }

/-- The status that tells a verdict. -/
def verdictStatus : Verdict → String
  | .accepted _ => "Accepted"
  | .rejected fault => s!"Rejected ({fault.cause.category.name})"

/-- Checks the current text. -/
def check (window : Window) (files : FileSystem) : Effect :=
  let compilation := MiniPascal.compile ((window.tab?.map Tab.text).getD "")
  match compilation.outcome with
  | .error abort => { Effect.ofWindow window files with log := compilation.log, abort? := abort }
  | .ok verdict =>
    let window := { window with
      result := verdict.message
      symbols := verdict.symbolsText
      status := verdictStatus verdict }
    { Effect.ofWindow window files with log := compilation.log }

/-- Performs a command; `answer` is the path chosen in the dialog that it may show, empty if
    the dialog is cancelled. -/
def perform (window : Window) (files : FileSystem) (answer : String) : Command → Effect
  | .new => .ofWindow window.newFile files
  | .openFile =>
    (if answer = "" then .ofWindow window files
    else window.openPath files answer).afterAsking .openFile
  | .close => .ofWindow (window.close window.current) files
  | .save => window.save files answer
  | .saveAs => window.saveAs files answer
  | .lexicalAnalysis => window.analyse files
  | .compile => window.check files

end Window

end MiniPascal.Editor
