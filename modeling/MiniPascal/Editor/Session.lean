import MiniPascal.CommandLine.Run
import MiniPascal.Editor.Window

/-!
# Editing sessions

A session is a run of the program with the editor: the window opens, with the file of the
command line if there is one, and events change the window and the files one after
another. An event that aborts ends the session; so does an abort before the first one.
-/

namespace MiniPascal.Editor

/-- What happens in a session. -/
inductive Action
  | menu (menu label answer : String)
  | key (key : String)
  | type (text : String)
  | select (index : Nat)
  | close (index : Nat)
  /-- Another program writes a file or makes a directory. -/
  | store (path : String) (node : Node)
  /-- Another program removes a file. -/
  | remove (path : String)

/-- The effect of an event on a window and the files. -/
def Window.handle (window : Window) (files : FileSystem) : Action → Window.Effect
  | .menu menu label answer =>
    match Window.command? menu label with
    | some command => window.perform files answer command
    | none => .ofWindow window files
  | .key key =>
    match Window.commandOfKey? key with
    | some command => window.perform files "" command
    | none => .ofWindow window files
  | .type text => .ofWindow (window.type text) files
  | .select index => .ofWindow (window.select index) files
  | .close index => .ofWindow (window.close index) files
  | .store path node => .ofWindow window (files.store path node)
  | .remove path => .ofWindow window (files.remove path)

/-- The effects of events one after another, up to the first that aborts. -/
def Window.play (window : Window) (files : FileSystem) : List Action → List Window.Effect
  | [] => []
  | action :: actions =>
    let effect := window.handle files action
    match effect.abort? with
    -- What would have come after an abort does not happen.
    | some _ => [effect]
    | none => effect :: effect.window.play effect.files actions

/-- The window as a session begins, with the file of the command line. -/
def Window.opening (files : FileSystem) : Option String → Window.Effect
  | none | some "" => .ofWindow .initial files
  | some path => Window.initial.openPath files path

/-- A session: how it began and the effects of its events, the one that aborted it
    included. -/
structure Session where
  opening : Window.Effect
  effects : List Window.Effect

/-- The session of a command line and events. -/
def Session.run (files : FileSystem) (options : CommandLine.Options) (actions : List Action) :
    Session :=
  let opening := Window.opening files options.file
  match opening.abort? with
  | some _ => { opening, effects := [] }
  | none => { opening, effects := opening.window.play opening.files actions }

namespace Session

/-- The last effect of a session. -/
def last (session : Session) : Window.Effect :=
  session.effects.getLastD session.opening

/-- The events that did not abort. -/
def completed (session : Session) : List Window.Effect :=
  session.effects.filter (·.abort?.isNone)

/-- All that was logged. -/
def log (session : Session) : List Event :=
  (session.opening :: session.effects).flatMap (·.log)

/-- What is printed, and how the program ends: with the given status unless the session is
    aborted. -/
def report (session : Session) (options : CommandLine.Options) (status : Int) :
    CommandLine.Report :=
  { status := match session.last.abort? with
      | some abort => .error abort
      | none => .ok status
    out := ""
    err := CommandLine.shownLog options session.log }

end Session

end MiniPascal.Editor
