import MiniPascal.Association
import MiniPascal.Fault
import MiniPascal.Text.Encoding
import MiniPascal.Text.Newline
import MiniPascal.Text.Quoted

/-!
# Files

A tree of files and directories below a working directory, and what reading and writing
its files by path amounts to. A path is walked name by name from the working directory;
every name but the last must lead to a directory. Reading needs a file to be there,
writing only a directory to put it in, and writing changes that file alone
(`node?_put_of_ne`).

Nothing is known of the world outside the working directory, so nothing is found there.
-/

namespace MiniPascal

/-- What a path leads to. -/
inductive Node
  | file (bytes : ByteArray)
  | directory

/-- Why the operating system refuses to open a file. -/
inductive AccessFailure
  | missing
  | notDirectory
  | isDirectory
  | nameTooLong
  deriving DecidableEq, Repr

namespace AccessFailure

/-- The number the operating system gives a refusal. -/
def number : AccessFailure → Nat
  | missing => 2
  | notDirectory => 20
  | isDirectory => 21
  | nameTooLong => 36

/-- The wording of a refusal. -/
def text : AccessFailure → String
  | missing => "No such file or directory"
  | notDirectory => "Not a directory"
  | isDirectory => "Is a directory"
  | nameTooLong => "File name too long"

/-- A refusal with its number and the path it is about. -/
def report (failure : AccessFailure) (path : String) : String :=
  s!"[Errno {failure.number}] {failure.text}: {Text.quoted path}"

end AccessFailure

/-- Why a file is not read or written: a refusal of the operating system, or a reason to
    abort. -/
inductive FileFailure
  | access (failure : AccessFailure)
  | abort (abort : Abort)
  deriving DecidableEq, Repr

/-- The files and directories below a working directory, each by the names that lead to
    it. Every directory around one of them is among them too. -/
structure FileSystem where
  nodes : List (List String × Node)

namespace FileSystem

/-- A place that a path has led to: a directory below the working directory, or one
    outside of it. -/
inductive Place
  | inside (names : List String)
  | outside

/-- An empty working directory. -/
def empty : FileSystem :=
  ⟨[]⟩

/-- What the names lead to. -/
def node? (files : FileSystem) (names : List String) : Option Node :=
  if names = [] then some .directory else files.nodes.lookup names

/-- The names of a path. -/
def names (path : String) : List String :=
  ((path.toList.splitOn '/').filter (· ≠ [])).map String.ofList

/-! ### Changing the tree -/

/-- The tree with a node put at the names. -/
def put (files : FileSystem) (names : List String) (node : Node) : FileSystem :=
  ⟨Association.set names node files.nodes⟩

/-- The directories around the names, outermost first. -/
def around (names : List String) : List (List String) :=
  (List.range names.length).tail.map names.take

/-- The tree with a node put at a path, the directories around it included. -/
def store (files : FileSystem) (path : String) (node : Node) : FileSystem :=
  let files := (around (names path)).foldl
    (fun files directory =>
      if (files.node? directory).isNone then files.put directory .directory else files)
    files
  files.put (names path) node

/-- The tree without the node at a path and what is below it. -/
def remove (files : FileSystem) (path : String) : FileSystem :=
  ⟨files.nodes.filter fun (ns, _) => !(names path).isPrefixOf ns⟩

/-- The files of the tree, each with its path. -/
def toList (files : FileSystem) : List (String × ByteArray) :=
  files.nodes.filterMap fun
    | (ns, .file bytes) => some (String.intercalate "/" ns, bytes)
    | (_, .directory) => none

/-! ### Walking a path -/

/-- The longest name, in bytes. -/
def nameLimit : Nat :=
  255

/-- The longest path, in bytes. -/
def pathLimit : Nat :=
  4095

/-- What a name leads to from a place, and the place itself if that is a directory. -/
def follow (files : FileSystem) (place : Place) (name : String) :
    Except AccessFailure (Option Node × Place) :=
  if name = "." then .ok (some .directory, place)
  else match place, name with
    | .outside, ".." => .ok (some .directory, .outside)
    | .inside ns, ".." =>
      .ok (some .directory, if ns = [] then .outside else .inside ns.dropLast)
    | .outside, _ => .ok (none, .outside)
    | .inside ns, _ =>
      if nameLimit < name.utf8ByteSize then .error .nameTooLong
      else .ok (files.node? (ns ++ [name]), .inside (ns ++ [name]))

/-- Walks through directories. -/
def walk (files : FileSystem) : Place → List String → Except AccessFailure Place
  | place, [] => .ok place
  | place, name :: names => do
    match ← files.follow place name with
    | (some .directory, next) => files.walk next names
    | (some (.file _), _) => .error .notDirectory
    | (none, _) => .error .missing

/-- The place that a path leads to before its last name, and that name, if it has any; the
    directories around it must be there. -/
def approach (files : FileSystem) (path : String) :
    Except AccessFailure (Place × Option String) :=
  let start := if path.toList.head? = some '/' then Place.outside else .inside []
  if path = "" then .error .missing
  else if pathLimit < path.utf8ByteSize then .error .nameTooLong
  else do return (← files.walk start (names path).dropLast, (names path).getLast?)

/-- What a path leads to, and where. -/
def resolve (files : FileSystem) (path : String) : Except AccessFailure (Option Node × Place) := do
  match ← files.approach path with
  | (place, some name) => files.follow place name
  | (place, none) => return (some .directory, place)

/-- Whether a path ends in a slash and so can only be a directory's. -/
def endsInSlash (path : String) : Bool :=
  path.toList.getLast? = some '/'

/-! ### Reading and writing bytes -/

/-- Whether a name holds a NUL, as no name can. -/
def holdsNul (name : String) : Bool :=
  name.toList.contains '\x00'

/-- The bytes of the file at a path. -/
def read (files : FileSystem) (path : String) : Except FileFailure ByteArray :=
  if holdsNul path then .error (.abort .nameWithNul)
  else match files.resolve path with
    | .error failure => .error (.access failure)
    | .ok (none, _) => .error (.access .missing)
    | .ok (some .directory, _) => .error (.access .isDirectory)
    | .ok (some (.file bytes), _) =>
      if endsInSlash path then .error (.access .notDirectory) else .ok bytes

/-- The tree with the file at a path holding the given bytes, a new file if there was
    none. A path that can only be a directory's is refused without looking further. -/
def write (files : FileSystem) (path : String) (bytes : ByteArray) :
    Except FileFailure FileSystem :=
  if holdsNul path then .error (.abort .nameWithNul)
  else match files.approach path with
    | .error failure => .error (.access failure)
    | .ok _ =>
      -- Nothing is written at such a path even where nothing is.
      if endsInSlash path then .error (.access .isDirectory)
      else match files.resolve path with
        | .error failure => .error (.access failure)
        | .ok (some .directory, _) => .error (.access .isDirectory)
        | .ok (_, .outside) => .error (.access .missing)
        | .ok (_, .inside ns) => .ok (files.put ns (.file bytes))

/-! ### Texts of files -/

/-- The name of an encoding, if there is one and it can be a name. This is seen before the file
    is looked for, and whether anybody knows the encoding after that. -/
def encodingName : Option String → Except FileFailure String
  | none => .error (.abort .noEncoding)
  | some name => if holdsNul name then .error (.abort .nameWithNul) else .ok name

/-- The encoding of a name. -/
def encodingOf (name : String) : Except FileFailure Text.Encoding :=
  match Text.Encoding.ofName? name with
  | some encoding => .ok encoding
  | none => .error (.abort .unknownEncoding)

/-- A text as it is read, with its line ends made line feeds. What a carriage return stands for
    is known only from the character after it, or from the end of the text. -/
def unifyReading (reading : Text.Reading) : Text.Reading :=
  match reading with
  | ⟨text, none⟩ => ⟨Text.unifyLineEnds text, none⟩
  | ⟨text, some failure⟩ => ⟨Text.unifyLineEnds (Text.dropFinal '\r' text), some failure⟩

/-- The text of a file's bytes in a named encoding as it is read. -/
def readingOf (bytes : ByteArray) (encoding : String) : Except FileFailure Text.Reading := do
  return unifyReading ((← encodingOf encoding).read bytes)

/-- The whole text of a file's bytes in a named encoding. -/
def textOf (bytes : ByteArray) (encoding : String) : Except FileFailure String := do
  match (← encodingOf encoding).readWhole bytes with
  | .ok text => return String.ofList (Text.unifyLineEnds text)
  | .error failure => throw (.abort (.unreadable failure))

/-- The whole text of the file at a path in a named encoding. -/
def readText (files : FileSystem) (path encoding : String) : Except FileFailure String := do
  textOf (← files.read path) encoding

/-- The tree with the file at a path holding a text in UTF-8. -/
def writeText (files : FileSystem) (path text : String) : Except FileFailure FileSystem :=
  files.write path text.toUTF8

end FileSystem

end MiniPascal
