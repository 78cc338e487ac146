import MiniPascal.Text.Newline
import MiniPascal.Text.Numeral
import MiniPascal.Text.Quoted
import MiniPascal.Trace

/-!
# Reading a command line

The arguments of the program are flags, with or without an argument of their own, and
the name of one file. How they are read:

* an argument that begins with a dash and is more than a dash is a flag, unless it looks
  like a negative number or, known flags apart, holds a blank; after a `--` nothing is a
  flag;
* a long flag may be shortened as long as only one begins that way, and may carry its
  argument after `=`;
* short flags may be run together, with or without a `=` after the first one; all of a run
  must be flags.

First all arguments are told apart (`classify`), then they take effect one by one
(`Reading.take`); so an ambiguous flag anywhere is reported before a help flag is heeded,
but other mistakes only if no help flag comes before them.
-/

namespace MiniPascal.CommandLine

/-- The flags of the program. -/
inductive Flag
  | help
  | verbose
  | encoding
  | tokens
  | symbols
  | ide
  deriving DecidableEq, Repr

namespace Flag

/-- The short spelling of a flag, if it has one. -/
def short? : Flag → Option Char
  | help => some 'h'
  | verbose => some 'v'
  | _ => none

/-- The long spelling of a flag. -/
def long : Flag → String
  | help => "--help"
  | verbose => "--verbose"
  | encoding => "--encoding"
  | tokens => "--tokens"
  | symbols => "--symbols"
  | ide => "--ide"

/-- All flags. -/
def all : List Flag :=
  [help, verbose, encoding, tokens, symbols, ide]

/-- The flag of a short spelling. -/
def ofShort? (c : Char) : Option Flag :=
  all.find? fun flag => flag.short? = some c

/-- The flag of a long spelling. -/
def ofLong? (s : String) : Option Flag :=
  all.find? fun flag => flag.long = s

/-- Whether a flag needs an argument of its own. -/
def takesArgument (flag : Flag) : Bool :=
  flag = encoding

/-- The spellings of a flag, as messages show them. -/
def display (flag : Flag) : String :=
  match flag.short? with
  | some c => s!"-{c}/{flag.long}"
  | none => flag.long

end Flag

/-- What is wrong with a command line. -/
inductive Misuse
  | ambiguous (argument : String) (flags : List Flag)
  | ignoredArgument (flag : Flag) (argument : String)
  | expectedArgument (flag : Flag)
  | unrecognized (arguments : List String)
  | fileRequired
  deriving DecidableEq, Repr

/-- The wording of a misuse. -/
def Misuse.text : Misuse → String
  | ambiguous argument flags =>
    let matching := String.intercalate ", " (flags.map Flag.long)
    s!"ambiguous option: {argument} could match {matching}"
  | ignoredArgument flag argument =>
    s!"argument {flag.display}: ignored explicit argument {Text.quoted argument}"
  | expectedArgument flag => s!"argument {flag.display}: expected one argument"
  | unrecognized arguments =>
    let listed := String.intercalate " " arguments
    s!"unrecognized arguments: {listed}"
  | fileRequired => "FILE is required unless --ide is given"

/-- What the command line asks for. -/
structure Options where
  verbosity : Nat
  /-- The name of the file's encoding, or none if a separator was given for one. -/
  encoding : Option String
  tokens : Bool
  symbols : Bool
  ide : Bool
  file : Option String
  deriving DecidableEq, Repr

/-- What is done if nothing is asked for. -/
def Options.default : Options :=
  { verbosity := 0, encoding := some "utf-8", tokens := false, symbols := false, ide := false
    file := none }

/-- The level of detail of the log, if it is shown. -/
def Options.level? (options : Options) : Option Level :=
  match options.verbosity with
  | 0 => none
  | 1 => some .info
  | _ => some .debug

/-! ### Telling arguments apart -/

/-- An argument of the command line. -/
inductive Argument
  | separator
  | operand (s : String)
  /-- A long flag, and what stands after its `=`. -/
  | long (flag : Flag) (explicit : Option String)
  /-- A run of short flags: the first one, and those after it if anything is. -/
  | shorts (flag : Flag) (more : Option (List Char))
  | unknown (s : String)
  deriving DecidableEq, Repr

/-- Whether an argument looks like a negative number: digits of any script after a dash, with
    or without a point before some of them, and perhaps the end of the line. -/
def isNegativeNumber (cs : List Char) : Bool :=
  match Text.dropFinal '\n' cs with
  | '-' :: digits =>
    match digits.dropWhile Text.isDecimalDigit with
    | [] => digits ≠ []
    | '.' :: fraction => fraction ≠ [] && fraction.all Text.isDecimalDigit
    | _ => false
  | _ => false

/-- The part before the first `=`, and the part after it if there is one. -/
def splitEquals (cs : List Char) : List Char × Option (List Char) :=
  match cs.dropWhile (· ≠ '=') with
  | [] => (cs, none)
  | _ :: explicit => (cs.takeWhile (· ≠ '='), some explicit)

/-- An argument that is no known flag. -/
def unmatched (argument : String) : Argument :=
  if isNegativeNumber argument.toList || argument.toList.contains ' ' then .operand argument
  else .unknown argument

/-- Tells what an argument before any `--` is. -/
def classifyOne (argument : String) : Except Misuse Argument :=
  match argument.toList with
  | '-' :: '-' :: _ =>
    let (name, explicit) := splitEquals argument.toList
    let explicit := explicit.map String.ofList
    -- A spelling in full wins over those it abbreviates.
    match Flag.ofLong? argument, Flag.ofLong? (String.ofList name) with
    | some flag, _ => .ok (.long flag none)
    | none, some flag => .ok (.long flag explicit)
    | none, none =>
      match Flag.all.filter fun flag => name.isPrefixOf flag.long.toList with
      | [] => .ok (unmatched argument)
      | [flag] => .ok (.long flag explicit)
      | flags => .error (.ambiguous argument flags)
  | '-' :: c :: more =>
    match Flag.ofShort? c, more with
    | some flag, [] => .ok (.shorts flag none)
    | some flag, '=' :: more => .ok (.shorts flag (some more))
    | some flag, more => .ok (.shorts flag (some more))
    | none, _ => .ok (unmatched argument)
  | _ => .ok (.operand argument)

/-- Tells the arguments apart. -/
def classify : List String → Except Misuse (List Argument)
  | [] => .ok []
  | "--" :: arguments => .ok (.separator :: arguments.map .operand)
  | argument :: arguments => do
    let first ← classifyOne argument
    return first :: (← classify arguments)

/-! ### Taking effect -/

/-- How far the arguments have been read: the options so far, whether the file name has
    been passed, and the arguments that nothing asked for. -/
structure Reading where
  options : Options
  filePassed : Bool
  extras : List String

/-- Why reading stops early. -/
inductive Stop
  | help
  | misuse (misuse : Misuse)
  deriving DecidableEq, Repr

/-- The effect of a flag without an argument. -/
def Options.set (options : Options) : Flag → Except Stop Options
  | .help => .error .help
  | .verbose => .ok { options with verbosity := options.verbosity + 1 }
  | .tokens => .ok { options with tokens := true }
  | .symbols => .ok { options with symbols := true }
  | .ide => .ok { options with ide := true }
  | .encoding => .error (.misuse (.expectedArgument .encoding))

/-- The flags that follow a flag in a run. What is no flag would have to be an argument of
    the flag before it, which takes none. -/
def shortsAfter (flag : Flag) : List Char → Except Misuse (List Flag)
  | [] => .ok []
  | c :: more =>
    match Flag.ofShort? c with
    | none => .error (.ignoredArgument flag (String.ofList (c :: more)))
    | some next => do return next :: (← shortsAfter next more)

/-- The flags of a run. A `=` with nothing after it gives an argument, which is empty. -/
def shortsOf (flag : Flag) : Option (List Char) → Except Misuse (List Flag)
  | none => .ok [flag]
  | some [] => .error (.ignoredArgument flag "")
  | some more => do return flag :: (← shortsAfter flag more)

/-- A mistake stops the reading. -/
def orStop {α : Type} : Except Misuse α → Except Stop α
  | .ok a => .ok a
  | .error misuse => .error (.misuse misuse)

/-- What the argument of a flag names. A separator names nothing. -/
def nameOf? (argument : String) : Option String :=
  if argument = "--" then none else some argument

/-- The reading with the encoding named by an argument. -/
def Reading.nameEncoding (reading : Reading) (argument : String) : Reading :=
  { reading with options := { reading.options with encoding := nameOf? argument } }

/-- The reading with an argument that nothing asked for. -/
def Reading.extra (reading : Reading) (argument : String) : Reading :=
  { reading with extras := reading.extras ++ [argument] }

/-- The reading with the file name passed. -/
def Reading.passFile (reading : Reading) (file : Option String) : Reading :=
  { reading with options := { reading.options with file }, filePassed := true }

/-- Lets arguments take effect one by one. The first operand is the file name, and a
    separator before or after it belongs to it. -/
def Reading.take (reading : Reading) : List Argument → Except Stop Reading
  | [] => .ok reading
  | .operand s :: .separator :: arguments =>
    if reading.filePassed then ((reading.extra s).extra "--").take arguments
    else (reading.passFile (some s)).take arguments
  | .operand s :: arguments =>
    if reading.filePassed then (reading.extra s).take arguments
    else (reading.passFile (some s)).take arguments
  | .separator :: .operand s :: arguments =>
    if reading.filePassed then ((reading.extra "--").extra s).take arguments
    else (reading.passFile (some s)).take arguments
  | .separator :: arguments =>
    if reading.filePassed then (reading.extra "--").take arguments
    -- The place of the file name is taken, by no name.
    else (reading.passFile none).take arguments
  | .unknown s :: arguments => (reading.extra s).take arguments
  | .shorts flag more :: arguments => do
    -- A mistake in a run is reported before any of its flags takes effect.
    let flags ← orStop (shortsOf flag more)
    let options ← flags.foldlM Options.set reading.options
    { reading with options }.take arguments
  | .long flag (some explicit) :: arguments =>
    if flag.takesArgument then
      (reading.nameEncoding explicit).take arguments
    else .error (.misuse (.ignoredArgument flag explicit))
  | .long flag none :: .operand s :: arguments =>
    if flag.takesArgument then
      (reading.nameEncoding s).take arguments
    else do
      let options ← reading.options.set flag
      { reading with options }.take (.operand s :: arguments)
  | .long flag none :: arguments => do
    let options ← reading.options.set flag
    { reading with options }.take arguments
termination_by arguments => arguments.length

/-- What a command line asks for. A file is required unless the editor is. -/
def readOptions (arguments : List String) : Except Stop Options := do
  let arguments ← orStop (classify arguments)
  let reading ← Reading.take ⟨.default, false, []⟩ arguments
  -- The editor does not need a file, but no more than any other run may it be given two.
  if reading.extras ≠ [] then .error (.misuse (.unrecognized reading.extras))
  else if reading.options.ide then return reading.options
  else match reading.options.file with
    | none | some "" => .error (.misuse .fileRequired)
    | some _ => return reading.options

end MiniPascal.CommandLine
