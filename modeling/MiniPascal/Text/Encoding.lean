/-!
# Encodings of files

The encodings a source file may be in, their names and how each reads bytes. Reading
is strict: `Encoding.decode` has no answer for bytes that the encoding could not have
written. In UTF-8 those are overlong forms, surrogates and values beyond Unicode, in
UTF-16 a surrogate that stands alone.

Bytes may also end in the middle of a character. They are then read up to there, and the
text is not complete (`Decoded`); who reads it as it goes need not notice. Likewise a long
file is read a stretch at a time, and bytes that cannot be read end the text with the
stretch before them (`Encoding.read`). Who asks for the whole text at once is refused it in
either case (`readWhole_eq_ok_iff`).

A byte-order mark is part of the text in `utf8` and in the two forms of UTF-16 that
name their byte order. It is dropped, if it is there, in `utf8Marked`, also one that the
end of the bytes cuts off; and `utf16` requires it and takes its byte order from it.
-/

namespace MiniPascal.Text

/-- An encoding of text files. -/
inductive Encoding
  | utf8
  | utf8Marked
  | latin1
  | ascii
  | utf16
  | utf16LittleEndian
  | utf16BigEndian
  deriving DecidableEq, Repr

/-- Why bytes are not read: the encoding could not have written them, or they lack the
    mark that would tell their byte order. -/
inductive DecodingFailure
  | undecodable
  | unmarked
  deriving DecidableEq, Repr

/-- A text as it is read: the characters handed out, and what is met after them if it is not
    the end of the text. -/
structure Reading where
  text : List Char
  failure? : Option DecodingFailure
  deriving DecidableEq, Repr

/-- The text that bytes spell, and whether it is all of it. -/
structure Decoded where
  text : List Char
  complete : Bool
  deriving DecidableEq, Repr

/-- The text with a character before it. -/
def Decoded.cons (c : Char) (decoded : Decoded) : Decoded :=
  { decoded with text := c :: decoded.text }

namespace Encoding

/-! ### Names -/

/-- The form in which names of encodings are compared: letters in lowercase, and an
    underscore for each stretch of other characters between letters and digits. -/
def normalizeName (name : String) : String :=
  let spaced := name.toList.map fun c =>
    if c.isAlphanum || c == '.' then c.toLower else '_'
  String.intercalate "_" (((spaced.splitOn '_').filter (· ≠ [])).map String.ofList)

/-- The name of an encoding, in the form of `normalizeName`. -/
def name : Encoding → String
  | utf8 => "utf_8"
  | utf8Marked => "utf_8_sig"
  | latin1 => "latin_1"
  | ascii => "ascii"
  | utf16 => "utf_16"
  | utf16LittleEndian => "utf_16_le"
  | utf16BigEndian => "utf_16_be"

/-- The other names an encoding goes by, in the form of `normalizeName`. -/
def aliases : Encoding → List String
  | utf8 => ["utf8", "utf", "u8", "cp65001", "utf8_ucs2", "utf8_ucs4"]
  | utf8Marked => []
  | latin1 =>
    ["latin1", "latin", "l1", "iso_8859_1", "iso8859_1", "iso8859", "8859", "cp819",
      "csisolatin1", "ibm819", "iso_8859_1_1987", "iso_ir_100"]
  | ascii =>
    ["us_ascii", "us", "646", "ansi_x3.4_1968", "ansi_x3_4_1968", "ansi_x3.4_1986", "cp367",
      "csascii", "ibm367", "iso646_us", "iso_646.irv_1991", "iso_ir_6"]
  | utf16 => ["utf16", "u16"]
  | utf16LittleEndian => ["utf_16le", "unicodelittleunmarked"]
  | utf16BigEndian => ["utf_16be", "unicodebigunmarked"]

/-- A name with an underscore for each full stop. -/
def withoutStops (name : String) : String :=
  name.map fun c => if c = '.' then '_' else c

/-- Whether an encoding goes by a name in the form of `normalizeName`. In an alias, but not in
    the name itself, a full stop may stand for an underscore. -/
def goesBy (encoding : Encoding) (name : String) : Bool :=
  encoding.name == name || encoding.aliases.contains name ||
    encoding.aliases.contains (withoutStops name)

/-- The name for the encoding of the surroundings, which is taken to be `utf8`. It has no
    other spelling. -/
def localeName : String :=
  "locale"

/-- The encoding of a name, if there is one. -/
def ofName? (name : String) : Option Encoding :=
  if name = localeName then some utf8
  else [utf8, utf8Marked, latin1, ascii, utf16, utf16LittleEndian, utf16BigEndian].find?
    fun encoding => encoding.goesBy (normalizeName name)

/-! ### Reading -/

/-- The 16-bit units that bytes spell, two bytes each, the lower byte first or last, and
    whether no byte is left over. -/
def units (lowFirst : Bool) : List UInt8 → List Nat × Bool
  | [] => ([], true)
  | [_] => ([], false)
  | a :: b :: bytes =>
    let unit := if lowFirst then a.toNat + 256 * b.toNat else 256 * a.toNat + b.toNat
    let (rest, complete) := units lowFirst bytes
    (unit :: rest, complete)

/-- A 16-bit unit that begins a surrogate pair. -/
def isHighSurrogate (unit : Nat) : Bool :=
  0xD800 ≤ unit && unit < 0xDC00

/-- A 16-bit unit that ends a surrogate pair. -/
def isLowSurrogate (unit : Nat) : Bool :=
  0xDC00 ≤ unit && unit < 0xE000

/-- The text that 16-bit units spell: a surrogate pair one character, any other unit one.
    Whether it is complete depends on the units, and on what `complete` tells of the bytes. -/
def ofUnits? (complete : Bool) : List Nat → Option Decoded
  | [] => some ⟨[], complete⟩
  | [unit] =>
    if isHighSurrogate unit then some ⟨[], false⟩
    else if isLowSurrogate unit then none
    else some ⟨[Char.ofNat unit], complete⟩
  | first :: second :: units =>
    -- The two halves of a pair come in one order only.
    if isHighSurrogate first then
      if isLowSurrogate second then
        let c := Char.ofNat (0x10000 + (first - 0xD800) * 0x400 + (second - 0xDC00))
        (ofUnits? complete units).map (·.cons c)
      else none
    else if isLowSurrogate first then none
    else (ofUnits? complete (second :: units)).map (·.cons (Char.ofNat first))

/-- The text of bytes in UTF-16 of the given byte order. -/
def decodeUtf16 (lowFirst : Bool) (bytes : List UInt8) : Option Decoded :=
  let (units, complete) := units lowFirst bytes
  ofUnits? complete units

/-- A byte that goes on with a character in UTF-8. -/
def isContinuation (b : UInt8) : Bool :=
  0x80 ≤ b && b < 0xC0

/-- Whether a second byte may follow the first one of a character of three or four bytes, as
    far as that is judged before the third one is there: overlong forms and values beyond
    Unicode are refused, surrogates not yet. -/
def mayFollow (a b : UInt8) : Bool :=
  isContinuation b && (a != 0xE0 || 0xA0 ≤ b) && (a != 0xF0 || 0x90 ≤ b) &&
    (a != 0xF4 || b < 0x90)

/-- Whether bytes are the beginning of a character in UTF-8 and not all of it. -/
def isCutOff : List UInt8 → Bool
  | [a] => 0xC2 ≤ a && a ≤ 0xF4
  | [a, b] => 0xE0 ≤ a && a ≤ 0xF4 && mayFollow a b
  | [a, b, c] => 0xF0 ≤ a && a ≤ 0xF4 && mayFollow a b && isContinuation c
  | _ => false

/-- The text of bytes in UTF-8 whose last `count` bytes are the beginning of a character. -/
def decodeCutOff (bytes : ByteArray) (count : Nat) : Option Decoded :=
  let whole := bytes.size - count
  if isCutOff (bytes.toList.drop whole) then
    (String.fromUTF8? (bytes.extract 0 whole)).map fun s => ⟨s.toList, false⟩
  else none

/-- The text of bytes in UTF-8. -/
def decodeUtf8 (bytes : ByteArray) : Option Decoded :=
  match String.fromUTF8? bytes with
  | some s => some ⟨s.toList, true⟩
  | none => [1, 2, 3].findSome? (decodeCutOff bytes)

/-- The text of bytes in UTF-8 that may begin with a byte-order mark or be part of one. -/
def decodeMarked (bytes : ByteArray) : Option Decoded :=
  match bytes.toList with
  | [0xEF] | [0xEF, 0xBB] => some ⟨[], true⟩
  | _ => (decodeUtf8 bytes).map fun
    | ⟨'\uFEFF' :: cs, complete⟩ => ⟨cs, complete⟩
    | decoded => decoded

/-- The text that bytes spell, if the encoding could have written them and some bytes after
    them. -/
def decode (encoding : Encoding) (bytes : ByteArray) : Option Decoded :=
  match encoding with
  | utf8 => decodeUtf8 bytes
  | utf8Marked => decodeMarked bytes
  | latin1 => some ⟨bytes.toList.map fun b => Char.ofNat b.toNat, true⟩
  | ascii =>
    if bytes.toList.all (· < 128) then some ⟨bytes.toList.map fun b => Char.ofNat b.toNat, true⟩
    else none
  | utf16 =>
    match bytes.toList with
    | 0xFF :: 0xFE :: rest => decodeUtf16 true rest
    | 0xFE :: 0xFF :: rest => decodeUtf16 false rest
    -- The mark is missed only once there is a character in its place.
    | bytes => (decodeUtf16 true bytes).filter fun decoded => decoded.text.isEmpty
  | utf16LittleEndian => decodeUtf16 true bytes.toList
  | utf16BigEndian => decodeUtf16 false bytes.toList

/-- The number of bytes of a file that are read at a time. -/
def stretchSize : Nat :=
  8192

/-- The text of the stretches of a file that come before one that cannot be read. -/
def readableText (encoding : Encoding) (bytes : ByteArray) : List Char :=
  let counts := (List.range (bytes.size / stretchSize + 1)).reverse
  let texts := counts.map fun count => encoding.decode (bytes.extract 0 (count * stretchSize))
  -- Stretches up to one that can be read can be read themselves, so the most of them count.
  ((texts.findSome? id).map Decoded.text).getD []

/-- The text of bytes that lack the mark of their byte order, as if it were the lower byte
    first. -/
def unmarked? (encoding : Encoding) (bytes : ByteArray) : Option Decoded :=
  match encoding, bytes.toList with
  | utf16, 0xFF :: 0xFE :: _ => none
  | utf16, 0xFE :: 0xFF :: _ => none
  | utf16, bytes => (decodeUtf16 true bytes).filter fun decoded => !decoded.text.isEmpty
  | _, _ => none

/-- The text that the bytes of a file are read as, one character after another. -/
def read (encoding : Encoding) (bytes : ByteArray) : Reading :=
  match encoding.decode bytes with
  | some ⟨text, true⟩ => ⟨text, none⟩
  | some ⟨text, false⟩ => ⟨text, some .undecodable⟩
  | none =>
    let text := encoding.readableText bytes
    match encoding.unmarked? (bytes.extract 0 stretchSize) with
    | some _ => ⟨text, some .unmarked⟩
    | none => ⟨text, some .undecodable⟩

/-- The text that the bytes of a file are read as, all at once. -/
def readWhole (encoding : Encoding) (bytes : ByteArray) : Except DecodingFailure (List Char) :=
  match encoding.decode bytes with
  | some ⟨text, true⟩ => .ok text
  | some ⟨_, false⟩ => .error .undecodable
  | none =>
    match encoding.unmarked? bytes with
    | some ⟨_, true⟩ => .error .unmarked
    | _ => .error .undecodable

end Encoding

end MiniPascal.Text
