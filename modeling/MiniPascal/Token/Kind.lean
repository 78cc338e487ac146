/-!
# Kinds of tokens

Every lexeme of the language is of one of 42 kinds: the 17 reserved words, the
operators, the delimiters, the classes of literals and names, and `symbol` for any
other single character. Each kind has a name, a text that stands for it where a token
carries none of its own, and a group, which is what the token table and the editor's
colours tell apart.
-/

namespace MiniPascal

/-- A coarse class of kinds. -/
inductive Group
  | reserved
  | arithmetic
  | assignment
  | relational
  | logical
  | number
  | string
  | identifier
  | delimiter
  | unknown
  deriving DecidableEq, Repr

/-- The name of a group. -/
def Group.name : Group → String
  | reserved => "reserved"
  | arithmetic => "arithmetic"
  | assignment => "assignment"
  | relational => "relational"
  | logical => "logical"
  | number => "number"
  | string => "string"
  | identifier => "identifier"
  | delimiter => "delimiter"
  | unknown => "unknown"

/-- The kind of a token. -/
inductive Kind
  | kwProgram
  | kwBegin
  | kwEnd
  | kwType
  | kwInt
  | kwFloat
  | kwChar
  | kwBool
  | kwIf
  | kwThen
  | kwElse
  | kwWhile
  | kwDo
  | kwRepeat
  | kwUntil
  | kwIn
  | kwOut
  | equal
  | notEqual
  | less
  | lessEqual
  | greater
  | greaterEqual
  | assign
  | plus
  | minus
  | or
  | times
  | divide
  | and
  | not
  | semicolon
  | colon
  | comma
  | leftParen
  | rightParen
  | num
  | real
  | charConst
  | literal
  | ident
  | symbol
  deriving DecidableEq, Repr

namespace Kind

/-- All kinds. -/
def all : List Kind :=
  [ kwProgram, kwBegin, kwEnd, kwType, kwInt, kwFloat, kwChar, kwBool, kwIf, kwThen, kwElse,
    kwWhile, kwDo, kwRepeat, kwUntil, kwIn, kwOut, equal, notEqual, less, lessEqual, greater,
    greaterEqual, assign, plus, minus, or, times, divide, and, not, semicolon, colon, comma,
    leftParen, rightParen, num, real, charConst, literal, ident, symbol ]

/-- The name of a kind. -/
def name : Kind → String
  | kwProgram => "PROGRAM"
  | kwBegin => "BEGIN"
  | kwEnd => "END"
  | kwType => "TYPE"
  | kwInt => "INT"
  | kwFloat => "FLOAT"
  | kwChar => "CHAR"
  | kwBool => "BOOL"
  | kwIf => "IF"
  | kwThen => "THEN"
  | kwElse => "ELSE"
  | kwWhile => "WHILE"
  | kwDo => "DO"
  | kwRepeat => "REPEAT"
  | kwUntil => "UNTIL"
  | kwIn => "IN"
  | kwOut => "OUT"
  | equal => "EQ"
  | notEqual => "NE"
  | less => "LT"
  | lessEqual => "LE"
  | greater => "GT"
  | greaterEqual => "GE"
  | assign => "ASSIGN"
  | plus => "PLUS"
  | minus => "MINUS"
  | or => "OR"
  | times => "TIMES"
  | divide => "DIV"
  | and => "AND"
  | not => "NOT"
  | semicolon => "SEMICOLON"
  | colon => "COLON"
  | comma => "COMMA"
  | leftParen => "LPAREN"
  | rightParen => "RPAREN"
  | num => "NUM"
  | real => "REAL"
  | charConst => "CHAR_CONST"
  | literal => "LITERAL"
  | ident => "ID"
  | symbol => "SYMBOL"

/-- The text that stands for a kind: the spelling of a reserved word, an operator or a
    delimiter, and the name of any other kind. -/
def text : Kind → String
  | kwProgram => "program"
  | kwBegin => "begin"
  | kwEnd => "end"
  | kwType => "type"
  | kwInt => "int"
  | kwFloat => "float"
  | kwChar => "char"
  | kwBool => "bool"
  | kwIf => "if"
  | kwThen => "then"
  | kwElse => "else"
  | kwWhile => "while"
  | kwDo => "do"
  | kwRepeat => "repeat"
  | kwUntil => "until"
  | kwIn => "in"
  | kwOut => "out"
  | equal => "=="
  | notEqual => "!="
  | less => "<"
  | lessEqual => "<="
  | greater => ">"
  | greaterEqual => ">="
  | assign => "="
  | plus => "+"
  | minus => "-"
  | or => "||"
  | times => "*"
  | divide => "/"
  | and => "&&"
  | not => "!"
  | semicolon => ";"
  | colon => ":"
  | comma => ","
  | leftParen => "("
  | rightParen => ")"
  | num => "NUM"
  | real => "REAL"
  | charConst => "CHAR_CONST"
  | literal => "LITERAL"
  | ident => "ID"
  | symbol => "SYMBOL"

/-- The group of a kind. -/
def group : Kind → Group
  | equal | notEqual | less | lessEqual | greater | greaterEqual => .relational
  | assign => .assignment
  | plus | minus | times | divide => .arithmetic
  | or | and | not => .logical
  | semicolon | colon | comma | leftParen | rightParen => .delimiter
  | num | real => .number
  | charConst | literal => .string
  | ident => .identifier
  | symbol => .unknown
  | _ => .reserved

/-- The reserved words, in the order in which a lexer knows them. -/
def reservedWords : List Kind :=
  [ kwIf, kwProgram, kwBegin, kwEnd, kwType, kwInt, kwFloat, kwChar, kwBool, kwThen, kwElse,
    kwWhile, kwDo, kwRepeat, kwUntil, kwIn, kwOut ]

/-- The kind of a name. -/
def ofName? (s : String) : Option Kind :=
  all.find? fun kind => kind.name == s

theorem mem_all (kind : Kind) : kind ∈ all := by
  cases kind <;> decide

/-- The reserved words are the kinds of the group of that name. -/
theorem mem_reservedWords_iff (kind : Kind) : kind ∈ reservedWords ↔ kind.group = .reserved := by
  cases kind <;> decide

end Kind

end MiniPascal
