/-!
# Why a JSON text is refused

A cause, and the place where it was noticed: the line, and the number of bytes of that line that had
been looked at. A fault met while reading carries a byte offset into the whole text;
`ReadError.locate` turns it into a line and a column.
-/

namespace ShareKeeper.Json

inductive ReadCause where
  | eofInList
  | eofInObject
  | eofInString
  | eofInValue
  | expectedColon
  | expectedCommaOrBracket
  | expectedCommaOrBrace
  | expectedWord
  | expectedValue
  | invalidEscape
  | invalidNumber
  | numberOutOfRange
  | controlCharacter
  | keyMustBeString
  | loneSurrogate
  | trailingComma
  | trailingCharacters
  | unfinishedSurrogatePair
  | tooDeep
  deriving DecidableEq, Repr

def ReadCause.message : ReadCause → String
  | .eofInList => "EOF while parsing a list"
  | .eofInObject => "EOF while parsing an object"
  | .eofInString => "EOF while parsing a string"
  | .eofInValue => "EOF while parsing a value"
  | .expectedColon => "expected `:`"
  | .expectedCommaOrBracket => "expected `,` or `]`"
  | .expectedCommaOrBrace => "expected `,` or `\x7d`"
  | .expectedWord => "expected ident"
  | .expectedValue => "expected value"
  | .invalidEscape => "invalid escape"
  | .invalidNumber => "invalid number"
  | .numberOutOfRange => "number out of range"
  | .controlCharacter => "control character (\\u0000-\\u001F) found while parsing a string"
  | .keyMustBeString => "key must be a string"
  | .loneSurrogate => "lone leading surrogate in hex escape"
  | .trailingComma => "trailing comma"
  | .trailingCharacters => "trailing characters"
  | .unfinishedSurrogatePair => "unexpected end of hex escape"
  | .tooDeep => "recursion limit exceeded"

/-- A cause at a byte offset. -/
structure Fault where
  cause : ReadCause
  offset : Nat
  deriving DecidableEq, Repr

/-- A cause at a line and a column. -/
structure ReadError where
  cause : ReadCause
  line : Nat
  column : Nat
  deriving DecidableEq, Repr

def ReadError.message (e : ReadError) : String :=
  e.cause.message ++ " at line " ++ toString e.line ++ " column " ++ toString e.column

/-- The line and column after a number of bytes, counted on from a line and a column. -/
def position (line column : Nat) : Nat → List Char → Nat × Nat
  | _, [] => (line, column)
  | bytes, c :: rest =>
    if bytes = 0 then (line, column)
    else if c = '\n' then position (line + 1) 0 (bytes - 1) rest
    else if bytes < c.utf8Size then (line, column + bytes)
    else position line (column + c.utf8Size) (bytes - c.utf8Size) rest

/-- Places a fault in its text. An offset beyond the text means its end. -/
def Fault.locate (f : Fault) (text : List Char) : ReadError :=
  let (line, column) := position 1 0 f.offset text
  ⟨f.cause, line, column⟩

end ShareKeeper.Json
