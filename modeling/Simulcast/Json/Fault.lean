/-!
# Faults of a JSON text

Why a JSON text is refused, and where.  A fault is placed by the number of bytes that
lie behind it: the offending byte counts as read, and so does all of a value that has
the wrong type.  From that number and the whole text follow the line, counted from
one, and the column, the number of bytes of that line that were read.
-/

namespace Simulcast

namespace Json

/-- What was found instead of what was expected. -/
inductive Found where
  | null
  | bool (b : Bool)
  | integer (n : Int)
  /-- A number with a fraction or an exponent, or too large for an integer; the text
  is its decimal form. -/
  | float (text : String)
  /-- A string; the text is its quoted form. -/
  | string (quoted : String)
  | sequence
  | map
  deriving DecidableEq, Repr

/-- What was found, in words. -/
def Found.text : Found → String
  | null => "null"
  | bool true => "boolean `true`"
  | bool false => "boolean `false`"
  | integer n => "integer `" ++ n.repr ++ "`"
  | float text => "floating point `" ++ text ++ "`"
  | string quoted => "string " ++ quoted
  | sequence => "sequence"
  | map => "map"

/-- Why a text is refused. -/
inductive Cause where
  | eofValue
  | eofObject
  | eofList
  | eofString
  | expectedValue
  | expectedIdent
  | expectedColon
  | expectedObjectCommaOrEnd
  | expectedListCommaOrEnd
  | keyMustBeString
  | trailingComma
  | trailingCharacters
  | invalidNumber
  | numberOutOfRange
  | invalidEscape
  | unexpectedEndOfHexEscape
  | loneSurrogate
  | controlCharacter
  | invalidCodePoint
  | invalidType (found : Found) (expected : String)
  | invalidValue (found : Found) (expected : String)
  | missingField (name : String)
  | duplicateField (name : String)
  | invalidLength (length : Nat) (expected : String)
  deriving DecidableEq, Repr

/-- The text of a cause. -/
def Cause.text : Cause → String
  | eofValue => "EOF while parsing a value"
  | eofObject => "EOF while parsing an object"
  | eofList => "EOF while parsing a list"
  | eofString => "EOF while parsing a string"
  | expectedValue => "expected value"
  | expectedIdent => "expected ident"
  | expectedColon => "expected `:`"
  | expectedObjectCommaOrEnd => "expected `,` or `\x7d`"
  | expectedListCommaOrEnd => "expected `,` or `]`"
  | keyMustBeString => "key must be a string"
  | trailingComma => "trailing comma"
  | trailingCharacters => "trailing characters"
  | invalidNumber => "invalid number"
  | numberOutOfRange => "number out of range"
  | invalidEscape => "invalid escape"
  | unexpectedEndOfHexEscape => "unexpected end of hex escape"
  | loneSurrogate => "lone leading surrogate in hex escape"
  | controlCharacter => "control character (\\u0000-\\u001F) found while parsing a string"
  | invalidCodePoint => "invalid unicode code point"
  | invalidType found expected => "invalid type: " ++ found.text ++ ", expected " ++ expected
  | invalidValue found expected => "invalid value: " ++ found.text ++ ", expected " ++ expected
  | missingField name => "missing field `" ++ name ++ "`"
  | duplicateField name => "duplicate field `" ++ name ++ "`"
  | invalidLength length expected =>
    "invalid length " ++ length.repr ++ ", expected " ++ expected

/-- A fault with its place. -/
structure Fault where
  cause : Cause
  /-- The number of bytes behind the place. -/
  left : Nat
  deriving DecidableEq, Repr

namespace Fault

/-- A fault at the first byte of what is left, or at the end if nothing is. -/
def atNext (cause : Cause) (rest : List UInt8) : Fault := ⟨cause, rest.length - 1⟩

/-- A fault before all that is left. -/
def before (cause : Cause) (rest : List UInt8) : Fault := ⟨cause, rest.length⟩

/-- A fault at the end of the text. -/
def atEnd (cause : Cause) : Fault := ⟨cause, 0⟩

/-- The text of a fault found in the given input. -/
def message (f : Fault) (input : List UInt8) : String :=
  let read := input.take (input.length - f.left)
  let line := 1 + read.count 10
  let column := (read.reverse.takeWhile (· ≠ 10)).length
  f.cause.text ++ " at line " ++ line.repr ++ " column " ++ column.repr

end Fault

/-- The outcome of reading something at the start of a text: the value and what
follows it. -/
abbrev Read (α : Type) := Except Fault (α × List UInt8)

/-- Blanks between the parts of a text. -/
def isBlank (b : UInt8) : Bool := b = 32 || b = 10 || b = 9 || b = 13

/-- Skips blanks. -/
def skipBlanks (s : List UInt8) : List UInt8 := s.dropWhile isBlank

/-- Whether a byte is a decimal digit. -/
def isDigit (b : UInt8) : Bool := 48 ≤ b && b ≤ 57

end Json

end Simulcast
