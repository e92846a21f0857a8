import Simulcast.Json.Fault
import Simulcast.Text.Hex
import Simulcast.Text.Utf8
/-!
# JSON strings

A string is written between quotes.  Quotes, backslashes and control characters are
escaped, all else stands for itself.

Reading is a machine over the bytes behind the opening quote.  A string is either
read, and then its escapes must stand for characters and its bytes must be UTF-8, or
skipped, and then only its shape is looked at.
-/

namespace Simulcast

namespace Json

/-! ### Writing -/

/-- A character as it is written inside a string. -/
def escapeChar (c : Char) : List Char :=
  if c = '"' then ['\\', '"']
  else if c = '\\' then ['\\', '\\']
  else if c = '\n' then ['\\', 'n']
  else if c = '\r' then ['\\', 'r']
  else if c = '\t' then ['\\', 't']
  else if c = '\x08' then ['\\', 'b']
  else if c = '\x0c' then ['\\', 'f']
  else if c.toNat < 32 then
    ['\\', 'u', '0', '0', Hex.digit (c.toNat / 16), Hex.digit (c.toNat % 16)]
  else [c]

/-- A text as a JSON string. -/
def quote (s : String) : String :=
  String.ofList ('"' :: s.toList.flatMap escapeChar ++ ['"'])

/-! ### Reading -/

/-- The byte that a one-letter escape stands for. -/
def shortEscape (b : UInt8) : Option UInt8 :=
  if b = 34 then some 34
  else if b = 92 then some 92
  else if b = 47 then some 47
  else if b = 98 then some 8
  else if b = 102 then some 12
  else if b = 110 then some 10
  else if b = 114 then some 13
  else if b = 116 then some 9
  else none

/-- Whether a number is the first half of a surrogate pair. -/
def isLeading (n : Nat) : Bool := 0xD800 ≤ n && n ≤ 0xDBFF

/-- Whether a number is the second half of a surrogate pair. -/
def isTrailing (n : Nat) : Bool := 0xDC00 ≤ n && n ≤ 0xDFFF

/-- Where the reader of a string stands. -/
inductive StringState where
  /-- Between characters. -/
  | plain
  /-- Behind a backslash. -/
  | escape
  /-- Inside a hexadecimal escape, with the digits so far, last one first, and the
  first half of a surrogate pair if one came before. -/
  | hex (digits : List UInt8) (leading : Option Nat)
  /-- Behind the first half of a surrogate pair: a backslash is due. -/
  | pair (leading : Nat)
  /-- Behind that backslash: a `u` is due. -/
  | pairEscape (leading : Nat)
  deriving DecidableEq, Repr

/-- What one byte does to the reader of a string. -/
inductive StringStep where
  /-- The closing quote. -/
  | close
  /-- Some bytes of the string are known, and the reader goes on in a state. -/
  | emit (bytes : List UInt8) (next : StringState)
  | fail (cause : Cause)
  deriving DecidableEq, Repr

/-- The step at the fourth digit of a hexadecimal escape. -/
def hexStep (digits : List UInt8) (leading : Option Nat) : StringStep :=
  match Hex.number? digits, leading with
  | none, _ => .fail .invalidEscape
  | some n, none =>
    if isTrailing n then .fail .loneSurrogate
    else if isLeading n then .emit [] (.pair n)
    else .emit (String.utf8EncodeChar (Char.ofNat n)) .plain
  | some n, some first =>
    if isTrailing n then
      .emit (String.utf8EncodeChar (Char.ofNat (0x10000 + (first - 0xD800) * 0x400 + (n - 0xDC00))))
        .plain
    else .fail .loneSurrogate

/-- The step at one byte. -/
def stringStep (state : StringState) (b : UInt8) : StringStep :=
  match state with
  | .plain =>
    if b = 34 then .close
    else if b = 92 then .emit [] .escape
    else if b < 32 then .fail .controlCharacter
    else .emit [b] .plain
  | .escape =>
    if b = 117 then .emit [] (.hex [] none)
    else
      match shortEscape b with
      | some byte => .emit [byte] .plain
      | none => .fail .invalidEscape
  | .hex digits leading =>
    if digits.length < 3 then .emit [] (.hex (b :: digits) leading)
    else hexStep (b :: digits).reverse leading
  | .pair leading =>
    if b = 92 then .emit [] (.pairEscape leading) else .fail .unexpectedEndOfHexEscape
  | .pairEscape leading =>
    if b = 117 then .emit [] (.hex [] (some leading)) else .fail .unexpectedEndOfHexEscape

/-- Reads the bytes of a string up to its closing quote.  `bytes` holds what is known
of the string, last byte first. -/
def stringBytes (state : StringState) (bytes : List UInt8) : List UInt8 → Read (List UInt8)
  | [] => .error (.atEnd .eofString)
  | b :: rest =>
    match stringStep state b with
    | .close => .ok (bytes.reverse, rest)
    | .emit more next => stringBytes next (more.reverse ++ bytes) rest
    | .fail cause => .error (.before cause rest)

/-- Reads a string behind its opening quote.  A fault in its bytes is placed at the first
one that is no text, counted back from the closing quote, so that an escape after it
counts with the bytes that it stands for. -/
def readString (s : List UInt8) : Read String :=
  match stringBytes .plain [] s with
  | .error fault => .error fault
  | .ok (bytes, rest) =>
    match Utf8.decodeString bytes with
    | .ok text => .ok (text, rest)
    | .error fault => .error ⟨.invalidCodePoint, rest.length + (bytes.length - fault.index)⟩

end Json

end Simulcast
