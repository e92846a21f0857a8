import Simulcast.Json.StringLiteral
/-!
# Skipping a JSON value

A field that nobody asked for is skipped.  Only its shape is checked: brackets and
commas, the letters of the literals, the form of numbers and of escapes.  How deep
the value nests, how large its numbers are and what its strings hold does not matter.

Skipping is a machine over the bytes with a stack of the brackets that are open.
-/

namespace Simulcast

namespace Json

/-- An open bracket. -/
inductive Bracket where
  | list
  | object
  deriving DecidableEq, Repr

/-- The byte that closes a bracket. -/
def Bracket.closer : Bracket → UInt8
  | list => 93
  | object => 125

/-- The text ends inside a bracket. -/
def Bracket.eof : Bracket → Cause
  | list => .eofList
  | object => .eofObject

/-- A comma or the closing bracket is missing. -/
def Bracket.expected : Bracket → Cause
  | list => .expectedListCommaOrEnd
  | object => .expectedObjectCommaOrEnd

/-- Where the skipper stands. -/
inductive SkipState where
  /-- Before a value. -/
  | value
  /-- Inside a literal: the bytes that are still due. -/
  | ident (due : List UInt8)
  /-- Inside a string; `key` if a colon has to follow it. -/
  | string (key : Bool)
  /-- Behind a backslash of a string. -/
  | escape (key : Bool)
  /-- Inside a hexadecimal escape, with the digits so far, last one first. -/
  | hex (digits : List UInt8) (key : Bool)
  /-- Behind a minus sign. -/
  | minus
  /-- Behind a number's leading zero. -/
  | zero
  /-- Inside the whole part of a number. -/
  | whole
  /-- Behind a decimal point. -/
  | point
  /-- Inside a fraction. -/
  | fraction
  /-- Behind the letter of an exponent. -/
  | exponent
  /-- Behind the sign of an exponent. -/
  | exponentSign
  /-- Inside an exponent. -/
  | exponentDigits
  /-- Behind an opening bracket. -/
  | opened (b : Bracket)
  /-- Before a key. -/
  | key
  /-- Behind a key. -/
  | colon
  /-- Behind a value. -/
  | after
  deriving DecidableEq, Repr

/-- What one byte does to the skipper. -/
inductive SkipStep where
  /-- The byte is used up; the skipper goes on in a state with the given brackets open. -/
  | move (state : SkipState) (stack : List Bracket)
  /-- The value ended before the byte. -/
  | done
  /-- A fault at the byte, which counts as read. -/
  | fail (cause : Cause)
  /-- A fault before the byte, which is not read. -/
  | refuse (cause : Cause)
  deriving DecidableEq, Repr

/-- A value starts with the byte. -/
def stepValue (stack : List Bracket) (b : UInt8) : SkipStep :=
  if isBlank b then .move .value stack
  else if b = 110 then .move (.ident [117, 108, 108]) stack
  else if b = 116 then .move (.ident [114, 117, 101]) stack
  else if b = 102 then .move (.ident [97, 108, 115, 101]) stack
  else if b = 45 then .move .minus stack
  else if b = 48 then .move .zero stack
  else if isDigit b then .move .whole stack
  else if b = 34 then .move (.string false) stack
  else if b = 91 then .move (.opened .list) (.list :: stack)
  else if b = 123 then .move (.opened .object) (.object :: stack)
  else .fail .expectedValue

/-- A key starts with the byte. -/
def stepKey (stack : List Bracket) (b : UInt8) : SkipStep :=
  if isBlank b then .move .key stack
  else if b = 34 then .move (.string true) stack
  else .fail .keyMustBeString

/-- The byte follows a value. -/
def stepAfter (stack : List Bracket) (b : UInt8) : SkipStep :=
  match stack with
  | [] => .done
  | bracket :: outer =>
    if isBlank b then .move .after stack
    else if b = 44 then
      match bracket with
      | .list => .move .value stack
      | .object => .move .key stack
    else if b = bracket.closer then .move .after outer
    else .fail bracket.expected

/-- The byte follows a whole part. -/
def stepNumberTail (stack : List Bracket) (b : UInt8) : SkipStep :=
  if b = 46 then .move .point stack
  else if b = 101 ∨ b = 69 then .move .exponent stack
  else stepAfter stack b

/-- The step at one byte. -/
def skipStep (state : SkipState) (stack : List Bracket) (b : UInt8) : SkipStep :=
  match state with
  | .value => stepValue stack b
  | .ident [] => stepAfter stack b
  | .ident (d :: due) =>
    if b ≠ d then .fail .expectedIdent
    else if due.isEmpty then .move .after stack else .move (.ident due) stack
  | .string key =>
    if b = 34 then .move (if key then .colon else .after) stack
    else if b = 92 then .move (.escape key) stack
    else if b < 32 then .refuse .controlCharacter
    else .move (.string key) stack
  | .escape key =>
    if b = 117 then .move (.hex [] key) stack
    else if (shortEscape b).isSome then .move (.string key) stack
    else .fail .invalidEscape
  | .hex digits key =>
    if digits.length < 3 then .move (.hex (b :: digits) key) stack
    else if (Hex.number? (b :: digits)).isSome then .move (.string key) stack
    else .fail .invalidEscape
  | .minus =>
    if b = 48 then .move .zero stack
    else if isDigit b then .move .whole stack
    else .fail .invalidNumber
  | .zero => if isDigit b then .fail .invalidNumber else stepNumberTail stack b
  | .whole => if isDigit b then .move .whole stack else stepNumberTail stack b
  | .point => if isDigit b then .move .fraction stack else .fail .invalidNumber
  | .fraction =>
    if isDigit b then .move .fraction stack
    else if b = 101 ∨ b = 69 then .move .exponent stack
    else stepAfter stack b
  | .exponent =>
    if b = 43 ∨ b = 45 then .move .exponentSign stack
    else if isDigit b then .move .exponentDigits stack
    else .fail .invalidNumber
  | .exponentSign => if isDigit b then .move .exponentDigits stack else .fail .invalidNumber
  | .exponentDigits => if isDigit b then .move .exponentDigits stack else stepAfter stack b
  | .opened bracket =>
    if isBlank b then .move (.opened bracket) stack
    else if b = bracket.closer then .move .after stack.tail
    else
      match bracket with
      | .list => stepValue stack b
      | .object => stepKey stack b
  | .key => stepKey stack b
  | .colon =>
    if isBlank b then .move .colon stack
    else if b = 58 then .move .value stack
    else .fail .expectedColon
  | .after => stepAfter stack b

/-- The fault at the end of the text, if it may not end here. -/
def skipEnd (state : SkipState) (stack : List Bracket) : Option Cause :=
  match state with
  | .value | .ident (_ :: _) => some .eofValue
  | .string _ | .escape _ | .hex .. => some .eofString
  | .minus | .point | .exponent | .exponentSign => some .invalidNumber
  | .key | .colon => some .eofObject
  | .opened bracket => some bracket.eof
  | .ident [] | .zero | .whole | .fraction | .exponentDigits | .after => stack.head?.map Bracket.eof

/-- Whether a value just ended with nothing left open, so that the next byte is not
looked at. -/
def isFinished : SkipState → List Bracket → Bool
  | .after, [] => true
  | _, _ => false

/-- Skips on from a state. -/
def skipFrom (state : SkipState) (stack : List Bracket) : List UInt8 → Except Fault (List UInt8)
  | [] =>
    match skipEnd state stack with
    | some cause => .error (.atEnd cause)
    | none => .ok []
  | b :: rest =>
    if isFinished state stack then .ok (b :: rest)
    else
      match skipStep state stack b with
      | .move state stack => skipFrom state stack rest
      | .done => .ok (b :: rest)
      | .fail cause => .error (.before cause rest)
      | .refuse cause => .error (.before cause (b :: rest))

/-- Skips a value. -/
def skipValue (s : List UInt8) : Except Fault (List UInt8) := skipFrom .value [] s

end Json

end Simulcast
