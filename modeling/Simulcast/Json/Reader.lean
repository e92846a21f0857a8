import Simulcast.Json.Number
import Simulcast.Json.Skip
import Simulcast.Text.Quoted
/-!
# Reading JSON documents

A document is read for what it should be: the reader of a string, a number or a
record looks at the next value and either takes it or says what it found instead.

A record is an object with known fields.  Fields may come in any order and each at
most once; unknown fields are skipped; a field that is required must be there.  A
record may also be written as a list of its fields in their order.
-/

namespace Simulcast

namespace Json

/-! ### Values of the wrong type -/

/-- Reads the letters of a literal that are still due. -/
def readIdent : (due : List UInt8) → List UInt8 → Except Fault (List UInt8)
  | [], s => .ok s
  | _ :: _, [] => .error (.atEnd .eofValue)
  | d :: due, b :: rest =>
    if b = d then readIdent due rest else .error (.before .expectedIdent rest)

/-- The fault of a value behind which `rest` follows. -/
def mismatch (expected : String) (found : Found) (rest : List UInt8) : Fault :=
  .before (.invalidType found expected) rest

/-- The fault of a literal of the wrong type. -/
def literalMismatch (expected : String) (found : Found) (due rest : List UInt8) : Fault :=
  match readIdent due rest with
  | .ok rest => mismatch expected found rest
  | .error fault => fault

/-- The fault of a number of the wrong type. -/
def numberMismatch (expected : String) (number : Read Number) : Fault :=
  match number with
  | .ok (n, rest) => mismatch expected n.found rest
  | .error fault => fault

/-- The fault of the value at the start of a text, if something else is expected. -/
def wrongType (expected : String) (s : List UInt8) : Fault :=
  match s with
  | [] => .atEnd .eofValue
  | b :: rest =>
    if b = 110 then literalMismatch expected .null [117, 108, 108] rest
    else if b = 116 then literalMismatch expected (.bool true) [114, 117, 101] rest
    else if b = 102 then literalMismatch expected (.bool false) [97, 108, 115, 101] rest
    else if b = 45 then numberMismatch expected (readNumber true rest)
    else if isDigit b then numberMismatch expected (readNumber false s)
    else if b = 34 then
      match readString rest with
      | .ok (text, rest) => mismatch expected (.string (Quoted.text text)) rest
      | .error fault => fault
    else if b = 91 then mismatch expected .sequence s
    else if b = 123 then mismatch expected .map s
    else .atNext .expectedValue s

/-! ### Simple values -/

/-- Reads a string. -/
def readText (s : List UInt8) : Read String :=
  match skipBlanks s with
  | 34 :: rest => readString rest
  | t => .error (wrongType "a string" t)

/-- Reads a truth value. -/
def readBool (s : List UInt8) : Read Bool :=
  match skipBlanks s with
  | 116 :: rest => (readIdent [114, 117, 101] rest).map (true, ·)
  | 102 :: rest => (readIdent [97, 108, 115, 101] rest).map (false, ·)
  | t => .error (wrongType "a boolean" t)

/-- Takes a number if it is an integer from zero up. -/
def takeUnsigned (expected : String) : Read Number → Read UInt64
  | .ok (.unsigned n, rest) => .ok (n, rest)
  | .ok (.negative n, rest) =>
    .error (.before (.invalidValue (Number.negative n).found expected) rest)
  | .ok (.float x, rest) => .error (mismatch expected (Number.float x).found rest)
  | .error fault => .error fault

/-- Reads an integer from zero up. -/
def readUnsigned (expected : String) (s : List UInt8) : Read UInt64 :=
  match skipBlanks s with
  | [] => .error (.atEnd .eofValue)
  | b :: rest =>
    if b = 45 then takeUnsigned expected (readNumber true rest)
    else if isDigit b then takeUnsigned expected (readNumber false (b :: rest))
    else .error (wrongType expected (b :: rest))

/-! ### Lists -/

/-- Looks for the next item of a list.  True with the text at the item, or false with
the text at the closing bracket. -/
def nextItem (first : Bool) (s : List UInt8) : Read Bool :=
  match skipBlanks s with
  | [] => .error (.atEnd .eofList)
  | b :: rest =>
    if b = 93 then .ok (false, b :: rest)
    else if first then .ok (true, b :: rest)
    else if b = 44 then
      match skipBlanks rest with
      | [] => .error (.atEnd .eofValue)
      | c :: tail =>
        if c = 93 then .error (.atNext .trailingComma (c :: tail)) else .ok (true, c :: tail)
    else .error (.atNext .expectedListCommaOrEnd (b :: rest))

/-- Reads the closing bracket of a list of which all items were read. -/
def closeList (s : List UInt8) : Except Fault (List UInt8) :=
  match skipBlanks s with
  | [] => .error (.atEnd .eofList)
  | b :: rest =>
    if b = 93 then .ok rest
    else if b = 44 then
      match skipBlanks rest with
      | 93 :: tail => .error (.atNext .trailingComma (93 :: tail))
      | tail => .error (.atNext .trailingCharacters tail)
    else .error (.atNext .trailingCharacters (b :: rest))

/-- Reads at most `fuel` items up to the closing bracket. -/
def readItems {α : Type} (item : List UInt8 → Read α) :
    (fuel : Nat) → (first : Bool) → List UInt8 → Read (List α)
  | 0, _, _ => .error (.atEnd .eofList)
  | fuel + 1, first, s =>
    match nextItem first s with
    | .error fault => .error fault
    | .ok (false, rest) => .ok ([], rest.drop 1)
    | .ok (true, rest) =>
      match item rest with
      | .error fault => .error fault
      | .ok (a, rest) =>
        match readItems item fuel false rest with
        | .error fault => .error fault
        | .ok (as, rest) => .ok (a :: as, rest)

/-- Reads a list of items; each takes at least one byte. -/
def readList {α : Type} (item : List UInt8 → Read α) (s : List UInt8) : Read (List α) :=
  match skipBlanks s with
  | 91 :: rest => readItems item (rest.length + 1) true rest
  | t => .error (wrongType "a sequence" t)

/-! ### Records -/

/-- A field of a record. -/
structure Field (α : Type) where
  name : String
  required : Bool := true
  /-- Reads the field's value into the record. -/
  read : α → List UInt8 → Read α

/-- How a record is read. -/
structure Record (α : Type) where
  name : String
  /-- The record before any field was read. -/
  initial : α
  fields : List (Field α)

namespace Record

variable {α : Type}

/-- The record in words. -/
def expected (r : Record α) : String := "struct " ++ r.name

/-- The record with its number of fields, in words. -/
def expectedCount (r : Record α) : String :=
  r.expected ++ " with " ++ r.fields.length.repr ++
    (if r.fields.length = 1 then " element" else " elements")

/-- The first required field that was not read. -/
def missing? (r : Record α) (seen : List String) : Option String :=
  (r.fields.find? fun f => f.required && !seen.contains f.name).map Field.name

/-- The field with a name. -/
def field? (r : Record α) (name : String) : Option (Field α) :=
  r.fields.find? fun f => f.name = name

end Record

/-- Reads the fields of a record that is written as a list.  `index` fields were read
before. -/
def readElements {α : Type} (r : Record α) :
    List (Field α) → (index : Nat) → (first : Bool) → α → List UInt8 → Read α
  | [], _, _, value, s => (closeList s).map (value, ·)
  | f :: fields, index, first, value, s =>
    match nextItem first s with
    | .error fault => .error fault
    | .ok (false, rest) =>
      if f.required then .error (.before (.invalidLength index r.expectedCount) (rest.drop 1))
      else readElements r fields (index + 1) first value rest
    | .ok (true, rest) =>
      match f.read value rest with
      | .error fault => .error fault
      | .ok (value, rest) => readElements r fields (index + 1) false value rest

/-- Looks at the place where a key is due. -/
def keyAt (s : List UInt8) : Read Bool :=
  match s with
  | [] => .error (.atEnd .eofValue)
  | b :: rest =>
    if b = 34 then .ok (true, rest)
    else if b = 125 then .error (.atNext .trailingComma s)
    else .error (.atNext .keyMustBeString s)

/-- Looks for the next key of an object.  True with the text behind the key's opening
quote, or false with the text behind the closing bracket. -/
def nextKey (first : Bool) (s : List UInt8) : Read Bool :=
  match skipBlanks s with
  | [] => .error (.atEnd .eofObject)
  | b :: rest =>
    if b = 125 then .ok (false, rest)
    else if first then keyAt (b :: rest)
    else if b = 44 then keyAt (skipBlanks rest)
    else .error (.atNext .expectedObjectCommaOrEnd (b :: rest))

/-- Reads the colon behind a key. -/
def readColon (s : List UInt8) : Except Fault (List UInt8) :=
  match skipBlanks s with
  | [] => .error (.atEnd .eofObject)
  | b :: rest => if b = 58 then .ok rest else .error (.atNext .expectedColon (b :: rest))

/-- Where a repeated key is reported: behind the blanks that follow it, and behind the
object's end if that comes next. -/
def behindKey (s : List UInt8) : List UInt8 :=
  match skipBlanks s with
  | 125 :: rest => rest
  | t => t

/-- Reads the value of a member of a record, or skips it. -/
def readMember {α : Type} (field : Option (Field α)) (value : α) (s : List UInt8) : Read α :=
  match readColon s with
  | .error fault => .error fault
  | .ok rest =>
    match field with
    | some f => f.read value rest
    | none => (skipValue rest).map (value, ·)

/-- Reads at most `fuel` members of a record up to the closing bracket.  `seen` holds
the fields that were read. -/
def readMembers {α : Type} (r : Record α) :
    (fuel : Nat) → (first : Bool) → (seen : List String) → α → List UInt8 → Read α
  | 0, _, _, _, _ => .error (.atEnd .eofObject)
  | fuel + 1, first, seen, value, s =>
    match nextKey first s with
    | .error fault => .error fault
    | .ok (false, rest) =>
      match r.missing? seen with
      | some name => .error (.before (.missingField name) rest)
      | none => .ok (value, rest)
    | .ok (true, rest) =>
      match readString rest with
      | .error fault => .error fault
      | .ok (name, rest) =>
        if (r.field? name).isSome && seen.contains name then
          .error (.before (.duplicateField name) (behindKey rest))
        else
          match readMember (r.field? name) value rest with
          | .error fault => .error fault
          | .ok (value, rest) => readMembers r fuel false (name :: seen) value rest

/-- Reads a record. -/
def readRecord {α : Type} (r : Record α) (s : List UInt8) : Read α :=
  match skipBlanks s with
  | 91 :: rest => readElements r r.fields 0 true r.initial rest
  | 123 :: rest => readMembers r (rest.length + 1) true [] r.initial rest
  | t => .error (wrongType r.expected t)

/-! ### Documents -/

/-- Reads a whole text; nothing but blanks may follow the value. -/
def readAll {α : Type} (read : List UInt8 → Read α) (input : List UInt8) : Except Fault α :=
  match read input with
  | .error fault => .error fault
  | .ok (value, rest) =>
    match skipBlanks rest with
    | [] => .ok value
    | b :: tail => .error (.atNext .trailingCharacters (b :: tail))

end Json

end Simulcast
