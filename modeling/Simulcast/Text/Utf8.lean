/-!
# UTF-8

Text as bytes.  `Utf8.encode` writes a text, `Utf8.decode` reads bytes and names the
first fault: a sequence that cannot be continued, with the number of its bytes that
were still right, or a sequence that the end of the input cuts off.

Reading is a machine that takes one byte after another.  Between characters it is at
`start`; inside one it knows how many bytes are still due and in which range the next
one must lie.
-/

namespace Simulcast

namespace Utf8

/-! ### Writing -/

/-- The bytes of a text. -/
def encode (s : String) : List UInt8 := s.toList.flatMap String.utf8EncodeChar

/-! ### Reading -/

/-- Why bytes are no text. -/
inductive Fault where
  /-- From `index` on, `width` bytes can be followed by nothing that makes a character. -/
  | invalid (width index : Nat)
  /-- The sequence that starts at `index` is cut off. -/
  | incomplete (index : Nat)
  deriving DecidableEq, Repr

/-- The number of bytes before a fault; they are text. -/
def Fault.index : Fault → Nat
  | invalid _ index | incomplete index => index

/-- The text of a fault. -/
def Fault.message : Fault → String
  | invalid width index =>
    "invalid utf-8 sequence of " ++ width.repr ++ " bytes from index " ++ index.repr
  | incomplete index => "incomplete utf-8 byte sequence from index " ++ index.repr

/-- Where the machine stands. -/
inductive State where
  /-- Between characters. -/
  | start
  /-- Inside a character: `due` bytes to come, the next one from `low` to `high`;
  `seen` bytes have been read and give the number `code`. -/
  | inside (due : Nat) (low high : UInt8) (seen code : Nat)
  deriving DecidableEq, Repr

/-- The state after the first byte of a character of several bytes. -/
def lead (b : UInt8) : Option State :=
  if 0xC2 ≤ b ∧ b ≤ 0xDF then some (.inside 1 0x80 0xBF 1 (b.toNat - 0xC0))
  else if b = 0xE0 then some (.inside 2 0xA0 0xBF 1 0)
  else if 0xE1 ≤ b ∧ b ≤ 0xEC then some (.inside 2 0x80 0xBF 1 (b.toNat - 0xE0))
  else if b = 0xED then some (.inside 2 0x80 0x9F 1 13)
  else if 0xEE ≤ b ∧ b ≤ 0xEF then some (.inside 2 0x80 0xBF 1 (b.toNat - 0xE0))
  else if b = 0xF0 then some (.inside 3 0x90 0xBF 1 0)
  else if 0xF1 ≤ b ∧ b ≤ 0xF3 then some (.inside 3 0x80 0xBF 1 (b.toNat - 0xF0))
  else if b = 0xF4 then some (.inside 3 0x80 0x8F 1 4)
  else none

/-- Reads on from a state.  `index` is the place of the next byte and `chars` holds
the characters read so far, last one first. -/
def readFrom (index : Nat) (chars : List Char) : State → List UInt8 → Except Fault (List Char)
  | .start, [] => .ok chars.reverse
  | .inside _ _ _ seen _, [] => .error (.incomplete (index - seen))
  | .start, b :: rest =>
    if b < 0x80 then readFrom (index + 1) (Char.ofNat b.toNat :: chars) .start rest
    else
      match lead b with
      | some state => readFrom (index + 1) chars state rest
      | none => .error (.invalid 1 index)
  | .inside due low high seen code, b :: rest =>
    if low ≤ b ∧ b ≤ high then
      let code := code * 64 + (b.toNat - 0x80)
      if due = 1 then readFrom (index + 1) (Char.ofNat code :: chars) .start rest
      else readFrom (index + 1) chars (.inside (due - 1) 0x80 0xBF (seen + 1) code) rest
    else .error (.invalid seen (index - seen))

/-- The characters that bytes stand for. -/
def decode (bytes : List UInt8) : Except Fault (List Char) := readFrom 0 [] .start bytes

/-- The text that bytes stand for. -/
def decodeString (bytes : List UInt8) : Except Fault String := (decode bytes).map String.ofList

end Utf8

end Simulcast
