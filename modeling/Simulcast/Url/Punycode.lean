/-!
# Punycode

Domain labels beyond ASCII, written with letters, digits and hyphens.  Before the last
hyphen stand the label's ASCII characters; behind it, one number after another, the
places and code points of the others in the order of their code points.

A number is a run of digits of base 36, the least significant first.  It ends with the
first digit that is below a threshold; the threshold depends on the digit's place and on
a bias, which follows the size of the numbers before.
-/

namespace Simulcast

namespace Punycode

/-- The value of a digit: letters come first. -/
def digit? (c : Char) : Option Nat :=
  if 'a' ≤ c ∧ c ≤ 'z' then some (c.toNat - 97)
  else if '0' ≤ c ∧ c ≤ '9' then some (c.toNat - 22)
  else none

/-- What a digit must stay below to end its number; places go up in steps of 36. -/
def threshold (bias place : Nat) : Nat := max 1 (min 26 (place - bias))

/-- A threshold leaves room for digits on both sides. -/
theorem threshold_bounds (bias place : Nat) :
    1 ≤ threshold bias place ∧ threshold bias place ≤ 26 := by
  unfold threshold
  omega

/-- The bias that a scaled number leads to. -/
def settle (delta bias : Nat) : Nat :=
  if 455 < delta then settle (delta / 35) (bias + 36) else bias + 36 * delta / (delta + 38)
termination_by delta
decreasing_by exact Nat.div_lt_self (by omega) (by omega)

/-- The bias after a number; `count` characters are known then. -/
def adapt (delta count : Nat) (first : Bool) : Nat :=
  let scaled := if first then delta / 700 else delta / 2
  settle (scaled + scaled / count) 0

/-- A label that is being decoded. -/
structure Decoder where
  /-- The code points known so far. -/
  codes : List Nat
  /-- The code point that was put in last. -/
  code : Nat := 128
  /-- The place behind it. -/
  index : Nat := 0
  bias : Nat := 72
  /-- What is known of the number that is being read. -/
  number : Nat := 0
  /-- What the next digit counts. -/
  weight : Nat := 1
  place : Nat := 36

namespace Decoder

/-- A whole number was read: it says how far to go until the next code point is put in. -/
def put (d : Decoder) (number : Nat) : Decoder :=
  let count := d.codes.length + 1
  let way := d.index + number
  let code := d.code + way / count
  { codes := d.codes.insertIdx (way % count) code
    code
    index := way % count + 1
    bias := adapt number count (d.index = 0) }

/-- Takes one digit. -/
def step (d : Decoder) (c : Char) : Option Decoder :=
  (digit? c).map fun value =>
    let number := d.number + value * d.weight
    let t := threshold d.bias d.place
    if value < t then d.put number
    else { d with number, weight := d.weight * (36 - t), place := d.place + 36 }

end Decoder

/-- The part before the last hyphen and the part behind it; a hyphen in front is none. -/
def split (s : List Char) : List Char × List Char :=
  match s.reverse.dropWhile (· ≠ '-') with
  | _ :: c :: basic => ((c :: basic).reverse, (s.reverse.takeWhile (· ≠ '-')).reverse)
  | _ => ([], s)

/-- The code points that a text stands for. -/
def decode? (s : List Char) : Option (List Nat) :=
  let (basic, coded) := split s
  match coded.foldlM Decoder.step { codes := basic.map Char.toNat } with
  | some d =>
    if d.place = 36 ∧ basic.all (·.toNat < 128) ∧ d.codes.all (decide ·.isValidChar) then
      some d.codes
    else none
  | none => none

end Punycode

end Simulcast
