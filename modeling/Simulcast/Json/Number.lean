import Simulcast.Decimal.Shortest
import Simulcast.Json.Fault
/-!
# JSON numbers

A number without fraction and exponent is an integer as long as 64 bits hold it: from
zero up without a sign, below zero with one.  Every other number, and minus zero, is
a floating point number.

The significand of a floating point number is its leading digits as far as 64 bits
hold them; the digits behind only count as powers of ten.  It is turned into a
floating point number and scaled by a power of ten in one step, or in several if the
power is too small for one; a result that is too large is refused.
-/

namespace Simulcast

namespace Json

/-- A number. -/
inductive Number where
  /-- An integer from zero up. -/
  | unsigned (n : UInt64)
  /-- The integer `-n`, below zero. -/
  | negative (n : UInt64)
  | float (x : Float)

/-- Floating point numbers are written with a point from 0.00001 up to below
10000000000000000, and with an exponent otherwise. -/
def floatLayout : Decimal.Layout := { lowest := -5, highest := 15 }

/-- What a number is, when something else was expected. -/
def Number.found : Number → Found
  | unsigned n => .integer n.toNat
  | negative n => .integer (-(n.toNat : Int))
  | float x => .float (Decimal.floatText floatLayout x)

/-! ### Digits -/

/-- The decimal digits at the start of a text, and what follows them. -/
def takeDigits (s : List UInt8) : List Nat × List UInt8 :=
  ((s.takeWhile isDigit).map fun b => b.toNat - 48, s.dropWhile isDigit)

/-- Appends digits to a number as long as the limit allows it; gives the number and
how many digits did not fit. -/
def appendDigits (limit n : Nat) : List Nat → Nat × Nat
  | [] => (n, 0)
  | d :: ds => if limit < n * 10 + d then (n, ds.length + 1) else appendDigits limit (n * 10 + d) ds

/-- The largest number that 64 bits hold. -/
def wordLimit : Nat := UInt64.size - 1

/-! ### Scaling -/

/-- A power of ten as a floating point number. -/
def powerOfTen (n : Nat) : Float := Float.ofScientific 1 false n

/-- A number times a power of ten; none if it is too large. -/
def scaleUp (x : Float) (exponent : Nat) : Option Float :=
  if exponent ≤ 308 then
    let y := x * powerOfTen exponent
    if y.isInf then none else some y
  else if x == 0.0 then some x
  else none

/-- A number divided by a power of ten. -/
def scaleDown (x : Float) (exponent : Nat) : Float :=
  if exponent ≤ 308 then x / powerOfTen exponent
  else if x == 0.0 then x
  else scaleDown (x / powerOfTen 308) (exponent - 308)
termination_by exponent

/-- The floating point number with a sign, a significand and an exponent of ten. -/
def makeFloat (negative : Bool) (significand : Nat) (exponent : Int) (rest : List UInt8) :
    Read Number :=
  let x := significand.toUInt64.toFloat
  let scaled :=
    if 0 ≤ exponent then scaleUp x exponent.toNat else some (scaleDown x exponent.natAbs)
  match scaled with
  | some y => .ok (.float (if negative then -y else y), rest)
  | none => .error (.before .numberOutOfRange rest)

/-! ### Reading -/

/-- The largest number that 31 bits hold, which bounds exponents. -/
def exponentLimit : Nat := 2147483647

/-- Keeps an exponent in 32 bits. -/
def clampExponent (e : Int) : Int := max (-2147483648) (min e 2147483647)

/-- Reads an exponent behind its letter. -/
def readExponent (negative : Bool) (significand : Nat) (start : Int) (s : List UInt8) :
    Read Number :=
  let (minus, s) := match s with
    | 43 :: rest => (false, rest)
    | 45 :: rest => (true, rest)
    | _ => (false, s)
  match s with
  | [] => .error (.atEnd .eofValue)
  | b :: rest =>
    if isDigit b then
      let (ds, behind) := takeDigits s
      let (e, beyond) := appendDigits exponentLimit 0 ds
      if beyond = 0 then
        let exponent := clampExponent (if minus then start - e else start + e)
        makeFloat negative significand exponent behind
      else if significand ≠ 0 ∧ minus = false then
        -- the digit that goes beyond the limit is the last one read
        .error ⟨.numberOutOfRange, behind.length + (beyond - 1)⟩
      else .ok (.float (if negative then -0.0 else 0.0), behind)
    else .error (.before .invalidNumber rest)

/-- Reads on after the digits before or behind the point: an exponent may follow. -/
def readTail (negative : Bool) (significand : Nat) (exponent : Int) (s : List UInt8) :
    Read Number :=
  match s with
  | 101 :: rest | 69 :: rest => readExponent negative significand exponent rest
  | _ => makeFloat negative significand exponent s

/-- Reads a fraction behind the point. -/
def readFraction (negative : Bool) (significand : Nat) (exponent : Int) (s : List UInt8) :
    Read Number :=
  let (ds, behind) := takeDigits s
  if ds.isEmpty then
    match s with
    | [] => .error (.atEnd .eofValue)
    | _ :: _ => .error (.atNext .invalidNumber s)
  else
    let (n, beyond) := appendDigits wordLimit significand ds
    readTail negative n (exponent - (ds.length - beyond : Nat)) behind

/-- An integer, as long as 64 bits hold it. -/
def makeInteger (negative : Bool) (n : Nat) : Number :=
  if negative then
    if n = 0 ∨ UInt64.size / 2 < n then .float (-(n.toUInt64.toFloat)) else .negative n.toUInt64
  else .unsigned n.toUInt64

/-- Reads a number behind its sign. -/
def readNumber (negative : Bool) (s : List UInt8) : Read Number :=
  match s with
  | [] => .error (.atEnd .eofValue)
  | b :: rest =>
    if isDigit b then
      let (ds, behind) := if b = 48 then ([0], rest) else takeDigits s
      let (n, beyond) := appendDigits wordLimit 0 ds
      match behind with
      | 46 :: tail => readFraction negative n beyond tail
      | 101 :: tail | 69 :: tail => readExponent negative n beyond tail
      | c :: _ =>
        if b = 48 ∧ isDigit c then .error (.atNext .invalidNumber behind)
        else if beyond = 0 then .ok (makeInteger negative n, behind)
        else makeFloat negative n beyond behind
      | [] =>
        if beyond = 0 then .ok (makeInteger negative n, behind)
        else makeFloat negative n beyond behind
    else .error (.before .invalidNumber rest)

end Json

end Simulcast
