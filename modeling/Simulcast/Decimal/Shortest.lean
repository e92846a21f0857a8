/-!
# Shortest decimals

A binary floating point number stands for every real number that rounds to it.  Among
all decimals in that range, `shortest` finds one with the fewest digits, and of those
the nearest to the number itself; of two equally near ones it takes the even one.

Everything is exact: a finite positive number is a whole number of units `2 ^ e`, and
the range around it is compared with decimal grids in natural numbers.
-/

namespace Simulcast

namespace Decimal

/-- A positive rational number, as a fraction of natural numbers. -/
structure Ratio where
  num : Nat
  den : Nat
  deriving DecidableEq, Repr

namespace Ratio

/-- The number `n * 2 ^ e / 10 ^ p`. -/
def scaled (n : Nat) (e p : Int) : Ratio where
  num := n * Nat.pow 2 e.toNat * Nat.pow 10 (-p).toNat
  den := Nat.pow 2 (-e).toNat * Nat.pow 10 p.toNat

/-- The whole part. -/
def floor (r : Ratio) : Nat := r.num / r.den

/-- Whether a whole number is at least the ratio. -/
def le (r : Ratio) (n : Nat) : Bool := r.num ≤ n * r.den

/-- Whether a whole number is above the ratio. -/
def lt (r : Ratio) (n : Nat) : Bool := r.num < n * r.den

/-- Whether a whole number is at most the ratio. -/
def ge (r : Ratio) (n : Nat) : Bool := n * r.den ≤ r.num

/-- Whether a whole number is below the ratio. -/
def gt (r : Ratio) (n : Nat) : Bool := n * r.den < r.num

end Ratio

/-- The reals around a floating point number that round to it, in units of `2 ^ unit`:
from `low` to `high` around `value`, with the ends if `closed`. -/
structure Range where
  low : Nat
  value : Nat
  high : Nat
  unit : Int
  closed : Bool
  deriving DecidableEq, Repr

/-- The number of values of the fraction field: it has 52 bits. -/
def fractionSize : Nat := 4503599627370496

/-- The range of a positive finite number, given by its fraction field and its
exponent field.  Below a power of two the neighbours are nearer. -/
def Range.ofFields (fraction exponent : Nat) : Range :=
  let m := if exponent = 0 then fraction else fractionSize + fraction
  let e : Int := (max exponent 1 : Nat) - 1075
  { low := if fraction = 0 ∧ 1 < exponent then 4 * m - 1 else 4 * m - 2
    value := 4 * m
    high := 4 * m + 2
    unit := e - 2
    closed := m % 2 = 0 }

/-- Whether the grid point `n * 10 ^ p` lies in the range. -/
def Range.contains (r : Range) (n : Nat) (p : Int) : Bool :=
  let low := Ratio.scaled r.low r.unit p
  let high := Ratio.scaled r.high r.unit p
  if r.closed then low.le n && high.ge n else low.lt n && high.gt n

/-- The better of the two neighbours of the value on the grid of step `10 ^ p`, if
one lies in the range. -/
def Range.neighbour (r : Range) (p : Int) : Option Nat :=
  let v := Ratio.scaled r.value r.unit p
  let lower := v.floor
  let upper := lower + 1
  match r.contains lower p && lower != 0, r.contains upper p with
  | false, false => none
  | true, false => some lower
  | false, true => some upper
  | true, true =>
    let twice := 2 * v.num
    let middle := (lower + upper) * v.den
    if twice < middle then some lower
    else if middle < twice then some upper
    else if lower % 2 = 0 then some lower else some upper

/-- The exponent of the leading decimal digit of the value. -/
def Range.leading (r : Range) : Int :=
  let v := Ratio.scaled r.value r.unit 0
  if v.den ≤ v.num then (Nat.toDigits 10 v.floor).length - 1
  else
    let inverse := (v.den + v.num - 1) / v.num
    let guess := (Nat.toDigits 10 inverse).length
    let low : Int := 1 - guess
    -- the inverse is rounded up, so a power of ten belongs to the number itself
    if (Ratio.scaled r.value r.unit low).ge 1 then low else low - 1

/-- A decimal: its digits, the first one not zero, and the exponent of the first. -/
structure Digits where
  digits : List Char
  exponent : Int
  deriving DecidableEq, Repr

/-- The digits of a grid point, without zeros at the end. -/
def Digits.ofGrid (n : Nat) (p : Int) : Digits :=
  let all := Nat.toDigits 10 n
  { digits := (all.reverse.dropWhile (· = '0')).reverse, exponent := p + all.length - 1 }

/-- Tries grids from coarse to fine: `todo` more, the next one of step `10 ^ p`. -/
def Range.search (r : Range) : (todo : Nat) → (p : Int) → Digits
  | 0, p => .ofGrid (Ratio.scaled r.value r.unit p).floor p
  | todo + 1, p =>
    match r.neighbour p with
    | some n => .ofGrid n p
    | none => r.search todo (p - 1)

/-- The shortest decimal in the range; seventeen digits always suffice. -/
def Range.shortest (r : Range) : Digits := r.search 17 r.leading

/-! ### Written form -/

/-- How decimals are laid out. -/
structure Layout where
  /-- The least exponent of the first digit that is written with a point only. -/
  lowest : Int
  /-- The greatest such exponent. -/
  highest : Int

/-- The written form of a decimal.  A number without a fraction shows one zero behind
the point; an exponent always has its sign and no leading zeros. -/
def Digits.text (d : Digits) (layout : Layout) : List Char :=
  if layout.lowest ≤ d.exponent ∧ d.exponent ≤ layout.highest then
    if d.exponent < 0 then
      '0' :: '.' :: List.replicate (-d.exponent - 1).toNat '0' ++ d.digits
    else
      let whole := d.exponent.toNat + 1
      let fraction := d.digits.drop whole
      d.digits.take whole ++ List.replicate (whole - d.digits.length) '0' ++ '.' ::
        (if fraction.isEmpty then ['0'] else fraction)
  else
    d.digits.take 1 ++ (if d.digits.length = 1 then [] else '.' :: d.digits.drop 1) ++
      'e' :: (if d.exponent < 0 then '-' else '+') :: Nat.toDigits 10 d.exponent.natAbs

/-- The written form of a floating point number: the shortest decimal that stands for
it. -/
def floatText (layout : Layout) (x : Float) : String :=
  let bits := x.toBits.toNat
  let sign := if UInt64.size / 2 ≤ bits then ['-'] else []
  let exponent := bits / fractionSize % 2048
  let fraction := bits % fractionSize
  if exponent = 2047 then
    if fraction = 0 then String.ofList (sign ++ ['i', 'n', 'f']) else "NaN"
  else if exponent = 0 ∧ fraction = 0 then String.ofList (sign ++ ['0', '.', '0'])
  else String.ofList (sign ++ (Range.ofFields fraction exponent).shortest.text layout)

end Decimal

end Simulcast
