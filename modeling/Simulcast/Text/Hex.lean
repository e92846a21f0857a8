/-!
# Hexadecimal digits

Digits of base sixteen as bytes.  They are written in lower case and read in either
case; `value?_digit` says that what is written reads back.
-/

namespace Simulcast

namespace Hex

/-- The digit of a number below sixteen. -/
def digit (n : Nat) : Char := if n < 10 then Char.ofNat (48 + n) else Char.ofNat (87 + n)

/-- The value of a digit. -/
def value? (b : UInt8) : Option Nat :=
  if 48 ≤ b ∧ b ≤ 57 then some (b.toNat - 48)
  else if 97 ≤ b ∧ b ≤ 102 then some (b.toNat - 87)
  else if 65 ≤ b ∧ b ≤ 70 then some (b.toNat - 55)
  else none

/-- The number that digits stand for. -/
def number? (digits : List UInt8) : Option Nat :=
  digits.foldlM (fun n b => (value? b).map (n * 16 + ·)) 0

/-- A written digit reads back. -/
theorem value?_digit {n : Nat} (h : n < 16) : value? (digit n).toNat.toUInt8 = some n := by
  have all : ∀ m ∈ List.range 16, value? (digit m).toNat.toUInt8 = some m := by decide
  exact all n (List.mem_range.mpr h)

end Hex

end Simulcast
