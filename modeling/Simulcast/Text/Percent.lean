import Simulcast.Text.Hex
/-!
# Percent-encoding

A byte may be written as a percent sign with two hexadecimal digits.  Decoding works
once and on bytes: what it gives need not be text, and an escape that is none stays as
it is.
-/

namespace Simulcast

namespace Percent

/-- Replaces each escape by its byte. -/
def decode : List UInt8 → List UInt8
  | 37 :: hi :: lo :: rest =>
    match Hex.value? hi, Hex.value? lo with
    | some h, some l => (h * 16 + l).toUInt8 :: decode rest
    | _, _ => 37 :: decode (hi :: lo :: rest)
  | b :: rest => b :: decode rest
  | [] => []

/-- Bytes without a percent sign stay as they are. -/
theorem decode_eq_self {bytes : List UInt8} (h : 37 ∉ bytes) : decode bytes = bytes := by
  induction bytes with
  | nil => rfl
  | cons b rest ih =>
    have hb : b ≠ 37 := fun e => h (e ▸ List.mem_cons_self)
    have hr : decode rest = rest := ih fun m => h (List.mem_cons_of_mem _ m)
    rw [decode, hr]
    rintro hi lo tail rfl rfl
    exact hb rfl

end Percent

end Simulcast
