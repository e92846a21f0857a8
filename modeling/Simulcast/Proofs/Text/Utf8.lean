import Simulcast.Text.Utf8
/-!
# What is written as UTF-8 reads back

`Utf8.readFrom` is a machine over bytes, `Utf8.encode` writes character by character, so the
round trip is one lemma about a single character with anything behind it
(`Utf8.readFrom_char`), and an induction over the text.

For a character of several bytes the first byte tells the machine how many bytes are due, the
leading bits of the number, and the range of the second byte.  That range is cut where the first
byte alone would allow a number that has a shorter form, is a surrogate, or is too large; none
of these is the number of a character.
-/

namespace Simulcast

namespace Utf8

/-! ### Bytes of a character -/

theorem encodeChar_of_ascii {c : Char} (h : c.toNat < 128) :
    String.utf8EncodeChar c = [c.toNat.toUInt8] := by
  have hone : c.utf8Size = 1 := by
    rw [Char.utf8Size_eq_one_iff, UInt32.le_iff_toNat_le]
    exact Nat.le_of_lt_succ h
  rw [String.utf8EncodeChar_eq_singleton hone]
  rfl

/-- A character of several bytes has no byte that stands for a character of its own. -/
theorem le_of_mem_encodeChar {c : Char} (h : 128 ≤ c.toNat) {b : UInt8}
    (hb : b ∈ String.utf8EncodeChar c) : 0x80 ≤ b.toNat := by
  have hval : c.val.toNat = c.toNat := rfl
  have hbyte : ∀ n, (UInt8.ofNat n).toNat = n % 256 := fun n => UInt8.toNat_ofNat'
  generalize c.toNat = v at h hval
  simp only [String.utf8EncodeChar, hval] at hb
  split at hb
  · omega
  split at hb
  · simp only [List.mem_cons, List.not_mem_nil, or_false] at hb
    rcases hb with rfl | rfl <;> rw [hbyte] <;> omega
  split at hb
  · simp only [List.mem_cons, List.not_mem_nil, or_false] at hb
    rcases hb with rfl | rfl | rfl <;> rw [hbyte] <;> omega
  · simp only [List.mem_cons, List.not_mem_nil, or_false] at hb
    rcases hb with rfl | rfl | rfl | rfl <;> rw [hbyte] <;> omega

/-! ### First bytes -/

theorem lead_two {n : Nat} (hlow : 2 ≤ n) (hhigh : n < 32) :
    lead (UInt8.ofNat (n + 0xC0)) = some (.inside 1 0x80 0xBF 1 n) := by
  have all : ∀ m ∈ List.range 32, 2 ≤ m →
      lead (UInt8.ofNat (m + 0xC0)) = some (.inside 1 0x80 0xBF 1 m) := by decide
  exact all n (List.mem_range.mpr hhigh) hlow

theorem lead_three {n : Nat} (h : n < 16) :
    lead (UInt8.ofNat (n + 0xE0))
      = some (.inside 2 (if n = 0 then 0xA0 else 0x80) (if n = 13 then 0x9F else 0xBF) 1 n) := by
  have all : ∀ m ∈ List.range 16, lead (UInt8.ofNat (m + 0xE0))
      = some (.inside 2 (if m = 0 then 0xA0 else 0x80) (if m = 13 then 0x9F else 0xBF) 1 m) := by
    decide
  exact all n (List.mem_range.mpr h)

theorem lead_four {n : Nat} (h : n < 5) :
    lead (UInt8.ofNat (n + 0xF0))
      = some (.inside 3 (if n = 0 then 0x90 else 0x80) (if n = 4 then 0x8F else 0xBF) 1 n) := by
  have all : ∀ m ∈ List.range 5, lead (UInt8.ofNat (m + 0xF0))
      = some (.inside 3 (if m = 0 then 0x90 else 0x80) (if m = 4 then 0x8F else 0xBF) 1 m) := by
    decide
  exact all n (List.mem_range.mpr h)

/-! ### One character -/

section

variable {index : Nat} {chars : List Char} {rest : List UInt8}

theorem readFrom_ascii {n : Nat} (h : n < 128) :
    readFrom index chars .start (UInt8.ofNat n :: rest)
      = readFrom (index + 1) (Char.ofNat n :: chars) .start rest := by
  have hsize : n < 256 := by omega
  have hbyte : (UInt8.ofNat n).toNat = n := UInt8.toNat_ofNat_of_lt' hsize
  have hlow : UInt8.ofNat n < 0x80 := by
    rw [UInt8.lt_iff_toNat_lt, hbyte]
    exact h
  rw [readFrom, if_pos hlow, hbyte]

theorem readFrom_lead {n : Nat} {state : State} (hlow : 128 ≤ n) (hhigh : n < 256)
    (h : lead (UInt8.ofNat n) = some state) :
    readFrom index chars .start (UInt8.ofNat n :: rest)
      = readFrom (index + 1) chars state rest := by
  have hbyte : (UInt8.ofNat n).toNat = n := UInt8.toNat_ofNat_of_lt' hhigh
  have hnot : ¬ UInt8.ofNat n < 0x80 := by
    rw [UInt8.lt_iff_toNat_lt, hbyte]
    exact Nat.not_lt.mpr hlow
  rw [readFrom, if_neg hnot, h]

variable {low high : UInt8} {seen code n : Nat}

/-- The bits that a byte behind the first one adds. -/
theorem readFrom_inside {due : Nat} (hn : n < 64) (hlow : low.toNat ≤ n + 0x80)
    (hhigh : n + 0x80 ≤ high.toNat) :
    readFrom index chars (.inside due low high seen code) (UInt8.ofNat (n + 0x80) :: rest)
      = if due = 1 then readFrom (index + 1) (Char.ofNat (code * 64 + n) :: chars) .start rest
        else readFrom (index + 1) chars
          (.inside (due - 1) 0x80 0xBF (seen + 1) (code * 64 + n)) rest := by
  have hsize : n + 0x80 < 256 := by omega
  have hbyte : (UInt8.ofNat (n + 0x80)).toNat = n + 0x80 := UInt8.toNat_ofNat_of_lt' hsize
  have hrange : low ≤ UInt8.ofNat (n + 0x80) ∧ UInt8.ofNat (n + 0x80) ≤ high := by
    rw [UInt8.le_iff_toNat_le, UInt8.le_iff_toNat_le, hbyte]
    exact ⟨hlow, hhigh⟩
  have hbits : (UInt8.ofNat (n + 0x80)).toNat - 0x80 = n := by omega
  simp only [readFrom, if_pos hrange, hbits]

end

/-- A character's number is no surrogate and not too large. -/
theorem toNat_of_char (c : Char) : c.toNat < 0xD800 ∨ (0xDFFF < c.toNat ∧ c.toNat < 0x110000) :=
  c.valid

/-- **A written character reads back**, whatever follows it. -/
theorem readFrom_char (c : Char) (index : Nat) (chars : List Char) (rest : List UInt8) :
    readFrom index chars .start (String.utf8EncodeChar c ++ rest)
      = readFrom (index + (String.utf8EncodeChar c).length) (c :: chars) .start rest := by
  have hvalid := toNat_of_char c
  have hchar : Char.ofNat c.toNat = c := Char.ofNat_toNat c
  have hval : c.val.toNat = c.toNat := rfl
  generalize c.toNat = v at hvalid hchar hval
  simp only [String.utf8EncodeChar, hval]
  split
  · rw [List.singleton_append, readFrom_ascii (by omega), hchar, List.length_singleton]
  split
  · have hcode : v / 64 % 0x20 * 64 + v % 0x40 = v := by omega
    simp only [List.cons_append, List.nil_append]
    rw [readFrom_lead (by omega) (by omega) (lead_two (by omega) (by omega)),
      readFrom_inside (by omega) (by simp) (by simp; omega), if_pos rfl, hcode, hchar]
    rfl
  split
  · have hcode : (v / 4096 % 0x10 * 64 + v / 64 % 0x40) * 64 + v % 0x40 = v := by omega
    simp only [List.cons_append, List.nil_append]
    rw [readFrom_lead (by omega) (by omega) (lead_three (by omega)),
      readFrom_inside (by omega) (by split <;> simp; omega) (by split <;> simp <;> omega),
      if_neg (by decide), readFrom_inside (by omega) (by simp) (by simp; omega), if_pos rfl,
      hcode, hchar]
    rfl
  · have hcode : ((v / 262144 % 0x08 * 64 + v / 4096 % 0x40) * 64 + v / 64 % 0x40) * 64 + v % 0x40
        = v := by omega
    simp only [List.cons_append, List.nil_append]
    rw [readFrom_lead (by omega) (by omega) (lead_four (by omega)),
      readFrom_inside (by omega) (by split <;> simp; omega) (by split <;> simp <;> omega),
      if_neg (by decide), readFrom_inside (by omega) (by simp) (by simp; omega),
      if_neg (by decide), readFrom_inside (by omega) (by simp) (by simp; omega), if_pos rfl,
      hcode, hchar]
    rfl

/-! ### Texts -/

theorem readFrom_flatMap (cs : List Char) (index : Nat) (chars : List Char) :
    readFrom index chars .start (cs.flatMap String.utf8EncodeChar)
      = .ok (chars.reverse ++ cs) := by
  induction cs generalizing index chars with
  | nil => rw [List.flatMap_nil, readFrom, List.append_nil]
  | cons c rest ih =>
    rw [List.flatMap_cons, readFrom_char, ih, List.reverse_cons, List.append_assoc,
      List.singleton_append]

/-- **A written text reads back.** -/
theorem decodeString_encode (s : String) : decodeString (encode s) = .ok s := by
  rw [decodeString, decode, encode, readFrom_flatMap, List.reverse_nil, List.nil_append]
  simp [Except.map]

theorem encode_append (s t : String) : encode (s ++ t) = encode s ++ encode t := by
  rw [encode, String.toList_append, List.flatMap_append, encode, encode]

end Utf8

end Simulcast
