import Simulcast.Proofs.Json.Written
/-!
# Written integers and truth values read back

An integer is written in decimal digits.  They are read as far as they go, and what may follow a
value is no digit, so just these digits are taken (`Json.takeDigits_append`).  They stand for the
integer again (`Json.digitsValue_numeral`), and as 64 bits hold the integer they hold every
number on the way to it, so no digit is left over (`Json.appendDigits_of_fits`).

A number that starts with a zero ends behind it.  No number but zero itself is written so
(`Json.head?_numeral`), hence what is written is read to its end.
-/

namespace Simulcast

namespace Json

/-! ### Digits -/

/-- The number that digits stand for, behind a number read before. -/
def digitsValue (before : Nat) (digits : List Nat) : Nat :=
  digits.foldl (fun n d => n * 10 + d) before

theorem le_digitsValue (before : Nat) (digits : List Nat) : before ≤ digitsValue before digits := by
  induction digits generalizing before with
  | nil => exact Nat.le_refl _
  | cons d ds ih =>
    have hstep : before ≤ before * 10 + d := by omega
    exact Nat.le_trans hstep (ih (before * 10 + d))

/-- Digits of a number within the limit are all appended. -/
theorem appendDigits_of_fits {limit before : Nat} {digits : List Nat}
    (h : digitsValue before digits ≤ limit) :
    appendDigits limit before digits = (digitsValue before digits, 0) := by
  induction digits generalizing before with
  | nil => rfl
  | cons d ds ih =>
    have hnext : ¬ limit < before * 10 + d :=
      Nat.not_lt.mpr (Nat.le_trans (le_digitsValue (before * 10 + d) ds) h)
    rw [appendDigits, if_neg hnext]
    exact ih h

/-- What may follow a value does not go on a number. -/
theorem Delimited.no_digit {rest : List UInt8} (h : Delimited rest) :
    ∀ b ∈ rest.head?, isDigit b = false ∧ b ≠ 46 ∧ b ≠ 101 ∧ b ≠ 69 := by
  intro b hb
  have hall : ∀ c : UInt8, c = 44 ∨ c = 93 ∨ c = 125 ∨ c = 32 ∨ c = 10 ∨ c = 9 ∨ c = 13 →
      isDigit c = false ∧ c ≠ 46 ∧ c ≠ 101 ∧ c ≠ 69 := by
    rintro c (rfl | rfl | rfl | rfl | rfl | rfl | rfl) <;> decide
  refine hall b ((h b hb).imp_right (Or.imp_right (Or.imp_right fun hblank => ?_)))
  simpa [isBlank, or_assoc] using hblank

theorem takeDigits_append {digits rest : List UInt8} (h : ∀ b ∈ digits, isDigit b = true)
    (hrest : Delimited rest) :
    takeDigits (digits ++ rest) = (digits.map fun b => b.toNat - 48, rest) := by
  have hend : rest.takeWhile isDigit = [] ∧ rest.dropWhile isDigit = rest := by
    cases rest with
    | nil => exact ⟨rfl, rfl⟩
    | cons b tail =>
      have hb : isDigit b = false := (hrest.no_digit b rfl).1
      simp [hb]
  rw [takeDigits, List.takeWhile_append_of_pos h, List.dropWhile_append_of_pos h, hend.1, hend.2,
    List.append_nil]

/-! ### Numbers in digits -/

/-- The digits of a number, as bytes. -/
def numeral (n : Nat) : List UInt8 := (Nat.toDigits 10 n).map fun c => c.toNat.toUInt8

theorem isDigit_of_mem_toDigits {n : Nat} {c : Char} (h : c ∈ Nat.toDigits 10 n) :
    48 ≤ c.toNat ∧ c.toNat ≤ 57 :=
  Char.isDigit_iff_toNat.mp (Nat.isDigit_of_mem_toDigits (by decide) (by decide) h)

theorem toNat_toUInt8_of_digit {m : Nat} (h : m ≤ 57) : m.toUInt8.toNat = m :=
  Nat.mod_eq_of_lt (by omega)

theorem encode_repr (n : Nat) : Utf8.encode n.repr = numeral n := by
  rw [Nat.repr_eq_ofList_toDigits, Utf8.encode, String.toList_ofList, numeral, List.map_eq_flatMap,
    List.flatMap_def, List.flatMap_def]
  refine congrArg List.flatten (List.map_congr_left fun c hc => Utf8.encodeChar_of_ascii ?_)
  have hdigit := isDigit_of_mem_toDigits hc
  omega

theorem isDigit_of_mem_numeral {n : Nat} {b : UInt8} (h : b ∈ numeral n) : isDigit b = true := by
  obtain ⟨c, hc, rfl⟩ := List.mem_map.mp h
  obtain ⟨hlow, hhigh⟩ := isDigit_of_mem_toDigits hc
  simp only [isDigit, Bool.and_eq_true, decide_eq_true_eq, UInt8.le_iff_toNat_le,
    toNat_toUInt8_of_digit hhigh]
  exact ⟨hlow, hhigh⟩

/-- The value of digits does not depend on whether they are read as bytes or as characters. -/
theorem digitsValue_chars {cs : List Char} (h : ∀ c ∈ cs, c.toNat ≤ 57) (before : Nat) :
    digitsValue before ((cs.map fun c => c.toNat.toUInt8).map fun b => b.toNat - 48)
      = Nat.ofDigitChars 10 cs before := by
  induction cs generalizing before with
  | nil => rfl
  | cons c rest ih =>
    have hvalue : before * 10 + (c.toNat.toUInt8.toNat - 48) = 10 * before + (c.toNat - 48) := by
      rw [toNat_toUInt8_of_digit (h c List.mem_cons_self), Nat.mul_comm]
    rw [Nat.ofDigitChars_cons]
    show digitsValue (before * 10 + (c.toNat.toUInt8.toNat - 48)) _ = _
    rw [hvalue]
    exact ih (fun d hd => h d (List.mem_cons_of_mem _ hd)) _

/-- **The digits of a number stand for it.** -/
theorem digitsValue_numeral (n : Nat) :
    digitsValue 0 ((numeral n).map fun b => b.toNat - 48) = n := by
  rw [numeral, digitsValue_chars fun c hc => (isDigit_of_mem_toDigits hc).2,
    Nat.ofDigitChars_ten_toDigits]

theorem head?_toDigits {n : Nat} (h : n ≠ 0) : (Nat.toDigits 10 n).head? ≠ some '0' := by
  induction n using Nat.strongRecOn with
  | ind n ih =>
    rw [Nat.toDigits_eq_if (by decide)]
    split
    · simpa using h
    · have hquotient : n / 10 ≠ 0 := by omega
      rw [List.head?_append_of_ne_nil _ Nat.toDigits_ne_nil]
      exact ih (n / 10) (by omega) hquotient

/-- No number but zero is written with a zero in front. -/
theorem head?_numeral {n : Nat} (h : n ≠ 0) : (numeral n).head? ≠ some 48 := by
  rw [numeral, List.head?_map]
  intro hzero
  obtain ⟨c, hc, hbyte⟩ := Option.map_eq_some_iff.mp hzero
  have hdigit := isDigit_of_mem_toDigits (List.mem_of_mem_head? hc)
  have htoNat : c.toNat = 48 := by
    rw [← toNat_toUInt8_of_digit hdigit.2, hbyte]
    rfl
  obtain rfl : c = '0' := Char.toNat_inj.mp htoNat
  exact head?_toDigits h hc

theorem numeral_ne_nil (n : Nat) : numeral n ≠ [] :=
  fun h => Nat.toDigits_ne_nil (List.map_eq_nil_iff.mp h)

/-! ### Reading -/

/-- A number is read to the end of its digits, if 64 bits hold it. -/
theorem readNumber_of_digits {b : UInt8} {tail rest : List UInt8} {digits : List Nat}
    (hb : isDigit b = true)
    (htake : (if b = 48 then ([0], tail) else takeDigits (b :: tail)) = (digits, rest))
    (hfits : digitsValue 0 digits ≤ wordLimit) (hrest : Delimited rest) :
    readNumber false (b :: tail) = .ok (.unsigned (digitsValue 0 digits).toUInt64, rest) := by
  have happend := appendDigits_of_fits hfits
  unfold readNumber
  simp only [hb, if_true, htake, happend]
  cases rest with
  | nil => rfl
  | cons c behind =>
    obtain ⟨hdigit, hpoint, hlower, hupper⟩ := hrest.no_digit c rfl
    split
    · rename_i heq
      exact absurd (List.cons.inj heq).1 hpoint
    · rename_i heq
      exact absurd (List.cons.inj heq).1 hlower
    · rename_i heq
      exact absurd (List.cons.inj heq).1 hupper
    · rename_i heq
      obtain ⟨rfl, rfl⟩ := List.cons.inj heq
      simp [hdigit, makeInteger]
    · rename_i heq
      exact nomatch heq

/-- **A written integer is read**, whatever delimits it. -/
theorem readNumber_numeral (n : UInt64) {rest : List UInt8} (hrest : Delimited rest) :
    readNumber false (numeral n.toNat ++ rest) = .ok (.unsigned n, rest) := by
  have hvalue := digitsValue_numeral n.toNat
  have hsame : n.toNat.toUInt64 = n := UInt64.ofNat_toNat
  have hfits : n.toNat ≤ wordLimit := Nat.le_pred_of_lt n.toNat_lt
  by_cases hzero : n.toNat = 0
  · obtain rfl : n = 0 := UInt64.toNat_inj.mp hzero
    have hfits : digitsValue 0 [0] ≤ wordLimit := by decide
    refine readNumber_of_digits ?_ ?_ hfits hrest
    · decide
    · rfl
  · cases hdigits : numeral n.toNat with
    | nil => exact absurd hdigits (numeral_ne_nil _)
    | cons b tail =>
      have hb : b ≠ 48 := by
        rintro rfl
        exact head?_numeral hzero (by rw [hdigits]; rfl)
      have hall : ∀ c ∈ b :: tail, isDigit c = true := fun c hc =>
        isDigit_of_mem_numeral (hdigits ▸ hc)
      rw [hdigits] at hvalue
      have hread := readNumber_of_digits (hall b List.mem_cons_self)
        (by rw [if_neg hb]; exact takeDigits_append hall hrest)
        (Nat.le_trans (Nat.le_of_eq hvalue) hfits) hrest
      rw [hvalue, hsame] at hread
      exact hread

/-! ### Values -/

theorem ne_of_isDigit {b c : UInt8} (hb : isDigit b = true) (hc : isDigit c = false) : b ≠ c := by
  rintro rfl
  exact absurd (hb.symm.trans hc) (by decide)

theorem isBlank_of_isDigit {b : UInt8} (h : isDigit b = true) : isBlank b = false := by
  simp [isBlank, ne_of_isDigit h (c := 32) rfl, ne_of_isDigit h (c := 10) rfl,
    ne_of_isDigit h (c := 9) rfl, ne_of_isDigit h (c := 13) rfl]

section

variable {depth : Nat}

theorem readValue_digit {b : UInt8} (h : isDigit b = true) (tail : List UInt8) :
    readValue (depth + 1) (b :: tail)
      = (readNumber false (b :: tail)).map fun (n, rest) => (.number n, rest) := by
  simp only [readValue, skipBlanks_cons (isBlank_of_isDigit h),
    if_neg (ne_of_isDigit h (c := 110) rfl), if_neg (ne_of_isDigit h (c := 116) rfl),
    if_neg (ne_of_isDigit h (c := 102) rfl), if_neg (ne_of_isDigit h (c := 45) rfl), if_pos h]

theorem reads_unsigned (n : UInt64) :
    Reads (readValue (depth + 1)) (Utf8.encode (unsigned n)) (.number (.unsigned n)) := by
  rw [unsigned, encode_repr]
  cases hdigits : numeral n.toNat with
  | nil => exact absurd hdigits (numeral_ne_nil _)
  | cons b tail =>
    have hb : isDigit b = true := isDigit_of_mem_numeral (hdigits ▸ List.mem_cons_self)
    refine ⟨⟨b, tail, rfl, isBlank_of_isDigit hb, ne_of_isDigit hb rfl⟩,
      fun before rest hbefore hrest => ?_⟩
    have hread := readNumber_numeral n hrest
    rw [hdigits, List.cons_append] at hread
    rw [readValue_blanks hbefore, List.cons_append, readValue_digit hb, hread]
    rfl

theorem reads_bool (b : Bool) :
    Reads (readValue (depth + 1)) (Utf8.encode (bool b)) (.bool b) := by
  cases b with
  | true =>
    refine ⟨⟨116, _, rfl, rfl, by decide⟩, fun before rest hbefore _ => ?_⟩
    rw [readValue_blanks hbefore]
    rfl
  | false =>
    refine ⟨⟨102, _, rfl, rfl, by decide⟩, fun before rest hbefore _ => ?_⟩
    rw [readValue_blanks hbefore]
    rfl

end

end Json

end Simulcast
