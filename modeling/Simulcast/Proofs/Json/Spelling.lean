import Mathlib.Data.List.Forall2
import Simulcast.Json.Writer
import Simulcast.Proofs.Text.Utf8
/-!
# What is written as a JSON string reads back

`Json.Spells` lists the ways to write a character between quotes: as it is, by a letter behind a
backslash, by its number in hexadecimal digits, or by a surrogate pair of such numbers.
`Json.stringBytes` is a machine over bytes, so a spelled text is read character by character,
with anything behind (`Json.stringBytes_spells`), and the bytes that it leaves are the UTF-8 of
the text (`Json.readString_of_spells`).

`Json.quote` spells each character in one of these ways (`Json.spells_escapeChar`), so what is
written as a string reads back (`Json.spellsText_quoted`).
-/

namespace Simulcast

namespace Json

/-! ### Ways to write a character -/

/-- The bytes that may stand for a character inside a string. -/
inductive Spells : List UInt8 → Char → Prop where
  /-- A character may stand for itself, but for quotes, backslashes and control characters. -/
  | itself {c : Char} (hquote : c ≠ '"') (hslash : c ≠ '\\') (hlow : 32 ≤ c.toNat) :
      Spells (String.utf8EncodeChar c) c
  | letter {b byte : UInt8} (h : shortEscape b = some byte) :
      Spells [92, b] (Char.ofNat byte.toNat)
  | hex {digits : List UInt8} {n : Nat} (hlength : digits.length = 4)
      (h : Hex.number? digits = some n) (hleading : isLeading n = false)
      (htrailing : isTrailing n = false) : Spells (92 :: 117 :: digits) (Char.ofNat n)
  | pair {first second : List UInt8} {m n : Nat} (hfirst : first.length = 4)
      (hm : Hex.number? first = some m) (hleading : isLeading m = true)
      (hsecond : second.length = 4) (hn : Hex.number? second = some n)
      (htrailing : isTrailing n = true) :
      Spells (92 :: 117 :: first ++ 92 :: 117 :: second)
        (Char.ofNat (0x10000 + (m - 0xD800) * 0x400 + (n - 0xDC00)))

/-- The bytes that may stand for a text inside a string. -/
def SpellsText (bytes : List UInt8) (text : List Char) : Prop :=
  ∃ parts : List (List UInt8), parts.flatten = bytes ∧ List.Forall₂ Spells parts text

/-! ### Reading what is spelled -/

section

variable {bytes rest : List UInt8}

theorem stringBytes_emit {state next : StringState} {b : UInt8} {more : List UInt8}
    (h : stringStep state b = .emit more next) :
    stringBytes state bytes (b :: rest) = stringBytes next (more.reverse ++ bytes) rest := by
  simp only [stringBytes, h]

/-- Bytes that are not special are taken as they are. -/
theorem stringBytes_append {more : List UInt8}
    (h : ∀ b ∈ more, b ≠ 34 ∧ b ≠ 92 ∧ 32 ≤ b.toNat) :
    stringBytes .plain bytes (more ++ rest) = stringBytes .plain (more.reverse ++ bytes) rest := by
  induction more generalizing bytes with
  | nil => rfl
  | cons b tail ih =>
    obtain ⟨hquote, hslash, hlow⟩ := h b List.mem_cons_self
    have hcontrol : ¬ b < 32 := by
      rw [UInt8.lt_iff_toNat_lt]
      exact Nat.not_lt.mpr hlow
    have hstep : stringStep .plain b = .emit [b] .plain := by
      simp only [stringStep, if_neg hquote, if_neg hslash, if_neg hcontrol]
    rw [List.cons_append, stringBytes_emit hstep, ih fun c hc => h c (List.mem_cons_of_mem _ hc),
      List.reverse_singleton, List.reverse_cons, List.append_assoc]

theorem not_special_of_mem_encodeChar {c : Char} (hquote : c ≠ '"') (hslash : c ≠ '\\')
    (hlow : 32 ≤ c.toNat) {b : UInt8} (hb : b ∈ String.utf8EncodeChar c) :
    b ≠ 34 ∧ b ≠ 92 ∧ 32 ≤ b.toNat := by
  by_cases hascii : c.toNat < 128
  · rw [Utf8.encodeChar_of_ascii hascii, List.mem_singleton] at hb
    have hbyte : b.toNat = c.toNat := by
      rw [hb]
      exact Nat.mod_eq_of_lt (by omega)
    refine ⟨?_, ?_, by omega⟩
    · rintro rfl
      exact hquote (Char.toNat_inj.mp hbyte.symm)
    · rintro rfl
      exact hslash (Char.toNat_inj.mp hbyte.symm)
  · have hhigh := Utf8.le_of_mem_encodeChar (Nat.le_of_not_lt hascii) hb
    refine ⟨?_, ?_, by omega⟩ <;>
    · rintro rfl
      exact absurd hhigh (by decide)

theorem stringBytes_letter {b byte : UInt8} (h : shortEscape b = some byte) :
    stringBytes .plain bytes (92 :: b :: rest)
      = stringBytes .plain ((String.utf8EncodeChar (Char.ofNat byte.toNat)).reverse ++ bytes)
          rest := by
  unfold shortEscape at h
  repeat' split at h
  all_goals first
    | (cases h; subst_vars; rfl)
    | exact absurd h (by simp)

/-- The four digits of a hexadecimal escape. -/
theorem stringBytes_hex {digits : List UInt8} (h : digits.length = 4) {leading : Option Nat}
    {more : List UInt8} {next : StringState} (hstep : hexStep digits leading = .emit more next) :
    stringBytes (.hex [] leading) bytes (digits ++ rest)
      = stringBytes next (more.reverse ++ bytes) rest := by
  obtain ⟨a, b, c, d, rfl⟩ := List.length_eq_four.mp h
  have hlast : stringStep (.hex [c, b, a] leading) d = .emit more next := hstep
  rw [← stringBytes_emit hlast]
  rfl

/-- **A spelled character is read**, whatever follows it. -/
theorem stringBytes_spells {spelled : List UInt8} {c : Char} (h : Spells spelled c) :
    stringBytes .plain bytes (spelled ++ rest)
      = stringBytes .plain ((String.utf8EncodeChar c).reverse ++ bytes) rest := by
  cases h with
  | itself hquote hslash hlow =>
    exact stringBytes_append fun b hb => not_special_of_mem_encodeChar hquote hslash hlow hb
  | letter hletter => exact stringBytes_letter hletter
  | @hex digits n hlength hn hleading htrailing =>
    refine stringBytes_hex hlength ?_
    simp only [hexStep, hn, hleading, htrailing, Bool.false_eq_true, if_false]
  | @pair first second m n hfirst hm hleading hsecond hn htrailing =>
    have hnot : isTrailing m = false := by
      simp only [isLeading, Bool.and_eq_true, decide_eq_true_eq] at hleading
      simp only [isTrailing, Bool.and_eq_false_imp, decide_eq_true_eq, decide_eq_false_iff_not]
      omega
    have hhalf : hexStep first none = .emit [] (.pair m) := by
      simp only [hexStep, hm, hnot, hleading, Bool.false_eq_true, if_false, if_true]
    have hwhole : hexStep second (some m) = .emit (String.utf8EncodeChar
        (Char.ofNat (0x10000 + (m - 0xD800) * 0x400 + (n - 0xDC00)))) .plain := by
      simp only [hexStep, hn, htrailing, if_true]
    -- the first half leaves no byte, only the number that the second one is added to
    rw [List.append_assoc, List.cons_append, List.cons_append]
    show stringBytes (.hex [] none) bytes (first ++ (92 :: 117 :: second ++ rest)) = _
    rw [stringBytes_hex hfirst hhalf]
    show stringBytes (.hex [] (some m)) bytes (second ++ rest) = _
    exact stringBytes_hex hsecond hwhole

end

theorem stringBytes_of_spellsText {spelled : List UInt8} {text : List Char}
    (h : SpellsText spelled text) (bytes rest : List UInt8) :
    stringBytes .plain bytes (spelled ++ 34 :: rest)
      = .ok (bytes.reverse ++ text.flatMap String.utf8EncodeChar, rest) := by
  obtain ⟨parts, rfl, hparts⟩ := h
  induction hparts generalizing bytes with
  | nil =>
    show Except.ok (bytes.reverse, rest) = _
    rw [List.flatMap_nil, List.append_nil]
  | cons hchar _ ih =>
    rw [List.flatten_cons, List.append_assoc, stringBytes_spells hchar, ih, List.flatMap_cons,
      List.reverse_append, List.reverse_reverse, List.append_assoc]

/-- **A spelled text is read.** -/
theorem readString_of_spells {spelled : List UInt8} {text : String}
    (h : SpellsText spelled text.toList) (rest : List UInt8) :
    readString (spelled ++ 34 :: rest) = .ok (text, rest) := by
  have htext : Utf8.decodeString (text.toList.flatMap String.utf8EncodeChar) = .ok text :=
    Utf8.decodeString_encode text
  simp only [readString, stringBytes_of_spellsText h, List.reverse_nil, List.nil_append, htext]

/-! ### Writing -/

/-- The four digits of a control character. -/
def controlDigits (n : Nat) : List UInt8 :=
  [48, 48, (Hex.digit (n / 16)).toNat.toUInt8, (Hex.digit (n % 16)).toNat.toUInt8]

theorem encode_control {n : Nat} (h : n < 32) :
    ['\\', 'u', '0', '0', Hex.digit (n / 16), Hex.digit (n % 16)].flatMap String.utf8EncodeChar
      = 92 :: 117 :: controlDigits n := by
  have all : ∀ m ∈ List.range 32,
      ['\\', 'u', '0', '0', Hex.digit (m / 16), Hex.digit (m % 16)].flatMap String.utf8EncodeChar
        = 92 :: 117 :: controlDigits m := by decide
  exact all n (List.mem_range.mpr h)

theorem spells_control {c : Char} (h : c.toNat < 32) :
    Spells (92 :: 117 :: controlDigits c.toNat) c := by
  have hnumber : Hex.number? (controlDigits c.toNat) = some c.toNat := by
    have all : ∀ m ∈ List.range 32, Hex.number? (controlDigits m) = some m := by decide
    exact all _ (List.mem_range.mpr h)
  have hplain : isLeading c.toNat = false ∧ isTrailing c.toNat = false := by
    have all : ∀ m ∈ List.range 32, isLeading m = false ∧ isTrailing m = false := by decide
    exact all _ (List.mem_range.mpr h)
  have hspells := Spells.hex rfl hnumber hplain.1 hplain.2
  rwa [Char.ofNat_toNat] at hspells

/-- **A written character is spelled.** -/
theorem spells_escapeChar (c : Char) :
    Spells ((escapeChar c).flatMap String.utf8EncodeChar) c := by
  unfold escapeChar
  split
  · subst c; exact .letter (b := 34) rfl
  split
  · subst c; exact .letter (b := 92) rfl
  split
  · subst c; exact .letter (b := 110) rfl
  split
  · subst c; exact .letter (b := 114) rfl
  split
  · subst c; exact .letter (b := 116) rfl
  split
  · subst c; exact .letter (b := 98) rfl
  split
  · subst c; exact .letter (b := 102) rfl
  split
  · rename_i hlow
    rw [encode_control hlow]
    exact spells_control hlow
  · rename_i hquote hslash _ _ _ _ _ hlow
    rw [List.flatMap_singleton]
    exact .itself hquote hslash (Nat.le_of_not_lt hlow)

/-- The bytes between the quotes of a written text. -/
def quoted (s : String) : List UInt8 :=
  s.toList.flatMap fun c => (escapeChar c).flatMap String.utf8EncodeChar

theorem encode_quote (s : String) : Utf8.encode (quote s) = 34 :: (quoted s ++ [34]) := by
  rw [Utf8.encode, quote, String.toList_ofList, List.flatMap_append, List.flatMap_cons,
    List.flatMap_assoc, quoted]
  rfl

theorem Spells.length_pos {bytes : List UInt8} {c : Char} (h : Spells bytes c) :
    0 < bytes.length := by
  cases h with
  | itself =>
    rw [String.length_utf8EncodeChar]
    exact c.utf8Size_pos
  | letter => exact Nat.succ_pos _
  | hex => exact Nat.succ_pos _
  | pair => exact Nat.succ_pos _

/-- No character vanishes. -/
theorem length_le_quoted (s : String) : s.toList.length ≤ (quoted s).length := by
  unfold quoted
  induction s.toList with
  | nil => exact Nat.zero_le _
  | cons c rest ih =>
    have hpos := (spells_escapeChar c).length_pos
    rw [List.flatMap_cons, List.length_append, List.length_cons]
    omega

/-- **What is written as a string is a spelling of it.** -/
theorem spellsText_quoted (s : String) : SpellsText (quoted s) s.toList := by
  refine ⟨s.toList.map fun c => (escapeChar c).flatMap String.utf8EncodeChar, ?_, ?_⟩
  · rw [quoted, List.flatMap_def]
  · rw [List.forall₂_map_left_iff, List.forall₂_same]
    exact fun c _ => spells_escapeChar c

end Json

end Simulcast
