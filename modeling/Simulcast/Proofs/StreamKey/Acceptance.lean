import Simulcast.StreamKey
/-!
# Which keys are accepted

The comparison of keys gathers the differences of all pairs of bytes before it gives its
verdict.  `sameBytes_iff` says that the verdict is equality: the gathered value is zero only
if every difference is, and lists of one length without a difference are the same list.
Different texts have different bytes (`Utf8.encode_injective`), so `KeyValidator.accepts_iff`
can speak of the texts alone.
-/

namespace Simulcast

/-! ### Bytes -/

/-- What is gathered vanishes only if nothing was gathered before and no pair differs. -/
theorem foldl_differences_eq_zero (pairs : List (UInt8 × UInt8)) (gathered : UInt8) :
    pairs.foldl (fun diff p => diff ||| (p.1 ^^^ p.2)) gathered = 0
      ↔ gathered = 0 ∧ ∀ p ∈ pairs, p.1 = p.2 := by
  induction pairs generalizing gathered with
  | nil => simp
  | cons p rest ih =>
    rw [List.foldl_cons, ih, UInt8.or_eq_zero_iff, UInt8.xor_eq_zero_iff]
    simp only [List.mem_cons, forall_eq_or_imp, and_assoc]

theorem eq_of_zip_same {α : Type} {a b : List α} (hlen : a.length = b.length)
    (h : ∀ p ∈ a.zip b, p.1 = p.2) : a = b := by
  induction a generalizing b with
  | nil =>
    cases b with
    | nil => rfl
    | cons y ys => simp at hlen
  | cons x xs ih =>
    cases b with
    | nil => simp at hlen
    | cons y ys =>
      rw [List.zip_cons_cons] at h
      have hhead : x = y := h (x, y) List.mem_cons_self
      have htail : xs = ys :=
        ih (by simpa using hlen) fun p hp => h p (List.mem_cons_of_mem _ hp)
      rw [hhead, htail]

theorem zip_self_same {α : Type} (a : List α) : ∀ p ∈ a.zip a, p.1 = p.2 := by
  induction a with
  | nil => simp
  | cons x xs ih =>
    intro p hp
    rw [List.zip_cons_cons] at hp
    rcases List.mem_cons.mp hp with rfl | hp
    · rfl
    · exact ih p hp

/-- **The comparison of all bytes is equality.** -/
theorem sameBytes_iff (a b : List UInt8) : sameBytes a b = true ↔ a = b := by
  unfold sameBytes
  rw [Bool.and_eq_true, beq_iff_eq, beq_iff_eq, foldl_differences_eq_zero]
  constructor
  · rintro ⟨hlen, -, hsame⟩
    exact eq_of_zip_same hlen hsame
  · rintro rfl
    exact ⟨rfl, rfl, zip_self_same a⟩

/-! ### Texts -/

/-- A text can be told from its bytes. -/
theorem Utf8.encode_injective {s t : String} (h : Utf8.encode s = Utf8.encode t) : s = t := by
  have hbytes : s.toList.utf8Encode = t.toList.utf8Encode := congrArg List.toByteArray h
  rw [String.utf8Encode_toList, String.utf8Encode_toList] at hbytes
  exact String.toByteArray_inj.mp hbytes

theorem sameBytes_encode_iff (s t : String) :
    sameBytes (Utf8.encode s) (Utf8.encode t) = true ↔ s = t := by
  rw [sameBytes_iff]
  exact ⟨Utf8.encode_injective, fun h => h ▸ rfl⟩

/-! ### Keys -/

/-- The search through the keys, which never stops early, finds what is in the list. -/
theorem foldl_found_iff (same : String → Bool) (keys : List String) (found : Bool) :
    keys.foldl (fun found key => found || same key) found = true
      ↔ found = true ∨ ∃ key ∈ keys, same key = true := by
  induction keys generalizing found with
  | nil => simp
  | cons key rest ih =>
    rw [List.foldl_cons, ih, Bool.or_eq_true]
    simp only [List.mem_cons, exists_eq_or_imp, or_assoc]

namespace KeyValidator

/-- **A key is accepted** if it is the temporary key, or, without one, a configured key. -/
theorem accepts_iff (v : KeyValidator) (candidate : String) :
    v.accepts candidate = true ↔
      match v.temporaryKey with
      | some key => candidate = key
      | none => candidate ∈ v.keys := by
  unfold accepts
  cases v.temporaryKey with
  | some key => exact sameBytes_encode_iff candidate key
  | none =>
    simp only [foldl_found_iff, sameBytes_encode_iff, Bool.false_eq_true, false_or]
    constructor
    · rintro ⟨key, hkey, rfl⟩
      exact hkey
    · exact fun h => ⟨candidate, h, rfl⟩

end KeyValidator

end Simulcast
