import Mathlib.Data.List.DropRight
import Simulcast.Http.Authorization
import Simulcast.Proofs.Text.Utf8
/-!
# The key in a header

Broadcasters and viewers give their key in the same header, and the two readings of it agree as
far as they can.  Both take the text of the header (`Http.Carries`), both strip the word in
front and then the white space, and a viewer may leave the word away: `Http.BroadcastersKey` and
`Http.ViewersKey`.

White space is meant as in any text, `Http.isWhite`.  The text of a header has only visible
characters, blanks and tabs, and among those `Http.isBlankChar` knows all that is white
(`Http.isWhite_of_legible`).  What is left is that stripping both ends of a text finds the one
middle part that has no white space at its ends: `Http.trim_eq_iff`.
-/

namespace Simulcast

namespace Http

/-! ### White space -/

/-- White space in a text of any script. -/
def isWhite (c : Char) : Bool :=
  (9 ≤ c.toNat && c.toNat ≤ 13) || c.toNat = 0x20 || c.toNat = 0x85 || c.toNat = 0xA0 ||
    c.toNat = 0x1680 || (0x2000 ≤ c.toNat && c.toNat ≤ 0x200A) || c.toNat = 0x2028 ||
    c.toNat = 0x2029 || c.toNat = 0x202F || c.toNat = 0x205F || c.toNat = 0x3000

/-- A text without white space at its ends. -/
def Tight (white : Char → Bool) (k : List Char) : Prop :=
  (∀ c, k.head? = some c → white c = false) ∧ ∀ c, k.getLast? = some c → white c = false

/-- The second text is the first one without the white space at its ends. -/
def Trimmed (white : Char → Bool) (t k : List Char) : Prop :=
  ∃ before after, t = before ++ k ++ after ∧ (∀ c ∈ before, white c = true) ∧
    (∀ c ∈ after, white c = true) ∧ Tight white k

section

variable {white other : Char → Bool} {t k before after : List Char} {c : Char}

theorem white_of_head?_dropWhile (h : (t.dropWhile white).head? = some c) : white c = false := by
  have hnot := List.head?_dropWhile_not white t
  rw [h] at hnot
  exact hnot

theorem dropWhile_append_of_stop (hbefore : ∀ c ∈ before, white c = true)
    (hstop : ∀ c, k.head? = some c → white c = false) : (before ++ k).dropWhile white = k := by
  rw [List.dropWhile_append_of_pos hbefore]
  cases k with
  | nil => rfl
  | cons c rest => exact List.dropWhile_cons_of_neg (by simp [hstop c rfl])

theorem trimmed_trim (t : List Char) : Trimmed isBlankChar t (trim t) := by
  have htrim : trim t = (t.dropWhile isBlankChar).rdropWhile isBlankChar := rfl
  refine ⟨t.takeWhile isBlankChar, (t.dropWhile isBlankChar).rtakeWhile isBlankChar,
    ?_, ?_, ?_, ?_, ?_⟩
  · rw [htrim, List.append_assoc, List.rdropWhile_append_rtakeWhile,
      List.takeWhile_append_dropWhile]
  · exact fun c hc => List.mem_takeWhile_imp hc
  · exact fun c hc => List.mem_rtakeWhile_imp hc
  · intro c hc
    -- what is cut off at the end leaves the first character in place
    obtain ⟨rest, hrest⟩ := List.rdropWhile_prefix isBlankChar (l := t.dropWhile isBlankChar)
    refine white_of_head?_dropWhile (t := t) ?_
    rw [← hrest, List.head?_append, ← htrim, hc]
    rfl
  · intro c hc
    rw [trim, List.getLast?_reverse] at hc
    exact white_of_head?_dropWhile hc

theorem trim_append (hbefore : ∀ c ∈ before, isBlankChar c = true)
    (hafter : ∀ c ∈ after, isBlankChar c = true) (hk : Tight isBlankChar k) :
    trim (before ++ k ++ after) = k := by
  rw [trim, List.append_assoc]
  cases k with
  | nil =>
    rw [List.nil_append, List.dropWhile_append_of_pos hbefore,
      List.dropWhile_eq_nil_iff.mpr hafter]
    rfl
  | cons c rest =>
    have hend : ∀ c', (c :: rest).reverse.head? = some c' → isBlankChar c' = false :=
      fun c' hc' => hk.2 c' (List.head?_reverse.symm.trans hc')
    have hafter' : ∀ c' ∈ after.reverse, isBlankChar c' = true :=
      fun c' hc' => hafter c' (List.mem_reverse.mp hc')
    have hstart : ∀ c', (c :: rest ++ after).head? = some c' → isBlankChar c' = false := hk.1
    rw [dropWhile_append_of_stop hbefore hstart, List.reverse_append,
      dropWhile_append_of_stop hafter' hend, List.reverse_reverse]

/-- **Trimming finds the middle part.** -/
theorem trim_eq_iff : trim t = k ↔ Trimmed isBlankChar t k := by
  constructor
  · rintro rfl
    exact trimmed_trim t
  · rintro ⟨before, after, rfl, hbefore, hafter, hk⟩
    exact trim_append hbefore hafter hk

/-- Two notions of white space that agree on a text trim it alike. -/
theorem Trimmed.of_agree (h : Trimmed white t k) (hagree : ∀ c ∈ t, white c = other c) :
    Trimmed other t k := by
  obtain ⟨before, after, rfl, hbefore, hafter, hhead, hlast⟩ := h
  simp only [List.mem_append, or_imp, forall_and] at hagree
  obtain ⟨⟨hb, hk⟩, ha⟩ := hagree
  refine ⟨before, after, rfl, fun c hc => ?_, fun c hc => ?_, fun c hc => ?_, fun c hc => ?_⟩
  · rw [← hb c hc, hbefore c hc]
  · rw [← ha c hc, hafter c hc]
  · rw [← hk c (List.mem_of_head? hc), hhead c hc]
  · rw [← hk c (List.mem_of_getLast? hc), hlast c hc]

end

/-! ### The text of a header -/

/-- The codes of what may stand in the text of a header: a tab, a blank, or a visible character
of ASCII. -/
def Legible (code : Nat) : Prop := code = 9 ∨ 32 ≤ code ∧ code ≤ 126

instance : DecidablePred Legible := fun _ => inferInstanceAs (Decidable (_ ∨ _))

/-- Whether a header gives the key; letter case does not count. -/
def Authorizes (name : String) : Prop := name.toList.map Char.toLower = "authorization".toList

instance : DecidablePred Authorizes := fun _ => inferInstanceAs (Decidable (_ = _))

/-- **The text that headers carry**: that of the first header that gives a key.  It is empty if
there is none, or if a byte of it stands for nothing legible. -/
inductive Carries : List (String × List UInt8) → List Char → Prop
  | missing {headers : List (String × List UInt8)} (h : ∀ x ∈ headers, ¬ Authorizes x.1) :
      Carries headers []
  | text {before after : List (String × List UInt8)} {name : String} {t : List Char}
      (hbefore : ∀ x ∈ before, ¬ Authorizes x.1) (hname : Authorizes name)
      (ht : ∀ c ∈ t, Legible c.toNat) :
      Carries (before ++ (name, Utf8.encode (String.ofList t)) :: after) t
  | illegible {before after : List (String × List UInt8)} {name : String} {value : List UInt8}
      (hbefore : ∀ x ∈ before, ¬ Authorizes x.1) (hname : Authorizes name)
      (hvalue : ∃ b ∈ value, ¬ Legible b.toNat) :
      Carries (before ++ (name, value) :: after) []

section

variable {headers before after : List (String × List UInt8)} {name : String}
  {value : List UInt8} {t : List Char} {c : Char} {b : UInt8}

theorem isBlankChar_iff : isBlankChar c = true ↔ c = ' ' ∨ c = '\t' := by
  simp [isBlankChar]

theorem isWhite_of_legible (h : Legible c.toNat) : isWhite c = isBlankChar c := by
  have hblank : c = ' ' ↔ c.toNat = 32 := Char.toNat_inj.symm
  have htab : c = '\t' ↔ c.toNat = 9 := Char.toNat_inj.symm
  rw [Bool.eq_iff_iff, isBlankChar_iff, hblank, htab]
  simp only [isWhite, Bool.or_eq_true, Bool.and_eq_true, decide_eq_true_eq]
  unfold Legible at h
  omega

theorem isVisible_iff : isVisible b = true ↔ Legible b.toNat := by
  have htab : b = 9 ↔ b.toNat = 9 := UInt8.toNat_inj.symm
  simp only [isVisible, Bool.or_eq_true, Bool.and_eq_true, decide_eq_true_eq, htab,
    UInt8.le_iff_toNat_le, UInt8.lt_iff_toNat_lt, UInt8.reduceToNat, Legible]
  omega

theorem Legible.toNat_toUInt8 (h : Legible c.toNat) : c.toNat.toUInt8.toNat = c.toNat := by
  refine UInt8.toNat_ofNat_of_lt' ?_
  unfold Legible at h
  show c.toNat < 256
  omega

theorem toNat_ofNat_byte (b : UInt8) : (Char.ofNat b.toNat).toNat = b.toNat := by
  have hvalid : b.toNat.isValidChar := .inl (by have := b.toNat_lt; omega)
  rw [Char.ofNat, dif_pos hvalid]
  rfl

theorem encode_of_legible (ht : ∀ c ∈ t, Legible c.toNat) :
    Utf8.encode (String.ofList t) = t.map fun c => c.toNat.toUInt8 := by
  rw [Utf8.encode, String.toList_ofList]
  induction t with
  | nil => rfl
  | cons c rest ih =>
    have hc : c.toNat < 128 := by
      have := ht c List.mem_cons_self
      unfold Legible at this
      omega
    rw [List.flatMap_cons, Utf8.encodeChar_of_ascii hc,
      ih fun c hc => ht c (List.mem_cons_of_mem _ hc)]
    rfl

/-- A legible text is read as it was written. -/
theorem headerText_encode (ht : ∀ c ∈ t, Legible c.toNat) :
    headerText (Utf8.encode (String.ofList t)) = some t := by
  rw [encode_of_legible ht, headerText, if_pos, List.map_map]
  · refine congrArg some ((List.map_congr_left fun c hc => ?_).trans (List.map_id t))
    show Char.ofNat c.toNat.toUInt8.toNat = c
    rw [(ht c hc).toNat_toUInt8, Char.ofNat_toNat]
  · simp only [List.all_map, List.all_eq_true, Function.comp_apply]
    intro c hc
    rw [isVisible_iff, (ht c hc).toNat_toUInt8]
    exact ht c hc

/-- Legible bytes are those of a legible text. -/
theorem exists_encode_of_legible (h : ∀ b ∈ value, Legible b.toNat) :
    ∃ t, (∀ c ∈ t, Legible c.toNat) ∧ value = Utf8.encode (String.ofList t) := by
  have ht : ∀ c ∈ value.map fun b => Char.ofNat b.toNat, Legible c.toNat := by
    intro c hc
    obtain ⟨b, hb, rfl⟩ := List.mem_map.mp hc
    rw [toNat_ofNat_byte]
    exact h b hb
  refine ⟨_, ht, ?_⟩
  rw [encode_of_legible ht, List.map_map]
  refine ((List.map_congr_left fun b _ => ?_).trans (List.map_id value)).symm
  show (Char.ofNat b.toNat).toNat.toUInt8 = b
  rw [toNat_ofNat_byte]
  exact UInt8.ofNat_toNat

theorem authorization_eq (headers : List (String × List UInt8)) :
    authorization headers = (((headers.find? fun x => decide (Authorizes x.1)).map (·.2)).bind
      headerText).getD [] :=
  rfl

theorem authorization_of_first (hbefore : ∀ x ∈ before, ¬ Authorizes x.1)
    (hname : Authorizes name) :
    authorization (before ++ (name, value) :: after) = (headerText value).getD [] := by
  have hnone : (before.find? fun x => decide (Authorizes x.1)) = none := by
    simpa [List.find?_eq_none] using hbefore
  rw [authorization_eq, List.find?_append, hnone, Option.none_or,
    List.find?_cons_of_pos (by simpa using hname)]
  rfl

theorem authorization_of_missing (h : ∀ x ∈ headers, ¬ Authorizes x.1) :
    authorization headers = [] := by
  have hnone : (headers.find? fun x => decide (Authorizes x.1)) = none := by
    simpa [List.find?_eq_none] using h
  rw [authorization_eq, hnone]
  rfl

theorem headerText_of_illegible (h : ∃ b ∈ value, ¬ Legible b.toNat) : headerText value = none := by
  obtain ⟨b, hb, hnot⟩ := h
  exact if_neg fun hall => hnot (isVisible_iff.mp (List.all_eq_true.mp hall b hb))

theorem carries_authorization (headers : List (String × List UInt8)) :
    Carries headers (authorization headers) := by
  cases hfound : headers.find? fun x => decide (Authorizes x.1) with
  | none =>
    have hmissing : ∀ x ∈ headers, ¬ Authorizes x.1 := by simpa using hfound
    rw [authorization_of_missing hmissing]
    exact .missing hmissing
  | some x =>
    obtain ⟨name, value⟩ := x
    obtain ⟨hname, before, after, rfl, hbefore⟩ := List.find?_eq_some_iff_append.mp hfound
    simp only [decide_eq_true_eq, Bool.not_eq_true', decide_eq_false_iff_not] at hname hbefore
    rw [authorization_of_first hbefore hname]
    by_cases hvalue : ∃ b ∈ value, ¬ Legible b.toNat
    · rw [headerText_of_illegible hvalue]
      exact .illegible hbefore hname hvalue
    · have hlegible : ∀ b ∈ value, Legible b.toNat := by simpa using hvalue
      obtain ⟨t, ht, rfl⟩ := exists_encode_of_legible hlegible
      rw [headerText_encode ht]
      exact .text hbefore hname ht

/-- **Headers carry one text.** -/
theorem carries_iff : Carries headers t ↔ t = authorization headers := by
  constructor
  · intro h
    cases h with
    | missing h => rw [authorization_of_missing h]
    | text hbefore hname ht => rw [authorization_of_first hbefore hname, headerText_encode ht]; rfl
    | illegible hbefore hname hvalue =>
      rw [authorization_of_first hbefore hname, headerText_of_illegible hvalue]
      rfl
  · rintro rfl
    exact carries_authorization headers

theorem Carries.legible (h : Carries headers t) : ∀ c ∈ t, Legible c.toNat := by
  cases h with
  | missing h => simp
  | text hbefore hname ht => exact ht
  | illegible hbefore hname hvalue => simp

end

/-! ### The keys -/

/-- What a broadcaster's key is: what follows the word, trimmed. -/
def BroadcastersKey (t k : List Char) : Prop :=
  k ≠ [] ∧ ∃ r, t = "Bearer ".toList ++ r ∧ Trimmed isWhite r k

/-- What a viewer's key is: what follows the word or, without it, all of the text, trimmed. -/
def ViewersKey (t k : List Char) : Prop :=
  k ≠ [] ∧ ((∃ r, t = "Bearer ".toList ++ r ∧ Trimmed isWhite r k) ∨
    ¬ "Bearer ".toList <+: t ∧ Trimmed isWhite t k)

/-- The outcome is the key that there is; if there is none, it says so. -/
def Yields (outcome : Except RelayError String) (IsKey : List Char → Prop) : Prop :=
  (∀ key, outcome = .ok key ↔ IsKey key.toList) ∧
    (outcome = .error .missingAuthorization ↔ ∀ k, ¬ IsKey k)

section

variable {headers : List (String × List UInt8)} {t r k : List Char}
  {IsKey : List Char → Prop}

theorem nonemptyKey_eq_ok_iff {key : String} :
    nonemptyKey t = .ok key ↔ key.toList ≠ [] ∧ t = key.toList := by
  cases t with
  | nil => exact iff_of_false (by simp [nonemptyKey]) fun h => h.1 h.2.symm
  | cons c rest =>
    have hkey : nonemptyKey (c :: rest) = .ok (String.ofList (c :: rest)) := rfl
    rw [hkey, Except.ok.injEq]
    constructor
    · rintro rfl
      rw [String.toList_ofList]
      exact ⟨by simp, rfl⟩
    · rintro ⟨-, h⟩
      rw [h, String.ofList_toList]

theorem nonemptyKey_eq_error_iff : nonemptyKey t = .error .missingAuthorization ↔ t = [] := by
  cases t <;> simp [nonemptyKey]

theorem yields_nonemptyKey (h : ∀ k, IsKey k ↔ k ≠ [] ∧ t = k) : Yields (nonemptyKey t) IsKey := by
  refine ⟨fun key => nonemptyKey_eq_ok_iff.trans (h _).symm, ?_⟩
  rw [nonemptyKey_eq_error_iff]
  constructor
  · rintro rfl k hk
    exact ((h k).mp hk).1 ((h k).mp hk).2.symm
  · intro hnone
    by_contra ht
    exact hnone t ((h t).mpr ⟨ht, rfl⟩)

theorem afterBearer_append (r : List Char) : afterBearer ("Bearer ".toList ++ r) = some r := by
  have hword : bearer.isPrefixOf ("Bearer ".toList ++ r) = true :=
    List.isPrefixOf_iff_prefix.mpr ⟨r, rfl⟩
  rw [afterBearer, if_pos hword]
  exact congrArg some (List.drop_left' rfl)

theorem afterBearer_of_not (h : ¬ "Bearer ".toList <+: t) : afterBearer t = none :=
  if_neg fun hword => h (List.isPrefixOf_iff_prefix.mp hword)

theorem trim_eq_iff_of_legible (h : ∀ c ∈ t, Legible c.toNat) :
    trim t = k ↔ Trimmed isWhite t k := by
  rw [trim_eq_iff]
  exact ⟨fun hk => hk.of_agree fun c hc => (isWhite_of_legible (h c hc)).symm,
    fun hk => hk.of_agree fun c hc => isWhite_of_legible (h c hc)⟩

theorem follows_iff {r' : List Char} :
    (∃ r, "Bearer ".toList ++ r' = "Bearer ".toList ++ r ∧ Trimmed isWhite r k) ↔
      Trimmed isWhite r' k := by
  simp only [List.append_cancel_left_eq, exists_eq_left']

/-- **What a broadcaster's header says.** -/
theorem yields_bearerKey (h : Carries headers t) :
    Yields (bearerKey headers) (BroadcastersKey t) := by
  rw [bearerKey, ← carries_iff.mp h]
  refine yields_nonemptyKey fun k => and_congr_right fun hk => ?_
  by_cases hword : "Bearer ".toList <+: t
  · obtain ⟨r, rfl⟩ := hword
    have hr : ∀ c ∈ r, Legible c.toNat := fun c hc => h.legible c (List.mem_append_right _ hc)
    rw [afterBearer_append, follows_iff]
    exact (trim_eq_iff_of_legible hr).symm
  · rw [afterBearer_of_not hword]
    refine iff_of_false ?_ hk.symm
    rintro ⟨r, rfl, -⟩
    exact hword ⟨r, rfl⟩

/-- **What a viewer's header says.** -/
theorem yields_viewerKey (h : Carries headers t) : Yields (viewerKey headers) (ViewersKey t) := by
  unfold viewerKey
  rw [← carries_iff.mp h]
  refine yields_nonemptyKey fun k => and_congr_right fun hk => ?_
  by_cases hword : "Bearer ".toList <+: t
  · simp only [hword, not_true_eq_false, false_and, or_false]
    obtain ⟨r, rfl⟩ := hword
    have hr : ∀ c ∈ r, Legible c.toNat := fun c hc => h.legible c (List.mem_append_right _ hc)
    rw [afterBearer_append, follows_iff]
    exact (trim_eq_iff_of_legible hr).symm
  · rw [afterBearer_of_not hword]
    refine (or_iff_right ?_).trans ((and_iff_right hword).trans
      (trim_eq_iff_of_legible h.legible).symm)
    rintro ⟨r, rfl, -⟩
    exact hword ⟨r, rfl⟩

/-! ### The two readings -/

theorem BroadcastersKey.viewersKey (h : BroadcastersKey t k) : ViewersKey t k :=
  ⟨h.1, .inl h.2⟩

theorem Trimmed.tight {white : Char → Bool} (h : Trimmed white t k) : Tight white k := by
  obtain ⟨before, after, -, -, -, hk⟩ := h
  exact hk

theorem ViewersKey.tight (h : ViewersKey t k) : Tight isWhite k := by
  rcases h.2 with ⟨r, -, hr⟩ | ⟨-, ht⟩
  · exact hr.tight
  · exact ht.tight

/-- A key with blanks and tabs around it. -/
theorem trimmed_of_runs {p s : List Char} (hruns : ∀ c ∈ p ++ s, c = ' ' ∨ c = '\t')
    (hk : Tight isWhite k) : Trimmed isWhite (p ++ k ++ s) k := by
  have hwhite : ∀ c ∈ p ++ s, isWhite c = true := by
    intro c hc
    rcases hruns c hc with rfl | rfl <;> rfl
  exact ⟨p, s, rfl, fun c hc => hwhite c (List.mem_append_left _ hc),
    fun c hc => hwhite c (List.mem_append_right _ hc), hk⟩

theorem legible_given {p s : List Char} (hk : ∀ c ∈ k, Legible c.toNat)
    (hruns : ∀ c ∈ p ++ s, c = ' ' ∨ c = '\t') :
    ∀ c ∈ "Bearer ".toList ++ (p ++ k ++ s), Legible c.toNat := by
  have hword : ∀ c ∈ "Bearer ".toList, Legible c.toNat := by
    have hall : ("Bearer ".toList.all fun c => decide (Legible c.toNat)) = true := rfl
    exact fun c hc => of_decide_eq_true (List.all_eq_true.mp hall c hc)
  have hblank : ∀ c ∈ p ++ s, Legible c.toNat := by
    intro c hc
    rcases hruns c hc with rfl | rfl <;> decide
  intro c hc
  simp only [List.mem_append] at hc hblank
  rcases hc with hc | (hc | hc) | hc
  · exact hword c hc
  · exact hblank c (.inl hc)
  · exact hk c hc
  · exact hblank c (.inr hc)

/-- A key that stands alone is a viewer's key, unless it begins with the word itself. -/
theorem viewersKey_self_iff (hk : k ≠ []) (htight : Tight isWhite k) :
    ViewersKey k k ↔ ¬ "Bearer ".toList <+: k := by
  constructor
  · rintro ⟨-, ⟨r, hr, before, after, hrk, -⟩ | ⟨hword, -⟩⟩
    · -- what follows the word is shorter than the key
      have hlong := congrArg List.length hr
      have hshort := congrArg List.length hrk
      simp only [List.length_append] at hlong hshort
      have hword : "Bearer ".toList.length = 7 := rfl
      omega
    · exact hword
  · intro hword
    exact ⟨hk, .inr ⟨hword, [], [], by simp, by simp, by simp, htight⟩⟩

/-- Headers of which the first gives a key, in a text. -/
def withText (t : List Char) (headers : List (String × List UInt8)) :
    List (String × List UInt8) :=
  ("authorization", Utf8.encode (String.ofList t)) :: headers

theorem carries_withText (ht : ∀ c ∈ t, Legible c.toNat) : Carries (withText t headers) t := by
  have hnone : ∀ x ∈ ([] : List (String × List UInt8)), ¬ Authorizes x.1 := by simp
  exact .text hnone (by decide) ht

/-- **How broadcasters and viewers give a key.**  Headers carry one text, and what is read off
it is the key that there is, or that there is none.  A broadcaster's key is a viewer's key, and
no key is empty or has white space at its ends.  Both read a key that is written behind the word,
with any blanks and tabs around it; a viewer also reads it alone, unless it begins with the word
itself. -/
theorem keys_in_headers (headers : List (String × List UInt8)) :
    (∃ t, (∀ t', Carries headers t' ↔ t' = t) ∧
      Yields (bearerKey headers) (BroadcastersKey t) ∧
      Yields (viewerKey headers) (ViewersKey t)) ∧
    (∀ key, bearerKey headers = .ok key → viewerKey headers = .ok key) ∧
    (∀ key, bearerKey headers = .ok key ∨ viewerKey headers = .ok key →
      key.toList ≠ [] ∧ Tight isWhite key.toList) ∧
    ∀ k : List Char, k ≠ [] → (∀ c ∈ k, Legible c.toNat) → Tight isWhite k →
      (∀ p s : List Char, (∀ c ∈ p ++ s, c = ' ' ∨ c = '\t') →
        let given := withText ("Bearer ".toList ++ (p ++ k ++ s)) headers
        bearerKey given = .ok (String.ofList k) ∧ viewerKey given = .ok (String.ofList k)) ∧
      (viewerKey (withText k headers) = .ok (String.ofList k) ↔ ¬ "Bearer ".toList <+: k) := by
  have hcarries := carries_authorization headers
  have hbearer := yields_bearerKey hcarries
  have hviewer := yields_viewerKey hcarries
  have hboth : ∀ key, bearerKey headers = .ok key → viewerKey headers = .ok key :=
    fun key hkey => (hviewer.1 key).mpr ((hbearer.1 key).mp hkey).viewersKey
  refine ⟨⟨_, fun t' => carries_iff, hbearer, hviewer⟩, hboth, ?_, ?_⟩
  · intro key hkey
    have hkey := (hviewer.1 key).mp (hkey.elim (hboth key) id)
    exact ⟨hkey.1, hkey.tight⟩
  · intro k hk hlegible htight
    refine ⟨fun p s hruns => ?_, ?_⟩
    · have hgiven := legible_given hlegible hruns
      have hkey : BroadcastersKey ("Bearer ".toList ++ (p ++ k ++ s)) (String.ofList k).toList := by
        rw [String.toList_ofList (l := k)]
        exact ⟨hk, _, rfl, trimmed_of_runs hruns htight⟩
      exact ⟨((yields_bearerKey (carries_withText hgiven)).1 _).mpr hkey,
        ((yields_viewerKey (carries_withText hgiven)).1 _).mpr hkey.viewersKey⟩
    · rw [(yields_viewerKey (carries_withText hlegible)).1, String.toList_ofList]
      exact viewersKey_self_iff hk htight

end

end Http

end Simulcast
