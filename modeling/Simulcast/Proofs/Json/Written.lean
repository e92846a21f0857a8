import Simulcast.Proofs.Json.Value
/-!
# What is written as JSON reads back

`Json.Reads item text a` says that the reader `item` takes exactly the bytes `text` for `a`, with
any blanks before it, where a comma, a closing bracket, a blank or the end follows.  A written
list is its items behind one another, each behind a comma but the first, and a written object is
the same with keys, so both are read item by item (`Json.readItems_written`,
`Json.readPairs_laid`).

Strings (`Json.reads_quote`), lists (`Json.reads_list`) and objects (`Json.reads_object`) are
written so that they read back, hence any nest of them (`Json.decode_of_reads`).
-/

namespace Simulcast

namespace Json

variable {α : Type}

/-! ### Bytes of a document -/

theorem intercalate_cons {β : Type} {sep : β} (part : List β) (parts : List (List β)) :
    [sep].intercalate (part :: parts) = part ++ parts.flatMap (sep :: ·) := by
  induction parts generalizing part with
  | nil => simp
  | cons next rest ih =>
    rw [List.intercalate_cons_cons, ih, List.flatMap_cons, List.append_assoc]
    rfl

/-- There are no more parts than bytes. -/
theorem length_le_intercalate (parts : List (List UInt8)) (b : UInt8) (rest : List UInt8) :
    parts.length ≤ ([44].intercalate parts ++ b :: rest).length := by
  cases parts with
  | nil => exact Nat.zero_le _
  | cons part parts =>
    have hcommas : parts.length ≤ (parts.flatMap ((44 : UInt8) :: ·)).length := by
      induction parts with
      | nil => exact Nat.zero_le _
      | cons next rest ih =>
        rw [List.flatMap_cons, List.length_append, List.length_cons, List.length_cons]
        omega
    rw [intercalate_cons]
    simp only [List.length_append, List.length_cons]
    omega

theorem encode_intercalate (texts : List String) :
    Utf8.encode (",".intercalate texts) = [44].intercalate (texts.map Utf8.encode) := by
  rw [Utf8.encode, String.toList_intercalate]
  cases texts with
  | nil => rfl
  | cons text rest =>
    show (([','] : List Char).intercalate _).flatMap _ = _
    rw [List.map_cons, List.map_cons, intercalate_cons, intercalate_cons, List.flatMap_append,
      List.flatMap_assoc, List.flatMap_map, List.flatMap_map]
    rfl

theorem encode_list (items : List String) :
    Utf8.encode (list items) = 91 :: ([44].intercalate (items.map Utf8.encode) ++ [93]) := by
  rw [list, Utf8.encode_append, Utf8.encode_append, encode_intercalate]
  rfl

/-- The bytes of a member of an object. -/
def memberBytes (member : String × String) : List UInt8 :=
  34 :: (quoted member.1 ++ 34 :: 58 :: Utf8.encode member.2)

theorem encode_object (members : List (String × String)) :
    Utf8.encode (object members)
      = 123 :: ([44].intercalate (members.map memberBytes) ++ [125]) := by
  have hmember : ∀ m : String × String, Utf8.encode (quote m.1 ++ ":" ++ m.2) = memberBytes m := by
    intro m
    rw [Utf8.encode_append, Utf8.encode_append, encode_quote, memberBytes, List.cons_append,
      List.cons_append, List.append_assoc, List.append_assoc]
    rfl
  rw [object, Utf8.encode_append, Utf8.encode_append, encode_intercalate, List.map_map]
  simp only [Function.comp_def, hmember]
  rfl

/-! ### Where a value starts and ends -/

/-- Bytes that stand for nothing. -/
def Blanks (bytes : List UInt8) : Prop := ∀ b ∈ bytes, isBlank b = true

theorem blanks_nil : Blanks [] := fun _ hb => absurd hb List.not_mem_nil

theorem skipBlanks_append {blanks : List UInt8} (h : Blanks blanks) (rest : List UInt8) :
    skipBlanks (blanks ++ rest) = skipBlanks rest :=
  List.dropWhile_append_of_pos h

theorem skipBlanks_cons {b : UInt8} (h : isBlank b = false) (rest : List UInt8) :
    skipBlanks (b :: rest) = b :: rest :=
  List.dropWhile_cons_of_neg (by rw [h]; exact Bool.false_ne_true)

/-- What may follow a value: a comma, a closing bracket, a blank or nothing. -/
def Delimited (rest : List UInt8) : Prop :=
  ∀ b ∈ rest.head?, b = 44 ∨ b = 93 ∨ b = 125 ∨ isBlank b = true

theorem delimited_cons {b : UInt8} (h : b = 44 ∨ b = 93 ∨ b = 125 ∨ isBlank b = true)
    (rest : List UInt8) : Delimited (b :: rest) := by
  intro c hc
  rwa [← Option.some.inj hc]

theorem Blanks.delimited_append {blanks rest : List UInt8} (h : Blanks blanks)
    (hrest : Delimited rest) : Delimited (blanks ++ rest) := by
  cases blanks with
  | nil => exact hrest
  | cons b tail => exact delimited_cons (.inr (.inr (.inr (h b List.mem_cons_self)))) _

theorem Blanks.delimited {blanks : List UInt8} (h : Blanks blanks) : Delimited blanks := by
  have hempty : Delimited [] := fun _ hb => nomatch hb
  have happend := h.delimited_append hempty
  rwa [List.append_nil] at happend

theorem delimited_flatMap {closer : UInt8} (h : closer = 93 ∨ closer = 125)
    (parts : List (List UInt8)) (rest : List UInt8) :
    Delimited (parts.flatMap (44 :: ·) ++ closer :: rest) := by
  cases parts with
  | nil => exact delimited_cons (.inr (h.imp_right .inl)) rest
  | cons part parts => exact delimited_cons (.inl rfl) _

/-- A reader takes exactly some bytes for a value. -/
structure Reads (item : List UInt8 → Read α) (text : List UInt8) (a : α) : Prop where
  /-- The value is seen as one, behind a comma or an opening bracket. -/
  starts : ∃ b tail, text = b :: tail ∧ isBlank b = false ∧ b ≠ 93
  reads : ∀ before rest, Blanks before → Delimited rest →
    item (before ++ (text ++ rest)) = .ok (a, rest)

/-! ### Lists -/

section

variable {item : List UInt8 → Read α} {text more rest : List UInt8} {a : α}

theorem nextItem_first (h : Reads item text a) :
    nextItem true (text ++ more) = .ok (true, text ++ more) := by
  obtain ⟨b, tail, rfl, hblank, hcloser⟩ := h.starts
  simp only [nextItem, List.cons_append, skipBlanks_cons hblank, if_neg hcloser, if_true]

theorem nextItem_comma (h : Reads item text a) :
    nextItem false (44 :: (text ++ more)) = .ok (true, text ++ more) := by
  obtain ⟨b, tail, rfl, hblank, hcloser⟩ := h.starts
  have hcomma : skipBlanks (44 :: (b :: tail ++ more)) = 44 :: (b :: tail ++ more) := rfl
  have hitem : skipBlanks (b :: tail ++ more) = b :: tail ++ more := skipBlanks_cons hblank _
  simp only [nextItem, hcomma, hitem]
  simp only [List.cons_append, if_neg hcloser]
  rfl

theorem readItems_cons {fuel : Nat} {first : Bool} {s : List UInt8} {as : List α}
    (hnext : nextItem first s = .ok (true, text ++ more)) (h : Reads item text a)
    (hmore : Delimited more) (htail : readItems item fuel false more = .ok (as, rest)) :
    readItems item (fuel + 1) first s = .ok (a :: as, rest) := by
  have hitem : item (text ++ more) = .ok (a, more) := h.reads [] more blanks_nil hmore
  simp only [readItems, hnext, hitem, htail]

variable {texts : List (List UInt8)} {as : List α}

theorem readItems_commas (h : List.Forall₂ (Reads item) texts as) (rest : List UInt8) {fuel : Nat}
    (hfuel : texts.length < fuel) :
    readItems item fuel false (texts.flatMap (44 :: ·) ++ 93 :: rest) = .ok (as, rest) := by
  induction h generalizing fuel with
  | nil =>
    obtain ⟨fewer, rfl⟩ := Nat.exists_eq_succ_of_ne_zero (Nat.ne_zero_of_lt hfuel)
    rfl
  | @cons text a texts as hfirst _ ih =>
    obtain ⟨fewer, rfl⟩ := Nat.exists_eq_succ_of_ne_zero (Nat.ne_zero_of_lt hfuel)
    rw [List.flatMap_cons, List.cons_append, List.cons_append, List.append_assoc]
    exact readItems_cons (nextItem_comma hfirst) hfirst (delimited_flatMap (.inl rfl) texts rest)
      (ih (Nat.lt_of_succ_lt_succ hfuel))

/-- **A written list reads back**, item by item. -/
theorem readItems_written (h : List.Forall₂ (Reads item) texts as) (rest : List UInt8) {fuel : Nat}
    (hfuel : texts.length < fuel) :
    readItems item fuel true ([44].intercalate texts ++ 93 :: rest) = .ok (as, rest) := by
  obtain ⟨fewer, rfl⟩ := Nat.exists_eq_succ_of_ne_zero (Nat.ne_zero_of_lt hfuel)
  cases h with
  | nil => rfl
  | @cons text a texts as hfirst hothers =>
    rw [intercalate_cons, List.append_assoc]
    exact readItems_cons (nextItem_first hfirst) hfirst (delimited_flatMap (.inl rfl) texts rest)
      (readItems_commas hothers rest (Nat.lt_of_succ_lt_succ hfuel))

end

/-! ### Objects -/

section

variable {blanks rest : List UInt8}

theorem nextKey_blanks (h : Blanks blanks) (first : Bool) :
    nextKey first (blanks ++ rest) = nextKey first rest := by
  rw [nextKey, skipBlanks_append h, nextKey]

/-- The next key is found behind a comma, with blanks on either side of it. -/
theorem nextKey_comma {before : List UInt8} (hblanks : Blanks blanks) (hbefore : Blanks before) :
    nextKey false (blanks ++ 44 :: (before ++ 34 :: rest)) = .ok (true, rest) := by
  have hquote : skipBlanks (before ++ 34 :: rest) = 34 :: rest := skipBlanks_append hbefore _
  have hcomma : skipBlanks (44 :: (before ++ 34 :: rest)) = 44 :: (before ++ 34 :: rest) := rfl
  rw [nextKey_blanks hblanks]
  simp only [nextKey, hcomma, hquote]
  rfl

theorem readColon_blanks (h : Blanks blanks) : readColon (blanks ++ 58 :: rest) = .ok rest := by
  have hcolon : skipBlanks (58 :: rest) = 58 :: rest := rfl
  simp only [readColon, skipBlanks_append h, hcolon, if_true]

/-- A member of an object, with blanks around its parts, whose value an item's reader takes. -/
inductive Lays (item : List UInt8 → Read α) : List UInt8 → String × α → Prop where
  | intro {before name between behind text after : List UInt8} {member : String × α}
      (hbefore : Blanks before) (hname : SpellsText name member.1.toList)
      (hbetween : Blanks between) (hbehind : Blanks behind) (h : Reads item text member.2)
      (hafter : Blanks after) :
      Lays item (before ++ 34 :: (name ++ 34 :: (between ++ 58 :: (behind ++ (text ++ after)))))
        member

variable {item : List UInt8 → Read α}

theorem readPairs_cons {fuel : Nat} {first : Bool} {s more : List UInt8}
    {name between behind text : List UInt8} {member : String × α} {pairs : List (String × α)}
    (hname : SpellsText name member.1.toList) (hbetween : Blanks between) (hbehind : Blanks behind)
    (h : Reads item text member.2) (hmore : Delimited more)
    (hnext : nextKey first s = .ok (true,
      name ++ 34 :: (between ++ 58 :: (behind ++ (text ++ more)))))
    (htail : readPairs item fuel false more = .ok (pairs, rest)) :
    readPairs item (fuel + 1) first s = .ok (member :: pairs, rest) := by
  simp only [readPairs, hnext, readString_of_spells hname, readColon_blanks hbetween,
    h.reads behind more hbehind hmore, htail]

variable {parts : List (List UInt8)} {pairs : List (String × α)}

theorem readPairs_commas (h : List.Forall₂ (Lays item) parts pairs) (rest : List UInt8)
    (hblanks : Blanks blanks) {fuel : Nat} (hfuel : parts.length < fuel) :
    readPairs item fuel false (blanks ++ (parts.flatMap (44 :: ·) ++ 125 :: rest))
      = .ok (pairs, rest) := by
  -- the blanks behind a member stand before the next comma or the closing bracket
  induction h generalizing fuel blanks with
  | nil =>
    obtain ⟨fewer, rfl⟩ := Nat.exists_eq_succ_of_ne_zero (Nat.ne_zero_of_lt hfuel)
    have hclose : nextKey false (blanks ++ 125 :: rest) = .ok (false, rest) :=
      nextKey_blanks hblanks _
    simp only [List.flatMap_nil, List.nil_append, readPairs, hclose]
  | @cons part pair parts pairs hmember _ ih =>
    obtain ⟨fewer, rfl⟩ := Nat.exists_eq_succ_of_ne_zero (Nat.ne_zero_of_lt hfuel)
    cases hmember with
    | intro hbefore hname hbetween hbehind hvalue hafter =>
      refine readPairs_cons hname hbetween hbehind hvalue
        (hafter.delimited_append (delimited_flatMap (.inr rfl) parts rest)) ?_
        (ih hafter (Nat.lt_of_succ_lt_succ hfuel))
      simp only [List.flatMap_cons, List.cons_append, List.append_assoc]
      exact nextKey_comma hblanks hbefore

/-- **An object is read member by member**, however it is laid out. -/
theorem readPairs_laid (h : List.Forall₂ (Lays item) parts pairs) (rest : List UInt8) {fuel : Nat}
    (hfuel : parts.length < fuel) :
    readPairs item fuel true ([44].intercalate parts ++ 125 :: rest) = .ok (pairs, rest) := by
  obtain ⟨fewer, rfl⟩ := Nat.exists_eq_succ_of_ne_zero (Nat.ne_zero_of_lt hfuel)
  cases h with
  | nil => rfl
  | @cons part pair parts pairs hmember hothers =>
    cases hmember with
    | intro hbefore hname hbetween hbehind hvalue hafter =>
      refine readPairs_cons hname hbetween hbehind hvalue
        (hafter.delimited_append (delimited_flatMap (.inr rfl) parts rest)) ?_
        (readPairs_commas hothers rest hafter (Nat.lt_of_succ_lt_succ hfuel))
      simp only [intercalate_cons, List.cons_append, List.append_assoc]
      exact nextKey_blanks hbefore true

end

/-! ### Values -/

section

variable {depth : Nat}

theorem readValue_blanks {blanks : List UInt8} (h : Blanks blanks) (rest : List UInt8) :
    readValue depth (blanks ++ rest) = readValue depth rest := by
  cases depth with
  | zero => rfl
  | succ depth => rw [readValue, skipBlanks_append h, readValue]

/-- A text is read, however it is spelled. -/
theorem reads_text {spelled : List UInt8} {t : String} (h : SpellsText spelled t.toList) :
    Reads (readValue (depth + 1)) (34 :: (spelled ++ [34])) (.text t) := by
  refine ⟨⟨34, _, rfl, rfl, by decide⟩, fun before rest hbefore _ => ?_⟩
  have hkind : ∀ tail, readValue (depth + 1) (34 :: tail)
      = (readString tail).map (Prod.map .text id) := fun _ => rfl
  rw [readValue_blanks hbefore, List.cons_append, hkind, List.append_assoc, List.singleton_append,
    readString_of_spells h]
  rfl

theorem reads_quote (s : String) :
    Reads (readValue (depth + 1)) (Utf8.encode (quote s)) (.text s) := by
  rw [encode_quote]
  exact reads_text (spellsText_quoted s)

theorem reads_list {items : List String} {values : List Value}
    (h : List.Forall₂ (fun text => Reads (readValue depth) (Utf8.encode text)) items values) :
    Reads (readValue (depth + 1)) (Utf8.encode (list items)) (.list values) := by
  rw [encode_list]
  refine ⟨⟨91, _, rfl, rfl, by decide⟩, fun before rest hbefore _ => ?_⟩
  have hkind : ∀ tail, readValue (depth + 1) (91 :: tail)
      = (readItems (readValue depth) (tail.length + 1) true tail).map (Prod.map .list id) :=
    fun _ => rfl
  rw [readValue_blanks hbefore, List.cons_append, hkind, List.append_assoc, List.singleton_append,
    readItems_written (List.forall₂_map_left_iff.mpr h) rest
      (Nat.lt_succ_of_le (length_le_intercalate _ _ _))]
  rfl

/-- An object is read, however it is laid out. -/
theorem reads_laid {parts : List (List UInt8)} {members : List (String × Value)}
    (h : List.Forall₂ (Lays (readValue depth)) parts members) :
    Reads (readValue (depth + 1)) (123 :: ([44].intercalate parts ++ [125])) (.object members) := by
  refine ⟨⟨123, _, rfl, rfl, by decide⟩, fun before rest hbefore _ => ?_⟩
  have hkind : ∀ tail, readValue (depth + 1) (123 :: tail)
      = (readPairs (readValue depth) (tail.length + 1) true tail).map (Prod.map .object id) :=
    fun _ => rfl
  rw [readValue_blanks hbefore, List.cons_append, hkind, List.append_assoc, List.singleton_append,
    readPairs_laid h rest (Nat.lt_succ_of_le (length_le_intercalate _ _ _))]
  rfl

theorem reads_object {members : List (String × String)} {values : List (String × Value)}
    (h : List.Forall₂ (fun m v => v.1 = m.1 ∧ Reads (readValue depth) (Utf8.encode m.2) v.2)
      members values) :
    Reads (readValue (depth + 1)) (Utf8.encode (object members)) (.object values) := by
  rw [encode_object]
  refine reads_laid (List.forall₂_map_left_iff.mpr (h.imp fun m v hv => ?_))
  obtain ⟨hname, hvalue⟩ := hv
  have hspelled : SpellsText (quoted m.1) v.1.toList := hname ▸ spellsText_quoted m.1
  have hlays := Lays.intro blanks_nil hspelled blanks_nil blanks_nil hvalue blanks_nil
  rw [List.append_nil] at hlays
  exact hlays

end

/-- **What is read as a value is decoded**, if its text is as long as it nests deep. -/
theorem decode_of_reads {before text after : List UInt8} {value : Value} (hbefore : Blanks before)
    (hafter : Blanks after) (needed : Nat) (hneeded : needed ≤ text.length)
    (h : ∀ depth, Reads (readValue (depth + needed + 1)) text value) :
    decode (before ++ (text ++ after)) = .ok value := by
  have hlength : needed ≤ (before ++ (text ++ after)).length := by
    rw [List.length_append, List.length_append]
    omega
  have hread := (h ((before ++ (text ++ after)).length - needed)).reads before after hbefore
    hafter.delimited
  rw [Nat.sub_add_cancel hlength] at hread
  have hend : skipBlanks after = [] := by
    have hall := skipBlanks_append hafter []
    rwa [List.append_nil] at hall
  exact readAll_eq_ok.mpr ⟨after, hread, hend⟩

theorem decode_written {text : String} {value : Value} (needed : Nat)
    (hneeded : needed ≤ (Utf8.encode text).length)
    (h : ∀ depth, Reads (readValue (depth + needed + 1)) (Utf8.encode text) value) :
    decode (Utf8.encode text) = .ok value := by
  have hdecode := decode_of_reads blanks_nil blanks_nil needed hneeded h
  rwa [List.nil_append, List.append_nil] at hdecode

end Json

end Simulcast
