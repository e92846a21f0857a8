import Simulcast.Proofs.Json.Value
/-!
# Documents as values

The readers of documents expect something, the reader of values does not.  `Json.Takes item x a`
says that the reader `item` takes the value `x` for `a`: wherever `x` can be read as a value,
`item` reads `a` and ends at the same place.  So what a document says depends on its value alone,
and not on how it is laid out (`Json.readAll_of_takes`).

A list is taken item by item (`Json.takes_list`).  An object is taken member by member, and each
member goes into the field of its name: `Json.Fills` follows the members of an object into a
record, in the order of the text.
-/

namespace Simulcast

namespace Json

variable {α β : Type}

/-- A reader takes a value for what it stands for. -/
def Takes (item : List UInt8 → Read α) (x : Value) (a : α) : Prop :=
  ∀ ⦃depth : Nat⦄ ⦃s rest : List UInt8⦄, readValue depth s = .ok (x, rest) →
    item s = .ok (a, rest)

theorem Takes.map {item : List UInt8 → Read α} {x : Value} {a : α} (h : Takes item x a)
    (f : α → β) : Takes (fun s => (item s).map (Prod.map f id)) x (f a) := by
  intro depth s rest hx
  simp only [h hx]
  rfl

/-- **What a text is read for depends on its value only.** -/
theorem readAll_of_takes {item : List UInt8 → Read α} {x : Value} {a : α} (h : Takes item x a)
    {input : List UInt8} (hx : decode input = .ok x) : readAll item input = .ok a := by
  obtain ⟨rest, hread, hblank⟩ := readAll_eq_ok.mp hx
  exact readAll_eq_ok.mpr ⟨rest, h hread, hblank⟩

/-! ### Simple values -/

theorem takes_text (t : String) : Takes readText (.text t) t := by
  intro depth s rest h
  obtain ⟨tail, hs, hread⟩ : ∃ tail, skipBlanks s = 34 :: tail ∧ readString tail = .ok (t, rest) :=
    readValue_spec h
  simp only [readText, hs, hread]

theorem takes_bool (b : Bool) : Takes readBool (.bool b) b := by
  intro depth s rest h
  cases b with
  | true =>
    obtain ⟨tail, hs, hread⟩ : ∃ tail, skipBlanks s = 116 :: tail ∧
        readIdent [114, 117, 101] tail = .ok rest := readValue_spec h
    simp only [readBool, hs, hread]
    rfl
  | false =>
    obtain ⟨tail, hs, hread⟩ : ∃ tail, skipBlanks s = 102 :: tail ∧
        readIdent [97, 108, 115, 101] tail = .ok rest := readValue_spec h
    simp only [readBool, hs, hread]
    rfl

theorem takes_unsigned (expected : String) (n : UInt64) :
    Takes (readUnsigned expected) (.number (.unsigned n)) n := by
  intro depth s rest h
  obtain ⟨b, tail, hs, hread⟩ : ∃ b tail, skipBlanks s = b :: tail ∧
      (b = 45 ∧ readNumber true tail = .ok (.unsigned n, rest) ∨
        b ≠ 45 ∧ isDigit b = true ∧ readNumber false (b :: tail) = .ok (.unsigned n, rest)) :=
    readValue_spec h
  rcases hread with ⟨hb, hread⟩ | ⟨hb, hdigit, hread⟩
  · simp only [readUnsigned, hs, if_pos hb, hread, takeUnsigned]
  · simp only [readUnsigned, hs, if_neg hb, if_pos hdigit, hread, takeUnsigned]

/-! ### Lists -/

theorem readItems_of_takes {item : List UInt8 → Read α} {depth fuel : Nat} {first : Bool}
    {s rest : List UInt8} {xs : List Value} {as : List α} (h : List.Forall₂ (Takes item) xs as)
    (hread : readItems (readValue depth) fuel first s = .ok (xs, rest)) :
    readItems item fuel first s = .ok (as, rest) := by
  induction h generalizing fuel first s with
  | nil =>
    obtain ⟨fewer, tail, rfl, hnext, rfl⟩ := readItems_eq_nil hread
    simp only [readItems, hnext]
  | cons hitem _ ih =>
    obtain ⟨fewer, here, behind, rfl, hnext, hx, htail⟩ := readItems_eq_cons hread
    simp only [readItems, hnext, hitem hx, ih htail]

theorem takes_list {item : List UInt8 → Read α} {xs : List Value} {as : List α}
    (h : List.Forall₂ (Takes item) xs as) : Takes (readList item) (.list xs) as := by
  intro depth s rest hx
  obtain ⟨fewer, tail, -, hs, hread⟩ : ∃ fewer tail, depth = fewer + 1 ∧
      skipBlanks s = 91 :: tail ∧
      readItems (readValue fewer) (tail.length + 1) true tail = .ok (xs, rest) := readValue_spec hx
  simp only [readList, hs, readItems_of_takes h hread]

/-! ### Records -/

/-- The members of an object go into a record one after another, each into the field of its
name. -/
inductive Fills (r : Record α) : List (String × Value) → α → α → Prop where
  | nil (v : α) : Fills r [] v v
  | cons {name : String} {x : Value} {members : List (String × Value)} {f : Field α} {u v w : α}
      (hfield : r.field? name = some f) (htakes : Takes (f.read u) x v)
      (hothers : Fills r members v w) : Fills r ((name, x) :: members) u w

theorem Record.missing?_eq_none {r : Record α} {seen : List String}
    (h : ∀ f ∈ r.fields, f.required = true → f.name ∈ seen) : r.missing? seen = none := by
  rw [missing?, Option.map_eq_none_iff, List.find?_eq_none]
  intro f hf
  by_cases hrequired : f.required = true
  · simp [h f hf hrequired]
  · simp [hrequired]

/-- **A record is read member by member**, as an object is. -/
theorem readMembers_of_fills {r : Record α} {depth fuel : Nat} {first : Bool} {seen : List String}
    {u w : α} {s rest : List UInt8} {members : List (String × Value)} (h : Fills r members u w)
    (hread : readPairs (readValue depth) fuel first s = .ok (members, rest))
    (hnodup : (members.map Prod.fst).Nodup) (hnew : ∀ name ∈ members.map Prod.fst, name ∉ seen)
    (hrequired : ∀ f ∈ r.fields, f.required = true →
      f.name ∈ members.map Prod.fst ∨ f.name ∈ seen) :
    readMembers r fuel first seen u s = .ok (w, rest) := by
  induction h generalizing fuel first seen s with
  | nil v =>
    obtain ⟨fewer, rfl, hnext⟩ := readPairs_eq_nil hread
    have hmissing : r.missing? seen = none := Record.missing?_eq_none fun f hf hf' =>
      (hrequired f hf hf').resolve_left List.not_mem_nil
    simp only [readMembers, hnext, hmissing]
  | @cons name x members f u v w hfield htakes _ ih =>
    obtain ⟨fewer, keyed, named, valued, behind, rfl, hnext, hname, hcolon, hx, htail⟩ :=
      readPairs_eq_cons hread
    rw [List.map_cons, List.nodup_cons] at hnodup
    rw [List.map_cons] at hnew hrequired
    have hunseen : seen.contains name = false := by
      rw [← Bool.not_eq_true, List.contains_iff_mem]
      exact hnew name List.mem_cons_self
    have hmember : readMember (some f) u named = .ok (v, behind) := by
      simp only [readMember, hcolon, htakes hx]
    have hothers : readMembers r fewer false (name :: seen) v behind = .ok (w, rest) := by
      refine ih htail hnodup.2 ?_ ?_
      · intro other hother
        rw [List.mem_cons, not_or]
        exact ⟨fun he => hnodup.1 (he ▸ hother), hnew other (List.mem_cons_of_mem _ hother)⟩
      · -- the member just read counts as seen
        intro g hg hg'
        rcases hrequired g hg hg' with hmem | hmem
        · rcases List.mem_cons.mp hmem with he | hmem
          · exact .inr (he ▸ List.mem_cons_self)
          · exact .inl hmem
        · exact .inr (List.mem_cons_of_mem _ hmem)
    simp only [readMembers, hnext, hname, hfield, hunseen, Bool.and_false, Bool.false_eq_true,
      if_false, hmember, hothers]

/-- **A record takes an object** that has its fields for members, each once. -/
theorem takes_record {r : Record α} {members : List (String × Value)} {w : α}
    (h : Fills r members r.initial w) (hnodup : (members.map Prod.fst).Nodup)
    (hrequired : ∀ f ∈ r.fields, f.required = true → f.name ∈ members.map Prod.fst) :
    Takes (readRecord r) (.object members) w := by
  intro depth s rest hx
  obtain ⟨fewer, tail, -, hs, hread⟩ : ∃ fewer tail, depth = fewer + 1 ∧
      skipBlanks s = 123 :: tail ∧
      readPairs (readValue fewer) (tail.length + 1) true tail = .ok (members, rest) :=
    readValue_spec hx
  have hmembers := readMembers_of_fills h hread hnodup (fun _ _ => List.not_mem_nil) fun f hf hf' =>
    .inl (hrequired f hf hf')
  simp only [readRecord, hs, hmembers]

end Json

end Simulcast
