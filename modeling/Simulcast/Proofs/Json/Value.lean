import Simulcast.Json.Reader
import Simulcast.Proofs.Json.Spelling
/-!
# JSON values

A decoder that expects nothing: `Json.decode` says which value a text is, with the readers of
strings, numbers, lists and keys that the readers of documents are made of.  The texts that it
reads as a value are the encodings of that value.

What the decoder found tells which readers ran and where each of them stood: item by item of a list
(`Json.readItems_eq_cons`), member by member of an object (`Json.readPairs_eq_cons`), and for each
kind of value at its first byte (`Json.readValue_spec`).
-/

namespace Simulcast

namespace Json

/-- A JSON value.  An object holds its members in the order of the text. -/
inductive Value where
  | null
  | bool (b : Bool)
  | number (n : Number)
  | text (s : String)
  | list (items : List Value)
  | object (members : List (String × Value))

variable {α : Type}

/-! ### Reading -/

/-- Reads at most `fuel` members of an object up to the closing bracket. -/
def readPairs (item : List UInt8 → Read α) :
    (fuel : Nat) → (first : Bool) → List UInt8 → Read (List (String × α))
  | 0, _, _ => .error (.atEnd .eofObject)
  | fuel + 1, first, s =>
    match nextKey first s with
    | .error fault => .error fault
    | .ok (false, rest) => .ok ([], rest)
    | .ok (true, rest) =>
      match readString rest with
      | .error fault => .error fault
      | .ok (name, rest) =>
        match readColon rest with
        | .error fault => .error fault
        | .ok rest =>
          match item rest with
          | .error fault => .error fault
          | .ok (a, rest) =>
            match readPairs item fuel false rest with
            | .error fault => .error fault
            | .ok (members, rest) => .ok ((name, a) :: members, rest)

/-- Reads a value that nests at most `depth` deep. -/
def readValue : (depth : Nat) → List UInt8 → Read Value
  | 0, _ => .error (.atEnd .eofValue)
  | depth + 1, s =>
    match skipBlanks s with
    | [] => .error (.atEnd .eofValue)
    | b :: rest =>
      if b = 110 then (readIdent [117, 108, 108] rest).map (.null, ·)
      else if b = 116 then (readIdent [114, 117, 101] rest).map (.bool true, ·)
      else if b = 102 then (readIdent [97, 108, 115, 101] rest).map (.bool false, ·)
      else if b = 45 then (readNumber true rest).map fun (n, rest) => (.number n, rest)
      else if isDigit b then
        (readNumber false (b :: rest)).map fun (n, rest) => (.number n, rest)
      else if b = 34 then (readString rest).map fun (t, rest) => (.text t, rest)
      else if b = 91 then
        (readItems (readValue depth) (rest.length + 1) true rest).map fun (items, rest) =>
          (.list items, rest)
      else if b = 123 then
        (readPairs (readValue depth) (rest.length + 1) true rest).map fun (members, rest) =>
          (.object members, rest)
      else .error (.atNext .expectedValue (b :: rest))

/-- Reads a text as a value.  No value nests deeper than its text is long. -/
def decode (input : List UInt8) : Except Fault Value :=
  readAll (readValue (input.length + 1)) input

/-! ### What a text holds -/

theorem eq_ok_of_map {ε β : Type} {x : Except ε α} {f : α → β} {b : β} (h : x.map f = .ok b) :
    ∃ a, x = .ok a ∧ f a = b := by
  cases x with
  | error e => exact nomatch h
  | ok a => exact ⟨a, rfl, Except.ok.inj h⟩

theorem readAll_eq_ok {read : List UInt8 → Read α} {input : List UInt8} {a : α} :
    readAll read input = .ok a ↔ ∃ rest, read input = .ok (a, rest) ∧ skipBlanks rest = [] := by
  unfold readAll
  constructor
  · intro h
    split at h
    · exact nomatch h
    · rename_i b rest hread
      split at h
      · rename_i hblank
        cases h
        exact ⟨rest, hread, hblank⟩
      · exact nomatch h
  · rintro ⟨rest, hread, hblank⟩
    simp only [hread, hblank]

theorem readPairs_eq_cons {item : List UInt8 → Read α} {fuel : Nat} {first : Bool}
    {s rest : List UInt8} {name : String} {a : α} {members : List (String × α)}
    (h : readPairs item fuel first s = .ok ((name, a) :: members, rest)) :
    ∃ fewer keyed named valued behind, fuel = fewer + 1 ∧
      nextKey first s = .ok (true, keyed) ∧ readString keyed = .ok (name, named) ∧
      readColon named = .ok valued ∧ item valued = .ok (a, behind) ∧
      readPairs item fewer false behind = .ok (members, rest) := by
  cases fuel with
  | zero => exact nomatch h
  | succ fewer =>
    unfold readPairs at h
    split at h
    · exact nomatch h
    · cases h
    · rename_i keyed hkey
      split at h
      · exact nomatch h
      · rename_i found named hname
        split at h
        · exact nomatch h
        · rename_i valued hcolon
          split at h
          · exact nomatch h
          · rename_i b behind hitem
            split at h
            · exact nomatch h
            · rename_i others last hothers
              cases h
              exact ⟨fewer, keyed, named, valued, behind, rfl, hkey, hname, hcolon, hitem, hothers⟩

theorem readPairs_eq_nil {item : List UInt8 → Read α} {fuel : Nat} {first : Bool}
    {s rest : List UInt8} (h : readPairs item fuel first s = .ok ([], rest)) :
    ∃ fewer, fuel = fewer + 1 ∧ nextKey first s = .ok (false, rest) := by
  cases fuel with
  | zero => exact nomatch h
  | succ fewer =>
    unfold readPairs at h
    split at h
    · exact nomatch h
    · rename_i hkey
      cases h
      exact ⟨fewer, rfl, hkey⟩
    · repeat' split at h
      all_goals cases h

theorem readItems_eq_nil {item : List UInt8 → Read α} {fuel : Nat} {first : Bool}
    {s rest : List UInt8} (h : readItems item fuel first s = .ok ([], rest)) :
    ∃ fewer tail, fuel = fewer + 1 ∧ nextItem first s = .ok (false, tail) ∧ rest = tail.drop 1 := by
  cases fuel with
  | zero => exact nomatch h
  | succ fewer =>
    unfold readItems at h
    split at h
    · exact nomatch h
    · rename_i tail hnext
      cases h
      exact ⟨fewer, tail, rfl, hnext, rfl⟩
    · repeat' split at h
      all_goals cases h

theorem readItems_eq_cons {item : List UInt8 → Read α} {fuel : Nat} {first : Bool}
    {s rest : List UInt8} {a : α} {as : List α}
    (h : readItems item fuel first s = .ok (a :: as, rest)) :
    ∃ fewer here behind, fuel = fewer + 1 ∧ nextItem first s = .ok (true, here) ∧
      item here = .ok (a, behind) ∧ readItems item fewer false behind = .ok (as, rest) := by
  cases fuel with
  | zero => exact nomatch h
  | succ fewer =>
    unfold readItems at h
    split at h
    · exact nomatch h
    · cases h
    · rename_i here hnext
      split at h
      · exact nomatch h
      · rename_i b behind hitem
        split at h
        · exact nomatch h
        · rename_i others last hothers
          cases h
          exact ⟨fewer, here, behind, rfl, hnext, hitem, hothers⟩

/-- What the reader of values does with each kind of value but null. -/
theorem readValue_spec {depth : Nat} {s rest : List UInt8} {value : Value}
    (h : readValue depth s = .ok (value, rest)) :
    match value with
    | .null => True
    | .bool true => ∃ tail, skipBlanks s = 116 :: tail ∧ readIdent [114, 117, 101] tail = .ok rest
    | .bool false =>
      ∃ tail, skipBlanks s = 102 :: tail ∧ readIdent [97, 108, 115, 101] tail = .ok rest
    | .number n => ∃ b tail, skipBlanks s = b :: tail ∧
        (b = 45 ∧ readNumber true tail = .ok (n, rest) ∨
          b ≠ 45 ∧ isDigit b = true ∧ readNumber false (b :: tail) = .ok (n, rest))
    | .text t => ∃ tail, skipBlanks s = 34 :: tail ∧ readString tail = .ok (t, rest)
    | .list items => ∃ fewer tail, depth = fewer + 1 ∧ skipBlanks s = 91 :: tail ∧
        readItems (readValue fewer) (tail.length + 1) true tail = .ok (items, rest)
    | .object members => ∃ fewer tail, depth = fewer + 1 ∧ skipBlanks s = 123 :: tail ∧
        readPairs (readValue fewer) (tail.length + 1) true tail = .ok (members, rest) := by
  cases depth with
  | zero => exact nomatch h
  | succ fewer =>
    unfold readValue at h
    split at h
    · exact nomatch h
    · rename_i b tail hs
      -- one case for each byte that a value may start with, and the value it gives then
      repeat' split at h
      all_goals
        first
        | cases h
        | obtain ⟨a, ha, he⟩ := eq_ok_of_map h
          cases he
      · trivial
      · subst b; exact ⟨tail, hs, ha⟩
      · subst b; exact ⟨tail, hs, ha⟩
      · subst b; exact ⟨45, tail, hs, .inl ⟨rfl, ha⟩⟩
      · exact ⟨b, tail, hs, .inr ⟨‹¬ b = 45›, ‹isDigit b = true›, ha⟩⟩
      · subst b; exact ⟨tail, hs, ha⟩
      · subst b; exact ⟨fewer, tail, rfl, hs, ha⟩
      · subst b; exact ⟨fewer, tail, rfl, hs, ha⟩

end Json

end Simulcast
