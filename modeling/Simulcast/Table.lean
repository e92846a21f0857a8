/-!
# Tables

A table holds at most one value per key and keeps its keys in the order in which
they arrived.  Writing to a key that is present changes its value in place; a new
key goes to the end.

The view of a table is `Table.find?`: `find?_insert`, `find?_erase` and
`find?_modify` say what each operation does to it, and `mem_entries_iff` says that
the list of entries holds exactly what `find?` finds.  Nothing later in the
project opens a table in another way.
-/

namespace Simulcast

/-! ### Lists of pairs -/

namespace Entries

variable {κ α : Type} [DecidableEq κ]

/-- The first value stored under a key. -/
def lookup (k : κ) : List (κ × α) → Option α
  | [] => none
  | e :: rest => if e.1 = k then some e.2 else lookup k rest

/-- Overwrites the value under a key, or adds the key at the end. -/
def assign (k : κ) (v : α) : List (κ × α) → List (κ × α)
  | [] => [(k, v)]
  | e :: rest => if e.1 = k then (k, v) :: rest else e :: assign k v rest

/-- Changes the value under a key, if there is one. -/
def change (k : κ) (f : α → α) (es : List (κ × α)) : List (κ × α) :=
  es.map fun e => if e.1 = k then (e.1, f e.2) else e

/-- Drops a key. -/
def drop (k : κ) (es : List (κ × α)) : List (κ × α) :=
  es.filter fun e => e.1 ≠ k

theorem keys_assign (k : κ) (v : α) (es : List (κ × α)) :
    (assign k v es).map Prod.fst
      = if k ∈ es.map Prod.fst then es.map Prod.fst else es.map Prod.fst ++ [k] := by
  induction es with
  | nil => simp [assign]
  | cons e rest ih =>
    by_cases h : e.1 = k
    · simp [assign, h]
    · have h' : k ≠ e.1 := fun c => h c.symm
      by_cases hm : k ∈ rest.map Prod.fst
      · rw [if_pos hm] at ih
        have hc : k ∈ (e :: rest).map Prod.fst := List.mem_cons_of_mem _ hm
        rw [if_pos hc]
        simp only [assign, h, if_false, List.map_cons, ih]
      · rw [if_neg hm] at ih
        have : k ∉ (e :: rest).map Prod.fst := by
          simp only [List.map_cons, List.mem_cons, not_or]
          exact ⟨h', hm⟩
        simp only [assign, h, if_false, List.map_cons, ih]
        rw [if_neg (by simpa using this)]
        rfl

theorem keys_change (k : κ) (f : α → α) (es : List (κ × α)) :
    (change k f es).map Prod.fst = es.map Prod.fst := by
  simp only [change, List.map_map]
  apply List.map_congr_left
  intro e _
  by_cases h : e.1 = k <;> simp [h]

theorem keys_drop (k : κ) (es : List (κ × α)) :
    (drop k es).map Prod.fst = (es.map Prod.fst).filter (· ≠ k) := by
  induction es with
  | nil => rfl
  | cons e rest ih =>
    have ih' : (List.filter (fun e => decide (e.1 ≠ k)) rest).map Prod.fst
        = (rest.map Prod.fst).filter (· ≠ k) := ih
    by_cases h : e.1 = k
    · simp only [drop, List.filter_cons, List.map_cons, h]
      simpa using ih'
    · have hd : decide (e.1 ≠ k) = true := by simp [h]
      simp only [drop, List.filter_cons, List.map_cons, hd, if_true]
      simpa using ih'

theorem lookup_assign (k j : κ) (v : α) (es : List (κ × α)) :
    lookup j (assign k v es) = if j = k then some v else lookup j es := by
  induction es with
  | nil =>
    by_cases h : j = k
    · simp [assign, lookup, h]
    · have h' : ¬ k = j := fun c => h c.symm
      simp [assign, lookup, h, h']
  | cons e rest ih =>
    by_cases he : e.1 = k
    · by_cases h : j = k
      · simp [assign, lookup, he, h]
      · have h' : ¬ k = j := fun c => h c.symm
        simp [assign, lookup, he, h, h']
    · by_cases h : j = k
      · simp [assign, lookup, he, h] at ih ⊢
        exact ih
      · rw [if_neg h] at ih
        simp [assign, lookup, he, h, ih]

theorem lookup_change (k j : κ) (f : α → α) (es : List (κ × α)) :
    lookup j (change k f es) = if j = k then (lookup j es).map f else lookup j es := by
  induction es with
  | nil => simp [change, lookup]
  | cons e rest ih =>
    have ih' : lookup j (rest.map fun e => if e.1 = k then (e.1, f e.2) else e)
        = if j = k then (lookup j rest).map f else lookup j rest := ih
    by_cases he : e.1 = k
    · by_cases h : j = k
      · simp [change, lookup, he, h]
      · have h' : ¬ k = j := fun c => h c.symm
        simp [change, lookup, he, h, h', ih']
    · by_cases hj : e.1 = j
      · have : ¬ j = k := fun c => he (hj.trans c)
        simp [change, lookup, hj, this]
      · by_cases h : j = k
        · simp [change, lookup, he, h] at ih' ⊢
          exact ih'
        · simp [change, lookup, he, hj, h, ih']

theorem lookup_drop (k j : κ) (es : List (κ × α)) :
    lookup j (drop k es) = if j = k then none else lookup j es := by
  induction es with
  | nil => simp [drop, lookup]
  | cons e rest ih =>
    have ih' : lookup j (rest.filter fun e => decide (e.1 ≠ k))
        = if j = k then none else lookup j rest := ih
    by_cases he : e.1 = k
    · by_cases h : j = k
      · simp [drop, he, h] at ih' ⊢
        exact ih'
      · have h' : ¬ k = j := fun c => h c.symm
        simp [drop, lookup, he, h, h'] at ih' ⊢
        exact ih'
    · by_cases hj : e.1 = j
      · have : ¬ j = k := fun c => he (hj.trans c)
        simp [drop, lookup, hj, this]
      · simp [drop, lookup, he, hj] at ih' ⊢
        exact ih'

theorem lookup_isSome_iff (k : κ) (es : List (κ × α)) :
    (lookup k es).isSome = true ↔ k ∈ es.map Prod.fst := by
  induction es with
  | nil => simp [lookup]
  | cons e rest ih =>
    by_cases h : e.1 = k
    · simp [lookup, h]
    · have h' : ¬ k = e.1 := fun c => h c.symm
      simp only [lookup, h, if_false, List.map_cons, List.mem_cons, h', false_or]
      exact ih

theorem mem_iff_lookup {es : List (κ × α)} (hn : (es.map Prod.fst).Nodup) (k : κ) (v : α) :
    (k, v) ∈ es ↔ lookup k es = some v := by
  induction es with
  | nil => simp [lookup]
  | cons e rest ih =>
    rw [List.map_cons, List.nodup_cons] at hn
    have ih := ih hn.2
    by_cases h : e.1 = k
    · have hk : (k, v) ∉ rest := fun hm =>
        hn.1 (h ▸ List.mem_map_of_mem (f := Prod.fst) hm)
      have he : ((k, v) = e) ↔ e.2 = v := by
        constructor
        · rintro rfl; rfl
        · intro hv; rw [← h, ← hv]
      simp only [List.mem_cons, lookup, h, if_true, hk, or_false, he, Option.some.injEq]
    · have he : ¬ (k, v) = e := fun c => h (by rw [← c])
      simp only [List.mem_cons, lookup, h, if_false, he, false_or]
      exact ih

end Entries

/-! ### Tables -/

/-- A finite map that remembers the order in which its keys arrived. -/
structure Table (κ α : Type) where
  /-- Keys with their values, oldest key first. -/
  entries : List (κ × α) := []
  /-- No key occurs twice. -/
  nodup : (entries.map Prod.fst).Nodup := by simp

namespace Table

variable {κ α : Type}

/-- The table without entries. -/
def empty : Table κ α := ⟨[], List.nodup_nil⟩

instance : Inhabited (Table κ α) := ⟨empty⟩

/-- Two tables with the same entries are the same table. -/
@[ext]
theorem ext {s t : Table κ α} (h : s.entries = t.entries) : s = t := by
  cases s; cases t; cases h; rfl

/-- The keys, oldest first. -/
def keys (t : Table κ α) : List κ := t.entries.map Prod.fst

/-- The values, in the order of their keys. -/
def values (t : Table κ α) : List α := t.entries.map Prod.snd

/-- The number of keys. -/
def size (t : Table κ α) : Nat := t.entries.length

variable [DecidableEq κ]

/-- The value under a key. -/
def find? (t : Table κ α) (k : κ) : Option α := Entries.lookup k t.entries

/-- Whether a key is present. -/
def contains (t : Table κ α) (k : κ) : Bool := (t.find? k).isSome

/-- Stores a value under a key. -/
def insert (t : Table κ α) (k : κ) (v : α) : Table κ α where
  entries := Entries.assign k v t.entries
  nodup := by
    rw [Entries.keys_assign]
    split
    · exact t.nodup
    · rename_i h
      rw [List.nodup_append]
      refine ⟨t.nodup, by simp, ?_⟩
      intro a ha b hb hab
      rw [List.mem_singleton] at hb
      exact h (hb ▸ hab ▸ ha)

/-- Changes the value under a key, if the key is present. -/
def modify (t : Table κ α) (k : κ) (f : α → α) : Table κ α where
  entries := Entries.change k f t.entries
  nodup := by rw [Entries.keys_change]; exact t.nodup

/-- Drops a key. -/
def erase (t : Table κ α) (k : κ) : Table κ α where
  entries := Entries.drop k t.entries
  nodup := by rw [Entries.keys_drop]; exact t.nodup.filter _

/-! ### The view of each operation -/

@[simp]
theorem find?_empty (k : κ) : (empty : Table κ α).find? k = none := rfl

theorem find?_insert (t : Table κ α) (k j : κ) (v : α) :
    (t.insert k v).find? j = if j = k then some v else t.find? j :=
  Entries.lookup_assign k j v t.entries

theorem find?_modify (t : Table κ α) (k j : κ) (f : α → α) :
    (t.modify k f).find? j = if j = k then (t.find? j).map f else t.find? j :=
  Entries.lookup_change k j f t.entries

theorem find?_erase (t : Table κ α) (k j : κ) :
    (t.erase k).find? j = if j = k then none else t.find? j :=
  Entries.lookup_drop k j t.entries

/-- The entries are what look-up finds. -/
theorem mem_entries_iff (t : Table κ α) (k : κ) (v : α) :
    (k, v) ∈ t.entries ↔ t.find? k = some v :=
  Entries.mem_iff_lookup t.nodup k v

theorem mem_keys_iff (t : Table κ α) (k : κ) : k ∈ t.keys ↔ (t.find? k).isSome = true :=
  (Entries.lookup_isSome_iff k t.entries).symm

omit [DecidableEq κ] in
theorem nodup_keys (t : Table κ α) : t.keys.Nodup := t.nodup

theorem keys_insert (t : Table κ α) (k : κ) (v : α) :
    (t.insert k v).keys = if k ∈ t.keys then t.keys else t.keys ++ [k] :=
  Entries.keys_assign k v t.entries

@[simp]
theorem keys_modify (t : Table κ α) (k : κ) (f : α → α) : (t.modify k f).keys = t.keys :=
  Entries.keys_change k f t.entries

theorem keys_erase (t : Table κ α) (k : κ) : (t.erase k).keys = t.keys.filter (· ≠ k) :=
  Entries.keys_drop k t.entries

end Table

end Simulcast
