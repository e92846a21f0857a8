import Simulcast.Proofs.Log
import Simulcast.Proofs.StreamKey.Acceptance
/-!
# What a validator accepts and remembers

Keys are checked, the list of keys is replaced, and the remembered key is cleared, in any order.
`KeyValidator.Entry` is one such call, a check together with its verdict, and the log of the
calls tells all there is to know of a validator: `KeyValidator.TrueTo`.

A verdict depends on the temporary key or, without one, on the list that was set last.  The
remembered key is found from the end of the log: behind the check that accepted it there is no
other one that accepted a key, and it was not cleared.  One call more is one entry more, and
`KeyValidator.remembers_concat_iff` says what that does to the memory.
-/

namespace Simulcast

namespace KeyValidator

/-! ### Calls and their log -/

/-- What a validator can be asked to do. -/
inductive Call where
  | validate (candidate : String)
  | setKeys (keys : List String)
  | clear (key : String)

/-- A call that was made; a check has a verdict. -/
inductive Entry where
  | validated (candidate : String) (accepted : Bool)
  | keysSet (keys : List String)
  | cleared (key : String)

/-- The call that was made. -/
def Entry.call : Entry → Call
  | validated candidate _ => .validate candidate
  | keysSet keys => .setKeys keys
  | cleared key => .clear key

/-- Makes a call. -/
def call (v : KeyValidator) : Call → Entry × KeyValidator
  | .validate candidate => (.validated candidate (v.validate candidate).1, (v.validate candidate).2)
  | .setKeys keys => (.keysSet keys, v.setKeys keys)
  | .clear key => (.cleared key, v.clearLastMatched key)

/-! ### What the log says -/

/-- The list of keys that a call sets. -/
def Entry.keys? : Entry → Option (List String)
  | keysSet keys => some keys
  | _ => none

/-- The list of keys that was set last. -/
def keysIn (initial : List String) (log : List Entry) : List String :=
  (log.filterMap Entry.keys?).getLast?.getD initial

/-- The keys that are accepted after a log. -/
def Admissible (initial : List String) (temporary : Option String) (log : List Entry)
    (candidate : String) : Prop :=
  match temporary.filter (· ≠ "") with
  | some key => candidate = key
  | none => candidate ∈ keysIn initial log

/-- The verdict that is due after a log; other calls have none. -/
def Due (initial : List String) (temporary : Option String) (log : List Entry) : Entry → Prop
  | .validated candidate accepted => accepted = true ↔ Admissible initial temporary log candidate
  | _ => True

/-- The last check that accepted a key accepted this one, which was not cleared since. -/
def Remembers (log : List Entry) (key : String) : Prop :=
  ∃ before after, log = before ++ .validated key true :: after ∧
    (∀ other, .validated other true ∉ after) ∧ .cleared key ∉ after

/-- A validator is what its log says. -/
structure TrueTo (initial : List String) (temporary : Option String) (log : List Entry)
    (v : KeyValidator) : Prop where
  keys : v.keys = keysIn initial log
  temporaryKey : v.temporaryKey = temporary.filter (· ≠ "")
  verdicts : Throughout (Due initial temporary) log
  memory : ∀ key, v.lastMatched = some key ↔ Remembers log key

variable {initial : List String} {temporary : Option String} {log : List Entry} {e : Entry}
  {key : String} {v : KeyValidator}

theorem keysIn_concat :
    keysIn initial (log ++ [e]) = e.keys?.getD (keysIn initial log) := by
  rw [keysIn, List.filterMap_append]
  cases e <;> simp [keysIn, Entry.keys?]

theorem not_remembers_nil (key : String) : ¬ Remembers [] key := by
  rintro ⟨before, after, h, -⟩
  exact absurd h (by simp)

/-- **What one call more does to the memory.** -/
theorem remembers_concat_iff :
    Remembers (log ++ [e]) key ↔ e = .validated key true ∨
      (Remembers log key ∧ (∀ other, e ≠ .validated other true) ∧ e ≠ .cleared key) := by
  constructor
  · rintro ⟨before, after, h, hlast, hclear⟩
    rcases concat_eq_split_iff.mp h with ⟨-, he, -⟩ | ⟨rest, rfl, hlog⟩
    · exact .inl he.symm
    · simp only [List.mem_append, List.mem_singleton, not_or] at hlast hclear
      exact .inr ⟨⟨before, rest, hlog, fun other => (hlast other).1, hclear.1⟩,
        fun other => (hlast other).2 ∘ Eq.symm, hclear.2 ∘ Eq.symm⟩
  · rintro (rfl | ⟨⟨before, after, h, hlast, hclear⟩, hother, hkey⟩)
    · exact ⟨log, [], rfl, by simp, by simp⟩
    · refine ⟨before, after ++ [e], concat_eq_split_iff.mpr (.inr ⟨after, rfl, h⟩), ?_, ?_⟩
      · intro other hm
        rcases List.mem_append.mp hm with hm | hm
        · exact hlast other hm
        · exact hother other (List.mem_singleton.mp hm).symm
      · intro hm
        rcases List.mem_append.mp hm with hm | hm
        · exact hclear hm
        · exact hkey (List.mem_singleton.mp hm).symm

/-! ### One call -/

theorem entry_call (v : KeyValidator) (c : Call) : (v.call c).1.call = c := by
  cases c <;> rfl

theorem keys_call (v : KeyValidator) (c : Call) :
    (v.call c).2.keys = (v.call c).1.keys?.getD v.keys := by
  cases c with
  | validate candidate =>
    simp only [call, validate]
    split <;> rfl
  | setKeys keys => rfl
  | clear key =>
    simp only [call, clearLastMatched]
    split <;> rfl

theorem temporaryKey_call (v : KeyValidator) (c : Call) :
    (v.call c).2.temporaryKey = v.temporaryKey := by
  cases c with
  | validate candidate =>
    simp only [call, validate]
    split <;> rfl
  | setKeys keys => rfl
  | clear key =>
    simp only [call, clearLastMatched]
    split <;> rfl

theorem lastMatched_call (v : KeyValidator) (c : Call) (key : String) :
    (v.call c).2.lastMatched = some key ↔ (v.call c).1 = .validated key true ∨
      (v.lastMatched = some key ∧ (∀ other, (v.call c).1 ≠ .validated other true) ∧
        (v.call c).1 ≠ .cleared key) := by
  cases c with
  | validate candidate =>
    simp only [call, validate]
    cases v.accepts candidate with
    | true => simp
    | false => simp
  | setKeys keys => simp [call, setKeys]
  | clear other =>
    simp only [call, clearLastMatched]
    by_cases ho : v.lastMatched = some other
    · simp [ho]
    · simp only [ho, reduceCtorEq, false_or, if_false, ne_eq, not_false_eq_true, implies_true,
        true_and, Entry.cleared.injEq, iff_self_and]
      rintro hkey rfl
      exact ho hkey

/-- **The memory changes** only if a key is accepted or if the remembered key is cleared. -/
theorem lastMatched_call_of_ne {c : Call} (h : (v.call c).2.lastMatched ≠ v.lastMatched) :
    (∃ key, (v.call c).1 = .validated key true) ∨
      ∃ key, c = .clear key ∧ v.lastMatched = some key := by
  cases c with
  | validate candidate =>
    simp only [call, validate] at h ⊢
    cases hv : v.accepts candidate with
    | true => exact .inl ⟨candidate, rfl⟩
    | false => simp [hv] at h
  | setKeys keys => exact absurd rfl h
  | clear key =>
    refine .inr ⟨key, rfl, ?_⟩
    by_contra hkey
    simp [call, clearLastMatched, hkey] at h

theorem trueTo_nil (initial : List String) (temporary : Option String) :
    TrueTo initial temporary [] (withTemporaryKey initial temporary) where
  keys := rfl
  temporaryKey := rfl
  verdicts := throughout_nil _
  memory key := iff_of_false (by simp [withTemporaryKey]) (not_remembers_nil key)

theorem TrueTo.due (h : TrueTo initial temporary log v) (c : Call) :
    Due initial temporary log (v.call c).1 := by
  cases c with
  | validate candidate =>
    have hverdict : (v.validate candidate).1 = v.accepts candidate := by
      rw [validate]
      cases v.accepts candidate <;> rfl
    show (v.validate candidate).1 = true ↔ Admissible initial temporary log candidate
    rw [hverdict, Admissible, ← h.temporaryKey, ← h.keys]
    exact KeyValidator.accepts_iff v candidate
  | setKeys keys => trivial
  | clear key => trivial

theorem TrueTo.call (h : TrueTo initial temporary log v) (c : Call) :
    TrueTo initial temporary (log ++ [(v.call c).1]) (v.call c).2 where
  keys := by rw [keys_call, keysIn_concat, h.keys]
  temporaryKey := (temporaryKey_call v c).trans h.temporaryKey
  verdicts := throughout_concat_iff.mpr ⟨h.verdicts, h.due c⟩
  memory key := by rw [lastMatched_call, remembers_concat_iff, h.memory]

/-! ### All calls -/

/-- **What a validator accepts and remembers**, after any calls.  They are in the log one for
one, and the validator is what the log says; no other call than an accepting check and the
clearing of the remembered key changes what is remembered.  A validator without a temporary key
is one of these, and its comparison of bytes is equality, for keys and for their bytes. -/
theorem trueTo_called (initial : List String) (temporary : Option String) (calls : List Call) :
    (logged call (withTemporaryKey initial temporary) calls).1.map Entry.call = calls ∧
    TrueTo initial temporary (logged call (withTemporaryKey initial temporary) calls).1
      (logged call (withTemporaryKey initial temporary) calls).2 ∧
    (∀ (v : KeyValidator) (c : Call), (v.call c).2.lastMatched ≠ v.lastMatched →
      (∃ key, (v.call c).1 = .validated key true) ∨
        ∃ key, c = .clear key ∧ v.lastMatched = some key) ∧
    ofKeys initial = withTemporaryKey initial none ∧
    (∀ a b : List UInt8, sameBytes a b = true ↔ a = b) ∧
    (∀ s t : String, sameBytes (Utf8.encode s) (Utf8.encode t) = true ↔ s = t) :=
  ⟨map_logged entry_call _ calls,
    logged_induct (trueTo_nil initial temporary) (fun _ _ c h => h.call c) calls,
    fun _ _ => lastMatched_call_of_ne, rfl, sameBytes_iff, sameBytes_encode_iff⟩

-- a refused key does not displace the remembered one, even if that is no longer configured
example : (logged call (withTemporaryKey ["a"] (some ""))
    [.validate "a", .setKeys ["b"], .validate "a", .clear "b"]).2.lastMatched = some "a" := by
  decide

end KeyValidator

end Simulcast
