import Simulcast.Registry
/-!
# What the registry's operations do

A registry is looked at in two ways: `Registry.stream?` gives a stream object by its
name and `Registry.find?` gives the name registered under a key.  For each operation
this file says what it does to the two views, so that later proofs open no operation.

`Registry.Indexed` is the one fact that every operation keeps: an entry of the table
names a stream of its own key.  Under it `Registry.claim_cases` says all that a claim
can do.
-/

namespace Simulcast

/-! ### Lists of objects -/

theorem getElem?_concat {α : Type} (l : List α) (a : α) (j : Nat) :
    (l ++ [a])[j]? = if j = l.length then some a else l[j]? := by
  by_cases hlt : j < l.length
  · rw [List.getElem?_append_left hlt, if_neg (Nat.ne_of_lt hlt)]
  · by_cases hj : j = l.length
    · rw [if_pos hj, hj, List.getElem?_concat_length]
    · rw [if_neg hj, List.getElem?_eq_none (Nat.le_of_not_lt hlt), List.getElem?_eq_none]
      rw [List.length_append, List.length_singleton]
      exact Nat.lt_of_le_of_ne (Nat.le_of_not_lt hlt) (Ne.symm hj)

theorem getElem?_set_of_some {α : Type} {l : List α} {i : Nat} {a : α} (h : l[i]? = some a)
    (b : α) (j : Nat) : (l.set i b)[j]? = if j = i then some b else l[j]? := by
  rw [List.getElem?_set]
  by_cases hj : i = j
  · subst hj
    rw [if_pos rfl, if_pos rfl, if_pos (List.getElem?_eq_some_iff.mp h).1]
  · rw [if_neg hj, if_neg (Ne.symm hj)]

/-! ### Claim and release of one stream -/

namespace Stream

/-- The stream in the hands of a new broadcaster. -/
def claimed (s : Stream) : Stream := { s with phase := .negotiating, connection := none }

/-- The stream that its broadcaster gave up. -/
def released (s : Stream) : Stream := { s with phase := .disconnected, connection := none }

@[simp] theorem key_claimed (s : Stream) : s.claimed.key = s.key := rfl
@[simp] theorem hasPublisher_released (s : Stream) : s.released.hasPublisher = false := rfl

theorem claim?_of_free {s : Stream} (h : s.hasPublisher = false) : s.claim? = some s.claimed := by
  rw [claim?, h]
  rfl

theorem claim?_of_held {s : Stream} (h : s.hasPublisher = true) : s.claim? = none := by
  rw [claim?, h]
  rfl

theorem release?_of_free {s : Stream} (h : s.hasPublisher = false) : s.release? = none := by
  rw [release?, h]
  rfl

theorem release?_of_held {s : Stream} (h : s.hasPublisher = true) :
    s.release? = some (⟨s.connection, s.isLive⟩, s.released) := by
  rw [release?, h]
  rfl

@[simp] theorem key_markConnected (s : Stream) (remote : Option SocketAddress) :
    (s.markConnected remote).2.key = s.key := by
  unfold markConnected
  split <;> rfl

theorem isLive_of_free {s : Stream} (h : s.hasPublisher = false) : s.isLive = false := by
  rw [hasPublisher] at h
  rw [isLive]
  cases hp : s.phase with
  | connected => rw [hp] at h; exact absurd h (by decide)
  | authenticating => rfl
  | negotiating => rfl
  | disconnected => rfl

/-- Going on air changes nothing about who holds the stream. -/
@[simp] theorem hasPublisher_markConnected (s : Stream) (remote : Option SocketAddress) :
    (s.markConnected remote).2.hasPublisher = s.hasPublisher := by
  unfold markConnected
  split
  · rename_i h
    simp [hasPublisher, h, IngestPhase.holdsStream]
  · rfl

end Stream

namespace Registry

/-! ### Steps on one stream -/

theorem lt_of_stream? {r : Registry} {id : StreamId} {s : Stream} (h : r.stream? id = some s) :
    id < r.streams.length :=
  (List.getElem?_eq_some_iff.mp h).1

/-- A stream that is put back as it was leaves the registry alone. -/
theorem put_self {r : Registry} {id : StreamId} {s : Stream} (h : r.stream? id = some s) :
    r.put id s = r := by
  obtain ⟨hlt, hs⟩ := List.getElem?_eq_some_iff.mp h
  rw [put, ← hs, List.set_getElem_self]

theorem stream?_put_of_some {r : Registry} {id : StreamId} {s : Stream} (h : r.stream? id = some s)
    (t : Stream) (j : StreamId) :
    (r.put id t).stream? j = if j = id then some t else r.stream? j :=
  getElem?_set_of_some h t j

@[simp] theorem find?_put (r : Registry) (id : StreamId) (s : Stream) (k : String) :
    (r.put id s).find? k = r.find? k := rfl

theorem act_of_some {α : Type} {r : Registry} {id : StreamId} {s : Stream}
    (h : r.stream? id = some s) (step : Stream → α × Stream) :
    r.act id step = (some (step s).1, r.put id (step s).2) := by
  rw [act, h]

theorem act_of_none {α : Type} {r : Registry} {id : StreamId} (h : r.stream? id = none)
    (step : Stream → α × Stream) : r.act id step = (none, r) := by
  rw [act, h]

@[simp] theorem find?_act {α : Type} (r : Registry) (id : StreamId) (step : Stream → α × Stream)
    (k : String) : (r.act id step).2.find? k = r.find? k := by
  unfold act
  split <;> rfl

theorem stream?_act {α : Type} (r : Registry) (id : StreamId) (step : Stream → α × Stream)
    (j : StreamId) :
    (r.act id step).2.stream? j
      = if j = id then (r.stream? id).map fun s => (step s).2 else r.stream? j := by
  cases h : r.stream? id with
  | some s => rw [act_of_some h, stream?_put_of_some h, Option.map_some]
  | none =>
    rw [act_of_none h, Option.map_none]
    split
    · rename_i hj
      rw [hj, h]
    · rfl

@[simp] theorem find?_update (r : Registry) (id : StreamId) (change : Stream → Stream)
    (k : String) : (r.update id change).find? k = r.find? k := find?_act ..

theorem stream?_update (r : Registry) (id : StreamId) (change : Stream → Stream) (j : StreamId) :
    (r.update id change).stream? j
      = if j = id then (r.stream? id).map change else r.stream? j := stream?_act ..

/-! ### The second step of a release -/

@[simp] theorem stream?_forget (r : Registry) (id j : StreamId) :
    (r.forget id).stream? j = r.stream? j := by
  unfold forget
  split
  · split <;> rfl
  · rfl

/-- Forgetting a stream takes out its own entry and no other. -/
theorem find?_forget {r : Registry} {id : StreamId} {s : Stream} (h : r.stream? id = some s)
    (k : String) :
    (r.forget id).find? k = if k = s.key ∧ r.find? k = some id then none else r.find? k := by
  unfold forget
  rw [h]
  simp only
  by_cases hf : r.find? s.key = some id
  · rw [if_pos hf]
    show (r.index.erase s.key).find? k = _
    rw [Table.find?_erase]
    by_cases hk : k = s.key
    · subst hk
      rw [if_pos rfl, if_pos ⟨rfl, hf⟩]
    · rw [if_neg hk, if_neg (fun c => hk c.1)]
      rfl
  · rw [if_neg hf, if_neg]
    rintro ⟨rfl, hc⟩
    exact hf hc

theorem forget_of_none {r : Registry} {id : StreamId} (h : r.stream? id = none) :
    r.forget id = r := by
  rw [forget, h]

/-! ### The first step of a release -/

theorem beginRelease_of_held {r : Registry} {id : StreamId} {s : Stream}
    (h : r.stream? id = some s) (hs : s.hasPublisher = true) :
    r.beginRelease id = (some ⟨s.connection, s.isLive⟩, r.put id s.released) := by
  rw [beginRelease, h, Option.bind_some, Stream.release?_of_held hs]

theorem beginRelease_of_free {r : Registry} {id : StreamId} {s : Stream}
    (h : r.stream? id = some s) (hs : s.hasPublisher = false) :
    r.beginRelease id = (none, r) := by
  rw [beginRelease, h, Option.bind_some, Stream.release?_of_free hs]

theorem beginRelease_of_none {r : Registry} {id : StreamId} (h : r.stream? id = none) :
    r.beginRelease id = (none, r) := by
  rw [beginRelease, h, Option.bind_none]

/-- **All that the first step of a release can do**: it is refused and changes nothing,
or it gives up a held stream. -/
theorem beginRelease_cases (r : Registry) (id : StreamId) :
    (r.beginRelease id = (none, r) ∧ ∀ s, r.stream? id = some s → s.hasPublisher = false) ∨
      ∃ s, r.stream? id = some s ∧ s.hasPublisher = true ∧
        r.beginRelease id = (some ⟨s.connection, s.isLive⟩, r.put id s.released) := by
  cases h : r.stream? id with
  | none => exact .inl ⟨beginRelease_of_none h, by simp⟩
  | some s =>
    cases hs : s.hasPublisher with
    | false =>
      refine .inl ⟨beginRelease_of_free h hs, fun t ht => ?_⟩
      rw [← Option.some.inj ht, hs]
    | true => exact .inr ⟨s, rfl, hs, beginRelease_of_held h hs⟩

/-! ### Claims -/

/-- Every entry of the table names a stream of its own key. -/
def Indexed (r : Registry) : Prop :=
  ∀ k id, r.find? k = some id → ∃ s, r.stream? id = some s ∧ s.key = k

/-- Adds a stream object and registers it under a key. -/
def enroll (r : Registry) (key : String) (s : Stream) : Registry :=
  { r with streams := r.streams ++ [s], index := r.index.insert key r.streams.length }

theorem stream?_enroll (r : Registry) (key : String) (s : Stream) (j : StreamId) :
    (r.enroll key s).stream? j = if j = r.streams.length then some s else r.stream? j :=
  getElem?_concat r.streams s j

theorem find?_enroll (r : Registry) (key : String) (s : Stream) (k : String) :
    (r.enroll key s).find? k = if k = key then some r.streams.length else r.find? k :=
  Table.find?_insert ..

/-- A name behind the last stream object stands for none. -/
theorem stream?_length (r : Registry) : r.stream? r.streams.length = none :=
  List.getElem?_eq_none (Nat.le_refl _)

/-- The first claim of a key makes a stream object. -/
theorem claim_of_find?_eq_none {r : Registry} {key : String} (h : r.find? key = none)
    (now : Millis) :
    r.claim key now = (.ok r.streams.length,
      r.enroll key (Stream.create key r.queueCapacity now).claimed) := by
  have hnew : (r.enroll key (Stream.create key r.queueCapacity now)).stream? r.streams.length
      = some (Stream.create key r.queueCapacity now) := by rw [stream?_enroll, if_pos rfl]
  have hget : r.getOrCreate key now
      = (r.streams.length, r.enroll key (Stream.create key r.queueCapacity now)) := by
    rw [getOrCreate, h]
    rfl
  rw [claim, hget]
  simp only [hnew, Option.bind_some]
  rw [Stream.claim?_of_free (s := Stream.create key r.queueCapacity now) rfl]
  simp only [put, enroll, List.set_append_right _ _ (Nat.le_refl _), Nat.sub_self,
    List.set_cons_zero]

theorem claim_of_find?_eq_some {r : Registry} {key : String} {id : StreamId} {s : Stream}
    (h : r.find? key = some id) (hs : r.stream? id = some s) (now : Millis) :
    r.claim key now = if s.hasPublisher then (.error (.streamAlreadyPublishing key), r)
      else (.ok id, r.put id s.claimed) := by
  have hget : r.getOrCreate key now = (id, r) := by rw [getOrCreate, h]
  rw [claim, hget]
  simp only [hs, Option.bind_some]
  cases hp : s.hasPublisher with
  | true => rw [Stream.claim?_of_held hp]; rfl
  | false => rw [Stream.claim?_of_free hp]; rfl

/-- **All that a claim can do**: it makes a stream object under a new key, or takes the
registered one, or is refused because that one is held. -/
theorem claim_cases {r : Registry} (hr : r.Indexed) (key : String) (now : Millis) :
    (r.find? key = none ∧ r.claim key now = (.ok r.streams.length,
      r.enroll key (Stream.create key r.queueCapacity now).claimed)) ∨
    ∃ id s, r.find? key = some id ∧ r.stream? id = some s ∧ s.key = key ∧
      ((s.hasPublisher = false ∧ r.claim key now = (.ok id, r.put id s.claimed)) ∨
        (s.hasPublisher = true ∧
          r.claim key now = (.error (.streamAlreadyPublishing key), r))) := by
  cases h : r.find? key with
  | none => exact .inl ⟨rfl, claim_of_find?_eq_none h now⟩
  | some id =>
    obtain ⟨s, hs, hk⟩ := hr key id h
    refine .inr ⟨id, s, rfl, hs, hk, ?_⟩
    have hc := claim_of_find?_eq_some h hs now
    cases hp : s.hasPublisher with
    | true => exact .inr ⟨rfl, by simpa [hp] using hc⟩
    | false => exact .inl ⟨rfl, by simpa [hp] using hc⟩

/-! ### Entries name streams of their own key -/

theorem Indexed.put {r : Registry} (hr : r.Indexed) {id : StreamId} {s t : Stream}
    (hs : r.stream? id = some s) (hk : t.key = s.key) : (r.put id t).Indexed := by
  intro k j hj
  obtain ⟨u, hu, rfl⟩ := hr k j hj
  rw [stream?_put_of_some hs]
  by_cases h : j = id
  · subst h
    rw [hs] at hu
    exact ⟨t, if_pos rfl, hk.trans (congrArg Stream.key (Option.some.inj hu))⟩
  · exact ⟨u, by rw [if_neg h, hu], rfl⟩

theorem Indexed.act {α : Type} {r : Registry} (hr : r.Indexed) (id : StreamId)
    {step : Stream → α × Stream} (hstep : ∀ s, (step s).2.key = s.key) :
    (r.act id step).2.Indexed := by
  cases h : r.stream? id with
  | some s =>
    rw [act_of_some h]
    exact hr.put h (hstep s)
  | none =>
    rw [act_of_none h]
    exact hr

theorem Indexed.forget {r : Registry} (hr : r.Indexed) (id : StreamId) : (r.forget id).Indexed := by
  intro k j hj
  cases h : r.stream? id with
  | none =>
    rw [forget_of_none h] at hj ⊢
    exact hr k j hj
  | some s =>
    rw [find?_forget h] at hj
    rw [stream?_forget]
    split at hj
    · exact absurd hj (by simp)
    · exact hr k j hj

theorem Indexed.enroll {r : Registry} (hr : r.Indexed) {key : String} {s : Stream}
    (hs : s.key = key) : (r.enroll key s).Indexed := by
  intro k j hj
  rw [find?_enroll] at hj
  rw [stream?_enroll]
  split at hj
  · rename_i hk
    obtain rfl := Option.some.inj hj
    exact ⟨s, if_pos rfl, hs.trans hk.symm⟩
  · obtain ⟨u, hu, hku⟩ := hr k j hj
    exact ⟨u, by rw [if_neg (Nat.ne_of_lt (lt_of_stream? hu)), hu], hku⟩

theorem Indexed.beginRelease {r : Registry} (hr : r.Indexed) (id : StreamId) :
    (r.beginRelease id).2.Indexed := by
  obtain ⟨he, -⟩ | ⟨s, hs, -, he⟩ := r.beginRelease_cases id
  · rw [he]
    exact hr
  · rw [he]
    exact hr.put hs rfl

theorem Indexed.claim {r : Registry} (hr : r.Indexed) (key : String) (now : Millis) :
    (r.claim key now).2.Indexed := by
  obtain ⟨-, he⟩ | ⟨id, s, -, hs, -, ⟨-, he⟩ | ⟨-, he⟩⟩ := claim_cases hr key now
  · rw [he]
    exact hr.enroll rfl
  · rw [he]
    exact hr.put hs rfl
  · rw [he]
    exact hr

end Registry

end Simulcast
