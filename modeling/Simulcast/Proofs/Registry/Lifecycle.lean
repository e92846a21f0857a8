import Simulcast.Proofs.Registry.Views
/-!
# The life of a stream object

Whoever was given a stream may keep its name for ever, also when the stream has left the
table, and by then a key may have had many stream objects.  `Registry.Ledger` is a registry
that keeps book of the claims and the releases that took effect, and a run of it
(`Registry.Ledger.run`) is a list of complete calls with any keys and any streams.

A stream object is new until its first claim, then it is held, and with its release it is
over.  `Registry.Ledger.Sound` says this in terms of the books: a held stream is one that was
claimed and not released, a new one is as it was made, and one that is over is in the table
no more.  No call puts an object back into the table, so an object never goes back to an
earlier age.  `Registry.Ledger.lawful_run` is what this comes to for the callers.
-/

namespace Simulcast

namespace Stream

/-- **Nothing was written to the stream since it was made**, but for a connection that a
claim is going to drop. -/
def Untouched (queueCapacity : Nat) (s : Stream) : Prop :=
  ∃ now c, s = { Stream.create s.key queueCapacity now with connection := c }

theorem untouched_create (key : String) (queueCapacity : Nat) (now : Millis) :
    (Stream.create key queueCapacity now).Untouched queueCapacity := ⟨now, none, rfl⟩

theorem Untouched.claimed_eq {queueCapacity : Nat} {s : Stream} (h : s.Untouched queueCapacity) :
    ∃ now, s.claimed = (Stream.create s.key queueCapacity now).claimed := by
  obtain ⟨now, c, he⟩ := h
  exact ⟨now, by rw [he]; rfl⟩

theorem Untouched.markConnected {queueCapacity : Nat} {s : Stream} (h : s.Untouched queueCapacity)
    (remote : Option SocketAddress) : (s.markConnected remote).2.Untouched queueCapacity := by
  obtain ⟨now, c, he⟩ := h
  have hp : s.phase ≠ .negotiating := by
    rw [he]
    exact (by decide : IngestPhase.disconnected ≠ .negotiating)
  rw [Stream.markConnected, if_neg hp]
  exact ⟨now, c, he⟩

theorem Untouched.attachConnection {queueCapacity : Nat} {s : Stream}
    (h : s.Untouched queueCapacity) (c : ConnectionId) :
    (s.attachConnection c).Untouched queueCapacity := by
  obtain ⟨now, old, he⟩ := h
  exact ⟨now, some c, by rw [Stream.attachConnection, he]; rfl⟩

/-- The stream after its broadcaster worked on it: anything may be new but the key, the phase
and the connection. -/
def worked (s : Stream) (change : Stream → Stream) : Stream :=
  { change s with key := s.key, phase := s.phase, connection := s.connection }

end Stream

namespace Registry

/-! ### What the calls do to the two views -/

/-- **All that a release can do**: it is refused and changes nothing, or it gives up a held
stream and forgets it. -/
theorem release_cases (r : Registry) (id : StreamId) :
    (r.release id = (none, r) ∧ ∀ s, r.stream? id = some s → s.hasPublisher = false) ∨
      ∃ s, r.stream? id = some s ∧ s.hasPublisher = true ∧
        r.release id = (some ⟨s.connection, s.isLive⟩, (r.put id s.released).forget id) := by
  obtain ⟨he, hfree⟩ | ⟨s, hs, hp, he⟩ := r.beginRelease_cases id
  · exact .inl ⟨by rw [release, he], hfree⟩
  · exact .inr ⟨s, hs, hp, by rw [release, he]⟩

theorem stream?_release_of_held {r : Registry} {id : StreamId} {s : Stream}
    (hs : r.stream? id = some s) (j : StreamId) :
    ((r.put id s.released).forget id).stream? j
      = if j = id then some s.released else r.stream? j := by
  rw [stream?_forget, stream?_put_of_some hs]

theorem find?_release_of_held {r : Registry} {id : StreamId} {s : Stream}
    (hs : r.stream? id = some s) (k : String) :
    ((r.put id s.released).forget id).find? k
      = if k = s.key ∧ r.find? k = some id then none else r.find? k := by
  have hput : (r.put id s.released).stream? id = some s.released := by
    rw [stream?_put_of_some hs, if_pos rfl]
  rw [find?_forget hput]
  rfl

/-- **All that looking for a stream or making it can do.** -/
theorem getOrCreate_cases (r : Registry) (key : String) (now : Millis) :
    (∃ id, r.find? key = some id ∧ r.getOrCreate key now = (id, r)) ∨
      (r.find? key = none ∧ r.getOrCreate key now
        = (r.streams.length, r.enroll key (Stream.create key r.queueCapacity now))) := by
  cases h : r.find? key with
  | some id => exact .inl ⟨id, rfl, by rw [getOrCreate, h]⟩
  | none => exact .inr ⟨rfl, by rw [getOrCreate, h]; rfl⟩

theorem find?_remove (r : Registry) (key k : String) :
    (r.remove key).2.find? k = if k = key then none else r.find? k := Table.find?_erase ..

theorem Indexed.remove {r : Registry} (hr : r.Indexed) (key : String) :
    (r.remove key).2.Indexed := by
  intro k id hk
  rw [find?_remove] at hk
  split at hk
  · exact absurd hk (by simp)
  · exact hr k id hk

/-- A key is free: no broadcaster holds the stream registered under it. -/
def Free (r : Registry) (key : String) : Prop :=
  ∀ id s, r.find? key = some id → r.stream? id = some s → s.hasPublisher = false

theorem exists_of_not_free {r : Registry} {key : String} (h : ¬ r.Free key) :
    ∃ id s, r.find? key = some id ∧ r.stream? id = some s ∧ s.hasPublisher = true := by
  refine Classical.byContradiction fun hnone => h fun id s hf hs => ?_
  exact Bool.eq_false_iff.mpr fun hp => hnone ⟨id, s, hf, hs, hp⟩

/-- Claims of one key in a row, with what each is answered. -/
def claimAll (r : Registry) (key : String) :
    List Millis → List (Except RelayError StreamId) × Registry
  | [] => ([], r)
  | now :: rest =>
    ((r.claim key now).1 :: ((r.claim key now).2.claimAll key rest).1,
      ((r.claim key now).2.claimAll key rest).2)

theorem claimAll_of_held {r : Registry} {key : String} {id : StreamId} {s : Stream}
    (h : r.find? key = some id) (hs : r.stream? id = some s) (hp : s.hasPublisher = true)
    (times : List Millis) :
    r.claimAll key times
      = (List.replicate times.length (.error (.streamAlreadyPublishing key)), r) := by
  induction times with
  | nil => rfl
  | cons now rest ih =>
    have hclaim := claim_of_find?_eq_some h hs now
    rw [if_pos hp] at hclaim
    rw [claimAll, hclaim, ih]
    rfl

theorem claim_of_free {r : Registry} (hr : r.Indexed) {key : String} (h : r.Free key)
    (now : Millis) :
    ∃ id s, (r.claim key now).1 = .ok id ∧ (r.claim key now).2.find? key = some id ∧
      (r.claim key now).2.stream? id = some s ∧ s.hasPublisher = true := by
  obtain ⟨-, he⟩ | ⟨id, s, hf, hs, -, ⟨-, he⟩ | ⟨hp, -⟩⟩ := claim_cases hr key now
  · exact ⟨_, _, by rw [he], by rw [he, find?_enroll, if_pos rfl],
      by rw [he, stream?_enroll, if_pos rfl], rfl⟩
  · exact ⟨id, s.claimed, by rw [he], by rw [he]; exact hf,
      by rw [he, stream?_put_of_some hs, if_pos rfl], rfl⟩
  · exact absurd (h id s hf hs) (by rw [hp]; simp)

end Registry

/-! ### Runs -/

namespace Registry

inductive Call where
  | getOrCreate (key : String) (now : Millis)
  | claim (key : String) (now : Millis)
  | release (id : StreamId)
  | remove (key : String)
  | get (key : String)
  | getLive (key : String)
  | markConnected (id : StreamId) (remote : Option SocketAddress)
  | attachConnection (id : StreamId) (c : ConnectionId)
  /-- Somebody who claimed the stream, lately or long ago, works on it. -/
  | work (id : StreamId) (change : Stream → Stream)

/-- A registry with the claims and releases so far. -/
structure Ledger where
  registry : Registry
  /-- The stream of each claim that was granted, newest first. -/
  claims : List StreamId := []
  /-- The stream of each release that took effect, newest first. -/
  releases : List StreamId := []

namespace Ledger

def start (queueCapacity : Nat) : Ledger := { registry := { queueCapacity } }

def step (t : Ledger) : Call → Ledger
  | .getOrCreate key now => { t with registry := (t.registry.getOrCreate key now).2 }
  | .claim key now =>
    match t.registry.claim key now with
    | (.ok id, r) => { t with registry := r, claims := id :: t.claims }
    | (.error _, r) => { t with registry := r }
  | .release id =>
    match t.registry.release id with
    | (some _, r) => { t with registry := r, releases := id :: t.releases }
    | (none, r) => { t with registry := r }
  | .remove key => { t with registry := (t.registry.remove key).2 }
  | .get _ | .getLive _ => t
  | .markConnected id remote =>
    { t with registry := (t.registry.act id (·.markConnected remote)).2 }
  | .attachConnection id c => { t with registry := t.registry.update id (·.attachConnection c) }
  | .work id change =>
    if id ∈ t.claims then { t with registry := t.registry.update id (·.worked change) } else t

def run (t : Ledger) (calls : List Call) : Ledger := calls.foldl step t

/-- **The books tell the age of every stream object.** -/
structure Sound (queueCapacity : Nat) (t : Ledger) : Prop where
  indexed : t.registry.Indexed
  capacity : t.registry.queueCapacity = queueCapacity
  made : ∀ id ∈ t.claims, ∃ s, t.registry.stream? id = some s
  held_iff : ∀ id s, t.registry.stream? id = some s →
    (s.hasPublisher = true ↔ id ∈ t.claims ∧ id ∉ t.releases)
  finished : ∀ id ∈ t.releases, id ∈ t.claims ∧ ∀ k, t.registry.find? k ≠ some id
  new : ∀ id s, t.registry.stream? id = some s → id ∉ t.claims → s.Untouched queueCapacity
  claimedOnce : t.claims.Nodup

theorem sound_start (queueCapacity : Nat) : (start queueCapacity).Sound queueCapacity where
  indexed := fun k id h => absurd h (by simp [start, find?])
  capacity := rfl
  made := fun id h => absurd h List.not_mem_nil
  held_iff := fun id s h => absurd h (by simp [start, stream?])
  finished := fun id h => absurd h List.not_mem_nil
  new := fun id s h => absurd h (by simp [start, stream?])
  claimedOnce := List.nodup_nil

variable {queueCapacity : Nat} {t : Ledger}

/-- A registered stream that nobody holds was never claimed. -/
theorem Sound.not_mem_claims (h : t.Sound queueCapacity) {key : String} {id : StreamId}
    {s : Stream} (hf : t.registry.find? key = some id) (hs : t.registry.stream? id = some s)
    (hp : s.hasPublisher = false) : id ∉ t.claims := by
  intro hc
  by_cases hr : id ∈ t.releases
  · exact (h.finished id hr).2 key hf
  · rw [(h.held_iff id s hs).mpr ⟨hc, hr⟩] at hp
    exact absurd hp (by simp)

/-! ### What each call keeps -/

/-- A step on one stream that changes neither its key nor who holds it. -/
theorem Sound.act {α : Type} (h : t.Sound queueCapacity) (id : StreamId)
    {step : Stream → α × Stream} (hkey : ∀ s, (step s).2.key = s.key)
    (hheld : ∀ s, (step s).2.hasPublisher = s.hasPublisher)
    (hnew : id ∉ t.claims → ∀ s, s.Untouched queueCapacity → (step s).2.Untouched queueCapacity) :
    Sound queueCapacity { t with registry := (t.registry.act id step).2 } := by
  have hback : ∀ {j u}, (t.registry.act id step).2.stream? j = some u →
      ∃ s, t.registry.stream? j = some s ∧ (u = s ∨ j = id ∧ u = (step s).2) := by
    intro j u hu
    rw [stream?_act] at hu
    split at hu
    · rename_i hj
      obtain ⟨s, hs, rfl⟩ := Option.map_eq_some_iff.mp hu
      exact ⟨s, hj ▸ hs, .inr ⟨hj, rfl⟩⟩
    · exact ⟨u, hu, .inl rfl⟩
  refine ⟨h.indexed.act id hkey, ?_, ?_, ?_, ?_, ?_, h.claimedOnce⟩
  · rw [← h.capacity]
    show (t.registry.act id step).2.queueCapacity = _
    unfold Registry.act
    split <;> rfl
  · intro j hj
    obtain ⟨s, hs⟩ := h.made j hj
    show ∃ u, (t.registry.act id step).2.stream? j = some u
    rw [stream?_act]
    split
    · rename_i he
      rw [← he, hs]
      exact ⟨_, rfl⟩
    · exact ⟨s, hs⟩
  · intro j u hu
    obtain ⟨s, hs, rfl | ⟨-, rfl⟩⟩ := hback hu
    · exact h.held_iff j _ hs
    · rw [hheld]
      exact h.held_iff j s hs
  · intro j hj
    refine ⟨(h.finished j hj).1, fun k => ?_⟩
    show (t.registry.act id step).2.find? k ≠ some j
    rw [find?_act]
    exact (h.finished j hj).2 k
  · intro j u hu hj
    obtain ⟨s, hs, rfl | ⟨rfl, rfl⟩⟩ := hback hu
    · exact h.new j _ hs hj
    · exact hnew hj s (h.new j s hs hj)

/-- One stream object more, registered, and claimed or not. -/
theorem Sound.enroll (h : t.Sound queueCapacity) {key : String} {s : Stream} (claimed : Bool)
    (hkey : s.key = key) (hheld : s.hasPublisher = claimed)
    (hnew : claimed = false → s.Untouched queueCapacity) :
    Sound queueCapacity { t with
      registry := t.registry.enroll key s
      claims := if claimed then t.registry.streams.length :: t.claims else t.claims } := by
  -- the name of the new object is in no book and in no entry yet
  have hunclaimed : t.registry.streams.length ∉ t.claims := by
    intro hc
    obtain ⟨u, hu⟩ := h.made _ hc
    rw [stream?_length] at hu
    exact absurd hu (by simp)
  have hmem : ∀ j, (j ∈ if claimed then t.registry.streams.length :: t.claims else t.claims) ↔
      j ∈ t.claims ∨ claimed = true ∧ j = t.registry.streams.length := by
    intro j
    cases claimed with
    | true => simp [or_comm]
    | false => simp
  refine ⟨h.indexed.enroll hkey, h.capacity, ?_, ?_, ?_, ?_, ?_⟩
  · intro j hj
    show ∃ u, (t.registry.enroll key s).stream? j = some u
    rw [stream?_enroll]
    split
    · exact ⟨s, rfl⟩
    · rename_i hne
      exact h.made j (((hmem j).mp hj).resolve_right fun c => hne c.2)
  · intro j u hu
    rw [hmem]
    change (t.registry.enroll key s).stream? j = some u at hu
    rw [stream?_enroll] at hu
    split at hu
    · rename_i hj
      obtain rfl := Option.some.inj hu
      subst hj
      have hunreleased : t.registry.streams.length ∉ t.releases :=
        fun hr => hunclaimed (h.finished _ hr).1
      simp [hheld, hunclaimed, hunreleased]
    · rename_i hne
      simp only [hne, and_false, or_false]
      exact h.held_iff j u hu
  · intro j hj
    obtain ⟨hc, hk⟩ := h.finished j hj
    refine ⟨(hmem j).mpr (.inl hc), fun k => ?_⟩
    show (t.registry.enroll key s).find? k ≠ some j
    rw [find?_enroll]
    split
    · intro he
      exact hunclaimed (Option.some.inj he ▸ hc)
    · exact hk k
  · intro j u hu hj
    rw [hmem, not_or] at hj
    change (t.registry.enroll key s).stream? j = some u at hu
    rw [stream?_enroll] at hu
    split at hu
    · rename_i he
      obtain rfl := Option.some.inj hu
      refine hnew ?_
      simpa [he] using hj.2
    · exact h.new j u hu hj.1
  · show (if claimed then t.registry.streams.length :: t.claims else t.claims).Nodup
    split
    · exact List.nodup_cons.mpr ⟨hunclaimed, h.claimedOnce⟩
    · exact h.claimedOnce

theorem Sound.claim (h : t.Sound queueCapacity) (key : String) (now : Millis) :
    (t.step (.claim key now)).Sound queueCapacity := by
  obtain ⟨-, he⟩ | ⟨id, s, hf, hs, -, ⟨hp, he⟩ | ⟨-, he⟩⟩ := claim_cases h.indexed key now
  · have hstep : t.step (.claim key now) = { t with
        registry := t.registry.enroll key
          (Stream.create key t.registry.queueCapacity now).claimed
        claims := if true then t.registry.streams.length :: t.claims else t.claims } := by
      simp only [step, he, if_true]
    rw [hstep]
    exact h.enroll true rfl rfl (by simp)
  · have hstep : t.step (.claim key now)
        = { t with registry := t.registry.put id s.claimed, claims := id :: t.claims } := by
      simp only [step, he]
    have hunclaimed := h.not_mem_claims hf hs hp
    rw [hstep]
    refine ⟨h.indexed.put hs rfl, h.capacity, ?_, ?_, ?_, ?_, ?_⟩
    · intro j hj
      show ∃ u, (t.registry.put id s.claimed).stream? j = some u
      rw [stream?_put_of_some hs]
      split
      · exact ⟨_, rfl⟩
      · rename_i hne
        exact h.made j ((List.mem_cons.mp hj).resolve_left hne)
    · intro j u hu
      change (t.registry.put id s.claimed).stream? j = some u at hu
      rw [stream?_put_of_some hs] at hu
      split at hu
      · rename_i hj
        obtain rfl := Option.some.inj hu
        have hunreleased : id ∉ t.releases := fun hr => hunclaimed (h.finished id hr).1
        have hheld : s.claimed.hasPublisher = true := rfl
        simp [hj, hheld, hunreleased]
      · rename_i hj
        simp only [List.mem_cons, hj, false_or]
        exact h.held_iff j u hu
    · intro j hj
      exact ⟨List.mem_cons_of_mem _ (h.finished j hj).1, (h.finished j hj).2⟩
    · intro j u hu hj
      rw [List.mem_cons, not_or] at hj
      change (t.registry.put id s.claimed).stream? j = some u at hu
      rw [stream?_put_of_some hs, if_neg hj.1] at hu
      exact h.new j u hu hj.2
    · exact List.nodup_cons.mpr ⟨hunclaimed, h.claimedOnce⟩
  · have hstep : t.step (.claim key now) = t := by simp only [step, he]
    rw [hstep]
    exact h

theorem Sound.release (h : t.Sound queueCapacity) (id : StreamId) :
    (t.step (.release id)).Sound queueCapacity := by
  obtain ⟨he, -⟩ | ⟨s, hs, hp, he⟩ := t.registry.release_cases id
  · have hstep : t.step (.release id) = t := by simp only [step, he]
    rw [hstep]
    exact h
  · have hstep : t.step (.release id) = { t with
        registry := (t.registry.put id s.released).forget id, releases := id :: t.releases } := by
      simp only [step, he]
    have hclaimed := ((h.held_iff id s hs).mp hp).1
    rw [hstep]
    have hindexed : (t.registry.put id s.released).Indexed := h.indexed.put hs rfl
    refine ⟨hindexed.forget id, ?_, ?_, ?_, ?_, ?_, h.claimedOnce⟩
    · rw [← h.capacity]
      show ((t.registry.put id s.released).forget id).queueCapacity = _
      unfold Registry.forget
      split
      · split <;> rfl
      · rfl
    · intro j hj
      show ∃ u, ((t.registry.put id s.released).forget id).stream? j = some u
      rw [stream?_release_of_held hs]
      split
      · exact ⟨_, rfl⟩
      · exact h.made j hj
    · intro j u hu
      change ((t.registry.put id s.released).forget id).stream? j = some u at hu
      rw [stream?_release_of_held hs] at hu
      split at hu
      · rename_i hj
        obtain rfl := Option.some.inj hu
        simp [hj]
      · rename_i hj
        simp only [List.mem_cons, hj, false_or]
        exact h.held_iff j u hu
    · intro j hj
      have hgone : ∀ k, ((t.registry.put id s.released).forget id).find? k ≠ some j := by
        intro k
        rw [find?_release_of_held hs]
        split
        · simp
        · rename_i hother
          rcases List.mem_cons.mp hj with rfl | hold
          · -- an entry that names this stream stands under its key
            intro hk
            obtain ⟨u, hu, rfl⟩ := h.indexed k j hk
            exact hother ⟨congrArg Stream.key (Option.some.inj (hu.symm.trans hs)), hk⟩
          · exact (h.finished j hold).2 k
      refine ⟨?_, hgone⟩
      rcases List.mem_cons.mp hj with rfl | hold
      · exact hclaimed
      · exact (h.finished j hold).1
    · intro j u hu hj
      change ((t.registry.put id s.released).forget id).stream? j = some u at hu
      rw [stream?_release_of_held hs, if_neg] at hu
      · exact h.new j u hu hj
      · rintro rfl
        exact hj hclaimed

theorem Sound.remove (h : t.Sound queueCapacity) (key : String) :
    (t.step (.remove key)).Sound queueCapacity := by
  refine ⟨h.indexed.remove key, h.capacity, h.made, h.held_iff, ?_, h.new, h.claimedOnce⟩
  intro j hj
  refine ⟨(h.finished j hj).1, fun k => ?_⟩
  show (t.registry.remove key).2.find? k ≠ some j
  rw [find?_remove]
  split
  · simp
  · exact (h.finished j hj).2 k

/-- **Every call keeps the books sound.** -/
theorem Sound.step (h : t.Sound queueCapacity) (call : Call) :
    (t.step call).Sound queueCapacity := by
  cases call with
  | getOrCreate key now =>
    obtain ⟨id, -, he⟩ | ⟨-, he⟩ := t.registry.getOrCreate_cases key now
    · have hstep : t.step (.getOrCreate key now) = t := by simp only [Ledger.step, he]
      rw [hstep]
      exact h
    · have hstep : t.step (.getOrCreate key now) = { t with
          registry := t.registry.enroll key (Stream.create key t.registry.queueCapacity now)
          claims := if false then t.registry.streams.length :: t.claims else t.claims } := by
        simp only [Ledger.step, he, Bool.false_eq_true, if_false]
      rw [hstep]
      refine h.enroll false rfl rfl fun _ => ?_
      rw [h.capacity]
      exact Stream.untouched_create key queueCapacity now
  | claim key now => exact h.claim key now
  | release id => exact h.release id
  | remove key => exact h.remove key
  | get key => exact h
  | getLive key => exact h
  | markConnected id remote =>
    exact h.act id (fun s => s.key_markConnected remote)
      (fun s => s.hasPublisher_markConnected remote) fun _ s hs => hs.markConnected remote
  | attachConnection id c =>
    exact h.act id (fun s => rfl) (fun s => rfl) fun _ s hs => hs.attachConnection c
  | work id change =>
    simp only [Ledger.step]
    split
    · rename_i hc
      exact h.act id (fun s => rfl) (fun s => rfl) fun hn => absurd hc hn
    · exact h

theorem Sound.run (h : t.Sound queueCapacity) (calls : List Call) :
    (t.run calls).Sound queueCapacity := by
  induction calls generalizing t with
  | nil => exact h
  | cons call rest ih => exact ih (h.step call)

theorem releases_subset_step (t : Ledger) (call : Call) : t.releases ⊆ (t.step call).releases := by
  cases call with
  | claim key now =>
    simp only [step]
    split <;> exact List.Subset.refl _
  | release id =>
    simp only [step]
    split
    · exact List.subset_cons_self ..
    · exact List.Subset.refl _
  | work id change =>
    simp only [step]
    split <;> exact List.Subset.refl _
  | _ => exact List.Subset.refl _

theorem releases_subset_run (t : Ledger) (calls : List Call) :
    t.releases ⊆ (t.run calls).releases := by
  induction calls generalizing t with
  | nil => exact List.Subset.refl _
  | cons call rest ih => exact List.Subset.trans (t.releases_subset_step call) (ih _)

/-! ### The law -/

/-- **What callers may rely on**, whatever was called before. -/
structure Lawful (queueCapacity : Nat) (t : Ledger) : Prop where
  keyed : ∀ k id, t.registry.find? k = some id → ∃ s, t.registry.stream? id = some s ∧ s.key = k
  granted : ∀ k now, (∃ id, (t.registry.claim k now).1 = .ok id) ↔ t.registry.Free k
  /-- A claim of a key that is held says so and changes nothing. -/
  refused : ∀ k now, ¬ t.registry.Free k →
    t.registry.claim k now = (.error (.streamAlreadyPublishing k), t.registry)
  /-- Of claims of a free key in a row the first is granted and no other. -/
  oneWinner : ∀ k now rest, t.registry.Free k → ∃ id,
    (t.registry.claimAll k (now :: rest)).1
      = .ok id :: List.replicate rest.length (.error (.streamAlreadyPublishing k))
  noWinner : ∀ k times, ¬ t.registry.Free k → t.registry.claimAll k times
    = (List.replicate times.length (.error (.streamAlreadyPublishing k)), t.registry)
  /-- Releasing a stream that is not the registered one leaves the table alone. -/
  stale : ∀ id s, t.registry.stream? id = some s → t.registry.find? s.key ≠ some id →
    (t.registry.release id).2.index = t.registry.index
  /-- Releasing the registered stream, if it is held, takes out its entry and no other. -/
  released : ∀ id s, t.registry.stream? id = some s → t.registry.find? s.key = some id →
    s.hasPublisher = true → (t.registry.release id).1 = some ⟨s.connection, s.isLive⟩ ∧
      ∀ k, (t.registry.release id).2.find? k = if k = s.key then none else t.registry.find? k
  once : t.claims.Nodup
  /-- A stream object that was released is never registered, held or live again. -/
  finished : ∀ more, ∀ id ∈ t.releases, (∀ k, (t.run more).registry.find? k ≠ some id) ∧
    ∀ s, (t.run more).registry.stream? id = some s → s.hasPublisher = false ∧ s.isLive = false
  /-- Whoever claims gets a stream object that nobody claimed before, just as it was made. -/
  pristine : ∀ k now id, (t.registry.claim k now).1 = .ok id → id ∉ t.claims ∧
    ∃ made, (t.registry.claim k now).2.stream? id
      = some (Stream.create k queueCapacity made).claimed

theorem Sound.finished_run (h : t.Sound queueCapacity) (more : List Call) {id : StreamId}
    (hid : id ∈ t.releases) :
    (∀ k, (t.run more).registry.find? k ≠ some id) ∧
      ∀ s, (t.run more).registry.stream? id = some s →
        s.hasPublisher = false ∧ s.isLive = false := by
  have hmore := h.run more
  have hstill := t.releases_subset_run more hid
  refine ⟨(hmore.finished id hstill).2, fun s hs => ?_⟩
  have hfree : s.hasPublisher = false := by
    refine Bool.eq_false_iff.mpr fun hp => ?_
    exact ((hmore.held_iff id s hs).mp hp).2 hstill
  exact ⟨hfree, Stream.isLive_of_free hfree⟩

theorem Sound.pristine (h : t.Sound queueCapacity) {k : String} {now : Millis} {id : StreamId}
    (hid : (t.registry.claim k now).1 = .ok id) :
    id ∉ t.claims ∧ ∃ made, (t.registry.claim k now).2.stream? id
      = some (Stream.create k queueCapacity made).claimed := by
  obtain ⟨-, he⟩ | ⟨j, s, hf, hs, hk, ⟨hp, he⟩ | ⟨-, he⟩⟩ := claim_cases h.indexed k now
  · rw [he] at hid ⊢
    obtain rfl := Except.ok.inj hid
    refine ⟨fun hc => ?_, now, ?_⟩
    · obtain ⟨u, hu⟩ := h.made _ hc
      rw [stream?_length] at hu
      exact absurd hu (by simp)
    · rw [stream?_enroll, if_pos rfl, h.capacity]
  · rw [he] at hid ⊢
    obtain rfl := Except.ok.inj hid
    have hunclaimed := h.not_mem_claims hf hs hp
    obtain ⟨made, hmade⟩ := (h.new j s hs hunclaimed).claimed_eq
    exact ⟨hunclaimed, made, by rw [stream?_put_of_some hs, if_pos rfl, hmade, hk]⟩
  · rw [he] at hid
    exact absurd hid (by simp)

/-- **Every run leaves the registry lawful.** -/
theorem lawful_run (queueCapacity : Nat) (calls : List Call) :
    Lawful queueCapacity ((start queueCapacity).run calls) := by
  have h := (sound_start queueCapacity).run calls
  generalize (start queueCapacity).run calls = t at h
  have hrefused : ∀ k now, ¬ t.registry.Free k →
      t.registry.claim k now = (.error (.streamAlreadyPublishing k), t.registry) := by
    intro k now hk
    obtain ⟨id, s, hf, hs, hp⟩ := exists_of_not_free hk
    rw [claim_of_find?_eq_some hf hs, if_pos hp]
  constructor
  · exact h.indexed
  · intro k now
    refine ⟨?_, fun hk => ?_⟩
    · rintro ⟨id, hid⟩
      by_cases hk : t.registry.Free k
      · exact hk
      · rw [hrefused k now hk] at hid
        exact absurd hid (by simp)
    · obtain ⟨id, -, hid, -⟩ := claim_of_free h.indexed hk now
      exact ⟨id, hid⟩
  · exact hrefused
  · intro k now rest hk
    obtain ⟨id, s, hid, hf, hs, hp⟩ := claim_of_free h.indexed hk now
    exact ⟨id, by rw [claimAll, hid, claimAll_of_held hf hs hp]⟩
  · intro k times hk
    obtain ⟨id, s, hf, hs, hp⟩ := exists_of_not_free hk
    exact claimAll_of_held hf hs hp times
  · intro id s hs hf
    obtain ⟨he, -⟩ | ⟨u, hu, -, he⟩ := t.registry.release_cases id
    · rw [he]
    · obtain rfl := Option.some.inj (hs.symm.trans hu)
      have hput : (t.registry.put id s.released).stream? id = some s.released := by
        rw [stream?_put_of_some hs, if_pos rfl]
      have hother : (t.registry.put id s.released).find? s.released.key ≠ some id := hf
      rw [he, Registry.forget, hput]
      simp only
      rw [if_neg hother]
      rfl
  · intro id s hs hf hp
    obtain ⟨-, hfree⟩ | ⟨u, hu, -, he⟩ := t.registry.release_cases id
    · rw [hfree s hs] at hp
      exact absurd hp (by simp)
    · obtain rfl := Option.some.inj (hs.symm.trans hu)
      refine ⟨by rw [he], fun k => ?_⟩
      rw [he, find?_release_of_held hs]
      by_cases hk : k = s.key
      · rw [if_pos ⟨hk, hk ▸ hf⟩, if_pos hk]
      · rw [if_neg fun c => hk c.1, if_neg hk]
  · exact h.claimedOnce
  · exact fun more id hid => h.finished_run more hid
  · exact fun k now id hid => h.pristine hid

end Ledger

end Registry

end Simulcast
