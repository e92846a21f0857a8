import Simulcast.Proofs.Registry.Views
/-!
# One broadcaster per key

Claims, connections and releases of many broadcasters interleave.  A claim is one step.
A release is two: the first ends the hold on the stream, the second takes the stream's
entry out of the table.  `Registry.Traffic` is a registry together with the releases
that are half done, and a run of it is a list of actions in any order.

The registry is exclusive (`Registry.Exclusive`) if every held stream is the one
registered under its key; then no key has two holders (`Registry.Exclusive.oneHolder`).

The second step of a release looks only at which object is registered.  A claim that
arrives between the two steps takes over the very same object, and the late second step
then unregisters it in the hands of the new broadcaster: after
`Registry.overtakenRelease` two streams of one key are held at once.
`Registry.patient_iff_exclusive` says that nothing else goes wrong: a run is exclusive
throughout exactly if no claim arrives at a stream whose release is half done.
-/

namespace Simulcast

namespace Registry

/-- Every held stream is the one registered under its key. -/
def Exclusive (r : Registry) : Prop :=
  ∀ id s, r.stream? id = some s → s.hasPublisher = true → r.find? s.key = some id

/-- No two streams of one key are held at the same time. -/
def OneHolder (r : Registry) : Prop :=
  ∀ id j s t, r.stream? id = some s → r.stream? j = some t → s.hasPublisher = true →
    t.hasPublisher = true → s.key = t.key → id = j

theorem Exclusive.oneHolder {r : Registry} (h : r.Exclusive) : r.OneHolder := by
  intro id j s t hs ht hsp htp hk
  have hid := h id s hs hsp
  rw [hk, h j t ht htp] at hid
  exact (Option.some.inj hid).symm

/-! ### Runs -/

/-- A registry and the releases under way. -/
structure Traffic where
  registry : Registry
  /-- The streams whose release has taken its first step and not its second, once for
  each such release. -/
  releasing : List StreamId := []

/-- One step of some broadcaster. -/
inductive Action where
  | claim (key : String) (now : Millis)
  | connect (id : StreamId) (remote : Option SocketAddress)
  | beginRelease (id : StreamId)
  | finishRelease (id : StreamId)

namespace Traffic

/-- No stream was ever made. -/
def start (queueCapacity : Nat) : Traffic := { registry := { queueCapacity } }

/-- One step.  A release that is refused has no second step. -/
def step (t : Traffic) : Action → Traffic
  | .claim key now => { t with registry := (t.registry.claim key now).2 }
  | .connect id remote => { t with registry := (t.registry.act id (·.markConnected remote)).2 }
  | .beginRelease id =>
    match t.registry.beginRelease id with
    | (some _, r) => { registry := r, releasing := id :: t.releasing }
    | (none, r) => { t with registry := r }
  | .finishRelease id =>
    if id ∈ t.releasing then
      { registry := t.registry.forget id, releasing := t.releasing.erase id }
    else t

/-- Many steps, one after another. -/
def run (t : Traffic) (actions : List Action) : Traffic := actions.foldl step t

theorem run_append (t : Traffic) (as bs : List Action) :
    t.run (as ++ bs) = (t.run as).run bs := List.foldl_append

/-- **No claim arrives at a stream whose release is half done.** -/
def Patient (t : Traffic) (actions : List Action) : Prop :=
  ∀ before key now after, actions = before ++ .claim key now :: after →
    ∀ id, (t.run before).registry.find? key = some id → id ∉ (t.run before).releasing

theorem Patient.tail {t : Traffic} {a : Action} {rest : List Action}
    (h : t.Patient (a :: rest)) : (t.step a).Patient rest := by
  intro before key now after he
  exact h (a :: before) key now after (by rw [he, List.cons_append])

theorem Patient.take {t : Traffic} {actions : List Action} (h : t.Patient actions) (n : Nat) :
    t.Patient (actions.take n) := by
  intro before key now after he
  refine h before key now (after ++ actions.drop n) ?_
  rw [← List.cons_append, ← List.append_assoc, ← he, List.take_append_drop]

/-! ### The index along a run -/

theorem indexed_step {t : Traffic} (h : t.registry.Indexed) (a : Action) :
    (t.step a).registry.Indexed := by
  cases a with
  | claim key now => exact h.claim key now
  | connect id remote => exact h.act id fun s => s.key_markConnected remote
  | beginRelease id =>
    have hb := h.beginRelease id
    simp only [step]
    split <;> rename_i he <;> rw [he] at hb <;> exact hb
  | finishRelease id =>
    simp only [step]
    split
    · exact h.forget id
    · exact h

theorem indexed_run {t : Traffic} (h : t.registry.Indexed) (actions : List Action) :
    (t.run actions).registry.Indexed := by
  induction actions generalizing t with
  | nil => exact h
  | cons a rest ih => exact ih (indexed_step h a)

theorem indexed_start (queueCapacity : Nat) : (start queueCapacity).registry.Indexed := by
  intro k id h
  exact absurd h (by simp [start, find?])

/-! ### What patience keeps -/

/-- The invariant of a patient run: the registry is exclusive, and a stream whose release
is half done is held by nobody. -/
structure Tidy (t : Traffic) : Prop where
  indexed : t.registry.Indexed
  exclusive : t.registry.Exclusive
  free : ∀ id ∈ t.releasing, ∃ s, t.registry.stream? id = some s ∧ s.hasPublisher = false

theorem tidy_start (queueCapacity : Nat) : (start queueCapacity).Tidy where
  indexed := indexed_start queueCapacity
  exclusive := by
    intro id s h
    exact absurd h (by simp [start, stream?])
  free := by
    intro id h
    exact absurd h (by simp [start])

theorem Tidy.claim {t : Traffic} (h : t.Tidy) (key : String) (now : Millis)
    (hfree : ∀ id, t.registry.find? key = some id → id ∉ t.releasing) :
    (t.step (.claim key now)).Tidy := by
  refine ⟨indexed_step h.indexed _, ?_, ?_⟩
  · intro j u hu hp
    obtain ⟨hf, he⟩ | ⟨id, s, hf, hs, hk, ⟨-, he⟩ | ⟨-, he⟩⟩ :=
      claim_cases h.indexed key now <;>
      simp only [step, he] at hu ⊢
    · rw [stream?_enroll] at hu
      rw [find?_enroll]
      split at hu
      · rename_i hj
        obtain rfl := Option.some.inj hu
        rw [if_pos (by rfl), hj]
      · -- nobody held a stream of this key, since none was registered
        have hj := h.exclusive j u hu hp
        rw [if_neg, hj]
        rintro rfl
        rw [hf] at hj
        exact absurd hj (by simp)
    · rw [stream?_put_of_some hs] at hu
      rw [find?_put]
      split at hu
      · rename_i hj
        obtain rfl := Option.some.inj hu
        rw [hj, Stream.key_claimed, hk, hf]
      · exact h.exclusive j u hu hp
    · exact h.exclusive j u hu hp
  · intro j hj
    obtain ⟨u, hu, hp⟩ := h.free j hj
    refine ⟨u, ?_, hp⟩
    obtain ⟨hf, he⟩ | ⟨id, s, hf, hs, -, ⟨-, he⟩ | ⟨-, he⟩⟩ :=
      claim_cases h.indexed key now <;>
      simp only [step, he]
    · rw [stream?_enroll, if_neg (Nat.ne_of_lt (lt_of_stream? hu)), hu]
    · rw [stream?_put_of_some hs, if_neg, hu]
      rintro rfl
      exact hfree _ hf hj
    · exact hu

theorem Tidy.connect {t : Traffic} (h : t.Tidy) (id : StreamId) (remote : Option SocketAddress) :
    (t.step (.connect id remote)).Tidy := by
  have hview : ∀ j, (t.step (.connect id remote)).registry.stream? j
      = if j = id then (t.registry.stream? id).map fun s => (s.markConnected remote).2
        else t.registry.stream? j :=
    fun j => stream?_act t.registry id _ j
  refine ⟨indexed_step h.indexed _, ?_, ?_⟩
  · intro j u hu hp
    show (t.registry.act id _).2.find? u.key = some j
    rw [hview] at hu
    rw [find?_act]
    split at hu
    · rename_i hj
      obtain ⟨s, hs, rfl⟩ := Option.map_eq_some_iff.mp hu
      rw [Stream.hasPublisher_markConnected] at hp
      rw [Stream.key_markConnected, hj]
      exact h.exclusive id s hs hp
    · exact h.exclusive j u hu hp
  · intro j hj
    obtain ⟨u, hu, hp⟩ := h.free j hj
    rw [hview]
    split
    · rename_i hji
      rw [← hji, hu]
      exact ⟨_, rfl, by rw [Stream.hasPublisher_markConnected, hp]⟩
    · exact ⟨u, hu, hp⟩

theorem Tidy.beginRelease {t : Traffic} (h : t.Tidy) (id : StreamId) :
    (t.step (.beginRelease id)).Tidy := by
  obtain ⟨he, -⟩ | ⟨s, hs, -, he⟩ := t.registry.beginRelease_cases id
  · have hstep : t.step (.beginRelease id) = t := by simp only [step, he]
    rw [hstep]
    exact h
  · have hstep : t.step (.beginRelease id)
        = { registry := t.registry.put id s.released, releasing := id :: t.releasing } := by
      simp only [step, he]
    rw [hstep]
    refine ⟨h.indexed.put hs rfl, ?_, ?_⟩
    · intro j u hu hp
      simp only [stream?_put_of_some hs] at hu
      split at hu
      · obtain rfl := Option.some.inj hu
        exact absurd hp (by simp)
      · exact h.exclusive j u hu hp
    · intro j hj
      simp only [stream?_put_of_some hs]
      split
      · exact ⟨_, rfl, Stream.hasPublisher_released s⟩
      · rename_i hne
        exact h.free j ((List.mem_cons.mp hj).resolve_left hne)

/-- A tidy release takes out the entry of a stream that nobody holds. -/
theorem Tidy.finishRelease {t : Traffic} (h : t.Tidy) (id : StreamId) :
    (t.step (.finishRelease id)).Tidy := by
  simp only [step]
  split
  · rename_i hmem
    obtain ⟨s, hs, hfree⟩ := h.free id hmem
    refine ⟨h.indexed.forget id, ?_, ?_⟩
    · intro j u hu hp
      rw [stream?_forget] at hu
      have hj := h.exclusive j u hu hp
      rw [find?_forget hs, if_neg, hj]
      rintro ⟨-, hc⟩
      obtain rfl := Option.some.inj (hj.symm.trans hc)
      rw [Option.some.inj (hs.symm.trans hu), hp] at hfree
      exact absurd hfree (by simp)
    · intro j hj
      simp only [stream?_forget]
      exact h.free j (List.mem_of_mem_erase hj)
  · exact h

theorem Tidy.run {t : Traffic} (h : t.Tidy) {actions : List Action} (hp : t.Patient actions) :
    (t.run actions).Tidy := by
  induction actions generalizing t with
  | nil => exact h
  | cons a rest ih =>
    refine ih (t := t.step a) ?_ hp.tail
    cases a with
    | claim key now => exact h.claim key now (hp [] key now rest rfl)
    | connect id remote => exact h.connect id remote
    | beginRelease id => exact h.beginRelease id
    | finishRelease id => exact h.finishRelease id

/-- Whichever half-done releases finish, a tidy state stays tidy. -/
theorem Tidy.run_finishRelease {t : Traffic} (h : t.Tidy) (ids : List StreamId) :
    (t.run (ids.map .finishRelease)).Tidy := by
  induction ids generalizing t with
  | nil => exact h
  | cons id rest ih => exact ih (h.finishRelease id)

/-! ### What an impatient claim breaks -/

/-- After a claim the stream found under the key is held, whoever won it, and is still
registered. -/
theorem held_of_claim {r : Registry} (hr : r.Indexed) {key : String} {id : StreamId}
    (h : r.find? key = some id) (now : Millis) :
    (r.claim key now).2.find? key = some id ∧
      ∃ s, (r.claim key now).2.stream? id = some s ∧ s.key = key ∧ s.hasPublisher = true := by
  obtain ⟨hf, -⟩ | ⟨j, s, hf, hs, hk, ⟨-, he⟩ | ⟨hp, he⟩⟩ := claim_cases hr key now
  · rw [h] at hf
    exact absurd hf (by simp)
  · obtain rfl := Option.some.inj (h.symm.trans hf)
    rw [he]
    refine ⟨h, s.claimed, ?_, hk, rfl⟩
    rw [stream?_put_of_some hs, if_pos rfl]
  · obtain rfl := Option.some.inj (h.symm.trans hf)
    rw [he]
    exact ⟨h, s, hs, hk, hp⟩

/-- **A late second step unregisters the new holder.** -/
theorem not_exclusive_finishRelease {t : Traffic} {id : StreamId} {s : Stream}
    (hmem : id ∈ t.releasing) (hs : t.registry.stream? id = some s) (hp : s.hasPublisher = true)
    (hf : t.registry.find? s.key = some id) :
    ¬ (t.step (.finishRelease id)).registry.Exclusive := by
  intro h
  have hstep : (t.step (.finishRelease id)).registry = t.registry.forget id := by
    simp only [step, if_pos hmem]
  rw [hstep] at h
  have hreg := h id s (by rw [stream?_forget, hs]) hp
  rw [find?_forget hs, if_pos ⟨rfl, hf⟩] at hreg
  exact absurd hreg (by simp)

/-! ### The law and its limit -/

/-- **A run is exclusive exactly if its claims are patient**: whatever part of it has been
done, and whichever half-done releases finish then, every held stream is the one
registered under its key and no key has two holders. -/
theorem patient_iff_exclusive (queueCapacity : Nat) (actions : List Action) :
    (start queueCapacity).Patient actions ↔
      ∀ (n : Nat) (ids : List StreamId),
        ((start queueCapacity).run
            (actions.take n ++ ids.map .finishRelease)).registry.Exclusive ∧
        ((start queueCapacity).run
            (actions.take n ++ ids.map .finishRelease)).registry.OneHolder := by
  constructor
  · intro hp n ids
    have h := ((tidy_start queueCapacity).run (hp.take n)).run_finishRelease ids
    rw [run_append]
    exact ⟨h.exclusive, h.exclusive.oneHolder⟩
  · intro h before key now after he id hf hmem
    have hi := indexed_run (indexed_start queueCapacity) before
    obtain ⟨hreg, s, hs, rfl, hp⟩ := held_of_claim hi hf now
    have hrun : (start queueCapacity).run (actions.take (before.length + 1))
        = ((start queueCapacity).run before).step (.claim s.key now) := by
      rw [he, List.take_append, List.take_of_length_le (Nat.le_succ _), Nat.add_sub_cancel_left,
        run_append]
      rfl
    have hbad := (h (before.length + 1) [id]).1
    rw [run_append, hrun] at hbad
    exact not_exclusive_finishRelease
      (t := ((start queueCapacity).run before).step (.claim s.key now)) hmem hs hp hreg hbad

/-- A claim between the two steps of a release, then the second step, then a third
broadcaster. -/
def overtakenRelease : List Action :=
  [.claim "k" 0, .beginRelease 0, .claim "k" 0, .finishRelease 0, .claim "k" 0]

/-- **An overtaken release leaves two holders of one key**, the older of them
unregistered. -/
theorem two_holders_of_overtakenRelease :
    ¬ ((start 50).run overtakenRelease).registry.Exclusive ∧
      ¬ ((start 50).run overtakenRelease).registry.OneHolder := by
  have hold : ((start 50).run overtakenRelease).registry.stream? 0
      = some (Stream.create "k" 50 0).claimed := rfl
  have hnew : ((start 50).run overtakenRelease).registry.stream? 1
      = some (Stream.create "k" 50 0).claimed := rfl
  have hreg : ((start 50).run overtakenRelease).registry.find? "k" = some 1 := by decide
  constructor
  · intro h
    exact absurd (hreg.symm.trans (h 0 _ hold rfl)) (by decide)
  · intro h
    exact absurd (h 0 1 _ _ hold hnew rfl rfl rfl) (by decide)

end Traffic

end Registry

end Simulcast
