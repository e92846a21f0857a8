import Simulcast.Proofs.Relay.Interleaving
/-!
# Who holds a stream while calls run side by side

A stream's phase and the broadcaster's connection change together and under one lock.
`Registry.hold?` is this part of a stream, and most steps of most calls are beside it
(`Relay.Beside`).  The exceptions are few: a claim (`Registry.hold?_claim`), the attaching
of a connection (`Relay.hold?_attachConnection`), the end of a negotiation
(`Relay.markConnected_hold?`) and a release (`Relay.beginRelease_hold?`).

From them follows what a step of a teardown can do (`Relay.Stage.teardown_step`), and that
a stream off the air stays as it is when nobody can claim it any more
(`Relay.Stage.IsPast.hold?_step`).
-/

namespace Simulcast

/-! ### Holds -/

/-- Who holds a stream: its phase and the connection that is attached to it. -/
def Stream.hold (s : Stream) : IngestPhase × Option ConnectionId := (s.phase, s.connection)

namespace Registry

def hold? (g : Registry) (sid : StreamId) : Option (IngestPhase × Option ConnectionId) :=
  (g.stream? sid).map Stream.hold

theorem hold?_eq_of_stream? {g g' : Registry} {j : StreamId} (h : g'.stream? j = g.stream? j) :
    g'.hold? j = g.hold? j := by
  rw [hold?, hold?, h]

theorem hold?_act {α : Type} (g : Registry) (sid : StreamId) {step : Stream → α × Stream}
    (h : ∀ s, (step s).2.hold = s.hold) (j : StreamId) :
    (g.act sid step).2.hold? j = g.hold? j := by
  rw [hold?, hold?, stream?_act]
  split
  · rename_i hj
    rw [hj, Option.map_map]
    exact Option.map_congr fun s _ => h s
  · rfl

theorem hold?_put {g : Registry} {sid : StreamId} {s : Stream} (hs : g.stream? sid = some s)
    (t : Stream) (j : StreamId) :
    (g.put sid t).hold? j = if j = sid then some t.hold else g.hold? j := by
  rw [hold?, hold?, stream?_put_of_some hs]
  split <;> rfl

/-- **All that a claim can do** to the holds: it is refused and changes nothing, or the
stream is held without a connection. -/
theorem hold?_claim (g : Registry) (key : String) (now : Millis) :
    (∃ e, g.claim key now = (.error e, g)) ∨
      ∃ sid g', g.claim key now = (.ok sid, g') ∧
        ∀ j, g'.hold? j = if j = sid then some (.negotiating, none) else g.hold? j := by
  cases hf : g.find? key with
  | none =>
    refine .inr ⟨_, _, claim_of_find?_eq_none hf now, fun j => ?_⟩
    rw [hold?, hold?, stream?_enroll]
    split <;> rfl
  | some id =>
    cases hs : g.stream? id with
    | none =>
      have hget : g.getOrCreate key now = (id, g) := by rw [getOrCreate, hf]
      refine .inl ⟨.streamAlreadyPublishing key, ?_⟩
      rw [claim, hget]
      simp only [hs, Option.bind_none]
    | some s =>
      have hclaim := claim_of_find?_eq_some hf hs now
      cases hp : s.hasPublisher with
      | true => exact .inl ⟨_, by rw [hclaim, hp]; rfl⟩
      | false => exact .inr ⟨id, _, by rw [hclaim, hp]; rfl, hold?_put hs s.claimed⟩

end Registry

namespace Relay

/-! ### Steps beside the holds -/

/-- A step that leaves the holds alone, opens no connection and reopens none. -/
structure Beside (r q : Relay) : Prop where
  hold? : ∀ j, q.registry.hold? j = r.registry.hold? j
  opened : q.connections.opened = r.connections.opened
  closed : ∀ c ∈ r.connections.closed, c ∈ q.connections.closed

theorem Beside.refl (r : Relay) : r.Beside r := ⟨fun _ => rfl, rfl, fun _ h => h⟩

theorem beside_closeReleased (r : Relay) (released : Released) :
    r.Beside (r.closeReleased released) := by
  refine ⟨fun j => by rw [registry_closeReleased], ?_, fun c hc => ?_⟩
  · unfold closeReleased
    split
    · exact ConnectionPool.opened_close ..
    · rfl
  · unfold closeReleased
    split
    · exact (ConnectionPool.mem_closed_close ..).mpr (.inr hc)
    · exact hc

theorem beside_closeViewer (r : Relay) (id : ViewerId) : r.Beside (r.closeViewer id) := by
  unfold closeViewer
  split
  · exact .refl r
  · rename_i v hv
    split
    · rename_i c hc
      refine ⟨fun j => ?_, ?_, fun d hd => ?_⟩
      · unfold leaveHome
        split
        · exact r.registry.hold?_act _ (fun s => rfl) j
        · rfl
      · unfold leaveHome
        split <;> exact ConnectionPool.opened_close ..
      · unfold leaveHome
        split <;> exact (ConnectionPool.mem_closed_close ..).mpr (.inr hd)
    · exact ⟨fun _ => rfl, rfl, fun _ h => h⟩

theorem beside_drainViewers (r : Relay) (sid : StreamId) : r.Beside (r.drainViewers sid).2 := by
  have hpool : (r.drainViewers sid).2.connections = r.connections := by
    simp only [drainViewers, onRegistry]
    split <;> rename_i h <;> exact congrArg (fun p => p.2.connections) h.symm
  refine ⟨fun j => ?_, by rw [hpool], fun c hc => hpool ▸ hc⟩
  rw [registry_drainViewers]
  exact r.registry.hold?_act sid (fun s => rfl) j

/-- **All that a release can do** to the holds: it finds the stream not held and changes
nothing, or it takes its connection. -/
theorem beginRelease_hold? (r : Relay) (sid : StreamId) (reply : Reply) :
    (Stage.step r (.release sid reply) = { stage := .finished reply, relay := r } ∧
      ∀ p c, r.registry.hold? sid = some (p, c) → p.holdsStream = false) ∨
    ∃ p c e g, r.registry.hold? sid = some (p, c) ∧ p.holdsStream = true ∧
      (Stage.step r (.release sid reply)).stage = .forget e ∧ e.stream = sid ∧
      e.released.connection = c ∧
      (Stage.step r (.release sid reply)).relay = { r with registry := g } ∧
      ∀ j, g.hold? j = if j = sid then some (.disconnected, none) else r.registry.hold? j := by
  cases hs : r.registry.stream? sid with
  | none =>
    refine .inl ⟨by simp only [Stage.step, hs], fun p c h => ?_⟩
    rw [Registry.hold?, hs] at h
    exact absurd h (by simp)
  | some s =>
    cases hp : s.hasPublisher with
    | false =>
      refine .inl ⟨?_, fun p c h => ?_⟩
      · simp only [Stage.step, hs, onRegistry, Registry.beginRelease_of_free hs hp]
      · rw [Registry.hold?, hs] at h
        obtain ⟨rfl, -⟩ := Prod.mk.inj (Option.some.inj h)
        exact hp
    | true =>
      have hbegin := Registry.beginRelease_of_held hs hp
      refine .inr ⟨s.phase, s.connection, ⟨sid, s.key, ⟨s.connection, s.isLive⟩, reply⟩, _,
        by rw [Registry.hold?, hs]; rfl, hp, ?_, rfl, rfl, ?_, Registry.hold?_put hs s.released⟩
      · simp only [Stage.step, hs, onRegistry, hbegin]
      · simp only [Stage.step, hs, onRegistry, hbegin]

/-- **All that the end of a negotiation can do** to the holds. -/
theorem markConnected_hold? (r : Relay) (sid : StreamId) (remote : Option SocketAddress) :
    (r.markConnected sid remote = (false, r) ∧
      ∀ p c, r.registry.hold? sid = some (p, c) → p ≠ .negotiating) ∨
    ∃ c g, r.registry.hold? sid = some (.negotiating, c) ∧
      r.markConnected sid remote = (true, { r with registry := g }) ∧
      ∀ j, g.hold? j = if j = sid then some (.connected, c) else r.registry.hold? j := by
  cases hs : r.registry.stream? sid with
  | none =>
    refine .inl ⟨by simp only [markConnected, onRegistry, Registry.act_of_none hs], ?_⟩
    intro p c h
    rw [Registry.hold?, hs] at h
    exact absurd h (by simp)
  | some s =>
    have hhold : r.registry.hold? sid = some s.hold := by rw [Registry.hold?, hs]; rfl
    by_cases hp : s.phase = .negotiating
    · refine .inr ⟨s.connection, _, by rw [hhold, Stream.hold, hp],
        markConnected_of_negotiating hs hp remote, fun j => ?_⟩
      rw [Registry.hold?_put hs, Stream.markConnected, if_pos hp]
      rfl
    · refine .inl ⟨?_, fun p c h => ?_⟩
      · simp only [markConnected, onRegistry, Registry.act_of_some hs, Stream.markConnected,
          if_neg hp, Registry.put_self hs]
      · obtain ⟨rfl, -⟩ := Prod.mk.inj (Option.some.inj (hhold.symm.trans h))
        exact hp

theorem hold?_attachConnection (r : Relay) (sid : StreamId) (c : ConnectionId) (j : StreamId) :
    (r.updateStream sid (·.attachConnection c)).registry.hold? j
      = if j = sid then (r.registry.hold? sid).map fun h => (h.1, some c)
        else r.registry.hold? j := by
  rw [registry_updateStream, Registry.hold?, Registry.stream?_update]
  split
  · rw [Registry.hold?, Option.map_map, Option.map_map]
    rfl
  · rfl

namespace Stage

/-! ### Teardowns -/

def IsTeardown : Stage → Prop
  | lookUp _ | release _ _ | forget _ | hangUp _ | clear _ | drain _ | dismiss _ _ | report _
  | finished _ => True
  | _ => False

/-- The connection that a call took from a stream and has to close. -/
def inHand : Stage → Option ConnectionId
  | forget e | hangUp e => e.released.connection
  | _ => none

/-- An ingest counts on the stream to keep its connection. -/
def Tends (sid : StreamId) : Stage → Prop
  | negotiate _ j _ | mark _ j _ | release j (some (.error _)) => j = sid
  | _ => False

/-- The call claims no stream and attaches no connection any more. -/
def IsPast : Stage → Prop
  | validate _ | claim _ | connect _ _ | attach _ _ _ => False
  | _ => True

def isFinished : Stage → Bool
  | finished _ => true
  | _ => false

theorem inHand_of_isFinished {stage : Stage} (h : stage.isFinished = true) :
    stage.inHand = none := by
  cases stage with
  | finished reply => rfl
  | _ => exact absurd h (by simp [isFinished])

theorem IsTeardown.isPast {stage : Stage} (h : stage.IsTeardown) : stage.IsPast := by
  cases stage with
  | validate | claim | connect | attach => exact h.elim
  | _ => trivial

theorem eq_of_tends_release {sid j : StreamId} {reply : Reply}
    (h : (release sid reply).Tends j) : sid = j := by
  cases reply with
  | none => exact h.elim
  | some answer =>
    cases answer with
    | ok text => exact h.elim
    | error fault => exact h

/-- **What a step of a teardown does**: the holds stay as they are, or the call takes the
connection of a held stream. -/
structure TeardownStep (r : Relay) (stage : Stage) (t : Turn) : Prop where
  next : t.stage.IsTeardown
  tends : ∀ sid, ¬ t.stage.Tends sid
  opened : t.relay.connections.opened = r.connections.opened
  closed : ∀ c ∈ r.connections.closed, c ∈ t.relay.connections.closed
  /-- What a call has in hand it keeps until it is closed. -/
  inHand : ∀ c, stage.inHand = some c →
    t.stage.inHand = some c ∨ c ∈ t.relay.connections.closed
  hold? : (∀ j, t.relay.registry.hold? j = r.registry.hold? j) ∨
    ∃ sid p c, r.registry.hold? sid = some (p, c) ∧ p.holdsStream = true ∧ t.stage.inHand = c ∧
      ∀ j, t.relay.registry.hold? j
        = if j = sid then some (.disconnected, none) else r.registry.hold? j
  /-- The stream that an ingest counted on is not held any more. -/
  tended : ∀ sid, stage.Tends sid → ∀ p c, t.relay.registry.hold? sid = some (p, c) →
    p.holdsStream = false

theorem teardownStep_of_beside {r : Relay} {stage : Stage} {t : Turn} (h : r.Beside t.relay)
    (next : t.stage.IsTeardown) (tends : ∀ sid, ¬ t.stage.Tends sid)
    (inHand : ∀ c, stage.inHand = some c →
      t.stage.inHand = some c ∨ c ∈ t.relay.connections.closed)
    (tended : ∀ sid, ¬ stage.Tends sid) : TeardownStep r stage t :=
  ⟨next, tends, h.opened, h.closed, inHand, .inl h.hold?, fun sid ht => absurd ht (tended sid)⟩

theorem teardown_step (r : Relay) {stage : Stage} (h : stage.IsTeardown) :
    TeardownStep r stage (stage.step r) := by
  have hno : ∀ sid : StreamId, ¬ False := fun _ => id
  have hempty : ∀ {p : Prop} (c : ConnectionId), (none : Option ConnectionId) = some c → p :=
    fun c hc => absurd hc (by simp)
  cases stage with
  | lookUp key =>
    simp only [step]
    split
    · exact teardownStep_of_beside (.refl r) trivial hno (fun c => hempty c) hno
    · exact teardownStep_of_beside (.refl r) trivial hno (fun c => hempty c) hno
  | release sid reply =>
    obtain ⟨he, hfree⟩ | ⟨p, c, e, g, hhold, hp, hstage, -, hc, hrelay, hg⟩ :=
      r.beginRelease_hold? sid reply
    · rw [he]
      refine ⟨trivial, hno, rfl, fun _ h => h, fun c => hempty c, .inl fun _ => rfl, ?_⟩
      intro j ht
      exact eq_of_tends_release ht ▸ hfree
    · generalize hturn : step r (.release sid reply) = turn at hstage hrelay ⊢
      obtain ⟨stage', r', m⟩ := turn
      obtain rfl : stage' = .forget e := hstage
      obtain rfl : r' = { r with registry := g } := hrelay
      refine ⟨trivial, hno, rfl, fun _ h => h, fun c => hempty c,
        .inr ⟨sid, p, c, hhold, hp, hc, hg⟩, ?_⟩
      intro j ht q d hq
      obtain rfl := eq_of_tends_release ht
      have hq : g.hold? sid = some (q, d) := hq
      rw [hg, if_pos rfl] at hq
      obtain ⟨rfl, -⟩ := Prod.mk.inj (Option.some.inj hq)
      rfl
  | forget e =>
    exact teardownStep_of_beside
      ⟨fun j => Registry.hold?_eq_of_stream? (Registry.stream?_forget ..), rfl, fun _ h => h⟩
      trivial hno (fun c hc => .inl hc) hno
  | hangUp e =>
    refine teardownStep_of_beside (r.beside_closeReleased e.released) trivial hno
      (fun c hc => .inr ?_) hno
    have hc : e.released.connection = some c := hc
    show c ∈ (r.closeReleased e.released).connections.closed
    rw [closeReleased, hc]
    exact (ConnectionPool.mem_closed_close ..).mpr (.inl rfl)
  | clear e =>
    exact teardownStep_of_beside ⟨fun _ => rfl, rfl, fun _ h => h⟩ trivial hno
      (fun c => hempty c) hno
  | drain e =>
    exact teardownStep_of_beside (r.beside_drainViewers e.stream) trivial hno
      (fun c => hempty c) hno
  | dismiss e ids =>
    cases ids with
    | nil => exact teardownStep_of_beside (.refl r) trivial hno (fun c => hempty c) hno
    | cons id rest =>
      exact teardownStep_of_beside (r.beside_closeViewer id) trivial hno (fun c => hempty c) hno
  | report e =>
    simp only [step]
    split
    · exact teardownStep_of_beside ⟨fun _ => rfl, rfl, fun _ h => h⟩ trivial hno
        (fun c => hempty c) hno
    · exact teardownStep_of_beside (.refl r) trivial hno (fun c => hempty c) hno
  | finished reply =>
    refine ⟨trivial, hno, rfl, fun _ h => h, fun c hc => .inl hc, .inl fun _ => rfl, ?_⟩
    exact fun sid ht => absurd ht (hno sid)
  | _ => exact h.elim

theorem IsPast.next {stage : Stage} (h : stage.IsPast) (r : Relay) :
    (stage.step r).stage.IsPast := by
  have hteardown : stage.IsTeardown → (stage.step r).stage.IsPast :=
    fun ht => (teardown_step r ht).next.isPast
  cases stage with
  | negotiate bid sid c =>
    simp only [step]
    split <;> trivial
  | mark bid sid answer =>
    simp only [step]
    split <;> trivial
  | announce bid answer => trivial
  | validate | claim | connect | attach => exact h.elim
  | _ => exact hteardown trivial

/-- Who is past the claim leaves a stream off the air alone. -/
theorem IsPast.hold?_step {stage : Stage} (h : stage.IsPast) (r : Relay) {sid : StreamId}
    {c : Option ConnectionId} (hlost : r.registry.hold? sid = some (.disconnected, c)) :
    (stage.step r).relay.registry.hold? sid = some (.disconnected, c) := by
  have hteardown : stage.IsTeardown →
      (stage.step r).relay.registry.hold? sid = some (.disconnected, c) := by
    intro ht
    rcases (teardown_step r ht).hold? with hsame | ⟨sid', p', c', hhold', hp, -, hnew⟩
    · rw [hsame, hlost]
    · rw [hnew, if_neg, hlost]
      rintro rfl
      obtain ⟨rfl, -⟩ := Prod.mk.inj (Option.some.inj (hhold'.symm.trans hlost))
      exact absurd hp (by decide)
  cases stage with
  | negotiate bid sid' _ =>
    simp only [step]
    split <;> exact hlost
  | mark bid sid' answer =>
    obtain ⟨he, -⟩ | ⟨d, g, hhold, he, hg⟩ := r.markConnected_hold? sid' bid.remote
    · simp only [step, he]
      exact hlost
    · simp only [step, he]
      rw [hg, if_neg, hlost]
      rintro rfl
      exact absurd (hhold.symm.trans hlost) (by simp)
  | announce bid answer => exact hlost
  | validate | claim | connect | attach => exact h.elim
  | _ => exact hteardown trivial

end Stage

/-! ### Calls by their stages -/

namespace Busy

def stage? (b : Busy) (j : CallId) : Option Stage := (b.calls[j]?).map Call.stage

theorem advance_of_none {b : Busy} {id : CallId} (h : b.stage? id = none) : b.advance id = b := by
  rw [advance, Option.map_eq_none_iff.mp h]

theorem relay_advance {b : Busy} {id : CallId} {stage : Stage} (h : b.stage? id = some stage) :
    (b.advance id).relay = (stage.step b.relay).relay := by
  obtain ⟨call, hc, rfl⟩ := Option.map_eq_some_iff.mp h
  rw [advance_of_some hc, (told_settle ..).2]

theorem stage?_advance {b : Busy} {id : CallId} {stage : Stage} (h : b.stage? id = some stage)
    (j : CallId) :
    (b.advance id).stage? j = if j = id then some (stage.step b.relay).stage else b.stage? j := by
  obtain ⟨call, hc, rfl⟩ := Option.map_eq_some_iff.mp h
  have hset : ∀ call' : Call, call'.stage = (call.stage.step b.relay).stage →
      ((b.calls.set id call')[j]?).map Call.stage
        = if j = id then some (call.stage.step b.relay).stage else b.stage? j := by
    intro call' hcall
    rw [getElem?_set_of_some hc]
    split
    · rw [Option.map_some, hcall]
    · rfl
  rw [advance_of_some hc, stage?, settle]
  split
  · exact hset _ rfl
  · exact hset _ rfl
  · exact hset _ rfl
  · exact hset _ rfl
  · exact hset _ rfl

theorem stage?_enter (b : Busy) (request : Request) (j : CallId) :
    (b.enter request).stage? j
      = if j = b.calls.length then some request.firstStage else b.stage? j := by
  rw [stage?, calls_enter]
  split <;> rfl

theorem lt_of_stage? {b : Busy} {j : CallId} {stage : Stage} (h : b.stage? j = some stage) :
    j < b.calls.length := by
  obtain ⟨call, hc, -⟩ := Option.map_eq_some_iff.mp h
  exact (List.getElem?_eq_some_iff.mp hc).1

end Busy

end Relay

end Simulcast
