import Simulcast.Proofs.Relay.Settled
/-!
# What becomes of an ingest

A broadcaster that is admitted and finds its key free claims a new stream, and from then on
only its session description matters.  `Relay.Bidding` is the relay in between, with the new
stream negotiated and watched by nobody.  The fate of the bid is told beforehand by
`Relay.verdict`, and `Relay.Settled.ingest_outcome` lists all that an ingest can come to, with
the relay that it leaves.
-/

namespace Simulcast

namespace Registry

theorem queueCapacity_update (g : Registry) (sid : StreamId) (f : Stream → Stream) :
    (g.update sid f).queueCapacity = g.queueCapacity := by
  unfold update act
  split <;> rfl

/-- One registry has one stream object more than another, registered under its key. -/
structure Gains (g : Registry) (t : Stream) (g' : Registry) : Prop where
  find? : ∀ k, g'.find? k = if k = t.key then some g.streams.length else g.find? k
  stream? : ∀ j, g'.stream? j = if j = g.streams.length then some t else g.stream? j

theorem gains_enroll (g : Registry) (t : Stream) : g.Gains t (g.enroll t.key t) :=
  ⟨g.find?_enroll t.key t, g.stream?_enroll t.key t⟩

theorem Gains.act {α : Type} {g g' : Registry} {t : Stream} (h : g.Gains t g')
    (step : Stream → α × Stream) (hk : (step t).2.key = t.key) :
    g.Gains (step t).2 (g'.act g.streams.length step).2 := by
  constructor
  · intro k
    rw [find?_act, h.find?, hk]
  · intro j
    rw [stream?_act, h.stream?, h.stream?, if_pos rfl, Option.map_some]
    split
    · rfl
    · rfl

theorem Gains.update {g g' : Registry} {t : Stream} (h : g.Gains t g')
    (change : Stream → Stream) (hk : (change t).key = t.key) :
    g.Gains (change t) (g'.update g.streams.length change) :=
  h.act (fun s => ((), change s)) hk

end Registry

namespace Stream

theorem hasPublisher_of_isLive {s : Stream} (h : s.isLive = true) : s.hasPublisher = true := by
  rw [hasPublisher, of_decide_eq_true h]
  rfl

theorem connection_markConnected (s : Stream) (remote : Option SocketAddress) :
    (s.markConnected remote).2.connection = s.connection := by
  unfold markConnected
  split <;> rfl

end Stream

namespace Relay

variable {ids : List ViewerId} {r q : Relay} {k : String}

theorem Settled.isLive_of_onAir (h : Settled ids r.registry r.viewers) {sid : StreamId}
    {s : Stream} (hf : r.registry.find? k = some sid) (hs : r.registry.stream? sid = some s) :
    s.isLive = true := by
  rw [Stream.isLive, (h.onAir k sid s hf hs).1]
  rfl

/-! ### Between claim and verdict -/

/-- Checking a key changes nothing but what is remembered. -/
theorem validate_eq (r : Relay) (key : String) :
    ∃ last, r.validate key = (r.validator.accepts key,
      { r with validator := { r.validator with lastMatched := last } }) := by
  cases h : r.validator.accepts key with
  | false => exact ⟨r.validator.lastMatched, by simp only [validate, KeyValidator.validate, h]; rfl⟩
  | true => exact ⟨some key, by simp only [validate, KeyValidator.validate, h]; rfl⟩

/-- The relay between a claim and what comes of it: it has one stream more than the relay `r`
before, which is negotiated under a key that was free, and which nobody watches. -/
structure Bidding (r q : Relay) (key : String) (t : Stream) : Prop where
  gains : r.registry.Gains t q.registry
  free : r.registry.find? key = none
  key : t.key = key
  phase : t.phase = .negotiating
  viewers : t.viewers = []
  connection : t.connection = none ∧ q.connections = r.connections ∨
    t.connection = some r.connections.opened ∧ q.connections = r.connections.openNext.2
  only : ∃ last, q = { r with
    validator := { r.validator with lastMatched := last }
    registry := q.registry
    connections := q.connections }

section

variable {q : Relay} {key : String} {t : Stream}

theorem Bidding.stream? (b : Bidding r q key t) :
    q.registry.stream? r.registry.streams.length = some t := by
  rw [b.gains.stream?, if_pos rfl]

theorem Bidding.hasPublisher (b : Bidding r q key t) : t.hasPublisher = true := by
  rw [Stream.hasPublisher, b.phase]
  rfl

theorem Bidding.viewers_eq (b : Bidding r q key t) : q.viewers = r.viewers := by
  obtain ⟨last, hq⟩ := b.only
  rw [hq]

theorem bidding_claim (hf : r.registry.find? key = none) (last : Option String)
    (now : Millis) :
    Bidding r { r with
      validator := { r.validator with lastMatched := last }
      registry := r.registry.enroll key (Stream.create key r.registry.queueCapacity now).claimed }
      key (Stream.create key r.registry.queueCapacity now).claimed where
  gains := r.registry.gains_enroll (Stream.create key r.registry.queueCapacity now).claimed
  free := hf
  key := rfl
  phase := rfl
  viewers := rfl
  connection := .inl ⟨rfl, rfl⟩
  only := ⟨last, rfl⟩

theorem Bidding.attachConnection (b : Bidding r q key t)
    (hq : q.connections = r.connections) :
    Bidding r { q with
      registry := q.registry.update r.registry.streams.length
        (·.attachConnection q.connections.opened)
      connections := q.connections.openNext.2 } key (t.attachConnection r.connections.opened) where
  gains := by
    rw [hq]
    exact b.gains.update (·.attachConnection r.connections.opened) rfl
  free := b.free
  key := b.key
  phase := b.phase
  viewers := b.viewers
  connection := .inr ⟨rfl, by rw [hq]⟩
  only := by
    obtain ⟨last, he⟩ := b.only
    exact ⟨last, by rw [he]⟩

end

/-! ### The verdict -/

/-- Why no peer connection can be made, if so. -/
def connectionFault? (r : Relay) : Option RelayError :=
  (r.settings.iceServers.findSome? IceServer.fault).map fun fault => .webRtc (.other fault.message)

theorem openConnection_eq (r : Relay) : r.openConnection
    = match r.connectionFault? with
      | some e => (.error e, r)
      | none => (.ok r.connections.opened, { r with connections := r.connections.openNext.2 }) := by
  unfold openConnection connectionFault?
  cases r.settings.iceServers.findSome? IceServer.fault <;> rfl

/-- What becomes of a broadcaster's session description if it comes next. -/
def verdict (r : Relay) (offer : String) : Except RelayError String :=
  match r.connectionFault? with
  | some e => .error e
  | none => (r.answerOffer ⟨.broadcaster, r.connections.opened, offer⟩).map Agreement.answer

/-- Whether a broadcaster gets to negotiate. -/
def mayBid (r : Relay) (key : String) : Bool :=
  r.validator.accepts key && (r.registry.find? key).isNone

/-- What a broadcaster is told that does not get to negotiate. -/
def bidFault (r : Relay) (key : String) : RelayError :=
  if r.validator.accepts key then .streamAlreadyPublishing key else .unauthorized

/-- A stream as it goes on air. -/
def launched (key : String) (queueCapacity : Nat) (now : Millis) (c : ConnectionId)
    (remote : Option SocketAddress) : Stream :=
  { Stream.create key queueCapacity now with
    phase := .connected
    connection := some c
    broadcaster := some (({} : BroadcasterInfo).noteAddress remote) }

/-- What follows the claim of a stream. -/
def bid (r : Relay) (sid : StreamId) (offer key : String) (remote : Option SocketAddress) :
    Except RelayError String × Relay :=
  match r.negotiateIngest sid offer with
  | (.error e, r) => (.error e, r.teardown sid)
  | (.ok answer, r) =>
    match r.markConnected sid remote with
    | (false, r) => (.error (.streamNotActive key), r)
    | (true, r) => (.ok answer, r.notify (.connected key))

theorem negotiateIngest_of_fault {e : RelayError} (he : r.connectionFault? = some e)
    (sid : StreamId) (offer : String) : r.negotiateIngest sid offer = (.error e, r) := by
  rw [negotiateIngest, openConnection_eq, he]

theorem negotiateIngest_of_no_fault (he : r.connectionFault? = none) (sid : StreamId)
    (offer : String) : r.negotiateIngest sid offer = (r.verdict offer,
      { r with
        registry := r.registry.update sid (·.attachConnection r.connections.opened)
        connections := r.connections.openNext.2 }) := by
  rw [negotiateIngest, openConnection_eq, he, verdict, he]
  rfl

/-- **A bid fails or succeeds as the verdict says.** -/
theorem Bidding.outcome {key : String} {t : Stream} (b : Bidding r q key t)
    (ht : t = (Stream.create key r.registry.queueCapacity r.clock).claimed)
    (hq : q.connections = r.connections)
    (hcapacity : q.registry.queueCapacity = r.registry.queueCapacity) (offer : String)
    (remote : Option SocketAddress) :
    ∃ p u, Bidding r p key u ∧ p.registry.queueCapacity = r.registry.queueCapacity ∧
      u.retired = Stream.create key r.registry.queueCapacity r.clock ∧
      ((∃ e, r.verdict offer = .error e ∧ q.bid r.registry.streams.length offer key remote
          = (.error e, p.teardown r.registry.streams.length)) ∨
        ∃ answer c, r.verdict offer = .ok answer ∧
          (u.markConnected remote).2
            = launched key r.registry.queueCapacity r.clock c remote ∧
          q.bid r.registry.streams.length offer key remote = (.ok answer, ({ p with
            registry := p.registry.put r.registry.streams.length (u.markConnected remote).2 }
              : Relay).notify (.connected key))) := by
  obtain ⟨last, honly⟩ := b.only
  have hfault : q.connectionFault? = r.connectionFault? := by rw [honly]; rfl
  have hverdict : q.verdict offer = r.verdict offer := by
    rw [honly, hq]
    rfl
  cases he : q.connectionFault? with
  | some e =>
    refine ⟨q, t, b, hcapacity, by rw [ht]; rfl, .inl ⟨e, ?_, ?_⟩⟩
    · rw [← hverdict, verdict, he]
    · rw [bid, negotiateIngest_of_fault he]
  | none =>
    have hattached := b.attachConnection hq
    refine ⟨_, _, hattached, (Registry.queueCapacity_update ..).trans hcapacity,
      by rw [ht]; rfl, ?_⟩
    rw [bid, negotiateIngest_of_no_fault he, hverdict]
    cases hv : r.verdict offer with
    | error e => exact .inl ⟨e, rfl, rfl⟩
    | ok answer =>
      refine .inr ⟨answer, r.connections.opened, rfl, by rw [ht]; rfl, ?_⟩
      simp only [markConnected_of_negotiating hattached.stream? hattached.phase remote]

/-- **What becomes of an ingest** is settled by the keys, by what is on air under the key, and
by the verdict on the session description. -/
theorem Settled.ingest_outcome (h : Settled ids r.registry r.viewers) (offer key : String)
    (remote : Option SocketAddress) :
    (r.mayBid key = false ∧ ∃ last, r.ingest offer key remote
      = (.error (r.bidFault key), { r with
          validator := { r.validator with lastMatched := last } })) ∨
    (r.mayBid key = true ∧ ∃ q t, Bidding r q key t ∧
      q.registry.queueCapacity = r.registry.queueCapacity ∧
      t.retired = Stream.create key r.registry.queueCapacity r.clock ∧
      ((∃ e, r.verdict offer = .error e ∧
          r.ingest offer key remote = (.error e, q.teardown r.registry.streams.length)) ∨
        ∃ answer c, r.verdict offer = .ok answer ∧
          (t.markConnected remote).2
            = launched key r.registry.queueCapacity r.clock c remote ∧
          r.ingest offer key remote = (.ok answer, ({ q with
            registry := q.registry.put r.registry.streams.length (t.markConnected remote).2 }
              : Relay).notify (.connected key)))) := by
  obtain ⟨last, hval⟩ := r.validate_eq key
  unfold Relay.ingest mayBid bidFault
  rw [hval]
  cases r.validator.accepts key with
  | false => exact .inl ⟨rfl, last, rfl⟩
  | true =>
    cases hf : r.registry.find? key with
    | some sid =>
      -- what is registered is on air and held, so the claim is refused
      obtain ⟨s, hs, -⟩ := h.indexed key sid hf
      have hclaim := Registry.claim_of_find?_eq_some hf hs r.clock
      rw [if_pos (Stream.hasPublisher_of_isLive (h.isLive_of_onAir hf hs))] at hclaim
      simp only [onRegistry, hclaim]
      exact .inl ⟨rfl, last, rfl⟩
    | none =>
      simp only [onRegistry, Registry.claim_of_find?_eq_none hf r.clock]
      exact .inr ⟨rfl, (bidding_claim hf last r.clock).outcome rfl rfl rfl offer remote⟩

/-- All that an ingest can do, whatever decides it: it is refused at once and changes nothing
but what is remembered, or it bids for a new stream, and then it fails and tears the stream
down, or it puts it on air. -/
theorem Settled.ingest_cases (h : Settled ids r.registry r.viewers) (offer key : String)
    (remote : Option SocketAddress) :
    (∃ e last, r.ingest offer key remote
      = (.error e, { r with validator := { r.validator with lastMatched := last } })) ∨
    (∃ e q t, Bidding r q key t ∧
      r.ingest offer key remote = (.error e, q.teardown r.registry.streams.length)) ∨
    ∃ answer q t, Bidding r q key t ∧ t.connection.isSome = true ∧
      r.ingest offer key remote = (.ok answer, ({ q with
        registry := q.registry.put r.registry.streams.length (t.markConnected remote).2 }
          : Relay).notify (.connected key)) := by
  obtain ⟨-, last, he⟩ | ⟨-, q, t, b, -, -, ⟨e, -, he⟩ | ⟨answer, c, -, hlaunched, he⟩⟩ :=
    h.ingest_outcome offer key remote
  · exact .inl ⟨_, last, he⟩
  · exact .inr (.inl ⟨e, q, t, b, he⟩)
  · have hc : t.connection = some c :=
      (t.connection_markConnected remote).symm.trans (congrArg Stream.connection hlaunched)
    exact .inr (.inr ⟨answer, q, t, b, by rw [hc]; rfl, he⟩)

end Relay

end Simulcast
