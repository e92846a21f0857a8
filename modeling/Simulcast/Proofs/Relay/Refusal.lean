import Simulcast.Proofs.Relay.Orderly
/-!
# A refusal leaves no trace

An ingest may fail after it made a stream and attached a connection to it, and a viewer
may be refused after it got its place.  `Relay.Undisturbed` says what the relay is like
after such a failure: everything that was there is there as it was, and what the attempt
itself made is over.

Both attempts are undone by a teardown.  `Relay.Bidding.undisturbed` follows the teardown
of the stream that an ingest made, `Relay.Seated.undisturbed` the one of a viewer; what
the failing operations leave then follows from the lists of all that they can do.
-/

namespace Simulcast

namespace ConnectionPool

/-- A connection that was opened and closed again leaves the same ones open. -/
theorem isOpen_openNext_close (p : ConnectionPool) (c : ConnectionId) :
    (p.openNext.2.close p.opened).isOpen c = p.isOpen c := by
  rw [Bool.eq_iff_iff, isOpen_iff, isOpen_iff, opened_close, mem_closed_close]
  show c < p.opened + 1 ∧ ¬ (c = p.opened ∨ c ∈ p.closed) ↔ c < p.opened ∧ c ∉ p.closed
  constructor
  · rintro ⟨hlt, hno⟩
    exact ⟨Nat.lt_of_le_of_ne (Nat.le_of_lt_succ hlt) fun he => hno (.inl he),
      fun hc => hno (.inr hc)⟩
  · rintro ⟨hlt, hno⟩
    exact ⟨Nat.lt_succ_of_lt hlt, fun hc => hc.elim (Nat.ne_of_lt hlt) hno⟩

end ConnectionPool

namespace Relay

variable {ids : List ViewerId} {r q : Relay}

/-! ### Outside the tables -/

/-- Two relays that agree on all but their tables and the key that is remembered. -/
def SameFrame (r q : Relay) : Prop :=
  q = { r with
    validator := { r.validator with lastMatched := q.validator.lastMatched }
    registry := q.registry
    viewers := q.viewers
    connections := q.connections }

theorem SameFrame.trans {p : Relay} (h : r.SameFrame q) (g : q.SameFrame p) : r.SameFrame p := by
  unfold SameFrame at h g ⊢
  rw [h] at g
  exact g

theorem sameFrame_closeReleased (r : Relay) (released : Released) :
    r.SameFrame (r.closeReleased released) := by
  unfold closeReleased
  split <;> rfl

theorem sameFrame_clearLastMatched (r : Relay) (key : String) :
    r.SameFrame (r.clearLastMatched key) := by
  unfold SameFrame clearLastMatched KeyValidator.clearLastMatched
  split <;> rfl

theorem sameFrame_drained (r : Relay) (sid : StreamId) (s : Stream) :
    r.SameFrame (r.drained sid s) :=
  (r.sameFrame_closeReleased ⟨s.connection, s.isLive⟩).trans
    ((sameFrame_clearLastMatched _ s.key).trans rfl)

theorem sameFrame_closeViewer (r : Relay) (id : ViewerId) : r.SameFrame (r.closeViewer id) := by
  unfold closeViewer
  split
  · rfl
  · split
    · unfold leaveHome
      split <;> rfl
    · rfl

theorem Bidding.frame {key : String} {t : Stream} (b : Bidding r q key t) : r.SameFrame q := by
  obtain ⟨last, hq⟩ := b.only
  generalize q.registry = g, q.connections = p at hq
  subst hq
  rfl

theorem Seated.frame {key : String} {id : ViewerId} {sid : StreamId} {s : Stream} {codec : Codec}
    (seat : Seated r q key id sid s codec) : r.SameFrame q := by
  have hq := seat.only
  generalize q.registry = g, q.viewers = vs at hq
  subst hq
  rfl

/-! ### Undisturbed relays -/

/-- A relay after an attempt that came to nothing: what was there is there as it was, and
what the attempt made is over. -/
structure Undisturbed (r q : Relay) : Prop where
  /-- Nobody was told anything, no packet was read, no time passed. -/
  frame : r.SameFrame q
  find? : ∀ k, q.registry.find? k = r.registry.find? k
  stream? : ∀ sid s, r.registry.stream? sid = some s → q.registry.stream? sid = some s
  viewer : ∀ id v, r.viewers.find? id = some v → q.viewers.find? id = some v
  isOpen : ∀ c, q.connections.isOpen c = r.connections.isOpen c
  /-- A stream that is left of the attempt is off the air and empty. -/
  newStream : ∀ sid s, r.registry.stream? sid = none → q.registry.stream? sid = some s →
    s.phase = .disconnected ∧ s.viewers = [] ∧ s.connection = none
  /-- A viewer that is left of the attempt is closed. -/
  newViewer : ∀ id v, r.viewers.find? id = none → q.viewers.find? id = some v →
    v.phase = .closed ∧ v.connection = none

theorem undisturbed_lastMatched (r : Relay) (last : Option String) :
    r.Undisturbed { r with validator := { r.validator with lastMatched := last } } where
  frame := rfl
  find? := fun _ => rfl
  stream? := fun _ _ h => h
  viewer := fun _ _ h => h
  isOpen := fun _ => rfl
  newStream := fun sid s hn hs => absurd (hn.symm.trans hs) (by simp)
  newViewer := fun id v hn hv => absurd (hn.symm.trans hv) (by simp)

theorem Undisturbed.refl (r : Relay) : r.Undisturbed r :=
  r.undisturbed_lastMatched r.validator.lastMatched

/-! ### Broadcasters that are refused -/

/-- The connection of a stream that is taken off the air is closed. -/
theorem isOpen_drained {key : String} {t : Stream} (b : Bidding r q key t) (sid : StreamId)
    (c : ConnectionId) : (q.drained sid t).connections.isOpen c = r.connections.isOpen c := by
  show (q.closeReleased ⟨t.connection, t.isLive⟩).connections.isOpen c = _
  obtain ⟨hc, hq⟩ | ⟨hc, hq⟩ := b.connection
  · rw [hc, closeReleased, hq]
  · rw [hc]
    show (q.connections.close r.connections.opened).isOpen c = _
    rw [hq, ConnectionPool.isOpen_openNext_close]

/-- **A bid that is torn down leaves no trace.** -/
theorem Bidding.undisturbed {key : String} {t : Stream} (b : Bidding r q key t) :
    r.Undisturbed (q.teardown r.registry.streams.length) := by
  have hs := b.stream?
  have hdown : q.teardown r.registry.streams.length = q.drained r.registry.streams.length t := by
    have hlive : t.isLive = false := by rw [Stream.isLive, b.phase]; rfl
    rw [teardown_of_held hs b.hasPublisher, hlive, b.viewers]
    rfl
  have hstream : ∀ j, (q.drained r.registry.streams.length t).registry.stream? j
      = if j = r.registry.streams.length then some t.retired else r.registry.stream? j := by
    intro j
    refine (stream?_withoutStream hs j).trans ?_
    split
    · rfl
    · rename_i hj
      rw [b.gains.stream?, if_neg hj]
  have hviewers : (q.drained r.registry.streams.length t).viewers = r.viewers :=
    (viewers_drained ..).trans b.viewers_eq
  rw [hdown]
  constructor
  · exact b.frame.trans (sameFrame_drained ..)
  · intro k
    refine (find?_withoutStream hs k).trans ?_
    rw [b.gains.find?]
    by_cases hk : k = t.key
    · rw [if_pos hk, if_pos ⟨hk, rfl⟩, hk, b.key, b.free]
    · rw [if_neg hk, if_neg fun c => hk c.1]
  · intro sid s h
    rw [hstream, if_neg (Nat.ne_of_lt (Registry.lt_of_stream? h)), h]
  · intro id v h
    rw [hviewers, h]
  · exact isOpen_drained b _
  · intro sid s hn hs'
    rw [hstream] at hs'
    split at hs'
    · rw [← Option.some.inj hs']
      exact ⟨rfl, rfl, rfl⟩
    · exact absurd (hn.symm.trans hs') (by simp)
  · intro id v hn hv
    rw [hviewers, hn] at hv
    exact absurd hv (by simp)

/-- **A refused broadcaster leaves no trace.** -/
theorem Settled.undisturbed_ingest (h : Settled ids r.registry r.viewers) {offer key : String}
    {remote : Option SocketAddress} {e : RelayError}
    (hfail : (r.ingest offer key remote).1 = .error e) :
    r.Undisturbed (r.ingest offer key remote).2 := by
  obtain ⟨e', last, he⟩ | ⟨e', q, t, b, he⟩ | ⟨answer, q, t, b, -, he⟩ :=
    h.ingest_cases offer key remote
  · rw [he]
    exact r.undisturbed_lastMatched last
  · rw [he]
    exact b.undisturbed
  · rw [he] at hfail
    exact absurd hfail (by simp)

/-! ### Viewers that are refused -/

/-- **A viewer that loses its place again leaves no trace.** -/
theorem Seated.undisturbed {key : String} {id : ViewerId} {sid : StreamId} {s : Stream}
    {codec : Codec} (seat : Seated r q key id sid s codec) (hn : r.NamesViewers)
    (hid : r.registry.Unwatched id) (hnew : r.viewers.find? id = none) :
    r.Undisturbed (q.dropViewer sid id) := by
  have hreg := seat.registry_dropViewer hn hid
  have hviewers := seat.viewers_dropViewer
  constructor
  · exact seat.frame.trans (SameFrame.trans (q := q.updateStream sid fun s => (s.detach id).2) rfl
      (sameFrame_closeViewer ..))
  · intro k
    rw [hreg]
  · intro j t ht
    rw [hreg, ht]
  · intro j v hv
    rw [hviewers, if_neg, hv]
    rintro rfl
    rw [hnew] at hv
    exact absurd hv (by simp)
  · intro c
    have hme : (q.updateStream sid fun s => (s.detach id).2).viewers.find? id
        = some (newcomer id key codec r.connections.opened sid) := by
      rw [viewers_updateStream, seat.viewers, if_pos rfl]
    have hclose : (q.dropViewer sid id).connections
        = q.connections.close r.connections.opened := by
      rw [dropViewer, closeViewer, hme]
      rfl
    have hopened : q.connections = r.connections.openNext.2 := by rw [seat.only]
    rw [hclose, hopened, ConnectionPool.isOpen_openNext_close]
  · intro j t hn' ht
    rw [hreg] at ht
    exact absurd (hn'.symm.trans ht) (by simp)
  · intro j v hn' hv
    rw [hviewers] at hv
    split at hv
    · rw [← Option.some.inj hv]
      exact ⟨rfl, rfl⟩
    · exact absurd (hn'.symm.trans hv) (by simp)

/-- **A refused viewer leaves no trace.** -/
theorem Settled.undisturbed_createSession (h : Settled ids r.registry r.viewers)
    {offer key : String} {id : ViewerId} (hid : id ∉ ids) {e : RelayError}
    (hfail : (r.createSession offer key id).1 = .error e) :
    r.Undisturbed (r.createSession offer key id).2 := by
  obtain ⟨e', he⟩ | ⟨q, sid, s, codec, seat, ⟨e', he⟩ | ⟨answer, he⟩⟩ :=
    r.createSession_cases offer key id
  · rw [he]
    exact .refl r
  · rw [he]
    exact seat.undisturbed (fun id v hv => (h.named id v hv).2) (h.unwatched_of_fresh hid)
      (h.find?_of_fresh hid)
  · rw [he] at hfail
    exact absurd hfail (by simp)

end Relay

end Simulcast
