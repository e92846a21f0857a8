import Simulcast.Proofs.Relay.Accounts
import Simulcast.Proofs.Relay.Board
/-!
# What lasts as long as a broadcast

A registered stream goes on until its broadcast ends: it keeps its entry and its viewers, and
its list of layers grows only at the end (`Relay.Settled.continues_perform`).  So a viewer that
was attached is found as long as the broadcast lasts.

When the broadcast ends, the key is free.  A viewer that is not closed is attached to the
stream that is registered under its key, so the viewers of a free key are closed
(`Relay.Settled.closed_of_free`).  A closed viewer stays closed, whatever is done
(`Relay.Settled.persists_perform`), and it is found nowhere.
-/

namespace Simulcast

/-- An operation ends the broadcast under a key, if there is one. -/
def Operation.Ends (op : Operation) (key : String) : Prop := op = .disconnect key ∨ op = .shutdown

/-! ### Streams that go on -/

/-- A stream one step later: nobody left, and at most one layer was discovered. -/
structure Stream.Continues (s t : Stream) : Prop where
  viewers : ∀ id ∈ s.viewers, id ∈ t.viewers
  layers : t.layers = s.layers ∨ ∃ layer, layer ∉ s.layers ∧ t.layers = s.layers ++ [layer]

theorem Stream.Continues.refl (s : Stream) : s.Continues s := ⟨fun _ hid => hid, .inl rfl⟩

theorem Stream.continues_of_same {s t : Stream} (hv : t.viewers = s.viewers)
    (hl : t.layers = s.layers) : s.Continues t :=
  ⟨fun _ hid => hv ▸ hid, .inl hl⟩

theorem Stream.continues_attach (s : Stream) (id : ViewerId) : s.Continues (s.attach id).2 := by
  rw [attach]
  split
  · refine ⟨fun j hj => ?_, .inl rfl⟩
    show j ∈ if id ∈ s.viewers then s.viewers else s.viewers ++ [id]
    split
    · exact hj
    · exact List.mem_append_left _ hj
  · exact .refl s

theorem Stream.continues_noteRead (s : Stream) (f : Feed) (p : Packet) (now : Millis) :
    s.Continues (s.noteRead f p now) := by
  refine ⟨fun id hid => (s.sameHold_noteRead f p now).viewers ▸ hid, ?_⟩
  rw [layers_noteRead]
  split
  · rename_i hnew
    exact .inr ⟨f.layer, hnew.2, rfl⟩
  · exact .inl rfl

namespace Relay

variable {ids : List ViewerId} {r q : Relay} {key : String} {sid : StreamId}

/-- A registered stream goes on from one relay to another. -/
structure Continues (r q : Relay) (key : String) (sid : StreamId) : Prop where
  find? : q.registry.find? key = some sid
  stream? : ∀ s, r.registry.stream? sid = some s →
    ∃ t, q.registry.stream? sid = some t ∧ s.Continues t

theorem continues_of_same (hk : r.registry.find? key = some sid)
    (hq : q.registry = r.registry) : r.Continues q key sid :=
  ⟨hq ▸ hk, fun s hs => ⟨s, hq ▸ hs, .refl s⟩⟩

theorem continues_updateStream (hk : r.registry.find? key = some sid) (j : StreamId)
    {f : Stream → Stream} (hf : ∀ s : Stream, s.Continues (f s)) :
    r.Continues (r.updateStream j f) key sid := by
  refine ⟨?_, fun s hs => ?_⟩
  · rw [registry_updateStream, Registry.find?_update, hk]
  · rw [registry_updateStream, Registry.stream?_update]
    split
    · rename_i hj
      exact ⟨f s, by rw [← hj, hs, Option.map_some], hf s⟩
    · exact ⟨s, hs, .refl s⟩

theorem Undisturbed.continues (u : r.Undisturbed q) (hk : r.registry.find? key = some sid) :
    r.Continues q key sid :=
  ⟨(u.find? key).trans hk, fun s hs => ⟨s, u.stream? sid s hs, .refl s⟩⟩

theorem Settled.continues_ingest (h : Settled ids r.registry r.viewers)
    (hk : r.registry.find? key = some sid) (offer k : String) (remote : Option SocketAddress) :
    r.Continues (r.ingest offer k remote).2 key sid := by
  obtain ⟨e, last, he⟩ | ⟨e, q, t, b, he⟩ | ⟨answer, q, t, b, -, he⟩ :=
    h.ingest_cases offer k remote
  · rw [he]
    exact continues_of_same hk rfl
  · rw [he]
    exact b.undisturbed.continues hk
  · rw [he]
    refine ⟨?_, fun s hs => ⟨s, ?_, .refl s⟩⟩
    · have hne : key ≠ k := by
        rintro rfl
        rw [b.free] at hk
        exact absurd hk (by simp)
      show (q.registry.put _ _).find? key = _
      rw [Registry.find?_put, b.gains.find?, b.key, if_neg hne, hk]
    · have hlt := Nat.ne_of_lt (Registry.lt_of_stream? hs)
      show (q.registry.put _ _).stream? sid = _
      rw [Registry.stream?_put_of_some b.stream?, if_neg hlt, b.gains.stream?, if_neg hlt, hs]

theorem Settled.continues_createSession (h : Settled ids r.registry r.viewers)
    (hk : r.registry.find? key = some sid) (offer k : String) {id : ViewerId} (hid : id ∉ ids) :
    r.Continues (r.createSession offer k id).2 key sid := by
  obtain ⟨e, he⟩ | ⟨q, j, t, codec, seat, ⟨e, he⟩ | ⟨answer, he⟩⟩ :=
    r.createSession_cases offer k id
  · rw [he]
    exact continues_of_same hk rfl
  · rw [he]
    exact (seat.undisturbed (fun id v hv => (h.named id v hv).2) (h.unwatched_of_fresh hid)
      (h.find?_of_fresh hid)).continues hk
  · rw [he]
    refine ⟨?_, fun s hs => ?_⟩
    · rw [registry_updateViewer, seat.registry, Registry.find?_put, hk]
    · rw [registry_updateViewer, seat.registry, Registry.stream?_put_of_some seat.stream?]
      split
      · rename_i hj
        subst hj
        obtain rfl := Option.some.inj (seat.stream?.symm.trans hs)
        exact ⟨_, rfl, t.continues_attach id⟩
      · exact ⟨s, hs, .refl s⟩

theorem Settled.continues_disconnect (h : Settled ids r.registry r.viewers)
    (hk : r.registry.find? key = some sid) {k : String} (hne : key ≠ k) :
    r.Continues (r.disconnect k) key sid := by
  cases hj : r.registry.find? k with
  | none => exact continues_of_same hk (by rw [disconnect, hj])
  | some j =>
    obtain ⟨t, ht, rfl⟩ := h.indexed k j hj
    obtain ⟨q, hq, e⟩ := h.ended hj ht
    rw [disconnect, hj]
    show r.Continues (r.teardown j) key sid
    rw [hq]
    refine ⟨?_, fun s hs => ⟨s, ?_, .refl s⟩⟩
    · show q.registry.find? key = _
      rw [e.find?, if_neg hne, hk]
    · have hother : sid ≠ j := by
        rintro rfl
        obtain ⟨u, hu, hkey⟩ := h.indexed key sid hk
        obtain rfl := Option.some.inj (ht.symm.trans hu)
        exact hne hkey.symm
      show q.registry.stream? sid = _
      rw [e.stream?, if_neg hother, hs]

theorem continues_setLayer (hk : r.registry.find? key = some sid) (id : ViewerId)
    (layer : String) : r.Continues (r.setLayer id layer).2 key sid := by
  unfold setLayer
  split
  · exact continues_of_same hk rfl
  · rename_i j hj
    have hasked := continues_updateStream (r := r.updateViewer id fun v => v.selectLayer layer) hk j
      (f := fun s => s.requestKeyframe.2) fun s => Stream.continues_of_same rfl rfl
    exact ⟨hasked.find?, hasked.stream?⟩

theorem continues_feedPacket (hk : r.registry.find? key = some sid) (loop : LoopId) (p : Packet) :
    r.Continues (r.feedPacket loop p).2 key sid := by
  unfold feedPacket
  split
  · exact continues_of_same hk rfl
  · rename_i f hf
    have hread := continues_updateStream hk f.stream fun s => s.continues_noteRead f p r.clock
    exact ⟨hread.find?, hread.stream?⟩

theorem continues_closeFeed (hk : r.registry.find? key = some sid) (loop : LoopId) :
    r.Continues (r.closeFeed loop).2 key sid := by
  unfold closeFeed
  split
  · exact continues_of_same hk rfl
  · rename_i f hf
    have hleft := continues_updateStream hk f.stream
      (f := fun s => { s with keyframes := s.keyframes.leave loop })
      fun s => Stream.continues_of_same rfl rfl
    exact ⟨hleft.find?, hleft.stream?⟩

/-- **A registered stream goes on** with every operation that does not end its broadcast. -/
theorem Settled.continues_perform (h : Settled ids r.registry r.viewers) {op : Operation}
    (hnew : ∀ id ∈ newViewer? op, id ∉ ids) (hk : r.registry.find? key = some sid)
    (hop : ¬ op.Ends key) : r.Continues (r.perform op) key sid := by
  cases op with
  | ingest offer k remote => exact h.continues_ingest hk offer k remote
  | createSession offer k id => exact h.continues_createSession hk offer k (hnew id rfl)
  | setLayer id layer => exact continues_setLayer hk id layer
  | listLayers id => exact continues_of_same hk rfl
  | disconnect k =>
    refine h.continues_disconnect hk fun he => hop (.inl ?_)
    rw [he]
  | shutdown => exact absurd (.inr rfl) hop
  | validate k =>
    obtain ⟨last, hval⟩ := r.validate_eq k
    exact continues_of_same hk (congrArg (fun p => p.2.registry) hval)
  | setKeys keys => exact continues_of_same hk rfl
  | clearLastMatched k => exact continues_of_same hk rfl
  | observeTrack j kind codec =>
    refine continues_updateStream hk j fun s => ?_
    unfold Stream.observeTrack
    exact Stream.continues_of_same rfl rfl
  | openFeed j rid ssrc mimeType canSend =>
    have hjoined := continues_updateStream hk j
      (f := fun s => { s with keyframes := s.keyframes.join { id := r.nextLoop, ssrc, canSend } })
      fun s => Stream.continues_of_same rfl rfl
    exact ⟨hjoined.find?, hjoined.stream?⟩
  | feedPacket loop p => exact continues_feedPacket hk loop p
  | closeFeed loop => exact continues_closeFeed hk loop
  | serveKeyframes =>
    refine ⟨hk, fun s hs => ⟨_, (r.stream?_serveKeyframes sid).trans (by rw [hs]; rfl), ?_⟩⟩
    exact Stream.continues_of_same rfl rfl
  | scriptSink id answer => exact continues_of_same hk rfl
  | tick elapsed => exact continues_of_same hk rfl

/-! ### Viewers that persist -/

/-- A viewer later on: it is of the same key, and it did not come back. -/
structure Persists (r q : Relay) (id : ViewerId) : Prop where
  viewer : ∀ v, r.viewers.find? id = some v → ∃ w, q.viewers.find? id = some w ∧
    w.streamKey = v.streamKey ∧ (v.phase = .closed → w.phase = .closed)

variable {id : ViewerId}

theorem persists_of_same (hq : q.viewers.find? id = r.viewers.find? id) : r.Persists q id :=
  ⟨fun v hv => ⟨v, hq.trans hv, rfl, fun hc => hc⟩⟩

theorem Persists.trans {p : Relay} (h : r.Persists q id) (g : q.Persists p id) :
    r.Persists p id := by
  refine ⟨fun v hv => ?_⟩
  obtain ⟨w, hw, hkey, hclosed⟩ := h.viewer v hv
  obtain ⟨u, hu, hkey', hclosed'⟩ := g.viewer w hw
  exact ⟨u, hu, hkey'.trans hkey, fun hc => hclosed' (hclosed hc)⟩

theorem persists_of_map {f : Viewer → Viewer} (hq : q.viewers.find? id = (r.viewers.find? id).map f)
    (hf : ∀ v : Viewer, v.SameSeat (f v)) : r.Persists q id := by
  refine ⟨fun v hv => ⟨f v, by rw [hq, hv, Option.map_some], (hf v).streamKey, fun hc => ?_⟩⟩
  rw [(hf v).phase, hc]

theorem persists_updateViewer (r : Relay) (j : ViewerId) {f : Viewer → Viewer}
    (hf : ∀ v : Viewer, v.SameSeat (f v)) : r.Persists (r.updateViewer j f) id := by
  have hmodify : (r.updateViewer j f).viewers.find? id
      = if id = j then (r.viewers.find? id).map f else r.viewers.find? id := by
    rw [viewers_updateViewer, Table.find?_modify]
  split at hmodify
  · exact persists_of_map hmodify hf
  · exact persists_of_same hmodify

theorem persists_teardown (r : Relay) (sid : StreamId) : r.Persists (r.teardown sid) id := by
  cases hs : r.registry.stream? sid with
  | none =>
    rw [teardown_of_none hs]
    exact persists_of_same rfl
  | some s =>
    cases hp : s.hasPublisher with
    | false =>
      rw [teardown_of_free hs hp]
      exact persists_of_same rfl
    | true =>
      refine ⟨fun v hv => ?_⟩
      rw [viewers_teardown hs hp, hv]
      split
      · exact ⟨v.closed, rfl, rfl, fun _ => Viewer.phase_closed v⟩
      · exact ⟨v, rfl, rfl, fun hc => hc⟩

theorem persists_shutdown (r : Relay) : r.Persists r.shutdown id := by
  unfold shutdown
  generalize r.registry.registered = sids
  induction sids generalizing r with
  | nil => exact persists_of_same rfl
  | cons sid rest ih => exact (r.persists_teardown sid).trans (ih _)

theorem Settled.viewers_ingest (h : Settled ids r.registry r.viewers) (offer k : String)
    (remote : Option SocketAddress) : (r.ingest offer k remote).2.viewers = r.viewers := by
  obtain ⟨-, last, he⟩ | ⟨-, q, t, b, hcapacity, -, ⟨e, -, he⟩ | ⟨answer, c, -, -, he⟩⟩ :=
    h.ingest_outcome offer k remote
  · rw [he]
  · rw [he]
    exact (b.added_teardown hcapacity).viewers
  · rw [he]
    exact (b.added_markConnected hcapacity remote).viewers

theorem persists_createSession (r : Relay) (offer k : String) {j : ViewerId} (hne : id ≠ j) :
    r.Persists (r.createSession offer k j).2 id := by
  obtain ⟨e, he⟩ | ⟨q, sid, s, codec, seat, ⟨e, he⟩ | ⟨answer, he⟩⟩ :=
    r.createSession_cases offer k j
  · rw [he]
    exact persists_of_same rfl
  · rw [he]
    refine persists_of_same ?_
    rw [seat.viewers_dropViewer, if_neg hne]
  · rw [he]
    refine persists_of_same ?_
    rw [viewers_updateViewer, Table.find?_modify, if_neg hne, seat.viewers, if_neg hne]

theorem persists_setLayer (r : Relay) (j : ViewerId) (layer : String) :
    r.Persists (r.setLayer j layer).2 id := by
  unfold setLayer
  split
  · exact persists_of_same rfl
  · have hselected : r.Persists (r.updateViewer j fun v => v.selectLayer layer) id :=
      r.persists_updateViewer j fun v => ⟨rfl, rfl, rfl, rfl⟩
    exact hselected.trans (persists_of_same (by rw [viewers_updateStream]))

/-- **A viewer persists** with every operation: it keeps its key, and once closed it stays
closed. -/
theorem Settled.persists_perform (h : Settled ids r.registry r.viewers) {op : Operation}
    (hid : ∀ j ∈ newViewer? op, id ≠ j) : r.Persists (r.perform op) id := by
  cases op with
  | ingest offer k remote =>
    refine persists_of_same ?_
    show (r.ingest offer k remote).2.viewers.find? id = _
    rw [h.viewers_ingest]
  | createSession offer k j => exact persists_createSession r offer k (hid j rfl)
  | setLayer j layer => exact persists_setLayer r j layer
  | listLayers j => exact persists_of_same rfl
  | disconnect k =>
    simp only [Relay.perform, Relay.disconnect]
    split
    · exact r.persists_teardown _
    · exact persists_of_same rfl
  | shutdown => exact r.persists_shutdown
  | validate k =>
    obtain ⟨last, hval⟩ := r.validate_eq k
    exact persists_of_same (congrArg (fun p => p.2.viewers.find? id) hval)
  | setKeys keys => exact persists_of_same rfl
  | clearLastMatched k => exact persists_of_same rfl
  | observeTrack j kind codec =>
    exact persists_of_same (by rw [Relay.perform, viewers_updateStream])
  | openFeed j rid ssrc mimeType canSend => exact persists_of_same rfl
  | feedPacket loop p =>
    simp only [Relay.perform, Relay.feedPacket]
    split
    · exact persists_of_same rfl
    · rename_i f hf
      obtain ⟨change, hchange, he⟩ := find?_offerAll f p _ r.viewers id
      exact persists_of_map he hchange
  | closeFeed loop =>
    simp only [Relay.perform, Relay.closeFeed]
    split <;> exact persists_of_same rfl
  | serveKeyframes => exact persists_of_same rfl
  | scriptSink j answer => exact r.persists_updateViewer j fun v => ⟨rfl, rfl, rfl, rfl⟩
  | tick elapsed => exact persists_of_same rfl

/-! ### Who is found -/

/-- A viewer of a registered stream is found there. -/
theorem Settled.findViewer?_of_attached (h : Settled ids r.registry r.viewers) {s : Stream}
    (hk : r.registry.find? key = some sid) (hs : r.registry.stream? sid = some s)
    (hid : id ∈ s.viewers) : r.registry.findViewer? id = some sid :=
  Registry.findViewer?_of_unique hk hs hid fun _ _ ht hjd => (h.eq_of_mem hs ht hid hjd).symm

/-- A closed viewer is found nowhere. -/
theorem Settled.findViewer?_of_closed (h : Settled ids r.registry r.viewers) {v : Viewer}
    (hv : r.viewers.find? id = some v) (hc : v.phase = .closed) :
    r.registry.findViewer? id = none := by
  refine Option.eq_none_iff_forall_ne_some.mpr fun sid hf => ?_
  obtain ⟨s, -, hs, hid, -⟩ := h.findViewer?_spec hf
  obtain ⟨w, hw, hactive, -⟩ := h.attached sid s id hs hid
  obtain rfl := Option.some.inj (hv.symm.trans hw)
  rw [hc] at hactive
  exact absurd hactive (by decide)

/-- **The viewers of a free key are closed.** -/
theorem Settled.closed_of_free (h : Settled ids r.registry r.viewers) {v : Viewer}
    (hv : r.viewers.find? id = some v) (hfree : r.registry.find? v.streamKey = none) :
    v.phase = .closed := by
  refine (h.seated id v hv).resolve_right ?_
  rintro ⟨sid, s, -, hs, hid⟩
  obtain ⟨w, hw, -, hkey, -⟩ := h.attached sid s id hs hid
  obtain rfl := Option.some.inj (hv.symm.trans hw)
  have hempty := (h.offAir sid s hs (by rw [← hkey, hfree]; simp)).2.1
  rw [hempty] at hid
  exact List.not_mem_nil hid

theorem Settled.sound_board (h : Settled ids r.registry r.viewers) : r.board.Sound := by
  intro k sid hk
  obtain ⟨s, hs, hkey⟩ := h.indexed k sid hk
  rw [made_board, hs, Option.map_some, Stream.standing, hkey, (h.onAir k sid s hk hs).1]

/-- A key is free once its broadcast has ended. -/
theorem Settled.free_of_ends (h : Settled ids r.registry r.viewers) {op : Operation}
    (hop : op.Ends key) : (r.perform op).registry.find? key = none := by
  have hsound := h.sound_board
  have hboard := congrArg (fun b => b.index.find? key) (board_perform hsound op)
  refine hboard.trans ?_
  rcases hop with rfl | rfl
  · show (r.board.stop key).index.find? key = none
    rw [hsound.find?_stop, if_pos rfl]
  · exact hsound.find?_clear key

end Relay

end Simulcast
