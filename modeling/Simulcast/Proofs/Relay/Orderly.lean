import Simulcast.Proofs.Relay.Bids
/-!
# Every history leaves the relay in order

Each operation keeps the streams and viewers settled (`Relay.Settled.perform`), and so
does every history that hands in distinct names (`Relay.settled_after`).  For the caller
this is put together as `Relay.Orderly`: registered streams are on air, attached viewers
are active and can be found, and everything else that was ever made is over.
`Relay.orderly_after` is the main statement.

A failing operation is no exception: an ingest that fails after its claim leaves a
retired stream behind, which is one stream object more (`Relay.Settled.undo`), and a
viewer whose negotiation fails leaves the streams as they were.
-/

namespace Simulcast

namespace Registry

theorem put_put (g : Registry) (sid : StreamId) (s t : Stream) :
    (g.put sid s).put sid t = g.put sid t := by
  rw [put, put, put]
  simp only [List.set_set]

/-- What a live stream under a key is. -/
theorem live?_eq_ok {g : Registry} {key : String} {sid : StreamId} (h : g.live? key = .ok sid) :
    g.find? key = some sid ∧ ∃ s, g.stream? sid = some s ∧ s.isLive = true := by
  unfold live? at h
  split at h
  · exact absurd h (by simp)
  · rename_i j hj
    split at h
    · rename_i hl
      obtain rfl := Except.ok.inj h
      cases hs : g.stream? j with
      | none =>
        rw [hs] at hl
        exact absurd hl (by simp)
      | some s =>
        rw [hs] at hl
        exact ⟨hj, s, rfl, hl⟩
    · exact absurd h (by simp)

/-- A stream under a key is found by its viewers, if no other stream has them. -/
theorem findViewer?_of_unique {g : Registry} {key : String} {sid : StreamId} {s : Stream}
    {id : ViewerId} (hk : g.find? key = some sid) (hs : g.stream? sid = some s)
    (hid : id ∈ s.viewers) (hone : ∀ j t, g.stream? j = some t → id ∈ t.viewers → j = sid) :
    g.findViewer? id = some sid := by
  have hmem : sid ∈ g.registered :=
    List.mem_map.mpr ⟨(key, sid), (Table.mem_entries_iff g.index key sid).mpr hk, rfl⟩
  cases hf : g.findViewer? id with
  | none =>
    have hno := List.find?_eq_none.mp hf sid hmem
    rw [hs] at hno
    exact absurd (by simpa using hid) hno
  | some j =>
    have hyes := List.find?_some hf
    cases ht : g.stream? j with
    | none =>
      rw [ht] at hyes
      exact absurd hyes (by simp)
    | some t =>
      rw [ht] at hyes
      rw [hone j t ht (by simpa using hyes)]

/-- The listed keys are those of the live streams. -/
theorem mem_activeKeys_iff (g : Registry) (k : String) :
    k ∈ g.activeKeys ↔
      ∃ sid s, g.find? k = some sid ∧ g.stream? sid = some s ∧ s.isLive = true := by
  unfold activeKeys
  rw [List.mem_mergeSort, List.mem_map]
  constructor
  · rintro ⟨⟨k, sid⟩, he, rfl⟩
    obtain ⟨he, hl⟩ := List.mem_filter.mp he
    cases hs : g.stream? sid with
    | none => simp [hs] at hl
    | some s => exact ⟨sid, s, (Table.mem_entries_iff g.index k sid).mp he, hs, by simpa [hs] using hl⟩
  · rintro ⟨sid, s, hk, hs, hl⟩
    exact ⟨(k, sid), List.mem_filter.mpr
      ⟨(Table.mem_entries_iff g.index k sid).mpr hk, by simp [hs, hl]⟩, rfl⟩

/-- **The listed keys stand in strict order**, so none is listed twice. -/
theorem pairwise_activeKeys (g : Registry) : g.activeKeys.Pairwise (· < ·) := by
  have htrans : ∀ a b c : String, decide (a ≤ b) = true → decide (b ≤ c) = true →
      decide (a ≤ c) = true := by
    intro a b c hab hbc
    exact decide_eq_true (String.le_trans (of_decide_eq_true hab) (of_decide_eq_true hbc))
  have htotal : ∀ a b : String, (decide (a ≤ b) || decide (b ≤ a)) = true := by
    intro a b
    simpa using String.le_total a b
  have hsorted : g.activeKeys.Pairwise fun a b => decide (a ≤ b) = true :=
    List.pairwise_mergeSort htrans htotal _
  have hnodup : g.activeKeys.Nodup :=
    (List.mergeSort_perm _ _).nodup_iff.mpr
      (List.Sublist.nodup (List.filter_sublist.map Prod.fst) g.index.nodup)
  refine (hsorted.and hnodup).imp ?_
  rintro a b ⟨hle, hne⟩
  exact Std.lt_of_le_of_ne (of_decide_eq_true hle) hne

end Registry

namespace Relay

variable {ids : List ViewerId} {g : Registry} {vs : Table ViewerId Viewer} {r : Relay}

/-! ### Operations beside the invariant -/

theorem Settled.updateStream (h : Settled ids r.registry r.viewers) (sid : StreamId)
    {change : Stream → Stream} (hc : ∀ s : Stream, s.SameHold (change s)) :
    Settled ids (r.updateStream sid change).registry (r.updateStream sid change).viewers := by
  refine h.frame (fun k => Registry.find?_update ..) (fun j => ?_)
    fun id => ⟨fun v => v, Viewer.SameSeat.refl, (Option.map_id' ..).symm⟩
  rw [registry_updateStream, Registry.stream?_update]
  split
  · rename_i hj
    exact ⟨change, hc, hj ▸ rfl⟩
  · exact ⟨fun s => s, Stream.SameHold.refl, (Option.map_id' ..).symm⟩

theorem Settled.updateViewer (h : Settled ids r.registry r.viewers) (id : ViewerId)
    {change : Viewer → Viewer} (hc : ∀ v : Viewer, v.SameSeat (change v)) :
    Settled ids (r.updateViewer id change).registry (r.updateViewer id change).viewers := by
  refine h.frame (fun k => rfl)
    (fun sid => ⟨fun s => s, Stream.SameHold.refl, (Option.map_id' ..).symm⟩) fun j => ?_
  rw [viewers_updateViewer, Table.find?_modify]
  split
  · exact ⟨change, hc, rfl⟩
  · exact ⟨fun v => v, Viewer.SameSeat.refl, (Option.map_id' ..).symm⟩

theorem Settled.setLayer (h : Settled ids r.registry r.viewers) (id : ViewerId)
    (layer : String) :
    Settled ids (r.setLayer id layer).2.registry (r.setLayer id layer).2.viewers := by
  unfold Relay.setLayer
  split
  · exact h
  · have hseat : ∀ v : Viewer, v.SameSeat (v.selectLayer layer) := fun v => ⟨rfl, rfl, rfl, rfl⟩
    have hhold : ∀ s : Stream, s.SameHold s.requestKeyframe.2 := fun s => ⟨rfl, rfl, rfl, rfl⟩
    exact (h.updateViewer id hseat).updateStream _ hhold

theorem Settled.feedPacket (h : Settled ids r.registry r.viewers) (loop : LoopId) (p : Packet) :
    Settled ids (r.feedPacket loop p).2.registry (r.feedPacket loop p).2.viewers := by
  unfold Relay.feedPacket
  split
  · exact h
  · rename_i f hf
    refine (h.updateStream f.stream fun s => s.sameHold_noteRead f p r.clock).frame
      (fun k => rfl)
      (fun sid => ⟨fun s => s, Stream.SameHold.refl, (Option.map_id' ..).symm⟩) fun j => ?_
    exact find?_offerAll f p _ r.viewers j

theorem Settled.closeFeed (h : Settled ids r.registry r.viewers) (loop : LoopId) :
    Settled ids (r.closeFeed loop).2.registry (r.closeFeed loop).2.viewers := by
  unfold Relay.closeFeed
  split
  · exact h
  · exact h.updateStream _ fun s => ⟨rfl, rfl, rfl, rfl⟩

theorem Settled.serveKeyframes (h : Settled ids r.registry r.viewers) :
    Settled ids r.serveKeyframes.2.registry r.serveKeyframes.2.viewers := by
  refine h.frame (fun k => rfl) (fun sid => ?_)
    fun id => ⟨fun v => v, Viewer.SameSeat.refl, (Option.map_id' ..).symm⟩
  exact ⟨fun s => { s with keyframes := s.keyframes.serve.2 },
    fun s => ⟨rfl, rfl, rfl, rfl⟩, r.stream?_serveKeyframes sid⟩

/-! ### Ingest -/

/-- A stream that nobody watches is torn down without a look at the viewers. -/
theorem teardown_of_unwatched {sid : StreamId} {s : Stream}
    (hs : r.registry.stream? sid = some s) (hp : s.hasPublisher = true) (hv : s.viewers = []) :
    (r.teardown sid).registry = r.withoutStream sid s ∧ (r.teardown sid).viewers = r.viewers := by
  have hd := viewers_drained r sid s
  rw [teardown_of_held hs hp, hv]
  split
  · exact ⟨rfl, hd⟩
  · exact ⟨rfl, hd⟩

/-- **A failed ingest is undone**: the stream that it added is torn down, and what is left
of it is a retired object. -/
theorem Settled.undo (h : Settled ids g r.viewers) {t : Stream} (ht : g.Gains t r.registry)
    (hkey : g.find? t.key = none) (hp : t.hasPublisher = true) (hv : t.viewers = []) :
    Settled ids (r.teardown g.streams.length).registry
      (r.teardown g.streams.length).viewers := by
  have hs : r.registry.stream? g.streams.length = some t := by rw [ht.stream?, if_pos rfl]
  obtain ⟨hreg, hviewers⟩ := teardown_of_unwatched hs hp hv
  rw [hreg, hviewers]
  refine h.addStream (t := t.retired) false (fun k => ?_) (fun j => ?_) rfl (by simp)
    fun _ => ⟨rfl, rfl⟩
  · rw [find?_withoutStream hs, ht.find?, if_neg (c := false = true ∧ k = t.retired.key) (by simp)]
    by_cases hk : k = t.key
    · rw [if_pos hk, if_pos ⟨hk, rfl⟩, hk, hkey]
    · rw [if_neg hk, if_neg fun c => hk c.1]
  · rw [stream?_withoutStream hs, ht.stream?]
    split
    · rfl
    · rfl

/-- **A stream goes on air** once its broadcaster's connection is attached. -/
theorem Settled.goOnAir (h : Settled ids g r.viewers) {t : Stream} (ht : g.Gains t r.registry)
    (hkey : g.find? t.key = none) (hphase : t.phase = .negotiating)
    (hc : t.connection.isSome = true) (hv : t.viewers = []) (remote : Option SocketAddress) :
    Settled ids (r.registry.put g.streams.length (t.markConnected remote).2) r.viewers := by
  have hs : r.registry.stream? g.streams.length = some t := by rw [ht.stream?, if_pos rfl]
  have hlive : (t.markConnected remote).2.phase = .connected ∧
      (t.markConnected remote).2.connection.isSome = true ∧
      (t.markConnected remote).2.viewers = [] := by
    rw [Stream.markConnected, if_pos hphase]
    exact ⟨rfl, hc, hv⟩
  have hgains := ht.act (·.markConnected remote) (Stream.key_markConnected ..)
  rw [Registry.act_of_some hs] at hgains
  refine h.addStream true ?_ hgains.stream? hlive.2.2 (fun _ => ⟨?_, hlive.1, hlive.2.1⟩) (by simp)
  · intro k
    rw [hgains.find?]
    simp only [true_and]
  · rw [Stream.key_markConnected, hkey]

theorem Settled.ingest (h : Settled ids r.registry r.viewers) (offer key : String)
    (remote : Option SocketAddress) :
    Settled ids (r.ingest offer key remote).2.registry (r.ingest offer key remote).2.viewers := by
  obtain ⟨e, last, he⟩ | ⟨e, q, t, b, he⟩ | ⟨answer, q, t, b, hc, he⟩ :=
    h.ingest_cases offer key remote <;> rw [he]
  · exact h
  · rw [← b.viewers_eq] at h
    exact h.undo b.gains (b.key ▸ b.free) b.hasPublisher b.viewers
  · rw [← b.viewers_eq] at h
    exact h.goOnAir b.gains (b.key ▸ b.free) b.phase hc b.viewers remote

/-! ### Sessions -/

/-- Nobody watches a stream under a name that was not handed in yet. -/
theorem Settled.unwatched_of_fresh (h : Settled ids g vs) {id : ViewerId} (hid : id ∉ ids) :
    g.Unwatched id := by
  intro sid s hs hm
  obtain ⟨v, hv, -⟩ := h.attached sid s id hs hm
  rw [h.find?_of_fresh hid] at hv
  exact absurd hv (by simp)

/-- A viewer that was attached and is dropped again leaves the streams as they were. -/
theorem registry_dropViewer {q : Relay} {sid : StreamId} {s : Stream} {id : ViewerId}
    (hs : g.stream? sid = some s) (hl : s.isLive = true) (hid : g.Unwatched id)
    (hreg : q.registry = g.put sid (s.attach id).2) (hn : q.NamesViewers) :
    (q.dropViewer sid id).registry = g := by
  have hput : (g.put sid (s.attach id).2).stream? sid = some (s.attach id).2 := by
    rw [Registry.stream?_put_of_some hs, if_pos rfl]
  have hback : (q.updateStream sid fun s => (s.detach id).2).registry = g := by
    rw [registry_updateStream, hreg, Registry.update, Registry.act_of_some hput]
    show (g.put sid _).put sid ((s.attach id).2.detach id).2 = g
    rw [Stream.detach_attach hl (hid sid s hs), Registry.put_put, Registry.put_self hs]
  have hn' : (q.updateStream sid fun s => (s.detach id).2).NamesViewers := hn
  rw [dropViewer, registry_closeViewer hn' (by rw [hback]; exact hid), hback]

/-- A viewer that has its place in a stream and negotiates. -/
def newcomer (id : ViewerId) (key : String) (codec : Codec) (c : ConnectionId) (sid : StreamId) :
    Viewer :=
  { id, streamKey := key, videoCodec := codec, connection := some c, home := some sid }

/-- The relay between the seating of a new viewer and what comes of it: the viewer has its
place in the live stream under the key. -/
structure Seated (r q : Relay) (key : String) (id : ViewerId) (sid : StreamId) (s : Stream)
    (codec : Codec) : Prop where
  find? : r.registry.find? key = some sid
  stream? : r.registry.stream? sid = some s
  live : s.isLive = true
  registry : q.registry = r.registry.put sid (s.attach id).2
  viewers : ∀ j, q.viewers.find? j
    = if j = id then some (newcomer id key codec r.connections.opened sid) else r.viewers.find? j
  only : q = { r with
    registry := q.registry
    viewers := q.viewers
    connections := r.connections.openNext.2 }

/-- A new viewer gets its place in a live stream. -/
theorem attachViewer_of_live {key : String} {sid : StreamId} {s : Stream}
    (hf : r.registry.find? key = some sid) (hs : r.registry.stream? sid = some s)
    (hl : s.isLive = true) (id : ViewerId) (codec : Codec) :
    ∃ q, (({ r with connections := r.connections.openNext.2 } : Relay).addViewer id key codec
        r.connections.opened).attachViewer sid id = (true, q) ∧ Seated r q key id sid s codec := by
  have hattach : s.attach id = (true, (s.attach id).2) := by rw [Stream.attach, if_pos hl]
  have hact : r.registry.act sid (·.attach id)
      = (some true, r.registry.put sid (s.attach id).2) := by
    rw [Registry.act_of_some hs, hattach]
  refine ⟨_, by simp only [attachViewer, onRegistry, addViewer, hact]; rfl,
    hf, hs, hl, rfl, fun j => ?_, rfl⟩
  rw [viewers_updateViewer, Table.find?_modify]
  simp only [Table.find?_insert]
  split
  · rfl
  · rfl

/-- **All that the making of a viewer can do**: it is refused at once and changes nothing, or
the viewer gets its place, and then it loses it again or becomes active. -/
theorem createSession_cases (r : Relay) (offer key : String) (id : ViewerId) :
    (∃ e, r.createSession offer key id = (.error e, r)) ∨
    ∃ q sid s codec, Seated r q key id sid s codec ∧
      ((∃ e, r.createSession offer key id = (.error e, q.dropViewer sid id)) ∨
        ∃ answer, r.createSession offer key id
          = (.ok answer, q.updateViewer id Viewer.activate)) := by
  unfold Relay.createSession
  cases hlive : r.registry.live? key with
  | error e => exact .inl ⟨e, rfl⟩
  | ok sid =>
    obtain ⟨hf, s, hs, hl⟩ := Registry.live?_eq_ok hlive
    obtain ⟨e, he⟩ | he := r.openConnection_cases
    · simp only [he]
      exact .inl ⟨e, rfl⟩
    · simp only [he]
      generalize ((r.registry.stream? sid).map Stream.viewerCodec).getD .h264 = codec
      obtain ⟨q, hq, seat⟩ := attachViewer_of_live hf hs hl id codec
      refine .inr ⟨q, sid, s, codec, seat, ?_⟩
      simp only [hq]
      cases q.negotiateSession r.connections.opened offer codec with
      | ok answer => exact .inr ⟨answer, rfl⟩
      | error e => exact .inl ⟨e, rfl⟩

section

variable {q : Relay} {key : String} {id : ViewerId} {sid : StreamId} {s : Stream} {codec : Codec}

theorem Seated.namesViewers (seat : Seated r q key id sid s codec) (hn : r.NamesViewers) :
    q.NamesViewers := by
  intro j v hv
  rw [seat.viewers] at hv
  split at hv
  · rename_i hj
    rw [← Option.some.inj hv, hj]
    rfl
  · exact hn j v hv

/-- A viewer that loses its place again leaves the streams as they were. -/
theorem Seated.registry_dropViewer (seat : Seated r q key id sid s codec) (hn : r.NamesViewers)
    (hid : r.registry.Unwatched id) : (q.dropViewer sid id).registry = r.registry :=
  Relay.registry_dropViewer seat.stream? seat.live hid seat.registry (seat.namesViewers hn)

/-- What is left of a viewer that loses its place again is a closed one. -/
theorem Seated.viewers_dropViewer (seat : Seated r q key id sid s codec) (j : ViewerId) :
    (q.dropViewer sid id).viewers.find? j
      = if j = id then some (newcomer id key codec r.connections.opened sid).closed
        else r.viewers.find? j := by
  rw [dropViewer, find?_viewers_closeViewer, viewers_updateStream, seat.viewers]
  split
  · rfl
  · rfl

end

theorem Settled.createSession (h : Settled ids r.registry r.viewers) (offer key : String)
    {id : ViewerId} (hid : id ∉ ids) :
    Settled (id :: ids) (r.createSession offer key id).2.registry
      (r.createSession offer key id).2.viewers := by
  have hnew := h.unwatched_of_fresh hid
  obtain ⟨e, he⟩ | ⟨q, sid, s, codec, seat, ⟨e, he⟩ | ⟨answer, he⟩⟩ :=
    r.createSession_cases offer key id <;> rw [he]
  · exact h.cons id
  · rw [seat.registry_dropViewer (fun id v hv => (h.named id v hv).2) hnew]
    exact h.decline (v := (newcomer id key codec r.connections.opened sid).closed) hid
      seat.viewers_dropViewer rfl
  · obtain ⟨t, ht, hkey⟩ := h.indexed key sid seat.find?
    obtain rfl := Option.some.inj (seat.stream?.symm.trans ht)
    refine h.join (v := (newcomer id key codec r.connections.opened sid).activate) seat.stream?
      (hkey ▸ seat.find?) hid (fun k => ?_) (fun j => ?_) (fun j => ?_) rfl hkey.symm rfl
    · rw [registry_updateViewer, seat.registry, Registry.find?_put]
    · rw [registry_updateViewer, seat.registry, Registry.stream?_put_of_some seat.stream?,
        Stream.attach, if_pos seat.live, if_neg (hnew sid s seat.stream?)]
      rfl
    · rw [viewers_updateViewer, Table.find?_modify, seat.viewers]
      show _ = if j = id then _ else _
      split
      · rfl
      · rfl

/-! ### Steps and histories -/

/-- **Every operation keeps the relay settled.** -/
theorem Settled.perform (h : Settled ids r.registry r.viewers) (op : Operation)
    (hnew : ∀ id ∈ newViewer? op, id ∉ ids) :
    Settled ((newViewer? op).toList ++ ids) (r.perform op).registry (r.perform op).viewers := by
  cases op with
  | ingest offer key remote => exact h.ingest offer key remote
  | createSession offer key id => exact h.createSession offer key (hnew id rfl)
  | setLayer id layer => exact h.setLayer id layer
  | listLayers id => exact h
  | disconnect key =>
    simp only [Relay.perform, Relay.disconnect]
    split
    · exact h.teardown _
    · exact h
  | shutdown => exact h.shutdown
  | validate key => exact h
  | setKeys keys => exact h
  | clearLastMatched key => exact h
  | observeTrack sid kind codec => exact h.updateStream sid fun s => ⟨rfl, rfl, rfl, rfl⟩
  | openFeed sid rid ssrc mimeType canSend =>
    exact h.updateStream sid fun s => ⟨rfl, rfl, rfl, rfl⟩
  | feedPacket loop p => exact h.feedPacket loop p
  | closeFeed loop => exact h.closeFeed loop
  | serveKeyframes => exact h.serveKeyframes
  | scriptSink id answer => exact h.updateViewer id fun v => ⟨rfl, rfl, rfl, rfl⟩
  | tick elapsed => exact h

/-- **Every history keeps the relay settled**, if it hands in each name once. -/
theorem Settled.after (h : Settled ids r.registry r.viewers) {ops : List Operation}
    (hnodup : (newViewers ops).Nodup) (hnew : ∀ id ∈ newViewers ops, id ∉ ids) :
    ∃ named, Settled named (r.after ops).registry (r.after ops).viewers := by
  induction ops generalizing r ids with
  | nil => exact ⟨ids, h⟩
  | cons op rest ih =>
    rw [newViewers_cons] at hnodup hnew
    obtain ⟨hop, hrest, hnext⟩ := new_of_append hnodup hnew
    rw [after_cons]
    exact ih (h.perform op fun id hid => hop id (Option.mem_toList.mpr hid)) hrest hnext

/-- Streams and viewers in order, as the outside can see it. -/
structure Orderly (r : Relay) : Prop where
  /-- A registered stream has its key, is on air and has its broadcaster's connection. -/
  registered : ∀ k sid, r.registry.find? k = some sid → ∃ s, r.registry.stream? sid = some s ∧
    s.key = k ∧ s.phase = .connected ∧ s.connection.isSome = true
  /-- A viewer of a registered stream is listed once and under its own name, is active, and
  watches no other stream, so that looking for it finds this one. -/
  attached : ∀ k sid s, r.registry.find? k = some sid → r.registry.stream? sid = some s →
    s.viewers.Nodup ∧ ∀ id ∈ s.viewers,
      (∃ v, r.viewers.find? id = some v ∧ v.id = id ∧ v.phase = .active ∧ v.streamKey = s.key) ∧
      (∀ j t, r.registry.stream? j = some t → id ∈ t.viewers → j = sid) ∧
      r.registry.findViewer? id = some sid
  /-- Every other viewer ever made is closed. -/
  closed : ∀ id v, r.viewers.find? id = some v →
    (∀ k sid s, r.registry.find? k = some sid → r.registry.stream? sid = some s →
      id ∉ s.viewers) → v.phase = .closed
  /-- Every other stream object ever made is off the air, empty and without connection. -/
  retired : ∀ sid s, r.registry.stream? sid = some s → (∀ k, r.registry.find? k ≠ some sid) →
    s.phase = .disconnected ∧ s.viewers = [] ∧ s.connection = none
  /-- The keys of the registered streams are listed in strict order. -/
  activeKeys : r.activeKeys.Pairwise (· < ·) ∧
    ∀ k, k ∈ r.activeKeys ↔ (r.registry.find? k).isSome = true

theorem Settled.orderly (h : Settled ids r.registry r.viewers) : Orderly r where
  registered := by
    intro k sid hk
    obtain ⟨s, hs, hkey⟩ := h.indexed k sid hk
    exact ⟨s, hs, hkey, h.onAir k sid s hk hs⟩
  attached := by
    intro k sid s hk hs
    refine ⟨h.nodup sid s hs, fun id hid => ?_⟩
    have hone : ∀ j t, r.registry.stream? j = some t → id ∈ t.viewers → j = sid :=
      fun j t ht hjd => (h.eq_of_mem hs ht hid hjd).symm
    obtain ⟨v, hv, hphase, hkey, -⟩ := h.attached sid s id hs hid
    exact ⟨⟨v, hv, (h.named id v hv).2, hphase, hkey⟩, hone,
      Registry.findViewer?_of_unique hk hs hid hone⟩
  closed := by
    intro id v hv hnone
    refine (h.seated id v hv).resolve_right ?_
    rintro ⟨sid, s, -, hs, hid⟩
    -- a stream with a viewer is on air, and so it is registered
    refine hnone s.key sid s (Decidable.byContradiction fun hk => ?_) hs hid
    rw [(h.offAir sid s hs hk).2.1] at hid
    exact absurd hid List.not_mem_nil
  retired := fun sid s hs hk => h.offAir sid s hs (hk s.key)
  activeKeys := by
    refine ⟨r.registry.pairwise_activeKeys, fun k => (r.registry.mem_activeKeys_iff k).trans ?_⟩
    constructor
    · rintro ⟨sid, s, hk, -⟩
      rw [hk]
      rfl
    · intro hk
      obtain ⟨sid, hk⟩ := Option.isSome_iff_exists.mp hk
      obtain ⟨s, hs, -⟩ := h.indexed k sid hk
      exact ⟨sid, s, hk, hs, by rw [Stream.isLive, (h.onAir k sid s hk hs).1]; rfl⟩

/-- **Every history leaves the relay in order**, whatever is asked of it and whatever fails
on the way, if each new viewer gets a name of its own. -/
theorem orderly_after (settings : Settings) (negotiate : Attempt → Except RelayError Agreement)
    (ops : List Operation) (h : (newViewers ops).Nodup) :
    Orderly ((start settings negotiate).after ops) := by
  obtain ⟨named, hsettled⟩ :=
    Settled.after (r := start settings negotiate) (settled_empty settings.queueCapacity) h
      fun id _ => List.not_mem_nil
  exact hsettled.orderly

/-- A broadcast and two viewers, all with the same session description. -/
def twoViewers : List Operation :=
  [.ingest "offer" "k" none, .createSession "offer" "k" "v", .createSession "offer" "k" "w"]

/-- The third attempt of `twoViewers` comes to nothing.  Afterwards the first viewer can be found
and the second is closed. -/
theorem orderly_after_twoViewers :
    let r := (start { streamKeys := ["k"] } fun attempt =>
      if attempt.connection = 2 then .error .negotiationTimeout
      else .ok { answer := "answer" }).after twoViewers
    (newViewers twoViewers).Nodup ∧ Orderly r ∧ r.registry.findViewer? "v" = some 0 ∧
      (r.viewers.find? "w").map Viewer.phase = some .closed :=
  ⟨by decide, orderly_after _ _ twoViewers (by decide), by decide, by decide⟩

end Relay

end Simulcast
