import Simulcast.Proofs.Relay.Continuance
import Simulcast.Proofs.Relay.Demand
/-!
# The choice of a layer

A choice of a layer finds its viewer through the streams that are registered, and does two
things: the viewer has the layer in force, and the stream has one request for a keyframe more
(`Relay.Chosen`).  That a full queue stays full takes a relay that is within its bounds.

A layer that was chosen stays in force.  Of all operations only a choice for the viewer and a
packet that is read matter to what the viewer is handed (`Relay.Settled.spares_perform`), and a
packet is for the viewer only if its layer is in force
(`Relay.Settled.find?_viewers_feedPacket`).
-/

namespace Simulcast

/-! ### One viewer -/

namespace Viewer

/-- Two states of a viewer with the same layer, to which the same was handed. -/
structure SameOutput (v w : Viewer) : Prop where
  layer : w.layer = v.layer
  handed : w.sink.handed = v.sink.handed

theorem SameOutput.refl (v : Viewer) : v.SameOutput v := ⟨rfl, rfl⟩

theorem SameOutput.trans {u v w : Viewer} (h : u.SameOutput v) (g : v.SameOutput w) :
    u.SameOutput w := ⟨g.layer.trans h.layer, g.handed.trans h.handed⟩

theorem sameOutput_closed (v : Viewer) : v.SameOutput v.closed := ⟨rfl, rfl⟩

/-- A packet of another layer than the one in force is not for the viewer. -/
theorem sameOutput_told {v : Viewer} {layer : String} (h : v.layer = some layer) {o : Offer}
    (ho : o.layer ≠ layer) : v.SameOutput (v.told (.send o)) := by
  have hother : v.accepts o.layer = false := by
    rw [accepts, h]
    exact decide_eq_false (Ne.symm ho)
  rw [told, send_of_not_accepts hother]
  exact ⟨rfl, rfl⟩

/-- A packet of the layer in force is handed over on the viewer's timeline. -/
theorem handed_told {v : Viewer} {o : Offer} (h : v.layer = some o.layer) :
    (v.told (.send o)).layer = some o.layer ∧
      (v.told (.send o)).sink.handed
        = v.sink.handed ++ [outbound (v.timeline.advance o.delta) o.packet o.av1] := by
  have hown : v.accepts o.layer = true := by
    rw [accepts, h]
    exact decide_eq_true rfl
  rw [told, send_of_accepts hown]
  exact ⟨rfl, Sink.handed_write ..⟩

end Viewer

namespace Relay

variable {ids : List ViewerId} {r q : Relay} {id : ViewerId} {sid : StreamId} {layer : String}

/-! ### The choice itself -/

/-- A viewer is attached to a registered stream. -/
def Watches (r : Relay) (id : ViewerId) (sid : StreamId) : Prop :=
  ∃ key s, r.registry.find? key = some sid ∧ r.registry.stream? sid = some s ∧ id ∈ s.viewers

theorem Settled.findViewer?_iff (h : Settled ids r.registry r.viewers) :
    r.registry.findViewer? id = some sid ↔ r.Watches id sid := by
  constructor
  · intro hf
    obtain ⟨s, v, hs, hid, hkey, -⟩ := h.findViewer?_spec hf
    exact ⟨s.key, s, hkey, hs, hid⟩
  · rintro ⟨key, s, hkey, hs, hid⟩
    exact h.findViewer?_of_attached hkey hs hid

/-- All that the choice of a layer does. -/
structure Chosen (r q : Relay) (id : ViewerId) (sid : StreamId) (layer : String) : Prop where
  /-- The viewer has the layer in force, and one switch more is counted. -/
  viewer : ∃ v, r.viewers.find? id = some v ∧ q.viewers.find? id = some { v with
    layer := some layer
    counters := { v.counters with layerSwitches := v.counters.layerSwitches + 1 } }
  viewers : ∀ j, j ≠ id → q.viewers.find? j = r.viewers.find? j
  /-- Its stream has one request more, up to the bound. -/
  stream : ∃ s, r.registry.stream? sid = some s ∧ q.registry.stream? sid = some { s with
    keyframes := { s.keyframes with
      pending := min s.keyframes.capacity (s.keyframes.pending + 1) } }
  streams : ∀ j, j ≠ sid → q.registry.stream? j = r.registry.stream? j
  /-- Nothing else is touched. -/
  only : q = { r with
    viewers := q.viewers
    registry := { r.registry with streams := q.registry.streams } }

/-- **A choice that finds its viewer** has exactly its effect. -/
theorem Settled.chosen (h : Settled ids r.registry r.viewers) (hr : r.Within)
    (hw : r.Watches id sid) (layer : String) :
    (r.setLayer id layer).1 = .ok () ∧ Chosen r (r.setLayer id layer).2 id sid layer := by
  have hf := h.findViewer?_iff.mpr hw
  obtain ⟨s, v, hs, -, -, hv, -⟩ := h.findViewer?_spec hf
  have hasked : s.requestKeyframe.2 = { s with keyframes := { s.keyframes with
      pending := min s.keyframes.capacity (s.keyframes.pending + 1) } } :=
    congrArg (fun keyframes => { s with keyframes }) (hr sid s hs).request
  have hset : (r.setLayer id layer).2
      = (r.updateViewer id fun v => v.selectLayer layer).updateStream sid
          fun s => s.requestKeyframe.2 := by
    rw [Relay.setLayer, hf]
  refine ⟨fst_setLayer_of_some hf layer, ?_⟩
  rw [hset]
  constructor
  · refine ⟨v, hv, ?_⟩
    rw [viewers_updateStream, viewers_updateViewer, Table.find?_modify, if_pos rfl, hv]
    rfl
  · intro j hj
    rw [viewers_updateStream, viewers_updateViewer, Table.find?_modify, if_neg hj]
  · refine ⟨s, hs, ?_⟩
    rw [registry_updateStream, Registry.stream?_update, if_pos rfl, ← hasked]
    exact congrArg (Option.map _) hs
  · intro j hj
    rw [registry_updateStream, Registry.stream?_update, if_neg hj]
    rfl
  · have hupdate : r.registry.update sid (fun s => s.requestKeyframe.2)
        = r.registry.put sid s.requestKeyframe.2 := by
      rw [Registry.update, Registry.act_of_some hs]
    rw [registry_updateStream, registry_updateViewer, hupdate, Relay.updateStream,
      registry_updateViewer, hupdate]
    rfl

/-- A choice that finds no viewer does nothing. -/
theorem Settled.setLayer_of_not_watches (h : Settled ids r.registry r.viewers)
    (hw : ∀ sid, ¬ r.Watches id sid) (layer : String) :
    r.setLayer id layer = (.error (.sessionNotFound id), r) := by
  refine setLayer_of_none (Option.eq_none_iff_forall_ne_some.mpr fun sid hf => ?_) layer
  exact hw sid (h.findViewer?_iff.mp hf)

/-! ### What operations do to a viewer -/

/-- A viewer keeps its layer, and nothing is handed to it. -/
def Spares (r q : Relay) (id : ViewerId) : Prop :=
  ∀ v, r.viewers.find? id = some v → ∃ w, q.viewers.find? id = some w ∧ v.SameOutput w

theorem spares_of_same (h : q.viewers.find? id = r.viewers.find? id) : r.Spares q id :=
  fun v hv => ⟨v, h.trans hv, .refl v⟩

theorem Spares.trans {p : Relay} (h : r.Spares q id) (g : q.Spares p id) : r.Spares p id := by
  intro v hv
  obtain ⟨w, hw, hsame⟩ := h v hv
  obtain ⟨u, hu, hsame'⟩ := g w hw
  exact ⟨u, hu, hsame.trans hsame'⟩

theorem spares_teardown (r : Relay) (sid : StreamId) : r.Spares (r.teardown sid) id := by
  cases hs : r.registry.stream? sid with
  | none =>
    rw [teardown_of_none hs]
    exact spares_of_same rfl
  | some s =>
    cases hp : s.hasPublisher with
    | false =>
      rw [teardown_of_free hs hp]
      exact spares_of_same rfl
    | true =>
      intro v hv
      rw [viewers_teardown hs hp, hv]
      split
      · exact ⟨v.closed, rfl, v.sameOutput_closed⟩
      · exact ⟨v, rfl, .refl v⟩

theorem spares_shutdown (r : Relay) : r.Spares r.shutdown id := by
  unfold shutdown
  generalize r.registry.registered = sids
  induction sids generalizing r with
  | nil => exact spares_of_same rfl
  | cons sid rest ih => exact (r.spares_teardown sid).trans (ih _)

theorem spares_disconnect (r : Relay) (key : String) : r.Spares (r.disconnect key) id := by
  unfold disconnect
  split
  · exact r.spares_teardown _
  · exact spares_of_same rfl

theorem spares_createSession (r : Relay) (offer key : String) {j : ViewerId} (hne : id ≠ j) :
    r.Spares (r.createSession offer key j).2 id := by
  refine spares_of_same ?_
  obtain ⟨e, he⟩ | ⟨q, sid, s, codec, seat, ⟨e, he⟩ | ⟨answer, he⟩⟩ :=
    r.createSession_cases offer key j
  · rw [he]
  · rw [he]
    exact (seat.viewers_dropViewer id).trans (if_neg hne)
  · rw [he, viewers_updateViewer, Table.find?_modify, if_neg hne, seat.viewers, if_neg hne]

theorem spares_setLayer (r : Relay) {j : ViewerId} (hne : id ≠ j) (layer : String) :
    r.Spares (r.setLayer j layer).2 id := by
  refine spares_of_same ?_
  unfold setLayer
  split
  · rfl
  · rw [viewers_updateStream, viewers_updateViewer, Table.find?_modify, if_neg hne]

theorem spares_scriptSink (r : Relay) (j : ViewerId) (answer : Nat → Option TransportFault) :
    r.Spares (r.perform (.scriptSink j answer)) id := by
  intro v hv
  rw [Relay.perform, viewers_updateViewer, Table.find?_modify]
  split
  · exact ⟨_, congrArg (Option.map _) hv, rfl, rfl⟩
  · exact ⟨v, hv, .refl v⟩

/-- **Every operation spares the viewers** that it neither makes nor chooses a layer for, unless
a packet is read. -/
theorem Settled.spares_perform (h : Settled ids r.registry r.viewers) {op : Operation}
    (hnew : ∀ j ∈ newViewer? op, id ≠ j) (hchoice : ∀ l, op ≠ .setLayer id l)
    (hread : ∀ loop p, op ≠ .feedPacket loop p) : r.Spares (r.perform op) id := by
  cases op with
  | ingest offer key remote =>
    refine spares_of_same ?_
    show (r.ingest offer key remote).2.viewers.find? id = _
    rw [h.viewers_ingest]
  | createSession offer key j => exact r.spares_createSession offer key (hnew j rfl)
  | setLayer j l =>
    have hne : id ≠ j := by
      rintro rfl
      exact hchoice l rfl
    exact r.spares_setLayer hne l
  | disconnect key => exact r.spares_disconnect key
  | shutdown => exact r.spares_shutdown
  | feedPacket loop p => exact absurd rfl (hread loop p)
  | closeFeed loop =>
    simp only [Relay.perform, Relay.closeFeed]
    split <;> exact spares_of_same rfl
  | scriptSink j answer => exact r.spares_scriptSink j answer
  | listLayers j | validate key | setKeys keys | clearLastMatched key
  | observeTrack sid kind codec | openFeed sid rid ssrc mimeType canSend | serveKeyframes
  | tick elapsed => exact spares_of_same rfl

/-- **A viewer with a layer in force keeps it when a packet is read**, and is handed the packet
only if the feed is of that layer. -/
theorem Settled.find?_viewers_feedPacket (h : Settled ids r.registry r.viewers) (loop : LoopId)
    (p : Packet) {v : Viewer} (hv : r.viewers.find? id = some v) (hlayer : v.layer = some layer) :
    ∃ w, (r.feedPacket loop p).2.viewers.find? id = some w ∧ w.layer = some layer ∧
      (w.sink.handed = v.sink.handed ∨ ∃ f, r.feeds.find? loop = some f ∧ f.layer = layer ∧
        w.sink.handed = v.sink.handed
          ++ [Viewer.outbound (v.timeline.advance (f.delta p.timestamp)) p f.av1]) := by
  cases hf : r.feeds.find? loop with
  | none =>
    rw [Relay.feedPacket, hf]
    exact ⟨v, hv, hlayer, .inl rfl⟩
  | some f =>
    have hafter : (r.feedPacket loop p).2.viewers
        = offerAll f p r.viewers (r.registry.table f.stream) := by
      rw [Relay.feedPacket, hf]
      rfl
    rw [hafter, find?_offerAll_of_nodup f p (h.nodup_table f.stream), hv]
    split
    · refine ⟨_, rfl, ?_⟩
      by_cases hown : f.layer = layer
      · have hforce : v.layer = some (f.offer p).layer := by
          rw [hlayer, ← hown]
          rfl
        obtain ⟨hstays, hhanded⟩ := Viewer.handed_told hforce
        exact ⟨hstays.trans (congrArg some hown), .inr ⟨f, rfl, hown, hhanded⟩⟩
      · have hsame : v.SameOutput (v.told (.send (f.offer p))) :=
          Viewer.sameOutput_told hlayer hown
        exact ⟨hsame.layer.trans hlayer, .inl hsame.handed⟩
    · exact ⟨v, rfl, hlayer, .inl rfl⟩

end Relay

end Simulcast
