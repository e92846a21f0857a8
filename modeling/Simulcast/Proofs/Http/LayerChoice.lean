import Simulcast.Proofs.Http.SessionLinks
import Simulcast.Proofs.Relay.LayerChoice
/-!
# A chosen layer stays chosen

The choice of a layer has its effect and no other (`Relay.Chosen`), in every relay that some
events led to: those events keep it settled and its queues within their bounds
(`Http.within_through`).

From then on and up to the next choice for the same viewer the layer stays in force, whatever
happens (`Http.layer_through`).  So an event hands the viewer nothing, or it is a feed of that
layer that reads a packet (`Http.Event.Hands`).
-/

namespace Simulcast

namespace Http

open Relay

variable {ids : List ViewerId} {r : Relay} {id : ViewerId} {layer : String}

/-! ### Bounds -/

theorem within_occur (h : Settled ids r.registry r.viewers) (hr : r.Within) {event : Event}
    (hnew : ∀ j ∈ event.names, j ∉ ids) : (event.occur r).Within := by
  cases event with
  | operation op => exact h.within_perform hr fun j hj => hnew j (Option.mem_toList.mpr hj)
  | request req name =>
    show (handle r req name).2.Within
    rcases handle_cases r req name with he | ⟨op, hasks, he⟩ | ⟨k, -, -, he⟩
    · rw [he]
      exact hr
    · rw [he]
      refine h.within_perform hr fun j hj => ?_
      rw [hasks.newViewer? j hj]
      exact hnew name List.mem_cons_self
    · obtain ⟨hregistry, -⟩ := sameStreams_validate r k
      have hnone : ∀ j ∈ newViewer? (.disconnect k), j ∉ ids :=
        fun j hj => absurd hj (by simp [newViewer?])
      rw [he]
      exact (settled_validate h k).within_perform (hr.of_same hregistry) hnone

/-- **Whatever happens, no queue has more requests than it may.** -/
theorem within_through (h : Settled ids r.registry r.viewers) (hr : r.Within)
    {events : List Event} (hnodup : (events.flatMap Event.names).Nodup)
    (hnew : ∀ j ∈ events.flatMap Event.names, j ∉ ids) : (through r events).Within := by
  induction events generalizing r ids with
  | nil => exact hr
  | cons event rest ih =>
    rw [List.flatMap_cons] at hnodup hnew
    obtain ⟨hfirst, hrest, hnext⟩ := new_of_append hnodup hnew
    exact ih (settled_occur h event hfirst) (within_occur h hr hfirst) hrest hnext

/-! ### What an event hands over -/

/-- An event chooses a layer for a session. -/
def Event.Chooses (id : ViewerId) : Event → Prop
  | .operation op => ∃ layer, op = .setLayer id layer
  | .request req _ => ∃ layer, req.Chooses id layer

/-- What an event does to a viewer with a layer in force: the layer stays in force, and either
nothing is handed to the viewer, or one packet that a feed of the layer reads. -/
def Event.Hands (r : Relay) (event : Event) (layer : String) (v w : Viewer) : Prop :=
  w.layer = some layer ∧ (w.sink.handed = v.sink.handed ∨
    ∃ loop p f, event = .operation (.feedPacket loop p) ∧ r.feeds.find? loop = some f ∧
      f.layer = layer ∧ w.sink.handed = v.sink.handed
        ++ [Viewer.outbound (v.timeline.advance (f.delta p.timestamp)) p f.av1])

theorem hands_of_spares {q : Relay} (h : r.Spares q id) {v : Viewer}
    (hv : r.viewers.find? id = some v) (hlayer : v.layer = some layer) (event : Event) :
    ∃ w, q.viewers.find? id = some w ∧ event.Hands r layer v w := by
  obtain ⟨w, hw, hsame⟩ := h v hv
  exact ⟨w, hw, hsame.layer.trans hlayer, .inl hsame.handed⟩

/-- **An event hands a viewer packets of the layer in force only**, if it does not choose another
one. -/
theorem hands_occur (h : Settled ids r.registry r.viewers) {event : Event}
    (hid : id ∉ event.names) (hevent : ¬ event.Chooses id) {v : Viewer}
    (hv : r.viewers.find? id = some v) (hlayer : v.layer = some layer) :
    ∃ w, (event.occur r).viewers.find? id = some w ∧ event.Hands r layer v w := by
  have hother : ∀ {j}, j ∈ event.names → id ≠ j := fun hj he => hid (he ▸ hj)
  cases event with
  | operation op =>
    by_cases hread : ∃ loop p, op = .feedPacket loop p
    · obtain ⟨loop, p, rfl⟩ := hread
      obtain ⟨w, hw, hstays, hhands⟩ := h.find?_viewers_feedPacket loop p hv hlayer
      refine ⟨w, hw, hstays, hhands.imp_right ?_⟩
      rintro ⟨f, hf, hown, hhanded⟩
      exact ⟨loop, p, f, rfl, hf, hown, hhanded⟩
    · have hspares := h.spares_perform (fun j hj => hother (Option.mem_toList.mpr hj))
        (fun l he => hevent ⟨l, he⟩) fun loop p he => hread ⟨loop, p, he⟩
      exact hands_of_spares hspares hv hlayer _
  | request req name =>
    have hspares : r.Spares (handle r req name).2 id := by
      rcases handle_cases r req name with he | ⟨op, hasks, he⟩ | ⟨k, -, -, he⟩
      · exact spares_of_same (by rw [he])
      · rw [he]
        refine h.spares_perform (fun j hj => ?_) (fun l hl => ?_) fun loop p hl => ?_
        · rw [hasks.newViewer? j hj]
          exact hother List.mem_cons_self
        · subst hl
          cases hasks with
          | setLayer hchooses => exact hevent ⟨l, hchooses⟩
        · subst hl
          cases hasks
      · obtain ⟨-, hviewers⟩ := sameStreams_validate r k
        have hvalidated : r.Spares (r.validate k).2 id := spares_of_same (by rw [hviewers])
        rw [he]
        exact hvalidated.trans (spares_disconnect _ k)
    exact hands_of_spares hspares hv hlayer _

/-- **A layer stays in force** as long as no other one is chosen. -/
theorem layer_through (h : Settled ids r.registry r.viewers) {events : List Event}
    (hnodup : (events.flatMap Event.names).Nodup)
    (hnew : ∀ j ∈ events.flatMap Event.names, j ∉ ids) (hid : id ∉ events.flatMap Event.names)
    (hevents : ∀ event ∈ events, ¬ event.Chooses id) {v : Viewer}
    (hv : r.viewers.find? id = some v) (hlayer : v.layer = some layer) :
    ∃ w, (through r events).viewers.find? id = some w ∧ w.layer = some layer := by
  induction events generalizing r ids v with
  | nil => exact ⟨v, hv, hlayer⟩
  | cons event rest ih =>
    rw [List.flatMap_cons] at hnodup hnew hid
    obtain ⟨hfirst, hrest, hnext⟩ := new_of_append hnodup hnew
    rw [List.mem_append, not_or] at hid
    obtain ⟨w, hw, hstays, -⟩ := hands_occur h hid.1 (hevents event List.mem_cons_self) hv hlayer
    exact ih (settled_occur h event hfirst) hrest hnext hid.2
      (fun e he => hevents e (List.mem_cons_of_mem _ he)) hw hstays

/-! ### The choice in a relay in use -/

/-- **Up to the next choice** the layer is in force before every event, and each event hands the
viewer nothing, or one packet that a feed of the layer reads. -/
def Keeps (r : Relay) (id : ViewerId) (layer : String) (later : List Event) : Prop :=
  ∀ before event after, later = before ++ event :: after →
    ∃ v w, (through r before).viewers.find? id = some v ∧ v.layer = some layer ∧
      (through r (before ++ [event])).viewers.find? id = some w ∧
      event.Hands (through r before) layer v w

theorem keeps_of_chosen (h : Settled ids r.registry r.viewers) {later : List Event}
    (hnodup : (later.flatMap Event.names).Nodup)
    (hnew : ∀ j ∈ later.flatMap Event.names, j ∉ ids)
    (hlater : ∀ event ∈ later, ¬ event.Chooses id) {v : Viewer}
    (hv : r.viewers.find? id = some v) (hlayer : v.layer = some layer) :
    Keeps r id layer later := by
  rintro before event after rfl
  have hknown : id ∈ ids := (h.named id v hv).1
  have hnames : (before ++ event :: after).flatMap Event.names
      = before.flatMap Event.names ++ (event.names ++ after.flatMap Event.names) := by
    rw [List.flatMap_append, List.flatMap_cons]
  rw [hnames] at hnodup hnew
  obtain ⟨hbefore, -, -⟩ := List.nodup_append.mp hnodup
  have hnewBefore : ∀ j ∈ before.flatMap Event.names, j ∉ ids := fun j hj =>
    hnew j (List.mem_append_left _ hj)
  have hidBefore : id ∉ before.flatMap Event.names := fun hm => hnewBefore id hm hknown
  have hidEvent : id ∉ event.names := fun hm =>
    hnew id (List.mem_append_right _ (List.mem_append_left _ hm)) hknown
  obtain ⟨named, -, hsettled⟩ := settled_through h hbefore hnewBefore
  obtain ⟨u, hu, hstill⟩ := layer_through h hbefore hnewBefore hidBefore
    (fun e he => hlater e (List.mem_append_left _ he)) hv hlayer
  obtain ⟨w, hw, hhands⟩ := hands_occur hsettled hidEvent
    (hlater event (List.mem_append_right _ List.mem_cons_self)) hu hstill
  rw [through_concat]
  exact ⟨u, w, hu, hstill, hw, hhands⟩

/-- **The choice of a layer has exactly its effect.**  Whatever happened to the relay before: if
the viewer is attached to a registered stream, the choice succeeds, all that changes is the
viewer's layer with its count and the stream's requests for keyframes, and from then on the
viewer is handed packets of that layer only, up to the next choice.  If it is attached nowhere,
the choice fails and changes nothing. -/
theorem setLayer_exactly (settings : Settings)
    (negotiate : Attempt → Except RelayError Agreement) (events : List Event)
    (hnames : (events.flatMap Event.names).Nodup) (id : ViewerId) (layer : String) :
    let r := through (start settings negotiate) events
    (∀ sid, r.Watches id sid →
      (r.setLayer id layer).1 = .ok () ∧ Chosen r (r.setLayer id layer).2 id sid layer ∧
      ∀ later, ((events ++ later).flatMap Event.names).Nodup →
        (∀ event ∈ later, ¬ event.Chooses id) → Keeps (r.setLayer id layer).2 id layer later) ∧
    ((∀ sid, ¬ r.Watches id sid) → r.setLayer id layer = (.error (.sessionNotFound id), r)) := by
  intro r
  have hempty : Settled [] (start settings negotiate).registry (start settings negotiate).viewers :=
    settled_empty settings.queueCapacity
  have hfresh : ∀ j ∈ events.flatMap Event.names, j ∉ ([] : List ViewerId) :=
    fun _ _ => List.not_mem_nil
  obtain ⟨named, hknown, hsettled⟩ := settled_through hempty hnames hfresh
  have hwithin : r.Within := within_through hempty (within_start settings negotiate) hnames hfresh
  refine ⟨fun sid hw => ?_, fun hw => hsettled.setLayer_of_not_watches hw layer⟩
  obtain ⟨hok, hchosen⟩ := hsettled.chosen hwithin hw layer
  refine ⟨hok, hchosen, fun later hlater hothers => ?_⟩
  rw [List.flatMap_append] at hlater
  obtain ⟨-, hnodup, hapart⟩ := List.nodup_append.mp hlater
  obtain ⟨v, -, hv⟩ := hchosen.viewer
  refine keeps_of_chosen (hsettled.setLayer id layer) hnodup (fun j hj hm => ?_) hothers hv rfl
  rcases hknown j hm with hm | hm
  · exact List.not_mem_nil hm
  · exact hapart j hm j hj rfl

/-- After `joined`, two feeds are opened, and the viewer is handed a packet of the first one. -/
def twoLayers : List Event := joined ++ [
  .operation (.openFeed 0 "q" 1 "video/h264" fun _ => true),
  .operation (.openFeed 0 "h" 2 "video/h264" fun _ => true),
  .operation (.feedPacket 0 { payload := [0] })]

/-- The choice of the second feed's layer after `twoLayers`, and a packet of each feed then: the
viewer is handed the second one. -/
theorem setLayer_exactly_twoLayers :
    let r := through (start { streamKeys := ["k"] } fun attempt =>
      .ok { answer := "answer", videoTypes := some ["video/" ++ attempt.offer] }) twoLayers
    let later : List Event := [.operation (.feedPacket 0 { payload := [1] }),
      .operation (.feedPacket 1 { payload := [2] })]
    (twoLayers.flatMap Event.names).Nodup ∧ r.Watches "v" 0 ∧
      (r.setLayer "v" "h").1 = .ok () ∧ Chosen r (r.setLayer "v" "h").2 "v" 0 "h" ∧
      Keeps (r.setLayer "v" "h").2 "v" "h" later ∧
      ((through (r.setLayer "v" "h").2 later).viewers.find? "v").map
        (fun v => v.sink.handed.map Packet.payload) = some [[0], [2]] := by
  intro r later
  have hnodup : (twoLayers.flatMap Event.names).Nodup := by decide
  have hwatched : (r.registry.stream? 0).map Stream.viewers = some ["v"] := by decide
  obtain ⟨s, hs, hviewers⟩ := Option.map_eq_some_iff.mp hwatched
  have hw : r.Watches "v" 0 :=
    ⟨"k", s, by decide, hs, by rw [hviewers]; exact List.mem_cons_self⟩
  obtain ⟨hok, hchosen, hkeeps⟩ := (setLayer_exactly _ _ twoLayers hnodup "v" "h").1 0 hw
  refine ⟨hnodup, hw, hok, hchosen, hkeeps later (by decide) ?_, by decide⟩
  intro event he
  rcases List.mem_cons.mp he with rfl | he
  · rintro ⟨l, hl⟩
    exact Operation.noConfusion hl
  · obtain rfl := List.mem_singleton.mp he
    rintro ⟨l, hl⟩
    exact Operation.noConfusion hl

end Http

end Simulcast
