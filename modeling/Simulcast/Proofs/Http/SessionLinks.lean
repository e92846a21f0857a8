import Simulcast.Proofs.Http.EventStream
import Simulcast.Proofs.Http.Outcomes
import Simulcast.Proofs.Http.Targets
/-!
# Session links

A viewer that is let in gets two links with its name in them, one to read the layers of its
stream and one to choose a layer.  They work exactly as long as the broadcast that it was let
in to: `Http.linked_of_created`.

Every event is made of complete operations, so what lasts through operations lasts through
events.  Until the broadcast ends its stream goes on and has the viewer
(`Http.continues_through`).  With the end the key is free, so the viewer is closed, and closed
it stays (`Http.closed_through`), even if the key is on air again.
-/

namespace Simulcast

namespace Http

open Relay

variable {ids : List ViewerId} {r : Relay} {key : String} {id : ViewerId} {sid : StreamId}

/-! ### Events that end a broadcast -/

/-- An event ends the broadcast under a key, if there is one: by an operation, or by a wish to
stop that is answered well. -/
def Event.Ends (r : Relay) (key : String) : Event → Prop
  | .operation op => op.Ends key
  | .request req name => req.Stops key ∧ (handle r req name).1.status = 200

/-- One of the events ends the broadcast under a key. -/
def EndsIn (r : Relay) (key : String) (events : List Event) : Prop :=
  ∃ before event after, events = before ++ event :: after ∧ event.Ends (through r before) key

theorem endsIn_cons_iff (r : Relay) (key : String) (event : Event) (rest : List Event) :
    EndsIn r key (event :: rest) ↔ event.Ends r key ∨ EndsIn (event.occur r) key rest := by
  constructor
  · rintro ⟨before, e, after, he, hends⟩
    cases before with
    | nil =>
      obtain ⟨rfl, -⟩ := List.cons.inj he
      exact .inl hends
    | cons first before =>
      obtain ⟨rfl, rfl⟩ := List.cons.inj he
      exact .inr ⟨before, e, after, rfl, hends⟩
  · rintro (hends | ⟨before, e, after, rfl, hends⟩)
    · exact ⟨[], event, rest, rfl, hends⟩
    · exact ⟨event :: before, e, after, rfl, hends⟩

theorem not_endsIn_concat {before : List Event} {event : Event}
    (h : ¬ EndsIn r key (before ++ [event])) :
    ¬ EndsIn r key before ∧ ¬ event.Ends (through r before) key := by
  refine ⟨?_, fun hends => h ⟨before, event, [], rfl, hends⟩⟩
  rintro ⟨early, e, late, rfl, hends⟩
  exact h ⟨early, e, late ++ [event], by rw [List.append_assoc, List.cons_append], hends⟩

/-- A wish to stop that is answered well checks the key and ends the broadcast. -/
theorem handle_of_stops {req : Request} {name : ViewerId} (hstops : req.Stops key)
    (hstatus : (handle r req name).1.status = 200) :
    (handle r req name).2 = (r.validate key).2.disconnect key := by
  rw [handle_whip_delete hstops.target hstops.method]
  simp only [whipDelete, hstops.key, validate_of_accepts (hstops.accepts hstatus)]

/-! ### One event -/

theorem sameStreams_validate (r : Relay) (key : String) :
    (r.validate key).2.registry = r.registry ∧ (r.validate key).2.viewers = r.viewers := by
  obtain ⟨last, hval⟩ := r.validate_eq key
  rw [hval]
  exact ⟨rfl, rfl⟩

theorem settled_validate (h : Settled ids r.registry r.viewers) (key : String) :
    Settled ids (r.validate key).2.registry (r.validate key).2.viewers := by
  obtain ⟨hregistry, hviewers⟩ := sameStreams_validate r key
  rw [hregistry, hviewers]
  exact h

/-- **A registered stream goes on** with every event that does not end its broadcast. -/
theorem continues_occur (h : Settled ids r.registry r.viewers) {event : Event}
    (hnew : ∀ j ∈ event.names, j ∉ ids) (hk : r.registry.find? key = some sid)
    (hevent : ¬ event.Ends r key) : r.Continues (event.occur r) key sid := by
  cases event with
  | operation op =>
    exact h.continues_perform (fun j hj => hnew j (Option.mem_toList.mpr hj)) hk hevent
  | request req name =>
    show r.Continues (handle r req name).2 key sid
    rcases handle_cases r req name with he | ⟨op, hasks, he⟩ | ⟨k, hstops, hstatus, he⟩
    · exact continues_of_same hk (congrArg Relay.registry he)
    · rw [he]
      refine h.continues_perform (fun j hj => ?_) hk (hasks.not_ends key)
      rw [hasks.newViewer? j hj]
      exact hnew name List.mem_cons_self
    · have hne : key ≠ k := by
        rintro rfl
        exact hevent ⟨hstops, hstatus⟩
      obtain ⟨hregistry, -⟩ := sameStreams_validate r k
      have hgoes := (settled_validate h k).continues_disconnect (hregistry ▸ hk) hne
      rw [he]
      exact ⟨hgoes.find?, fun s hs => hgoes.stream? s (hregistry ▸ hs)⟩

/-- **A viewer persists** with every event that is not handed its name. -/
theorem persists_occur (h : Settled ids r.registry r.viewers) {event : Event}
    (hid : id ∉ event.names) : r.Persists (event.occur r) id := by
  have hother : ∀ {j}, j ∈ event.names → id ≠ j := fun hj he => hid (he ▸ hj)
  cases event with
  | operation op =>
    exact h.persists_perform fun j hj => hother (Option.mem_toList.mpr hj)
  | request req name =>
    show r.Persists (handle r req name).2 id
    rcases handle_cases r req name with he | ⟨op, hasks, he⟩ | ⟨k, -, -, he⟩
    · exact persists_of_same (by rw [he])
    · rw [he]
      refine h.persists_perform fun j hj => ?_
      rw [hasks.newViewer? j hj]
      exact hother List.mem_cons_self
    · obtain ⟨-, hviewers⟩ := sameStreams_validate r k
      have hvalidated : r.Persists (r.validate k).2 id := persists_of_same (by rw [hviewers])
      have hnone : ∀ j ∈ newViewer? (.disconnect k), id ≠ j :=
        fun j hj => absurd hj (by simp [newViewer?])
      rw [he]
      exact hvalidated.trans ((settled_validate h k).persists_perform hnone)

/-- A key is free once its broadcast has ended. -/
theorem free_of_ends (h : Settled ids r.registry r.viewers) {event : Event}
    (hevent : event.Ends r key) : (event.occur r).registry.find? key = none := by
  cases event with
  | operation op => exact h.free_of_ends hevent
  | request req name =>
    show (handle r req name).2.registry.find? key = none
    have hend : Operation.Ends (.disconnect key) key := .inl rfl
    rw [handle_of_stops hevent.1 hevent.2]
    exact (settled_validate h key).free_of_ends hend

/-! ### All events -/

/-- **A registered stream goes on** until its broadcast ends, and nobody leaves it. -/
theorem continues_through (h : Settled ids r.registry r.viewers) {events : List Event}
    (hnodup : (events.flatMap Event.names).Nodup)
    (hnew : ∀ j ∈ events.flatMap Event.names, j ∉ ids) {s : Stream}
    (hk : r.registry.find? key = some sid) (hs : r.registry.stream? sid = some s)
    (hlasts : ¬ EndsIn r key events) :
    (through r events).registry.find? key = some sid ∧
      ∃ t, (through r events).registry.stream? sid = some t ∧
        ∀ j ∈ s.viewers, j ∈ t.viewers := by
  induction events generalizing r ids s with
  | nil => exact ⟨hk, s, hs, fun j hj => hj⟩
  | cons event rest ih =>
    rw [List.flatMap_cons] at hnodup hnew
    obtain ⟨hfirst, hrest, hnext⟩ := new_of_append hnodup hnew
    rw [endsIn_cons_iff, not_or] at hlasts
    obtain ⟨hk', hgoes⟩ := continues_occur h hfirst hk hlasts.1
    obtain ⟨u, hu, hcontinues⟩ := hgoes s hs
    obtain ⟨hfound, t, ht, hmore⟩ :=
      ih (settled_occur h event hfirst) hrest hnext hk' hu hlasts.2
    exact ⟨hfound, t, ht, fun j hj => hmore j (hcontinues.viewers j hj)⟩

/-- **A registered stream discovers its layers one by one**, as long as its broadcast lasts. -/
theorem layers_concat (h : Settled ids r.registry r.viewers) {before : List Event} {event : Event}
    (hnodup : ((before ++ [event]).flatMap Event.names).Nodup)
    (hnew : ∀ j ∈ (before ++ [event]).flatMap Event.names, j ∉ ids) {s : Stream}
    (hk : r.registry.find? key = some sid) (hs : r.registry.stream? sid = some s)
    (hlasts : ¬ EndsIn r key (before ++ [event])) :
    ∃ t u, (through r before).stream? key = some t ∧
      (through r (before ++ [event])).stream? key = some u ∧
      (u.layers = t.layers ∨ ∃ layer, layer ∉ t.layers ∧ u.layers = t.layers ++ [layer]) := by
  rw [List.flatMap_append] at hnodup hnew
  obtain ⟨hbefore, -, hapart⟩ := List.nodup_append.mp hnodup
  have hknown : ∀ j ∈ before.flatMap Event.names, j ∉ ids := fun j hj =>
    hnew j (List.mem_append_left _ hj)
  have hnames : ∀ j ∈ event.names, j ∈ [event].flatMap Event.names := fun j hj =>
    List.mem_flatMap.mpr ⟨event, List.mem_cons_self, hj⟩
  obtain ⟨hstill, hevent⟩ := not_endsIn_concat hlasts
  obtain ⟨named, hnamed, hsettled⟩ := settled_through h hbefore hknown
  obtain ⟨hair, t, ht, -⟩ := continues_through h hbefore hknown hk hs hstill
  have hfresh : ∀ j ∈ event.names, j ∉ named := by
    intro j hj hm
    rcases hnamed j hm with hm | hm
    · exact hnew j (List.mem_append_right _ (hnames j hj)) hm
    · exact hapart j hm j (hnames j hj) rfl
  obtain ⟨hair', hgoes⟩ := continues_occur hsettled hfresh hair hevent
  obtain ⟨u, hu, hcontinues⟩ := hgoes t ht
  rw [through_concat]
  exact ⟨t, u, stream?_of_find? hair ht, stream?_of_find? hair' hu, hcontinues.layers⟩

/-- **A viewer persists** as long as no event is handed its name. -/
theorem persists_through (h : Settled ids r.registry r.viewers) {events : List Event}
    (hnodup : (events.flatMap Event.names).Nodup)
    (hnew : ∀ j ∈ events.flatMap Event.names, j ∉ ids)
    (hid : id ∉ events.flatMap Event.names) : r.Persists (through r events) id := by
  induction events generalizing r ids with
  | nil => exact persists_of_same rfl
  | cons event rest ih =>
    rw [List.flatMap_cons] at hnodup hnew hid
    obtain ⟨hfirst, hrest, hnext⟩ := new_of_append hnodup hnew
    rw [List.mem_append, not_or] at hid
    exact (persists_occur h hid.1).trans
      (ih (settled_occur h event hfirst) hrest hnext hid.2)

/-- **A viewer is closed** from the end of its broadcast on. -/
theorem closed_through (h : Settled ids r.registry r.viewers) {events : List Event}
    (hnodup : (events.flatMap Event.names).Nodup)
    (hnew : ∀ j ∈ events.flatMap Event.names, j ∉ ids)
    (hid : id ∉ events.flatMap Event.names) {v : Viewer} (hv : r.viewers.find? id = some v)
    (hends : EndsIn r v.streamKey events) :
    ∃ w, (through r events).viewers.find? id = some w ∧ w.phase = .closed := by
  induction events generalizing r ids v with
  | nil =>
    obtain ⟨before, event, after, he, -⟩ := hends
    exact absurd he (by simp)
  | cons event rest ih =>
    rw [List.flatMap_cons] at hnodup hnew hid
    obtain ⟨hfirst, hrest, hnext⟩ := new_of_append hnodup hnew
    rw [List.mem_append, not_or] at hid
    have hsettled := settled_occur h event hfirst
    obtain ⟨w, hw, hkey, -⟩ := (persists_occur h hid.1).viewer v hv
    -- the key may be on air again later, but the viewer was closed when it was free
    rcases (endsIn_cons_iff ..).mp hends with hnow | hlater
    · have hclosed := hsettled.closed_of_free hw (hkey ▸ free_of_ends h hnow)
      obtain ⟨u, hu, -, hstays⟩ := (persists_through hsettled hrest hnext hid.2).viewer w hw
      exact ⟨u, hu, hstays hclosed⟩
    · exact ih hsettled hrest hnext hid.2 hw (hkey ▸ hlater)

/-! ### Answers behind the links -/

section

variable {req : Request} {raw : String}

/-- What is answered to a request for the layers of a session. -/
theorem handle_layers (hmethod : req.method = .get)
    (hroute : Route.ofTarget? req.target = some (.layers raw)) (r : Relay) (name : ViewerId) :
    (handle r req name).1.status = (whepLayers r raw).status ∧
      (handle r req name).1.body = (whepLayers r raw).body := by
  have hmem : req.method ∈ (Route.layers raw).methods := by
    rw [hmethod]
    exact List.mem_cons_self
  rw [handle_of_route hroute hmem (by rw [hmethod]; decide)]
  exact ⟨rfl, rfl⟩

/-- What is answered to the choice of a layer for a session. -/
theorem handle_layer (hmethod : req.method = .post)
    (hroute : Route.ofTarget? req.target = some (.layer raw)) (r : Relay) (name : ViewerId) :
    (handle r req name).1.status = (whepSelectLayer r req raw).1.status ∧
      (handle r req name).1.body = (whepSelectLayer r req raw).1.body ∧
      (handle r req name).2 = (whepSelectLayer r req raw).2 := by
  have hmem : req.method ∈ (Route.layer raw).methods := by
    rw [hmethod]
    exact List.mem_cons_self
  rw [handle_of_route hroute hmem (by rw [hmethod]; decide)]
  exact ⟨rfl, rfl, rfl⟩

theorem whepLayers_of_listed (hraw : pathParameter "session_id" raw = .ok id)
    {layers : List String} (hlist : r.listLayers id = .ok layers) :
    (whepLayers r raw).status = 200 ∧
      (whepLayers r raw).body = event "layers" (layersData layers) := by
  simp only [whepLayers, hraw, hlist]
  exact ⟨trivial, trivial⟩

theorem whepLayers_of_not_found (hraw : pathParameter "session_id" raw = .ok id)
    (hf : r.registry.findViewer? id = none) :
    (whepLayers r raw).status = 400 ∧ (whepLayers r raw).body = "Session not found: " ++ id := by
  have hlist : r.listLayers id = .error (.sessionNotFound id) := by
    rw [listLayers, hf, Option.bind_none]
  simp only [whepLayers, hraw, hlist]
  exact ⟨rfl, rfl⟩

/-- A viewer that is found gets the layer that it chooses, and no other viewer is touched. -/
theorem whepSelectLayer_of_found (hraw : pathParameter "session_id" raw = .ok id)
    (hfits : req.body.length ≤ bodyLimit) {choice : LayerRequest}
    (hchoice : LayerRequest.decode req.body = .ok choice)
    (hf : r.registry.findViewer? id = some sid) :
    (whepSelectLayer r req raw).1.status = 200 ∧ ∀ j, (whepSelectLayer r req raw).2.viewers.find? j
      = if j = id then (r.viewers.find? j).map (·.selectLayer choice.encodingId)
        else r.viewers.find? j := by
  simp only [whepSelectLayer, hraw, bodyBytes, if_neg (Nat.not_lt_of_le hfits), hchoice, setLayer,
    hf]
  refine ⟨trivial, fun j => ?_⟩
  rw [viewers_updateStream, viewers_updateViewer, Table.find?_modify]

theorem whepSelectLayer_of_not_found (hraw : pathParameter "session_id" raw = .ok id)
    (hfits : req.body.length ≤ bodyLimit) {choice : LayerRequest}
    (hchoice : LayerRequest.decode req.body = .ok choice)
    (hf : r.registry.findViewer? id = none) :
    (whepSelectLayer r req raw).1.status = 400 ∧
      (whepSelectLayer r req raw).1.body = "Session not found: " ++ id := by
  simp only [whepSelectLayer, hraw, bodyBytes, if_neg (Nat.not_lt_of_le hfits), hchoice, setLayer,
    hf]
  exact ⟨rfl, rfl⟩

end

/-! ### Sessions -/

/-- The links of a session work: one tells the layers of the stream under its key, in the
order in which they were discovered, and the other chooses a layer for that session alone. -/
structure Serves (r : Relay) (key : String) (id : ViewerId) : Prop where
  listed : ∃ s, r.stream? key = some s ∧ ∀ (req : Request) (name : ViewerId),
    req.method = .get → req.target = layersTarget id →
    (handle r req name).1.status = 200 ∧
      (handle r req name).1.body = event "layers" (layersData s.layers) ∧
      Conveys (handle r req name).1.body s.layers
  /-- The viewer gets the layer and counts the choice; nothing else of it is changed. -/
  chosen : ∀ (req : Request) (name : ViewerId) (choice : LayerRequest),
    req.method = .post → req.target = layerTarget id → req.body.length ≤ bodyLimit →
    LayerRequest.decode req.body = .ok choice →
    (handle r req name).1.status = 200 ∧ ∃ v, r.viewers.find? id = some v ∧
      ∀ j, (handle r req name).2.viewers.find? j
        = if j = id then some { v with
            layer := some choice.encodingId
            counters := { v.counters with layerSwitches := v.counters.layerSwitches + 1 } }
          else r.viewers.find? j

/-- The links of a session lead nowhere. -/
structure Denies (r : Relay) (id : ViewerId) : Prop where
  listed : ∀ (req : Request) (name : ViewerId), req.method = .get →
    req.target = layersTarget id →
    (handle r req name).1.status = 400 ∧
      (handle r req name).1.body = "Session not found: " ++ id
  chosen : ∀ (req : Request) (name : ViewerId) (choice : LayerRequest),
    req.method = .post → req.target = layerTarget id → req.body.length ≤ bodyLimit →
    LayerRequest.decode req.body = .ok choice →
    (handle r req name).1.status = 400 ∧
      (handle r req name).1.body = "Session not found: " ++ id

theorem serves_of_attached (h : Settled ids r.registry r.viewers) (hplain : isPlainName id = true)
    {s : Stream} (hk : r.registry.find? key = some sid) (hs : r.registry.stream? sid = some s)
    (hid : id ∈ s.viewers) : Serves r key id := by
  have hraw := pathParameter_of_plain hplain "session_id"
  have hf := h.findViewer?_of_attached hk hs hid
  constructor
  · refine ⟨s, stream?_of_find? hk hs, fun req name hmethod htarget => ?_⟩
    have hroute : Route.ofTarget? req.target = some (.layers id) := by
      rw [htarget, ofTarget?_layersTarget hplain]
    obtain ⟨hstatus, hbody⟩ := handle_layers hmethod hroute r name
    have hlist : r.listLayers id = .ok s.layers := by
      rw [listLayers, hf, Option.bind_some, hs]
    obtain ⟨hok, htext⟩ := whepLayers_of_listed hraw hlist
    rw [hstatus, hbody, htext]
    exact ⟨hok, rfl, conveys_event s.layers⟩
  · intro req name choice hmethod htarget hfits hchoice
    obtain ⟨v, hv, -⟩ := h.attached sid s id hs hid
    have hroute : Route.ofTarget? req.target = some (.layer id) := by
      rw [htarget, ofTarget?_layerTarget hplain]
    obtain ⟨hstatus, -, hafter⟩ := handle_layer hmethod hroute r name
    obtain ⟨hok, hviewers⟩ := whepSelectLayer_of_found hraw hfits hchoice hf
    refine ⟨hstatus.trans hok, v, hv, fun j => ?_⟩
    rw [hafter, hviewers]
    split
    · rename_i hj
      rw [hj, hv, Option.map_some]
      rfl
    · rfl

theorem denies_of_closed (h : Settled ids r.registry r.viewers) (hplain : isPlainName id = true)
    {v : Viewer} (hv : r.viewers.find? id = some v) (hclosed : v.phase = .closed) :
    Denies r id := by
  have hraw := pathParameter_of_plain hplain "session_id"
  have hf := h.findViewer?_of_closed hv hclosed
  constructor
  · intro req name hmethod htarget
    have hroute : Route.ofTarget? req.target = some (.layers id) := by
      rw [htarget, ofTarget?_layersTarget hplain]
    obtain ⟨hstatus, hbody⟩ := handle_layers hmethod hroute r name
    rw [hstatus, hbody]
    exact whepLayers_of_not_found hraw hf
  · intro req name choice hmethod htarget hfits hchoice
    have hroute : Route.ofTarget? req.target = some (.layer id) := by
      rw [htarget, ofTarget?_layerTarget hplain]
    obtain ⟨hstatus, hbody, -⟩ := handle_layer hmethod hroute r name
    rw [hstatus, hbody]
    exact whepSelectLayer_of_not_found hraw hfits hchoice hf

/-! ### Viewers that are let in -/

section

variable {req : Request}

theorem errorStatus_ne_created (e : RelayError) : Response.errorStatus e ≠ 201 := by
  unfold Response.errorStatus
  split
  · decide
  · split <;> decide

theorem status_of_bodyText {response : Response} (h : bodyText req = .error response) :
    response.status ≠ 201 := by
  unfold bodyText bodyBytes at h
  split at h
  · rename_i hbytes
    split at hbytes
    · obtain rfl := Except.error.inj h
      obtain rfl := Except.error.inj hbytes
      decide
    · exact absurd hbytes (by simp)
  · split at h
    · exact absurd h (by simp)
    · obtain rfl := Except.error.inj h
      exact (by decide : (400 : Nat) ≠ 201)

/-- A viewer is let in by getting its place. -/
theorem seated_of_created (hmethod : req.method = .post)
    (hroute : Route.ofTarget? req.target = some .whep) (hkey : viewerKey req.headers = .ok key)
    (hcreated : (handle r req id).1.status = 201) :
    ∃ answer q sid s codec, Seated r q key id sid s codec ∧
      (handle r req id).1.headers = (sdpResponse "/whep" answer).headers ++ sessionLinks id ++
        ("access-control-expose-headers", "*") :: corsHeaders ∧
      (handle r req id).2 = q.updateViewer id Viewer.activate := by
  have hmem : req.method ∈ Route.whep.methods := by
    rw [hmethod]
    exact List.mem_cons_self
  rw [handle_of_route hroute hmem (by rw [hmethod]; decide)] at hcreated ⊢
  simp only [respond, whepOffer, hkey] at hcreated ⊢
  cases hbody : bodyText req with
  | error response =>
    rw [hbody] at hcreated
    exact absurd (show response.status = 201 from hcreated) (status_of_bodyText hbody)
  | ok offer =>
    rw [hbody] at hcreated
    obtain ⟨e, he⟩ | ⟨q, sid, s, codec, seat, ⟨e, he⟩ | ⟨answer, he⟩⟩ :=
      r.createSession_cases offer key id
    · simp only [he] at hcreated
      exact absurd hcreated (errorStatus_ne_created e)
    · simp only [he] at hcreated
      exact absurd hcreated (errorStatus_ne_created e)
    · simp only [he]
      exact ⟨answer, q, sid, s, codec, seat, rfl, rfl⟩

/-- The links of a session among all headers. -/
theorem links_of_created {headers : List (String × String)} {answer : String}
    (h : headers = (sdpResponse "/whep" answer).headers ++ sessionLinks id ++
      ("access-control-expose-headers", "*") :: corsHeaders) :
    headers.filter (fun header => header.1 = "link") = sessionLinks id := by
  rw [h]
  rfl

theorem mem_viewers_attach {s : Stream} (hlive : s.isLive = true) (id : ViewerId) :
    id ∈ (s.attach id).2.viewers := by
  rw [Stream.attach, if_pos hlive]
  show id ∈ if id ∈ s.viewers then s.viewers else s.viewers ++ [id]
  split
  · rename_i hm
    exact hm
  · exact List.mem_append_right _ List.mem_cons_self

/-- A viewer of a registered stream is of its key. -/
theorem exists_viewer_of_attached (h : Settled ids r.registry r.viewers) {s : Stream}
    (hk : r.registry.find? key = some sid) (hs : r.registry.stream? sid = some s)
    (hid : id ∈ s.viewers) : ∃ v, r.viewers.find? id = some v ∧ v.streamKey = key := by
  obtain ⟨t, ht, hkey⟩ := h.indexed key sid hk
  obtain rfl := Option.some.inj (hs.symm.trans ht)
  obtain ⟨v, hv, -, hvk, -⟩ := h.attached sid s id hs hid
  exact ⟨v, hv, hvk.trans hkey⟩

/-- **A viewer that is let in** is told its links, and the registered stream has it. -/
theorem attached_of_created (hmethod : req.method = .post)
    (hroute : Route.ofTarget? req.target = some .whep) (hkey : viewerKey req.headers = .ok key)
    (hcreated : (handle r req id).1.status = 201) :
    (handle r req id).1.headers.filter (fun header => header.1 = "link") = sessionLinks id ∧
      ∃ sid s, (handle r req id).2.registry.find? key = some sid ∧
        (handle r req id).2.registry.stream? sid = some s ∧ id ∈ s.viewers := by
  obtain ⟨answer, q, sid, s, codec, seat, hheaders, hout⟩ :=
    seated_of_created hmethod hroute hkey hcreated
  refine ⟨links_of_created hheaders, sid, (s.attach id).2, ?_, ?_, mem_viewers_attach seat.live id⟩
  · rw [hout, registry_updateViewer, seat.registry, Registry.find?_put, seat.find?]
  · rw [hout, registry_updateViewer, seat.registry, Registry.stream?_put_of_some seat.stream?,
      if_pos rfl]

end

/-! ### The life of a session -/

/-- A session under a key after the answer that made it, and after some more events. -/
structure Linked (out : Response × Relay) (key : String) (id : ViewerId) (after : List Event) :
    Prop where
  /-- The answer has two links, to the targets of the session. -/
  links : out.1.headers.filter (fun header => header.1 = "link") = [
    ("link", "<" ++ layersTarget id ++
      ">; rel=\"urn:ietf:params:whep:ext:core:server-sent-events\"; events=\"layers\""),
    ("link", "<" ++ layerTarget id ++ ">; rel=\"urn:ietf:params:whep:ext:core:layer\"")]
  session : ∃ v, out.2.viewers.find? id = some v ∧ v.streamKey = key
  /-- The links work as long as the broadcast lasts. -/
  serves : ¬ EndsIn out.2 key after → Serves (through out.2 after) key id
  /-- From the end of the broadcast on they lead nowhere. -/
  denies : EndsIn out.2 key after → Denies (through out.2 after) id
  /-- While the broadcast lasts, an event discovers one new layer at most, and it goes behind
  the others. -/
  discovered : ∀ before event, after = before ++ [event] → ¬ EndsIn out.2 key after →
    ∃ s t, (through out.2 before).stream? key = some s ∧
      (through out.2 after).stream? key = some t ∧
      (t.layers = s.layers ∨ ∃ layer, layer ∉ s.layers ∧ t.layers = s.layers ++ [layer])

/-- **Session links work exactly as long as the broadcast.**  A relay in any state lets a viewer
in, and then anything may happen. -/
theorem linked_of_created (settings : Settings) (negotiate : Attempt → Except RelayError Agreement)
    (before : List Event) (req : Request) (key : String) (id : ViewerId) (after : List Event)
    (hnames : (before.flatMap Event.names ++ id :: after.flatMap Event.names).Nodup)
    (hplain : isPlainName id = true) (hmethod : req.method = .post)
    (hroute : Route.ofTarget? req.target = some .whep) (hkey : viewerKey req.headers = .ok key)
    (hcreated : (handle (through (start settings negotiate) before) req id).1.status = 201) :
    Linked (handle (through (start settings negotiate) before) req id) key id after := by
  -- every name is new when it is handed in
  obtain ⟨hbefore, hrest, hapart⟩ := List.nodup_append.mp hnames
  obtain ⟨hid, hafter⟩ := List.nodup_cons.mp hrest
  obtain ⟨known, hknown, hsettled⟩ := settled_through (r := start settings negotiate)
    (settled_empty settings.queueCapacity) hbefore fun j _ => List.not_mem_nil
  have hearlier : ∀ j ∈ known, j ∈ before.flatMap Event.names := fun j hj =>
    (hknown j hj).resolve_left List.not_mem_nil
  have hfresh : id ∉ known := fun hm =>
    hapart id (hearlier id hm) id List.mem_cons_self rfl
  have hlater : ∀ j ∈ after.flatMap Event.names, j ∉ id :: known := by
    intro j hj hm
    rcases List.mem_cons.mp hm with rfl | hm
    · exact hid hj
    · exact hapart j (hearlier j hm) j (List.mem_cons_of_mem _ hj) rfl
  have hin := (served_handle hsettled hfresh req).settled
  obtain ⟨hlinks, sid, s, hair, hs, hattached⟩ :=
    attached_of_created hmethod hroute hkey hcreated
  generalize handle (through (start settings negotiate) before) req id = out at *
  obtain ⟨v, hv, hvkey⟩ := exists_viewer_of_attached hin hair hs hattached
  obtain ⟨named, -, hend⟩ := settled_through hin hafter hlater
  constructor
  · rw [hlinks, sessionLinks_eq]
  · exact ⟨v, hv, hvkey⟩
  · intro hlasts
    obtain ⟨hk, t, ht, hmore⟩ := continues_through hin hafter hlater hair hs hlasts
    exact serves_of_attached hend hplain hk ht (hmore id hattached)
  · intro hends
    obtain ⟨w, hw, hclosed⟩ := closed_through hin hafter hlater hid hv (hvkey.symm ▸ hends)
    exact denies_of_closed hend hplain hw hclosed
  · rintro early event rfl hlasts
    exact layers_concat hin hafter hlater hair hs hlasts

def watcher : Request where
  method := .post
  target := "/whep"
  headers := [("authorization", Utf8.encode "k")]
  body := Utf8.encode "offer"

/-- The broadcast ends, the key is on air again, and another viewer comes. -/
def resumed : List Event := [
  .request (withKey .delete "k") "b",
  .request (withKey .post "k") "c",
  .request watcher "d-1"]

/-- The links that a viewer was told before `resumed` lead nowhere afterwards. -/
theorem linked_of_created_resumed :
    let settings : Settings := { streamKeys := ["k"] }
    let negotiate := fun _ => .ok { answer := "answer" }
    let before := [.request (withKey .post "k") "a"]
    let out := handle (through (start settings negotiate) before) watcher "d-0"
    (before.flatMap Event.names ++ "d-0" :: resumed.flatMap Event.names).Nodup ∧
      out.1.status = 201 ∧ Linked out "k" "d-0" resumed ∧ EndsIn out.2 "k" resumed ∧
      (through out.2 resumed).registry.find? "k" = some 1 :=
  ⟨by decide, by decide,
    linked_of_created _ _ _ watcher "k" "d-0" resumed (by decide) (by decide) rfl (by decide)
      (by decide) (by decide),
    ⟨[], _, _, rfl, ⟨⟨rfl, by decide, by decide⟩, by decide⟩⟩, by decide⟩

end Http

end Simulcast
