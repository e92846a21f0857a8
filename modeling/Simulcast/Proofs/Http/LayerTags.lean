import Simulcast.Proofs.Document.LayerRequest
import Simulcast.Proofs.Http.EventStream
import Simulcast.Proofs.Http.SessionLinks
/-!
# Layer tags travel to a player and back

A layer's tag is any text.  On its way to a player it is a string of a JSON text that is the data
of an event, and neither the event nor the string takes anything from it
(`Http.eventLines_event`, `Http.decode_layersData`).  On its way back it is a string of a request
that the player may lay out as it likes (`LayerRequest.decode_of_encodedBy`).

A body has a limit.  So the tag that comes back is chosen whatever is in it, and whatever the
media is called, as long as the request fits into a body; one that does not fit is refused before
anything of it is read.
-/

namespace Simulcast

namespace Http

open Json LayerRequest Relay

/-! ### To the player -/

/-- The tags of the layers arrive at a player: in an event of three lines, as a value that holds
them all in order. -/
structure Arrive (layers : List String) : Prop where
  lines : eventLines (event "layers" (layersData layers))
    = ["event: layers", "data: " ++ layersData layers, ""]
  data : Json.decode (Utf8.encode (layersData layers)) = .ok (layersValue layers)
  /-- The event is what a session whose layers are asked for is answered. -/
  sent : ∀ (r : Relay) (req : Request) (raw : String) (id name : ViewerId), req.method = .get →
    Route.ofTarget? req.target = some (.layers raw) →
    pathParameter "session_id" raw = .ok id → r.listLayers id = .ok layers →
    (handle r req name).1.status = 200 ∧
      (handle r req name).1.body = event "layers" (layersData layers)

theorem arrive (layers : List String) : Arrive layers where
  lines := eventLines_event (by decide) (isLine_layersData layers)
  data := decode_layersData layers
  sent r req raw id name hmethod hroute hraw hlist := by
    obtain ⟨hstatus, hbody⟩ := handle_layers hmethod hroute r name
    rw [hstatus, hbody]
    exact whepLayers_of_listed hraw hlist

/-! ### And back -/

/-- A request is posted to the layer of a session. -/
structure Request.Posts (req : Request) (session : ViewerId) : Prop where
  method : req.method = .post
  target : ∃ raw, Route.ofTarget? req.target = some (.layer raw) ∧
    pathParameter "session_id" raw = .ok session

section

variable {r : Relay} {req : Request} {id : ViewerId}

theorem Request.Posts.chooses (h : req.Posts id) (hfits : req.body.length ≤ bodyLimit)
    {choice : LayerRequest} (hchoice : LayerRequest.decode req.body = .ok choice) {sid : StreamId}
    (hf : r.registry.findViewer? id = some sid) {v : Viewer} (hv : r.viewers.find? id = some v)
    (name : ViewerId) :
    (handle r req name).1.status = 200 ∧
      (handle r req name).2.viewers.find? id = some (v.selectLayer choice.encodingId) := by
  obtain ⟨raw, hroute, hraw⟩ := h.target
  obtain ⟨hstatus, -, hafter⟩ := handle_layer h.method hroute r name
  obtain ⟨hok, hviewers⟩ := whepSelectLayer_of_found hraw hfits hchoice hf
  refine ⟨hstatus.trans hok, ?_⟩
  rw [hafter, hviewers, if_pos rfl, hv, Option.map_some]

/-- A body beyond the limit is not read. -/
theorem Request.Posts.refused (h : req.Posts id) (hlong : bodyLimit < req.body.length)
    (name : ViewerId) : (handle r req name).1.status = 413 ∧ (handle r req name).2 = r := by
  obtain ⟨raw, hroute, hraw⟩ := h.target
  obtain ⟨hstatus, -, hafter⟩ := handle_layer h.method hroute r name
  have hanswer : whepSelectLayer r req raw
      = (.text 413 "Failed to buffer the request body: length limit exceeded", r) := by
    simp only [whepSelectLayer, hraw, bodyBytes, if_pos hlong]
  rw [hstatus, hafter, hanswer]
  exact ⟨rfl, rfl⟩

end

/-- What a player asks for is what it gets: a text is read as the request that it encodes, and
posting it for a viewer that is watching selects the layer, if a body may be as long. -/
structure Returns (body : List UInt8) (choice : LayerRequest) : Prop where
  accepted : LayerRequest.decode body = .ok choice
  selected : body.length ≤ bodyLimit → ∀ (r : Relay) (req : Request) (id name : ViewerId)
    (sid : StreamId) (v : Viewer), req.Posts id → req.body = body →
    r.registry.findViewer? id = some sid → r.viewers.find? id = some v →
    (handle r req name).1.status = 200 ∧ ∃ w,
      (handle r req name).2.viewers.find? id = some w ∧ w.layer = some choice.encodingId
  refused : bodyLimit < body.length → ∀ (r : Relay) (req : Request) (id name : ViewerId),
    req.Posts id → req.body = body →
    (handle r req name).1.status = 413 ∧ (handle r req name).2 = r

theorem returns_of_encodedBy {body : List UInt8} {choice : LayerRequest}
    (h : EncodedBy body choice) : Returns body choice where
  accepted := decode_of_encodedBy h
  selected hfits r req id name sid v hposts hbody hf hv := by
    subst hbody
    obtain ⟨hstatus, hw⟩ := hposts.chooses hfits (decode_of_encodedBy h) hf hv name
    exact ⟨hstatus, _, hw, rfl⟩
  refused hlong r req id name hposts hbody := by
    subst hbody
    exact hposts.refused hlong name

/-! ### There and back -/

/-- **Layer tags survive the trip to a player and back**, whatever texts they are.  To the player
they go in an event of three lines, the data of which decodes to all of them in order.  However a
request for a tag is written, its text is an encoding of it, and every encoding is read as that
request.  Posting it makes the tag the viewer's layer, unless the body is too long: then it is
refused and changes nothing. -/
theorem layerTags_travel (layers : List String) (tag mediaId : String) (body : List UInt8) :
    Arrive layers ∧ (SpelledBy body ⟨mediaId, tag⟩ → EncodedBy body ⟨mediaId, tag⟩) ∧
      (EncodedBy body ⟨mediaId, tag⟩ → Returns body ⟨mediaId, tag⟩) :=
  ⟨arrive layers, encodedBy_of_spelledBy, returns_of_encodedBy⟩

/-- A choice of the viewer of `joined`. -/
def layerPost (body : List UInt8) : Request :=
  { method := .post, target := "/whep/layer/v", body }

theorem posts_layerPost (body : List UInt8) : (layerPost body).Posts "v" :=
  ⟨rfl, "v", (by decide : Route.ofTarget? "/whep/layer/v" = some (.layer "v")), by rfl⟩

/-- After `joined` the viewer asks for a layer with a line break for a tag. -/
theorem layerTags_travel_lineBreak :
    let r := through (start { streamKeys := ["k"] } fun attempt =>
      .ok { answer := "answer", videoTypes := some ["video/" ++ attempt.offer] }) joined
    let body := Utf8.encode (object [("encodingId", quote "\r\n")])
    Arrive ["", "\"\\", "\r\n"] ∧ SpelledBy body ⟨"", "\r\n"⟩ ∧ EncodedBy body ⟨"", "\r\n"⟩ ∧
      (handle r (layerPost body) "w").1.status = 200 ∧ ∃ w,
        (handle r (layerPost body) "w").2.viewers.find? "v" = some w ∧ w.layer = some "\r\n" := by
  intro r body
  obtain ⟨harrive, hencoded, hreturns⟩ :=
    layerTags_travel ["", "\"\\", "\r\n"] "\r\n" "" body
  have hspelled : SpelledBy body ⟨"", "\r\n"⟩ :=
    .inr (.inr ⟨rfl, spellsObject_written [("encodingId", "\r\n")]⟩)
  have hbody := hencoded hspelled
  have hf : r.registry.findViewer? "v" = some 0 := by decide
  have hknown : (r.viewers.find? "v").isSome = true := by decide
  obtain ⟨v, hv⟩ := Option.isSome_iff_exists.mp hknown
  exact ⟨harrive, hspelled, hbody, (hreturns hbody).selected (by decide) r (layerPost body) "v" "w"
    0 v (posts_layerPost body) rfl hf hv⟩

theorem lt_length_of_long_name {mediaId : String} (h : mediaId.toList.length = bodyLimit)
    (tag : String) : bodyLimit < (Utf8.encode
      (object [("mediaId", quote mediaId), ("encodingId", quote tag)])).length := by
  have hname := length_le_quoted mediaId
  rw [encode_object]
  simp only [memberBytes, encode_quote, List.map_cons, List.intercalate_cons_cons,
    List.length_append, List.length_cons]
  omega

/-- A tag comes back only if the request fits into a body: after `joined`, a request for the layer
`h` of a media with a name of two mebibytes selects nothing. -/
theorem layerTag_not_selected :
    let r := through (start { streamKeys := ["k"] } fun attempt =>
      .ok { answer := "answer", videoTypes := some ["video/" ++ attempt.offer] }) joined
    let mediaId := String.ofList (List.replicate 2097152 'a')
    let body := Utf8.encode (object [("mediaId", quote mediaId), ("encodingId", quote "h")])
    EncodedBy body ⟨mediaId, "h"⟩ ∧ r.registry.findViewer? "v" = some 0 ∧
      (handle r (layerPost body) "w").1.status = 413 ∧
      ((handle r (layerPost body) "w").2.viewers.find? "v").map Viewer.layer = some none := by
  intro r mediaId body
  have hname : mediaId.toList.length = bodyLimit := by
    rw [String.toList_ofList, List.length_replicate, bodyLimit]
  have hbody : EncodedBy body ⟨mediaId, "h"⟩ :=
    encodedBy_of_spelledBy
      (.inl (spellsObject_written [("mediaId", mediaId), ("encodingId", "h")]))
  have hlong : bodyLimit < body.length := lt_length_of_long_name hname "h"
  clear_value body mediaId
  obtain ⟨hstatus, hsame⟩ := (posts_layerPost body).refused hlong (r := r) "w"
  refine ⟨hbody, by decide, hstatus, ?_⟩
  rw [hsame]
  decide

end Http

end Simulcast
