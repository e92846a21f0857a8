import Simulcast.Relay.Basic
/-!
# Viewing

How viewers come and go.  A viewer is made for a live stream: a peer connection is
made, the viewer is attached, and the session description is answered.  If that
fails the viewer is detached and closed again, and nothing of it is left in the
stream.
-/

namespace Simulcast

namespace Relay

/-! ### Leaving -/

/-- The connection of a viewer closed: the viewer leaves the stream that it was made
for. -/
def leaveHome (r : Relay) (v : Viewer) : Relay :=
  match v.home with
  | some sid => r.updateStream sid fun s => (s.detach v.id).2
  | none => r

/-- Closes a viewer and its connection. -/
def closeViewer (r : Relay) (id : ViewerId) : Relay :=
  match r.viewers.find? id with
  | none => r
  | some v =>
    let r := r.updateViewer id fun v => v.close.2
    match v.connection with
    | some c => (r.closeConnection c).leaveHome v
    | none => r

/-! ### Joining -/

/-- Makes a viewer with its connection; it is not attached yet. -/
def addViewer (r : Relay) (id : ViewerId) (key : String) (codec : Codec) (c : ConnectionId) :
    Relay :=
  { r with
    viewers := r.viewers.insert id
      { id, streamKey := key, videoCodec := codec, connection := some c } }

/-- Attaches a viewer to a stream; refused unless the stream is live. -/
def attachViewer (r : Relay) (sid : StreamId) (id : ViewerId) : Bool × Relay :=
  match r.onRegistry (·.act sid (·.attach id)) with
  | (some true, r) => (true, r.updateViewer id fun v => { v with home := some sid })
  | (_, r) => (false, r)

/-- Undoes a viewer whose negotiation failed. -/
def dropViewer (r : Relay) (sid : StreamId) (id : ViewerId) : Relay :=
  (r.updateStream sid fun s => (s.detach id).2).closeViewer id

/-- Answers a viewer's session description; its video track must be able to start. -/
def negotiateSession (r : Relay) (c : ConnectionId) (offer : String) (codec : Codec) :
    Except RelayError String :=
  match r.answerOffer ⟨.viewer, c, offer⟩ with
  | .error e => .error e
  | .ok agreement =>
    if agreement.carries codec then .ok agreement.answer else .error (.webRtc .unsupportedCodec)

/-- Makes a viewer with the given name for the live stream under a key and answers
its session description. -/
def createSession (r : Relay) (offer key : String) (id : ViewerId) :
    Except RelayError String × Relay :=
  match r.registry.live? key with
  | .error e => (.error e, r)
  | .ok sid =>
    match r.openConnection with
    | (.error e, r) => (.error e, r)
    | (.ok c, r) =>
      let codec := ((r.registry.stream? sid).map Stream.viewerCodec).getD .h264
      match (r.addViewer id key codec c).attachViewer sid id with
      | (false, r) => (.error (.streamNotActive key), r.dropViewer sid id)
      | (true, r) =>
        match r.negotiateSession c offer codec with
        | .ok answer => (.ok answer, r.updateViewer id Viewer.activate)
        | .error e => (.error e, r.dropViewer sid id)

/-! ### Layers -/

/-- The known layers of the stream that a viewer watches. -/
def listLayers (r : Relay) (id : ViewerId) : Except RelayError (List String) :=
  match (r.registry.findViewer? id).bind r.registry.stream? with
  | some s => .ok s.layers
  | none => .error (.sessionNotFound id)

/-- Selects a layer for a viewer and asks for a keyframe. -/
def setLayer (r : Relay) (id : ViewerId) (layer : String) : Except RelayError Unit × Relay :=
  match r.registry.findViewer? id with
  | none => (.error (.sessionNotFound id), r)
  | some sid =>
    (.ok (), (r.updateViewer id fun v => v.selectLayer layer).updateStream sid
      fun s => s.requestKeyframe.2)

end Relay

end Simulcast
