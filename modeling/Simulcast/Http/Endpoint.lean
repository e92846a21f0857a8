import Simulcast.Document.LayerRequest
import Simulcast.Document.Status
import Simulcast.Http.Authorization
import Simulcast.Http.EventStream
import Simulcast.Http.Route
import Simulcast.Relay.Broadcasting
/-!
# Endpoints

What each request does to the relay and how it is answered.

| Method | Path               | Purpose                   |
|--------|--------------------|---------------------------|
| POST   | `/whip`            | a broadcaster's offer     |
| DELETE | `/whip`            | a broadcaster stops       |
| POST   | `/whep`            | a viewer's offer          |
| GET    | `/whep/sse/{id}`   | the layers of a stream    |
| POST   | `/whep/layer/{id}` | a viewer's layer          |
| GET    | `/status`          | the live streams          |
| GET    | `/status/{key}`    | the details of one stream |

Faults are found in a fixed order: the parameter of the path, the size of the body,
its encoding, the stream key, and then what the relay itself refuses.
-/

namespace Simulcast

namespace Http

/-! ### Bodies -/

/-- The largest body that is read. -/
def bodyLimit : Nat := 2097152

/-- The bytes of a body that is not too large. -/
def bodyBytes (req : Request) : Except Response (List UInt8) :=
  if bodyLimit < req.body.length then
    .error (.text 413 "Failed to buffer the request body: length limit exceeded")
  else .ok req.body

/-- The text of a body. -/
def bodyText (req : Request) : Except Response String :=
  match bodyBytes req with
  | .error response => .error response
  | .ok bytes =>
    match Utf8.decodeString bytes with
    | .ok text => .ok text
    | .error fault =>
      .error (.text 400 ("Request body didn't contain valid UTF-8: " ++ fault.message))

/-! ### Broadcasters -/

/-- The answer to a session description. -/
def sdpResponse (location answer : String) : Response :=
  { status := 201
    headers := [("location", location), ("content-type", "application/sdp")]
    body := answer }

/-- A broadcaster's offer. -/
def whipOffer (r : Relay) (req : Request) : Response × Relay :=
  match bodyText req with
  | .error response => (response, r)
  | .ok offer =>
    match bearerKey req.headers with
    | .error e => (.ofError e, r)
    | .ok key =>
      match r.ingest offer key req.peer with
      | (.ok answer, r) => (sdpResponse "/whip" answer, r)
      | (.error e, r) => (.ofError e, r)

/-- A broadcaster stops. -/
def whipDelete (r : Relay) (req : Request) : Response × Relay :=
  match bearerKey req.headers with
  | .error e => (.ofError e, r)
  | .ok key =>
    match r.validate key with
    | (false, r) => (.ofError .unauthorized, r)
    | (true, r) => ({ status := 200 }, r.disconnect key)

/-! ### Viewers -/

/-- Where a viewer finds its layers and chooses one. -/
def sessionLinks (id : ViewerId) : List (String × String) := [
  ("link", "</whep/sse/" ++ id ++
    ">; rel=\"urn:ietf:params:whep:ext:core:server-sent-events\"; events=\"layers\""),
  ("link", "</whep/layer/" ++ id ++ ">; rel=\"urn:ietf:params:whep:ext:core:layer\"")]

/-- A viewer's offer; the new viewer gets the given name. -/
def whepOffer (r : Relay) (req : Request) (id : ViewerId) : Response × Relay :=
  match bodyText req with
  | .error response => (response, r)
  | .ok offer =>
    match viewerKey req.headers with
    | .error e => (.ofError e, r)
    | .ok key =>
      match r.createSession offer key id with
      | (.ok answer, r) => ((sdpResponse "/whep" answer).withHeaders (sessionLinks id), r)
      | (.error e, r) => (.ofError e, r)

/-- The layers of a viewer's stream. -/
def whepLayers (r : Relay) (raw : String) : Response :=
  match pathParameter "session_id" raw with
  | .error response => response
  | .ok id =>
    match r.listLayers id with
    | .error e => .ofError e
    | .ok layers =>
      { status := 200
        headers := [("content-type", "text/event-stream"), ("cache-control", "no-cache")]
        body := event "layers" (layersData layers) }

/-- A viewer's layer. -/
def whepSelectLayer (r : Relay) (req : Request) (raw : String) : Response × Relay :=
  match pathParameter "session_id" raw with
  | .error response => (response, r)
  | .ok id =>
    match bodyBytes req with
    | .error response => (response, r)
    | .ok bytes =>
      match LayerRequest.decode bytes with
      | .error fault => (.ofError (.invalidRequest (fault.message bytes)), r)
      | .ok choice =>
        match r.setLayer id choice.encodingId with
        | (.ok (), r) => ({ status := 200 }, r)
        | (.error e, r) => (.ofError e, r)

/-! ### Status -/

/-- The live streams. -/
def statusList (r : Relay) : Response :=
  .json (Json.list (r.activeKeys.map fun key => StreamStatus.encode { streamKey := key }))

/-- The details of a stream at an instant. -/
def streamDetail (s : Stream) (now : Millis) : StreamDetail :=
  let report := s.report now
  { streamKey := report.key
    viewers := report.viewers.toUInt64
    uptimeSecs := report.uptime.seconds
    bitrate := report.bitrate
    hasVideo := (s.broadcaster.map BroadcasterInfo.hasVideo).getD false
    videoCodec := (s.broadcaster.map BroadcasterInfo.videoCodec).getD unknownCodec
    layers := report.layers.map fun c =>
      { encodingId := c.layer, packets := c.packets, bitrate := c.bitrate now } }

/-- The details of one stream. -/
def streamStatus (r : Relay) (raw : String) : Response :=
  match pathParameter "stream_key" raw with
  | .error response => response
  | .ok key =>
    match r.stream? key with
    | some s => .json (streamDetail s r.clock).encode
    | none => .ofError (.streamNotFound key)

/-! ### All requests -/

/-- Whether any origin may read a response; every response says so. -/
def corsHeaders : List (String × String) := [
  ("access-control-allow-origin", "*"),
  ("vary", "origin, access-control-request-method, access-control-request-headers")]

/-- The header that lists the methods of an endpoint. -/
def allowHeader (route : Route) : List (String × String) := [("allow", route.allow)]

/-- The answer to a preflight request. -/
def preflight (route : Option Route) : Response :=
  { status := 200
    headers := [("access-control-allow-methods", "*"), ("access-control-allow-headers", "*")] ++
      (route.map allowHeader).getD [] }

/-- What an endpoint answers to one of its methods. -/
def respond (r : Relay) (req : Request) (route : Route) (id : ViewerId) : Response × Relay :=
  match route with
  | .whip => if req.method = .post then whipOffer r req else whipDelete r req
  | .whep => whepOffer r req id
  | .layers session => (whepLayers r session, r)
  | .layer session => whepSelectLayer r req session
  | .status => (statusList r, r)
  | .streamStatus key => (streamStatus r key, r)

/-- What a path answers to any method but `OPTIONS`. -/
def dispatch (r : Relay) (req : Request) (id : ViewerId) : Response × Relay :=
  match Route.ofTarget? req.target with
  | none => ({ status := 404 }, r)
  | some route =>
    if req.method ∈ route.methods then
      let (response, r) := respond r req route id
      (if req.method = .head then response.withoutBody else response, r)
    else ({ status := 405, headers := allowHeader route }, r)

/-- Answers a request.  A viewer that it makes gets the given name. -/
def handle (r : Relay) (req : Request) (id : ViewerId) : Response × Relay :=
  if req.method = .options then
    ((preflight (Route.ofTarget? req.target)).withHeaders corsHeaders, r)
  else
    let (response, r) := dispatch r req id
    (response.withHeaders (("access-control-expose-headers", "*") :: corsHeaders), r)

end Http

end Simulcast
