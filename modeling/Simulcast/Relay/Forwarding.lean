import Simulcast.Relay.Basic
/-!
# Forwarding

The running loops of a relay: feeds, which pass packets on to viewers, and keyframe
loops, which pass requests on to the broadcaster.  Every feed has a keyframe loop of
the same name that ends with it.
-/

namespace Simulcast

namespace Relay

/-! ### Keyframe loops -/

/-- Starts a keyframe loop on a stream. -/
def startKeyframeLoop (r : Relay) (sid : StreamId) (ssrc : UInt32) (canSend : Nat → Bool) :
    LoopId × Relay :=
  let id := r.nextLoop
  let r := r.updateStream sid fun s =>
    { s with keyframes := s.keyframes.join { id, ssrc, canSend } }
  (id, { r with nextLoop := id + 1 })

/-- Stops a keyframe loop. -/
def stopKeyframeLoop (r : Relay) (sid : StreamId) (id : LoopId) : Relay :=
  r.updateStream sid fun s => { s with keyframes := s.keyframes.leave id }

/-- Whether a keyframe loop is running. -/
def isKeyframeLoopRunning (r : Relay) (sid : StreamId) (id : LoopId) : Bool :=
  ((r.registry.stream? sid).map fun s => s.keyframes.isWaiting id).getD false

/-- Serves the waiting keyframe requests of every stream. -/
def serveKeyframes (r : Relay) : List KeyframeAttempt × Relay :=
  let served := r.registry.streams.map fun s =>
    (s.keyframes.serve.1, { s with keyframes := s.keyframes.serve.2 })
  (served.flatMap Prod.fst,
    { r with registry := { r.registry with streams := served.map Prod.snd } })

/-! ### Feeds -/

/-- Starts to read an inbound video track of a stream. -/
def openFeed (r : Relay) (sid : StreamId) (rid : String) (ssrc : UInt32) (mimeType : String)
    (canSend : Nat → Bool) : LoopId × Relay :=
  let (id, r) := r.startKeyframeLoop sid ssrc canSend
  (id, { r with feeds := r.feeds.insert id (Feed.ofTrack sid rid mimeType) })

/-- Passes on one packet of a feed to the given viewers. -/
def forwardTo (r : Relay) (id : LoopId) (f : Feed) (p : Packet) (viewers : List ViewerId) : Relay :=
  let r := r.updateStream f.stream fun s => s.noteRead f p r.clock
  { r with
    viewers := offerAll f p r.viewers viewers
    feeds := r.feeds.insert id (f.read p) }

/-- A feed reads a packet; tells whether the feed is running. -/
def feedPacket (r : Relay) (id : LoopId) (p : Packet) : Bool × Relay :=
  match r.feeds.find? id with
  | none => (false, r)
  | some f =>
    let viewers := ((r.registry.stream? f.stream).map Stream.viewers).getD []
    (true, r.forwardTo id f p viewers)

/-- The track of a feed ends; tells whether the feed was running. -/
def closeFeed (r : Relay) (id : LoopId) : Bool × Relay :=
  match r.feeds.find? id with
  | none => (false, r)
  | some f => (true, { r.stopKeyframeLoop f.stream id with feeds := r.feeds.erase id })

end Relay

end Simulcast
