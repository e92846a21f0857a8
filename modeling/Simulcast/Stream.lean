import Simulcast.Broadcaster
import Simulcast.Keyframe
import Simulcast.Table
import Simulcast.Viewer
/-!
# Streams

The state of one stream: its layers in order of discovery, the keyframe requests,
the attached viewers, the broadcaster's connection, and counters.

A stream is claimed by one broadcaster at a time.  Claim, connection and release
are single steps on the stream; viewers are attached only while it is live.
-/

namespace Simulcast

/-- A stream. -/
structure Stream where
  key : String
  /-- Known layers, in order of discovery. -/
  layers : List String := []
  keyframes : KeyframeQueue
  /-- The attached viewers, longest attached first. -/
  viewers : List ViewerId := []
  phase : IngestPhase := .disconnected
  /-- The broadcaster's peer connection. -/
  connection : Option ConnectionId := none
  broadcaster : Option BroadcasterInfo := none
  /-- The codec of the first video track. -/
  videoCodec : Option Codec := none
  /-- Counters by layer. -/
  counters : Table String LayerCounters := .empty
  createdAt : Millis := 0

/-- What a release hands out. -/
structure Released where
  /-- The connection that was attached. -/
  connection : Option ConnectionId
  /-- Whether the broadcaster had been connected. -/
  wasConnected : Bool
  deriving DecidableEq, Repr

namespace Stream

/-- A stream that nobody has claimed. -/
def create (key : String) (queueCapacity : Nat) (now : Millis) : Stream :=
  { key, keyframes := { capacity := queueCapacity }, createdAt := now }

/-! ### Layers -/

/-- Whether a layer is known. -/
def hasLayer (s : Stream) (layer : String) : Bool := s.layers.contains layer

/-- Notes a layer; tells whether it is new. -/
def addLayer (s : Stream) (layer : String) : Bool × Stream :=
  if s.hasLayer layer then (false, s) else (true, { s with layers := s.layers ++ [layer] })

/-! ### Keyframe requests -/

/-- Asks for a keyframe; tells whether the request was queued. -/
def requestKeyframe (s : Stream) : Bool × Stream :=
  let (queued, keyframes) := s.keyframes.request
  (queued, { s with keyframes })

/-! ### The broadcaster's connection -/

/-- Whether a broadcaster holds the stream. -/
def hasPublisher (s : Stream) : Bool := s.phase.holdsStream

/-- Whether media flows. -/
def isLive (s : Stream) : Bool := s.phase = .connected

/-- Claims the stream for a broadcaster; none if it is held already. -/
def claim? (s : Stream) : Option Stream :=
  if s.hasPublisher then none else some { s with phase := .negotiating, connection := none }

/-- Records the broadcaster's connection. -/
def attachConnection (s : Stream) (c : ConnectionId) : Stream := { s with connection := some c }

/-- The broadcaster's answer is out; tells whether the stream was still being
negotiated. -/
def markConnected (s : Stream) (remote : Option SocketAddress) : Bool × Stream :=
  if s.phase = .negotiating then
    (true,
      { s with
        phase := .connected
        broadcaster := some ((s.broadcaster.getD {}).noteAddress remote) })
  else (false, s)

/-- Ends the broadcaster's hold on the stream; none if there was none. -/
def release? (s : Stream) : Option (Released × Stream) :=
  if s.hasPublisher then
    some (⟨s.connection, s.isLive⟩, { s with phase := .disconnected, connection := none })
  else none

/-! ### Viewers -/

/-- Attaches a viewer; refused unless the stream is live. -/
def attach (s : Stream) (id : ViewerId) : Bool × Stream :=
  if s.isLive then
    (true, { s with viewers := if id ∈ s.viewers then s.viewers else s.viewers ++ [id] })
  else (false, s)

/-- Removes a viewer; tells whether it was attached. -/
def detach (s : Stream) (id : ViewerId) : Bool × Stream :=
  (s.viewers.contains id, { s with viewers := s.viewers.filter (· ≠ id) })

/-- Removes all viewers and hands them out. -/
def drain (s : Stream) : List ViewerId × Stream := (s.viewers, { s with viewers := [] })

/-! ### Broadcaster details -/

/-- A track appeared.  Gives the broadcaster's details if the track changed them. -/
def observeTrack (s : Stream) (kind : MediaKind) (codec : Codec) :
    Option BroadcasterInfo × Stream :=
  let videoCodec := if kind = .video then s.videoCodec.or (some codec) else s.videoCodec
  let known := s.broadcaster.getD {}
  let changed := known.observe kind codec.mimeType
  (changed, { s with videoCodec, broadcaster := some (changed.getD known) })

/-- The codec for the video track of a new viewer. -/
def viewerCodec (s : Stream) : Codec := s.videoCodec.getD .h264

/-! ### Counters -/

/-- Counts one packet of a layer. -/
def recordPacket (s : Stream) (layer : String) (size : UInt64) (now : Millis) : Stream :=
  let counters := (s.counters.find? layer).getD { layer, since := now }
  { s with counters := s.counters.insert layer (counters.record size) }

/-- Where a layer stands among the known ones; unknown layers stand last. -/
def rank (s : Stream) (layer : String) : Nat := s.layers.idxOf layer

/-- The stream's state, with the counters in a given order sorted by discovery. -/
def reportOf (s : Stream) (counters : List LayerCounters) (now : Millis) : StreamReport where
  key := s.key
  phase := s.phase
  now := now
  uptime := now - s.createdAt
  viewers := s.viewers.length
  layers := counters.mergeSort fun a b => s.rank a.layer ≤ s.rank b.layer

/-- The stream's state at an instant. -/
def report (s : Stream) (now : Millis) : StreamReport := s.reportOf s.counters.values now

end Stream

end Simulcast
