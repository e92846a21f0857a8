import Simulcast.Stream
/-!
# Feeds

A feed reads one inbound video track, which is one layer of a stream.  Every packet
it reads goes to every attached viewer, together with the distance in time from the
packet that the same feed read before; the first packet has distance zero.  The
layer becomes known with the feed's first packet and stays known when the feed ends.
-/

namespace Simulcast

/-- An inbound video track that is being read. -/
structure Feed where
  stream : StreamId
  layer : String
  av1 : Bool
  /-- The timestamp of the last packet read. -/
  lastTimestamp : Option UInt32 := none
  deriving DecidableEq, Repr, Inhabited

namespace Feed

/-- A feed for a track with the given stream id and MIME type. -/
def ofTrack (stream : StreamId) (rid mimeType : String) : Feed :=
  { stream, layer := layerTag rid, av1 := isAv1 mimeType }

/-- The distance of a timestamp from the one read before. -/
def delta (f : Feed) (timestamp : UInt32) : UInt32 :=
  match f.lastTimestamp with
  | some previous => timestamp - previous
  | none => 0

/-- The feed after reading a packet. -/
def read (f : Feed) (p : Packet) : Feed := { f with lastTimestamp := some p.timestamp }

end Feed

namespace Stream

/-- What a packet read by a feed does to its stream: the first packet makes the layer
known, and every packet is counted. -/
def noteRead (s : Stream) (f : Feed) (p : Packet) (now : Millis) : Stream :=
  let s := if f.lastTimestamp.isNone then (s.addLayer f.layer).2 else s
  s.recordPacket f.layer p.payload.length.toUInt64 now

end Stream

/-- Offers a packet read by a feed to viewers, one after another. -/
def offerAll (f : Feed) (p : Packet) (viewers : Table ViewerId Viewer) (ids : List ViewerId) :
    Table ViewerId Viewer :=
  ids.foldl (fun vs id => vs.modify id fun v => (v.send p f.layer (f.delta p.timestamp) f.av1).2)
    viewers

end Simulcast
