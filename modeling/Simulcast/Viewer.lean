import Simulcast.Codec
import Simulcast.Connection
import Simulcast.Packet
import Simulcast.Statistics
import Simulcast.TransportFault
/-!
# Viewers

A viewer receives one layer of one stream.  It owns its outbound timeline: sequence
numbers count up by one and timestamps grow by the distance that the source layer
reports, so that the viewer sees one continuous stream whichever layer feeds it.

Until a layer is selected, the layer of the first packet is adopted.  Packets of
other layers are dropped without touching the timeline.  A packet moves the timeline
before it is written, so a failed write uses up its sequence number.
-/

namespace Simulcast

/-- The name of a viewer's session. -/
abbrev ViewerId := String

/-- The name of a stream object. -/
abbrev StreamId := Nat

/-! ### Sinks -/

/-- A packet handed to a sink, with the fault that the sink answered, if any. -/
structure Delivery where
  packet : Packet
  fault : Option TransportFault
  deriving DecidableEq, Repr, Inhabited

/-- Where packets are written to. -/
structure Sink where
  /-- The answer to the write with a number, from zero on; none means accepted. -/
  answer : Nat → Option TransportFault := fun _ => none
  /-- All packets handed over so far, oldest first. -/
  deliveries : Array Delivery := #[]

namespace Sink

instance : Inhabited Sink := ⟨{}⟩

/-- The answer to the next write. -/
def nextAnswer (s : Sink) : Option TransportFault := s.answer s.deliveries.size

/-- Hands over a packet. -/
def write (s : Sink) (p : Packet) : Option TransportFault × Sink :=
  (s.nextAnswer, { s with deliveries := s.deliveries.push ⟨p, s.nextAnswer⟩ })

/-- All packets handed over, oldest first. -/
def handed (s : Sink) : List Packet := s.deliveries.toList.map (·.packet)

/-- The packets that were accepted, oldest first. -/
def accepted (s : Sink) : List Packet :=
  (s.deliveries.toList.filter (·.fault.isNone)).map (·.packet)

@[simp]
theorem handed_write (s : Sink) (p : Packet) : (s.write p).2.handed = s.handed ++ [p] := by
  simp [write, handed]

end Sink

/-! ### Timelines -/

/-- The last sequence number and timestamp that went out. -/
structure Timeline where
  sequenceNumber : UInt16 := 0
  timestamp : UInt32 := 50000
  deriving DecidableEq, Repr, Inhabited

namespace Timeline

/-- One packet further, by the given distance in time. -/
def advance (t : Timeline) (delta : UInt32) : Timeline :=
  { sequenceNumber := t.sequenceNumber + 1, timestamp := t.timestamp + delta }

/-- A packet placed on the timeline. -/
def place (t : Timeline) (p : Packet) : Packet :=
  { p with sequenceNumber := t.sequenceNumber, timestamp := t.timestamp }

end Timeline

/-! ### Viewers -/

/-- A viewer. -/
structure Viewer where
  id : ViewerId
  streamKey : String
  /-- The codec of the viewer's video track. -/
  videoCodec : Codec := .h264
  /-- The layer in force. -/
  layer : Option String := none
  timeline : Timeline := {}
  phase : ViewerPhase := .negotiating
  connection : Option ConnectionId := none
  /-- The stream that the viewer leaves when its connection closes. -/
  home : Option StreamId := none
  counters : ViewerCounters := {}
  sink : Sink := {}
  deriving Inhabited

namespace Viewer

/-- Selects a layer. -/
def selectLayer (v : Viewer) (layer : String) : Viewer :=
  { v with
    layer := some layer
    counters := { v.counters with layerSwitches := v.counters.layerSwitches + 1 } }

/-- Negotiation succeeded. -/
def activate (v : Viewer) : Viewer := { v with phase := v.phase.activate }

/-- The viewer leaves and gives up its connection. -/
def close (v : Viewer) : Option ConnectionId × Viewer :=
  (v.connection, { v with phase := v.phase.close, connection := none })

/-- Whether packets of a layer are for this viewer. -/
def accepts (v : Viewer) (layer : String) : Bool :=
  match v.layer with
  | some current => current = layer
  | none => true

/-- What a viewer is handed for a source packet: the packet on the viewer's timeline.
AV1 header extensions describe the layers of the source and are left out. -/
def outbound (t : Timeline) (p : Packet) (av1 : Bool) : Packet :=
  let placed := t.place p
  if av1 then placed.withoutExtensions else placed

/-- The viewer after a write was answered, and what the sender is told: whether the
packet was delivered, or the fault.  A closed binding is no fault. -/
def settle (v : Viewer) (answer : Option TransportFault) : Except TransportFault Bool × Viewer :=
  match answer with
  | none => (.ok true, { v with counters := { v.counters with sent := v.counters.sent + 1 } })
  | some fault =>
    if fault.isClosedPipe then (.ok false, v)
    else
      (.error fault,
        { v with counters := { v.counters with writeErrors := v.counters.writeErrors + 1 } })

/-- Offers a source packet of a layer to the viewer. -/
def send (v : Viewer) (p : Packet) (layer : String) (delta : UInt32) (av1 : Bool) :
    Except TransportFault Bool × Viewer :=
  if v.accepts layer then
    let timeline := v.timeline.advance delta
    let (answer, sink) := v.sink.write (outbound timeline p av1)
    { v with layer := some layer, timeline, sink }.settle answer
  else
    (.ok false, { v with counters := { v.counters with filtered := v.counters.filtered + 1 } })

end Viewer

end Simulcast
