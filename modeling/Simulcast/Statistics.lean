import Simulcast.Phase
/-!
# Statistics

Counters of a viewer, of a layer and of a stream.  Counters are 64 bits wide.
Times are milliseconds; a bitrate counts whole seconds only and is zero before the
first one is over.
-/

namespace Simulcast

/-- An instant or a length of time, in milliseconds. -/
abbrev Millis := Nat

/-- Whole seconds in a length of time. -/
def Millis.seconds (t : Millis) : UInt64 := (t / 1000).toUInt64

/-- Bits per second for a number of bytes in a length of time. -/
def bitrate (bytes : UInt64) (elapsed : Millis) : UInt64 :=
  if elapsed.seconds = 0 then 0 else bytes * 8 / elapsed.seconds

/-! ### Viewers -/

/-- What happened to the packets offered to a viewer. -/
structure ViewerCounters where
  /-- Packets the viewer's sink accepted. -/
  sent : UInt64 := 0
  /-- Packets dropped because they belong to another layer. -/
  filtered : UInt64 := 0
  /-- Failed writes, closed bindings excepted. -/
  writeErrors : UInt64 := 0
  /-- How often a layer was selected. -/
  layerSwitches : UInt64 := 0
  deriving DecidableEq, Repr, Inhabited

/-- The share of the offered packets that were delivered. -/
def ViewerCounters.deliveryRatio (c : ViewerCounters) : Float :=
  let total := c.sent + c.filtered
  if total = 0 then 0.0 else c.sent.toFloat / total.toFloat

/-! ### Layers -/

/-- What was received on one layer. -/
structure LayerCounters where
  layer : String
  packets : UInt64 := 0
  /-- Payload bytes. -/
  bytes : UInt64 := 0
  /-- When the first packet arrived. -/
  since : Millis := 0
  deriving DecidableEq, Repr, Inhabited

namespace LayerCounters

/-- Counts one packet. -/
def record (c : LayerCounters) (size : UInt64) : LayerCounters :=
  { c with packets := c.packets + 1, bytes := c.bytes + size }

/-- The layer's bitrate at an instant. -/
def bitrate (c : LayerCounters) (now : Millis) : UInt64 :=
  Simulcast.bitrate c.bytes (now - c.since)

end LayerCounters

/-! ### Streams -/

/-- The state of a stream at an instant. -/
structure StreamReport where
  key : String
  phase : IngestPhase
  /-- When the report was made. -/
  now : Millis
  /-- How long the stream has existed. -/
  uptime : Millis
  /-- The number of attached viewers. -/
  viewers : Nat
  /-- Known layers in order of discovery, then the others. -/
  layers : List LayerCounters
  deriving DecidableEq, Repr, Inhabited

namespace StreamReport

/-- Payload bytes of all layers. -/
def totalBytes (r : StreamReport) : UInt64 :=
  (r.layers.map LayerCounters.bytes).foldl (· + ·) 0

/-- The bitrate of all layers together. -/
def bitrate (r : StreamReport) : UInt64 :=
  Simulcast.bitrate r.totalBytes r.uptime

end StreamReport

end Simulcast
