/-!
# Media packets

An RTP packet: all fields of the header, those that the relay rewrites and those that it
passes on, and the payload.
-/

namespace Simulcast

/-- An RTP packet. -/
structure Packet where
  version : UInt8 := 2
  /-- The payload ends in padding. -/
  padding : Bool := false
  /-- The marker bit, which closes a frame. -/
  marker : Bool := false
  payloadType : UInt8 := 0
  sequenceNumber : UInt16 := 0
  timestamp : UInt32 := 0
  /-- Synchronization source. -/
  ssrc : UInt32 := 0
  /-- Contributing sources. -/
  csrc : List UInt32 := []
  /-- Header extensions are present. -/
  hasExtensions : Bool := false
  extensionProfile : UInt16 := 0
  /-- Extension elements, each with its id. -/
  extensions : List (UInt8 × List UInt8) := []
  /-- How many bytes fill up the extension elements. -/
  extensionPadding : Nat := 0
  payload : List UInt8 := []
  deriving DecidableEq, Repr, Inhabited

namespace Packet

/-- The packet without header extensions. -/
def withoutExtensions (p : Packet) : Packet :=
  { p with hasExtensions := false, extensionProfile := 0, extensions := [] }

end Packet

end Simulcast
