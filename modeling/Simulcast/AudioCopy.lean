import Simulcast.Viewer
/-!
# Copying audio

All viewers share one outbound audio track, so audio packets are copied as they are.
The copy goes on until the source ends or a write fails for another reason than a
closed binding.
-/

namespace Simulcast

/-- An inbound audio track: its packets, and the fault that ends it. -/
structure AudioSource where
  packets : List Packet
  fault : TransportFault
  deriving DecidableEq, Repr

/-- How a copy ended. -/
structure AudioCopy where
  /-- Packets that the sink accepted. -/
  relayed : UInt64
  /-- The sink with all packets handed over. -/
  sink : Sink
  /-- What is left of the source; none if its end was reached. -/
  rest : Option AudioSource

namespace AudioCopy

/-- Copies packets to a sink, after `relayed` accepted ones. -/
def runFrom (relayed : UInt64) (sink : Sink) (fault : TransportFault) : List Packet → AudioCopy
  | [] => { relayed, sink, rest := none }
  | p :: packets =>
    match sink.write p with
    | (none, sink) => runFrom (relayed + 1) sink fault packets
    | (some f, sink) =>
      if f.isClosedPipe then runFrom relayed sink fault packets
      else { relayed, sink, rest := some { packets, fault } }

/-- Copies a source to a sink. -/
def run (source : AudioSource) (sink : Sink) : AudioCopy :=
  runFrom 0 sink source.fault source.packets

end AudioCopy

end Simulcast
