/-!
# Transport faults

What can go wrong on a media transport, and the two questions that the relay loops
ask about it: whether the other end merely went away, and whether only one
viewer's binding is closed.  The closed pipe is the one fault that is both.
-/

namespace Simulcast

/-- A fault of the media transport. -/
inductive TransportFault where
  /-- The outbound binding is closed. -/
  | closedPipe
  /-- The connection is closed. -/
  | connectionClosed
  /-- The receive buffer is closed. -/
  | bufferClosed
  /-- The receive buffer is full. -/
  | bufferFull
  /-- No remote description was applied. -/
  | noRemoteDescription
  /-- The other end does not understand the codec of a track. -/
  | unsupportedCodec
  /-- The public addresses contradict each other or are none. -/
  | natMapping
  /-- Any other fault, with its text. -/
  | other (text : String)
  deriving DecidableEq, Repr, Inhabited

namespace TransportFault

/-- The text of a fault. -/
def message : TransportFault → String
  | closedPipe => "DataChannel is not opened"
  | connectionClosed => "connection closed"
  | bufferClosed => "buffer: closed"
  | bufferFull => "buffer: full"
  | noRemoteDescription => "remote description is not set"
  | unsupportedCodec => "unable to start track, codec is not supported by remote"
  | natMapping => "invalid 1:1 NAT IP mapping"
  | other text => text

/-- The fault only says that the other end went away. -/
def endsStream : TransportFault → Bool
  | closedPipe | connectionClosed | bufferClosed => true
  | _ => false

/-- The fault only concerns one closed viewer binding. -/
def isClosedPipe : TransportFault → Bool
  | closedPipe => true
  | _ => false

theorem isClosedPipe_iff {f : TransportFault} : f.isClosedPipe = true ↔ f = .closedPipe := by
  cases f <;> simp [isClosedPipe]

/-- A closed pipe always ends a stream. -/
theorem endsStream_of_isClosedPipe {f : TransportFault} (h : f.isClosedPipe = true) :
    f.endsStream = true := by
  cases f <;> simp_all [isClosedPipe, endsStream]

end TransportFault

end Simulcast
