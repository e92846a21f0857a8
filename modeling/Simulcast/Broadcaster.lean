import Simulcast.Address
import Simulcast.Codec
/-!
# Broadcaster details

What is known of the current broadcaster, gathered from its tracks as they appear.
A codec is set once, by the first track of its kind whose codec has a name; later
tracks leave it alone.
-/

namespace Simulcast

/-- Details of a broadcaster. -/
structure BroadcasterInfo where
  /-- Where the broadcaster's offer came from. -/
  remote : Option SocketAddress := none
  audioCodec : String := unknownCodec
  videoCodec : String := unknownCodec
  width : Option UInt32 := none
  height : Option UInt32 := none
  /-- Video bitrate in kilobits per second. -/
  videoBitrate : Option UInt32 := none
  /-- Video frames per second. -/
  frameRate : Option UInt32 := none
  deriving DecidableEq, Repr, Inhabited

namespace BroadcasterInfo

/-- The codec name that a track settles: none if the codec is known already or if
the track's codec has no name. -/
def settles (known mimeType : String) : Option String :=
  if known = unknownCodec ∧ codecName mimeType ≠ unknownCodec then some (codecName mimeType)
  else none

/-- The details after a track was seen, or none if it changes nothing. -/
def observe (info : BroadcasterInfo) (kind : MediaKind) (mimeType : String) :
    Option BroadcasterInfo :=
  match kind with
  | .audio => (settles info.audioCodec mimeType).map fun name => { info with audioCodec := name }
  | .video => (settles info.videoCodec mimeType).map fun name => { info with videoCodec := name }
  | .unspecified => none

/-- Whether a video codec is known. -/
def hasVideo (info : BroadcasterInfo) : Bool := info.videoCodec != unknownCodec

/-- Keeps the first address that is given. -/
def noteAddress (info : BroadcasterInfo) (remote : Option SocketAddress) : BroadcasterInfo :=
  { info with remote := info.remote.orElse fun _ => remote }

end BroadcasterInfo

end Simulcast
