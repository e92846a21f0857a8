import Simulcast.Address
import Simulcast.Statistics
/-!
# Settings

What a relay is started with.
-/

namespace Simulcast

/-- The settings of a relay. -/
structure Settings where
  /-- Where requests are listened for. -/
  bind : SocketAddress := { host := .v4 0 0 0 0, port := 8080 }
  /-- The one port that all media connections share, if they share one. -/
  udpMuxPort : Option UInt16 := some 50137
  /-- Public addresses that stand for the local ones. -/
  natHosts : List String := []
  /-- Servers that help to find a path to the peer. -/
  iceServers : List String := []
  streamKeys : List String := []
  temporaryKey : Option String := none
  gatheringTimeout : Millis := 10000
  /-- How many keyframe requests a stream may queue. -/
  queueCapacity : Nat := 50
  deriving DecidableEq, Repr

namespace Settings

instance : Inhabited Settings := ⟨{}⟩

/-- Adds a server. -/
def addIceServer (s : Settings) (url : String) : Settings :=
  { s with iceServers := s.iceServers ++ [url] }

/-- Sets the length of the keyframe queue, which is at least one. -/
def withQueueCapacity (s : Settings) (capacity : Nat) : Settings :=
  { s with queueCapacity := max capacity 1 }

theorem one_le_withQueueCapacity (s : Settings) (n : Nat) :
    1 ≤ (s.withQueueCapacity n).queueCapacity := Nat.le_max_right n 1

end Settings

end Simulcast
