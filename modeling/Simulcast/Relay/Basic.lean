import Simulcast.Feed
import Simulcast.IceServer
import Simulcast.NatMapping
import Simulcast.Negotiation
import Simulcast.Registry
import Simulcast.Settings
import Simulcast.StreamKey
/-!
# The relay

The whole state of a running relay as one value: the settings, the stream keys, the
registry, all viewers and peer connections ever made, and the notices given to the
outside.

What the relay cannot decide by itself comes from outside: what an attempt to
negotiate comes to is a function of the attempt, time is a clock that `tick` moves, and
names of new viewers are handed in by the caller.
-/

namespace Simulcast

/-- What the outside is told. -/
inductive Notice where
  /-- A broadcast went on air. -/
  | connected (key : String)
  /-- A broadcast that was on air ended. -/
  | disconnected (key : String)
  deriving DecidableEq, Repr, Inhabited

/-- A running relay. -/
structure Relay where
  settings : Settings
  /-- What an attempt to negotiate comes to. -/
  negotiate : Attempt → Except RelayError Agreement
  validator : KeyValidator
  registry : Registry
  /-- Every viewer ever made. -/
  viewers : Table ViewerId Viewer := .empty
  connections : ConnectionPool := {}
  /-- The inbound layers that are being read. -/
  feeds : Table LoopId Feed := .empty
  /-- The name of the next loop. -/
  nextLoop : LoopId := 0
  clock : Millis := 0
  /-- Notices given so far, oldest first. -/
  notices : List Notice := []

namespace Relay

/-- A relay without streams. -/
def start (settings : Settings) (negotiate : Attempt → Except RelayError Agreement) : Relay where
  settings := settings
  negotiate := negotiate
  validator := .withTemporaryKey settings.streamKeys settings.temporaryKey
  registry := { queueCapacity := settings.queueCapacity }

/-- Time passes. -/
def tick (r : Relay) (elapsed : Millis) : Relay := { r with clock := r.clock + elapsed }

/-! ### Steps on the parts -/

/-- Runs one step on the registry. -/
def onRegistry {α : Type} (r : Relay) (step : Registry → α × Registry) : α × Relay :=
  ((step r.registry).1, { r with registry := (step r.registry).2 })

/-- Changes a stream. -/
def updateStream (r : Relay) (id : StreamId) (change : Stream → Stream) : Relay :=
  { r with registry := r.registry.update id change }

/-- Changes a viewer. -/
def updateViewer (r : Relay) (id : ViewerId) (change : Viewer → Viewer) : Relay :=
  { r with viewers := r.viewers.modify id change }

/-- Tells the outside. -/
def notify (r : Relay) (n : Notice) : Relay := { r with notices := r.notices ++ [n] }

/-- Checks a stream key and remembers it if it is accepted. -/
def validate (r : Relay) (key : String) : Bool × Relay :=
  ((r.validator.validate key).1, { r with validator := (r.validator.validate key).2 })

/-- Replaces the configured stream keys. -/
def setKeys (r : Relay) (keys : List String) : Relay :=
  { r with validator := r.validator.setKeys keys }

/-- Forgets the remembered stream key if it is the given one. -/
def clearLastMatched (r : Relay) (key : String) : Relay :=
  { r with validator := r.validator.clearLastMatched key }

/-- Makes a peer connection, if every server can be used. -/
def openConnection (r : Relay) : Except RelayError ConnectionId × Relay :=
  match r.settings.iceServers.findSome? IceServer.fault with
  | some fault => (.error (.webRtc (.other fault.message)), r)
  | none => (.ok r.connections.openNext.1, { r with connections := r.connections.openNext.2 })

/-- Answers a session description.  The public addresses are looked at last: they matter
only for an answer. -/
def answerOffer (r : Relay) (attempt : Attempt) : Except RelayError Agreement :=
  match r.negotiate attempt with
  | .error e => .error e
  | .ok agreement =>
    if (NatMapping.ofEntries? r.settings.natHosts).isSome then .ok agreement
    else .error (.webRtc .natMapping)

/-- Closes a peer connection. -/
def closeConnection (r : Relay) (c : ConnectionId) : Relay :=
  { r with connections := r.connections.close c }

/-! ### Looking -/

/-- The keys of the live streams, in order. -/
def activeKeys (r : Relay) : List String := r.registry.activeKeys

/-- The registered stream under a key. -/
def stream? (r : Relay) (key : String) : Option Stream :=
  (r.registry.find? key).bind r.registry.stream?

/-- The state of the registered stream under a key. -/
def streamReport? (r : Relay) (key : String) : Option StreamReport :=
  (r.stream? key).map (·.report r.clock)

end Relay

end Simulcast
