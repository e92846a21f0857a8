import Simulcast.Relay.Viewing
/-!
# Broadcasting

How broadcasts go on air and end.  A broadcaster presents a stream key and a session
description.  The key is checked, the stream claimed, a connection made and the
description answered; then the stream is live.  Whatever fails after the claim is
undone by the same teardown that ends a broadcast.

Teardown acts only for the caller that released the stream, so it happens once per
claim: the connection is closed, the remembered key is forgotten, all viewers are
closed, and the outside is told if the broadcast had been on air.
-/

namespace Simulcast

namespace Relay

/-! ### Ending -/

/-- Closes the connection that a release handed out. -/
def closeReleased (r : Relay) (released : Released) : Relay :=
  match released.connection with
  | some c => r.closeConnection c
  | none => r

/-- Takes all viewers out of a stream. -/
def drainViewers (r : Relay) (sid : StreamId) : List ViewerId × Relay :=
  match r.onRegistry (·.act sid Stream.drain) with
  | (some ids, r) => (ids, r)
  | (none, r) => ([], r)

/-- What follows the release of a stream. -/
def finishTeardown (r : Relay) (sid : StreamId) (key : String) (released : Released) : Relay :=
  let r := (r.closeReleased released).clearLastMatched key
  let (ids, r) := r.drainViewers sid
  let r := ids.foldl closeViewer r
  if released.wasConnected then r.notify (.disconnected key) else r

/-- Ends the broadcast of a stream; nothing happens if no broadcaster holds it. -/
def teardown (r : Relay) (sid : StreamId) : Relay :=
  match r.registry.stream? sid with
  | none => r
  | some s =>
    match r.onRegistry (·.release sid) with
    | (some released, r) => r.finishTeardown sid s.key released
    | (none, r) => r

/-- Ends the broadcast under a key. -/
def disconnect (r : Relay) (key : String) : Relay :=
  match r.registry.find? key with
  | some sid => r.teardown sid
  | none => r

/-- Ends every broadcast. -/
def shutdown (r : Relay) : Relay := r.registry.registered.foldl teardown r

/-! ### Going on air -/

/-- Makes the broadcaster's connection, attaches it to the stream and answers the
session description. -/
def negotiateIngest (r : Relay) (sid : StreamId) (offer : String) :
    Except RelayError String × Relay :=
  match r.openConnection with
  | (.error e, r) => (.error e, r)
  | (.ok c, r) =>
    ((r.answerOffer ⟨.broadcaster, c, offer⟩).map Agreement.answer,
      r.updateStream sid (·.attachConnection c))

/-- The broadcaster's answer is out; tells whether the stream was still being
negotiated. -/
def markConnected (r : Relay) (sid : StreamId) (remote : Option SocketAddress) : Bool × Relay :=
  match r.onRegistry (·.act sid (·.markConnected remote)) with
  | (some connected, r) => (connected, r)
  | (none, r) => (false, r)

/-- Takes a broadcaster on air. -/
def ingest (r : Relay) (offer key : String) (remote : Option SocketAddress) :
    Except RelayError String × Relay :=
  match r.validate key with
  | (false, r) => (.error .unauthorized, r)
  | (true, r) =>
    match r.onRegistry (·.claim key r.clock) with
    | (.error e, r) => (.error e, r)
    | (.ok sid, r) =>
      match r.negotiateIngest sid offer with
      | (.error e, r) => (.error e, r.teardown sid)
      | (.ok answer, r) =>
        match r.markConnected sid remote with
        | (false, r) => (.error (.streamNotActive key), r)
        | (true, r) => (.ok answer, r.notify (.connected key))

end Relay

end Simulcast
