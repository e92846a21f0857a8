import Simulcast.Relay.Broadcasting
import Simulcast.Relay.Forwarding
/-!
# Histories of a relay

Everything that can be asked of a relay as one type: what broadcasters, viewers and the
operator ask for, and what the running loops and the passing of time do.  Each operation
is complete before the next one begins, and a history is a list of them in any order.

The name of a new viewer is handed in with the operation that makes it;
`Relay.newViewers` lists the names that a history hands in.
-/

namespace Simulcast

/-- One complete operation. -/
inductive Operation where
  | ingest (offer key : String) (remote : Option SocketAddress)
  | createSession (offer key : String) (id : ViewerId)
  | setLayer (id : ViewerId) (layer : String)
  | listLayers (id : ViewerId)
  | disconnect (key : String)
  | shutdown
  | validate (key : String)
  | setKeys (keys : List String)
  | clearLastMatched (key : String)
  /-- A track of the broadcaster shows its codec. -/
  | observeTrack (sid : StreamId) (kind : MediaKind) (codec : Codec)
  | openFeed (sid : StreamId) (rid : String) (ssrc : UInt32) (mimeType : String)
      (canSend : Nat → Bool)
  | feedPacket (loop : LoopId) (p : Packet)
  | closeFeed (loop : LoopId)
  | serveKeyframes
  /-- What a viewer's sink will answer is up to its connection. -/
  | scriptSink (id : ViewerId) (answer : Nat → Option TransportFault)
  | tick (elapsed : Millis)

namespace Relay

/-- The relay after one operation. -/
def perform (r : Relay) : Operation → Relay
  | .ingest offer key remote => (r.ingest offer key remote).2
  | .createSession offer key id => (r.createSession offer key id).2
  | .setLayer id layer => (r.setLayer id layer).2
  | .listLayers _ => r
  | .disconnect key => r.disconnect key
  | .shutdown => r.shutdown
  | .validate key => (r.validate key).2
  | .setKeys keys => r.setKeys keys
  | .clearLastMatched key => r.clearLastMatched key
  | .observeTrack sid kind codec => r.updateStream sid fun s => (s.observeTrack kind codec).2
  | .openFeed sid rid ssrc mimeType canSend => (r.openFeed sid rid ssrc mimeType canSend).2
  | .feedPacket loop p => (r.feedPacket loop p).2
  | .closeFeed loop => (r.closeFeed loop).2
  | .serveKeyframes => r.serveKeyframes.2
  | .scriptSink id answer => r.updateViewer id fun v => { v with sink := { v.sink with answer } }
  | .tick elapsed => r.tick elapsed

/-- The relay after a history, oldest operation first. -/
def after (r : Relay) (ops : List Operation) : Relay := ops.foldl perform r

theorem after_cons (r : Relay) (op : Operation) (ops : List Operation) :
    r.after (op :: ops) = (r.perform op).after ops := rfl

/-- The name of the viewer that an operation makes. -/
def newViewer? : Operation → Option ViewerId
  | .createSession _ _ id => some id
  | _ => none

/-- The names that a history hands in. -/
def newViewers (ops : List Operation) : List ViewerId := ops.filterMap newViewer?

theorem newViewers_cons (op : Operation) (ops : List Operation) :
    newViewers (op :: ops) = (newViewer? op).toList ++ newViewers ops := by
  unfold newViewers
  cases h : newViewer? op with
  | none => rw [List.filterMap_cons_none h]; rfl
  | some id => rw [List.filterMap_cons_some h]; rfl

/-- Of names that are new and differ, the first ones are new, and the others are still new
once the first ones are known. -/
theorem new_of_append {known first rest : List ViewerId} (hnodup : (first ++ rest).Nodup)
    (hnew : ∀ id ∈ first ++ rest, id ∉ known) :
    (∀ id ∈ first, id ∉ known) ∧ rest.Nodup ∧ ∀ id ∈ rest, id ∉ first ++ known := by
  obtain ⟨-, hrest, hapart⟩ := List.nodup_append.mp hnodup
  refine ⟨fun id hid => hnew id (List.mem_append_left _ hid), hrest, fun id hid hmem => ?_⟩
  rcases List.mem_append.mp hmem with hm | hm
  · exact hapart id hm id hid rfl
  · exact hnew id (List.mem_append_right _ hid) hm

end Relay

end Simulcast
