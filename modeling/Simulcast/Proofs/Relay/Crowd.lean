import Simulcast.Proofs.Relay.Holds
/-!
# Viewers that come while a broadcast ends

Viewers come to a live stream, leave it again, and meanwhile its broadcast is torn down.
`Relay.Errand` says where one of these calls stands, and `Relay.Errand.step` is its next
step.  A viewer that comes takes its place in three steps: it takes the lock of the
stream's table, looks whether the stream is live, and is put into the table or refused,
which gives the lock back.  In between nobody else gets at the table
(`Relay.Errand.needsTable`), but the phase of the stream may change.

A connection that ends by itself is a call of its own (`Relay.Errand.leave`).  When
`Relay.closeViewer` ends one, its viewer is out of the table already, so nothing is done
without the lock (`Relay.Crowd.Sound.table_step`).

A viewer that comes alone does what `Relay.createSession` does (`Relay.goes_connect`).  The
steps of a teardown are those of `Relay.Stage`, so `Relay.finishes_release` says the same
of it.

`Relay.Crowd` is a relay with these calls, all about one stream.  It also keeps book, for
the statements about runs: which viewers were made, what each was answered when it asked
for a place, and who left the table.  The last is not written down by the steps; it is read
off the table before and after each of them.
-/

namespace Simulcast

namespace Stream

/-- Puts a viewer into the table, live or not. -/
def enlist (s : Stream) (id : ViewerId) : Stream :=
  { s with viewers := if id ∈ s.viewers then s.viewers else s.viewers ++ [id] }

theorem attach_eq (s : Stream) (id : ViewerId) :
    s.attach id = if s.isLive then (true, s.enlist id) else (false, s) := rfl

end Stream

namespace Registry

def isLive (g : Registry) (sid : StreamId) : Bool := ((g.stream? sid).map Stream.isLive).getD false

def table (g : Registry) (sid : StreamId) : List ViewerId :=
  ((g.stream? sid).map Stream.viewers).getD []

end Registry

namespace Relay

/-! ### One call -/

structure Guest where
  id : ViewerId
  offer : String
  codec : Codec
  connection : ConnectionId

/-- Where a call stands; each case is named for the step to come. -/
inductive Errand where
  | connect (offer : String) (id : ViewerId)
  | lock (guest : Guest)
  | check (guest : Guest)
  /-- The stream was looked at, and was live or not. -/
  | seat (guest : Guest) (live : Bool)
  | negotiate (guest : Guest)
  | activate (guest : Guest) (answer : String)
  | remove (guest : Guest) (e : RelayError)
  | close (id : ViewerId) (reply : Reply)
  /-- The connection of a viewer ended. -/
  | leave (id : ViewerId)
  | teardown (stage : Stage)
  | finished (reply : Reply)

namespace Errand

/-- What comes of a step: who was made, who got a place and who was refused one. -/
structure Turn where
  errand : Errand
  relay : Relay
  made : List ViewerId := []
  admitted : List ViewerId := []
  refused : List ViewerId := []

/-- The next step of a call about the stream `sid` under `key`. -/
def step (sid : StreamId) (key : String) (r : Relay) : Errand → Turn
  | connect offer id =>
    match r.openConnection with
    | (.error e, r) => { errand := finished (some (.error e)), relay := r }
    | (.ok c, r) =>
      let codec := ((r.registry.stream? sid).map Stream.viewerCodec).getD .h264
      { errand := lock ⟨id, offer, codec, c⟩, relay := r.addViewer id key codec c, made := [id] }
  | lock guest => { errand := check guest, relay := r }
  | check guest => { errand := seat guest (r.registry.isLive sid), relay := r }
  | seat guest true =>
    { errand := negotiate guest
      relay := (r.updateStream sid (·.enlist guest.id)).updateViewer guest.id
        fun v => { v with home := some sid }
      admitted := [guest.id] }
  | seat guest false =>
    { errand := remove guest (.streamNotActive key), relay := r, refused := [guest.id] }
  | negotiate guest =>
    match r.negotiateSession guest.connection guest.offer guest.codec with
    | .ok answer => { errand := activate guest answer, relay := r }
    | .error e => { errand := remove guest e, relay := r }
  | activate guest answer =>
    { errand := finished (some (.ok answer)), relay := r.updateViewer guest.id Viewer.activate }
  | remove guest e =>
    { errand := close guest.id (some (.error e))
      relay := r.updateStream sid fun s => (s.detach guest.id).2 }
  | close id reply => { errand := finished reply, relay := r.closeViewer id }
  | leave id =>
    if id ∈ r.registry.table sid then
      { errand := close id none, relay := r.updateStream sid fun s => (s.detach id).2 }
    else { errand := finished none, relay := r }
  | teardown stage =>
    { errand := teardown (stage.step r).stage, relay := (stage.step r).relay }
  | finished reply => { errand := finished reply, relay := r }

/-- The call has the lock of the table. -/
def holdsTable : Errand → Bool
  | check _ | seat _ _ => true
  | _ => false

/-- The next step of the call takes the lock of the table. -/
def needsTable : Errand → Bool
  | lock _ | remove _ _ | leave _ | teardown (.drain _) => true
  | _ => false

def isFinished : Errand → Bool
  | teardown stage => stage.isFinished
  | finished _ => true
  | _ => false

end Errand

/-! ### A viewer alone -/

inductive Goes (sid : StreamId) (key : String) : Relay → Errand → Relay → Errand → Prop where
  | refl (r : Relay) (errand : Errand) : Goes sid key r errand r errand
  | step {r r' : Relay} {errand errand' : Errand}
      (rest : Goes sid key (errand.step sid key r).relay (errand.step sid key r).errand
        r' errand') : Goes sid key r errand r' errand'

/-- **A viewer that comes alone** to a live stream does and is answered what
`Relay.createSession` does and answers. -/
theorem goes_connect {r : Relay} {sid : StreamId} {key : String}
    (hl : r.registry.live? key = .ok sid) (offer : String) (id : ViewerId) :
    Goes sid key r (.connect offer id) (r.createSession offer key id).2
      (.finished (some (r.createSession offer key id).1)) := by
  have hlive : r.registry.isLive sid = true := by
    unfold Registry.live? at hl
    split at hl
    · exact absurd hl (by simp)
    · split at hl
      · rename_i h
        obtain rfl := Except.ok.inj hl
        exact h
      · exact absurd hl (by simp)
  unfold createSession
  rw [hl]
  refine .step ?_
  obtain ⟨e, he⟩ | he := r.openConnection_cases
  · simp only [Errand.step, he]
    exact .refl _ _
  simp only [Errand.step, he]
  generalize ((r.registry.stream? sid).map Stream.viewerCodec).getD .h264 = codec
  have hadded : ∀ q : Relay,
      (q.addViewer id key codec r.connections.opened).registry = q.registry := fun q => rfl
  generalize hq : (({ r with connections := r.connections.openNext.2 } : Relay).addViewer id key
    codec r.connections.opened) = q
  have hreg : q.registry = r.registry := by rw [← hq, hadded]
  obtain ⟨s, hs, hsl⟩ : ∃ s, q.registry.stream? sid = some s ∧ s.isLive = true := by
    rw [Registry.isLive, ← hreg] at hlive
    cases hs : q.registry.stream? sid with
    | none => exact absurd hlive (by simp [hs])
    | some s => exact ⟨s, rfl, by simpa [hs] using hlive⟩
  -- the look at the phase and the place in the table are one step when nobody interferes
  have hseat : q.attachViewer sid id = (true,
      (q.updateStream sid (·.enlist id)).updateViewer id fun v => { v with home := some sid }) := by
    have hact : q.registry.act sid (·.attach id)
        = (some true, q.registry.update sid (·.enlist id)) := by
      rw [Registry.update, Registry.act_of_some hs, Registry.act_of_some hs, Stream.attach_eq,
        if_pos hsl]
    simp only [attachViewer, onRegistry, hact]
    rfl
  have hcheck : q.registry.isLive sid = true := hreg ▸ hlive
  refine .step (.step ?_)
  simp only [Errand.step, hcheck, hseat]
  refine .step (.step ?_)
  simp only [Errand.step]
  generalize (q.updateStream sid (·.enlist id)).updateViewer id
    (fun v => { v with home := some sid }) = p
  cases p.negotiateSession r.connections.opened offer codec with
  | ok answer => exact .step (.refl _ _)
  | error e => exact .step (.step (.refl _ _))

/-! ### Many calls -/

/-- A relay with the calls about one stream. -/
structure Crowd where
  relay : Relay
  calls : List Errand := []
  made : List ViewerId := []
  /-- The viewers that were told that they have a place. -/
  admitted : List ViewerId := []
  /-- The viewers that were told that they get none. -/
  refused : List ViewerId := []
  /-- The viewers that left the table. -/
  departed : List ViewerId := []

namespace Crowd

inductive Request where
  | join (offer : String) (id : ViewerId)
  | leave (id : ViewerId)
  | teardown

def Request.first (sid : StreamId) : Request → Errand
  | .join offer id => .connect offer id
  | .leave id => .leave id
  | .teardown => .teardown (.release sid none)

inductive Move where
  | enter (request : Request)
  | advance (call : CallId)

/-- The viewer that a move brings in. -/
def Move.newcomer? : Move → Option ViewerId
  | .enter (.join _ id) => some id
  | _ => none

variable (sid : StreamId) (key : String)

/-- A call took a step.  Who was in the table and is no more has left it. -/
def settle (b : Crowd) (j : CallId) (turn : Errand.Turn) : Crowd where
  relay := turn.relay
  calls := b.calls.set j turn.errand
  made := b.made ++ turn.made
  admitted := b.admitted ++ turn.admitted
  refused := b.refused ++ turn.refused
  departed := b.departed ++
    (b.relay.registry.table sid).filter (· ∉ turn.relay.registry.table sid)

def locked (b : Crowd) : Bool := b.calls.any Errand.holdsTable

/-- A call takes its next step, unless it has to wait for the lock. -/
def advance (b : Crowd) (j : CallId) : Crowd :=
  match b.calls[j]? with
  | some errand =>
    if errand.needsTable && b.locked then b else b.settle sid j (errand.step sid key b.relay)
  | none => b

def move (b : Crowd) : Move → Crowd
  | .enter request => { b with calls := b.calls ++ [request.first sid] }
  | .advance j => b.advance sid key j

def run (b : Crowd) (moves : List Move) : Crowd := moves.foldl (move sid key) b

end Crowd

end Relay

end Simulcast
