import Simulcast.Http.Endpoint
import Simulcast.Proofs.Document.Status
import Simulcast.Proofs.Http.EventStream
import Simulcast.Proofs.Relay.Accounts
import Simulcast.Proofs.Statistics.Bitrates
import Simulcast.Proofs.Stream.Tally
/-!
# What is listed is what was read

The layers of a stream are listed twice: viewers are sent the list of known layers, and the
status of the stream has the counters.  Nothing but reading writes into these two books
(`Relay.SameBooks`, for every step of every call and for all that viewers do), and a packet
that is read is noted in both.  That takes an argument: a feed notes its layer with its first
packet only.  But a feed that has read before finds its layer noted (`Relay.Stocked.fed`), so it
may as well note it with every packet: `Relay.noteRead_eq_noted`.

So both lists tell which packets were read, and `Relay.Listed` says how.  Bytes show in the
status of a stream as bitrates only, so what it tells of them depends on when the packets were
read as well (`Relay.Details`).
-/

namespace Simulcast

/-! ### The books of all streams -/

namespace Registry

variable {g : Registry} {sid : StreamId} {s : Stream}

/-- The books of a stream object; nothing is noted of an object that there is not. -/
def books (g : Registry) (sid : StreamId) : Stream.Books :=
  ((g.stream? sid).map Stream.books).getD {}

theorem books_of_stream? (h : g.stream? sid = some s) : g.books sid = s.books := by
  rw [books, h]
  rfl

/-- Nothing is noted, and no stream object is lost. -/
structure SameBooks (g g' : Registry) : Prop where
  books : ∀ sid, g'.books sid = g.books sid
  stream? : ∀ sid, (g.stream? sid).isSome = true → (g'.stream? sid).isSome = true

theorem SameBooks.refl (g : Registry) : g.SameBooks g := ⟨fun _ => rfl, fun _ h => h⟩

theorem SameBooks.trans {g' g'' : Registry} (h : g.SameBooks g') (h' : g'.SameBooks g'') :
    g.SameBooks g'' :=
  ⟨fun sid => (h'.books sid).trans (h.books sid), fun sid hs => h'.stream? sid (h.stream? sid hs)⟩

theorem sameBooks_of_stream? {g' : Registry} (h : ∀ sid, g'.stream? sid = g.stream? sid) :
    g.SameBooks g' :=
  ⟨fun sid => by rw [books, books, h], fun sid hs => by rw [h, hs]⟩

theorem sameBooks_put (hs : g.stream? sid = some s) {t : Stream} (ht : t.books = s.books) :
    g.SameBooks (g.put sid t) := by
  refine ⟨fun j => ?_, fun j hj => ?_⟩
  · rw [books, books, stream?_put_of_some hs]
    split
    · rename_i hj
      rw [hj, hs]
      exact ht
    · rfl
  · rw [stream?_put_of_some hs]
    split
    · rfl
    · exact hj

theorem sameBooks_act {α : Type} (g : Registry) (sid : StreamId) {step : Stream → α × Stream}
    (h : ∀ s, (step s).2.books = s.books) : g.SameBooks (g.act sid step).2 := by
  cases hs : g.stream? sid with
  | none =>
    rw [act_of_none hs]
    exact .refl g
  | some s =>
    rw [act_of_some hs]
    exact sameBooks_put hs (h s)

theorem sameBooks_forget (g : Registry) (sid : StreamId) : g.SameBooks (g.forget sid) :=
  sameBooks_of_stream? fun _ => stream?_forget ..

theorem sameBooks_beginRelease (g : Registry) (sid : StreamId) :
    g.SameBooks (g.beginRelease sid).2 := by
  obtain ⟨he, -⟩ | ⟨s, hs, -, he⟩ := g.beginRelease_cases sid
  · rw [he]
    exact .refl g
  · rw [he]
    exact sameBooks_put hs rfl

/-- A stream object that is made has nothing in its books. -/
theorem sameBooks_enroll (g : Registry) (key : String) (h : s.books = {}) :
    g.SameBooks (g.enroll key s) := by
  refine ⟨fun j => ?_, fun j hj => ?_⟩
  · rw [books, books, stream?_enroll]
    split
    · rename_i hj
      rw [hj, stream?_length]
      exact h
    · rfl
  · rw [stream?_enroll]
    split
    · rfl
    · exact hj

theorem sameBooks_claim (g : Registry) (key : String) (now : Millis) :
    g.SameBooks (g.claim key now).2 := by
  cases hf : g.find? key with
  | none =>
    rw [claim_of_find?_eq_none hf]
    exact g.sameBooks_enroll key rfl
  | some id =>
    cases hs : g.stream? id with
    | none =>
      have hget : g.getOrCreate key now = (id, g) := by rw [getOrCreate, hf]
      rw [claim, hget]
      simp only [hs, Option.bind_none]
      exact .refl g
    | some s =>
      rw [claim_of_find?_eq_some hf hs]
      split
      · exact .refl g
      · exact sameBooks_put hs rfl

end Registry

namespace Relay

variable {r q : Relay}

/-! ### What is done beside the books -/

/-- Nothing is noted, and no feed is touched. -/
structure SameBooks (r q : Relay) : Prop where
  feeds : q.feeds = r.feeds
  registry : r.registry.SameBooks q.registry

theorem SameBooks.refl (r : Relay) : r.SameBooks r := ⟨rfl, .refl _⟩

theorem SameBooks.trans {p : Relay} (h : r.SameBooks q) (g : q.SameBooks p) : r.SameBooks p :=
  ⟨g.feeds.trans h.feeds, h.registry.trans g.registry⟩

theorem sameBooks_updateStream (r : Relay) (sid : StreamId) {f : Stream → Stream}
    (hf : ∀ s : Stream, (f s).books = s.books) : r.SameBooks (r.updateStream sid f) :=
  ⟨rfl, r.registry.sameBooks_act sid hf⟩

theorem sameBooks_closeReleased (r : Relay) (released : Released) :
    r.SameBooks (r.closeReleased released) := by
  unfold closeReleased
  split
  · exact ⟨rfl, .refl _⟩
  · exact .refl r

theorem sameBooks_drainViewers (r : Relay) (sid : StreamId) :
    r.SameBooks (r.drainViewers sid).2 := by
  have hact : r.SameBooks (r.onRegistry (·.act sid Stream.drain)).2 :=
    ⟨rfl, r.registry.sameBooks_act sid fun _ => rfl⟩
  simp only [drainViewers]
  split <;> rename_i he <;> rw [he] at hact <;> exact hact

theorem sameBooks_closeViewer (r : Relay) (id : ViewerId) : r.SameBooks (r.closeViewer id) := by
  unfold closeViewer
  split
  · exact .refl r
  · rename_i v hv
    split
    · rename_i c hc
      unfold leaveHome
      split
      · rename_i sid hsid
        have hleft := sameBooks_updateStream
          ((r.updateViewer id fun v => v.close.2).closeConnection c) sid
          (f := fun s => (s.detach v.id).2) fun _ => rfl
        exact ⟨hleft.feeds, hleft.registry⟩
      · exact ⟨rfl, .refl _⟩
    · exact ⟨rfl, .refl _⟩

theorem sameBooks_markConnected (r : Relay) (sid : StreamId) (remote : Option SocketAddress) :
    r.SameBooks (r.markConnected sid remote).2 := by
  obtain he | ⟨s, hs, -, he⟩ := r.markConnected_cases sid remote
  · rw [he]
    exact .refl r
  · rw [he]
    refine ⟨rfl, Registry.sameBooks_put hs ?_⟩
    unfold Stream.markConnected
    split <;> rfl

/-- **No step of a call notes anything.** -/
theorem Stage.sameBooks_step (r : Relay) (stage : Stage) : r.SameBooks (stage.step r).relay := by
  cases stage with
  | validate bid =>
    have hval : r.SameBooks (r.validate bid.key).2 := ⟨rfl, .refl _⟩
    simp only [step]
    split <;> rename_i he <;> rw [he] at hval <;> exact hval
  | claim bid =>
    have hclaim : r.SameBooks (r.onRegistry (·.claim bid.key r.clock)).2 :=
      ⟨rfl, r.registry.sameBooks_claim ..⟩
    simp only [step]
    split <;> rename_i he <;> rw [he] at hclaim <;> exact hclaim
  | connect bid sid =>
    obtain ⟨e, he⟩ | he := r.openConnection_cases <;> simp only [step, he]
    · exact .refl r
    · exact ⟨rfl, .refl _⟩
  | attach bid sid c => exact r.sameBooks_updateStream sid fun _ => rfl
  | negotiate bid sid c => simp only [step]; split <;> exact .refl r
  | mark bid sid answer =>
    have hmark := r.sameBooks_markConnected sid bid.remote
    simp only [step]
    split <;> rename_i he <;> rw [he] at hmark <;> exact hmark
  | announce bid answer => exact ⟨rfl, .refl _⟩
  | lookUp key => simp only [step]; split <;> exact .refl r
  | release sid reply =>
    have hrelease : r.SameBooks (r.onRegistry (·.beginRelease sid)).2 :=
      ⟨rfl, r.registry.sameBooks_beginRelease sid⟩
    simp only [step]
    split
    · exact .refl r
    · split <;> rename_i he <;> rw [he] at hrelease <;> exact hrelease
  | forget e => exact ⟨rfl, r.registry.sameBooks_forget e.stream⟩
  | hangUp e => exact r.sameBooks_closeReleased e.released
  | clear e => exact ⟨rfl, .refl _⟩
  | drain e => exact r.sameBooks_drainViewers e.stream
  | dismiss e ids =>
    cases ids with
    | nil => exact .refl r
    | cons id rest => exact r.sameBooks_closeViewer id
  | report e =>
    simp only [step]
    split
    · exact ⟨rfl, .refl _⟩
    · exact .refl r
  | finished reply => exact .refl r

theorem Finishes.sameBooks {stage : Stage} {reply : Reply} (h : Finishes r stage q reply) :
    r.SameBooks q := by
  obtain ⟨marks, h⟩ := h
  generalize hend : Stage.finished reply = last at h
  induction h with
  | refl r stage => exact .refl r
  | @step r q stage last marks rest ih => exact (stage.sameBooks_step r).trans (ih hend)

theorem sameBooks_teardown (r : Relay) (sid : StreamId) : r.SameBooks (r.teardown sid) :=
  (finishes_release r sid none).sameBooks

theorem sameBooks_shutdown (r : Relay) : r.SameBooks r.shutdown := by
  unfold shutdown
  generalize r.registry.registered = sids
  induction sids generalizing r with
  | nil => exact .refl r
  | cons sid rest ih => exact (r.sameBooks_teardown sid).trans (ih _)

theorem sameBooks_createSession (r : Relay) (offer key : String) (id : ViewerId) :
    r.SameBooks (r.createSession offer key id).2 := by
  have hseated : ∀ {q sid s codec}, Seated r q key id sid s codec → r.SameBooks q := by
    intro q sid s codec seat
    refine ⟨by rw [seat.only], ?_⟩
    rw [seat.registry]
    refine Registry.sameBooks_put seat.stream? ?_
    rw [Stream.attach]
    split <;> rfl
  obtain ⟨e, he⟩ | ⟨q, sid, s, codec, seat, ⟨e, he⟩ | ⟨answer, he⟩⟩ :=
    r.createSession_cases offer key id
  · rw [he]
    exact .refl r
  · rw [he, dropViewer]
    have hdetach := q.sameBooks_updateStream sid (f := fun s => (s.detach id).2) fun _ => rfl
    exact (hseated seat).trans (hdetach.trans (sameBooks_closeViewer ..))
  · rw [he]
    have hq := hseated seat
    exact ⟨hq.feeds, hq.registry⟩

theorem sameBooks_setLayer (r : Relay) (id : ViewerId) (layer : String) :
    r.SameBooks (r.setLayer id layer).2 := by
  unfold setLayer
  split
  · exact .refl r
  · rename_i sid hsid
    have hasked := sameBooks_updateStream (r.updateViewer id fun v => v.selectLayer layer) sid
      (f := fun s => s.requestKeyframe.2) fun _ => rfl
    exact ⟨hasked.feeds, hasked.registry⟩

theorem sameBooks_serveKeyframes (r : Relay) : r.SameBooks r.serveKeyframes.2 := by
  refine ⟨rfl, fun sid => ?_, fun sid hs => ?_⟩
  · rw [Registry.books, Registry.books, stream?_serveKeyframes, Option.map_map]
    rfl
  · rw [stream?_serveKeyframes, Option.isSome_map, hs]

/-! ### What is read -/

/-- A packet that was read: its layer, the size of its payload, and when it was read. -/
structure PacketRead where
  layer : String
  size : Nat
  time : Millis
  deriving DecidableEq, Repr

namespace PacketRead

/-- What a packet that was read leaves in the books. -/
def notes (p : PacketRead) : List Stream.Note :=
  [.discover p.layer, .count p.layer p.size p.time]

/-- The packet as it was counted. -/
def counted (p : PacketRead) : String × Nat := (p.layer, p.size)

variable (reads : List PacketRead)

theorem discovered_notes : Stream.discovered (reads.flatMap notes) = reads.map layer := by
  rw [Stream.discovered, List.filterMap_flatMap, List.map_eq_flatMap]
  rfl

theorem counted_notes : Stream.counted (reads.flatMap notes) = reads.map counted := by
  rw [Stream.counted, List.filterMap_flatMap, List.map_eq_flatMap]
  rfl

theorem firstCounted?_notes (layer : String) :
    Stream.firstCounted? layer (reads.flatMap notes)
      = (reads.find? fun p => p.layer = layer).map time := by
  induction reads with
  | nil => rfl
  | cons p rest ih =>
    have hfirst : Stream.firstCounted? layer ((p :: rest).flatMap notes)
        = if p.layer = layer then some p.time
          else Stream.firstCounted? layer (rest.flatMap notes) := by
      by_cases hp : p.layer = layer <;>
        simp [Stream.firstCounted?, List.findSome?_cons, Stream.Note.countedAt?, notes, hp]
    rw [hfirst, ih, List.find?_cons]
    by_cases hp : p.layer = layer <;> simp [hp]

end PacketRead

/-- What a stream's feed reads, if it is asked to. -/
def packet? (r : Relay) (sid : StreamId) : Operation → Option PacketRead
  | .feedPacket loop p => (r.feedOf sid loop).map fun f => ⟨f.layer, p.payload.length, r.clock⟩
  | _ => none

/-- All packets that the feeds of a stream read in a history, oldest first. -/
def packetsRead (sid : StreamId) : Relay → List Operation → List PacketRead
  | _, [] => []
  | r, op :: ops => (r.packet? sid op).toList ++ packetsRead sid (r.perform op) ops

/-- A feed that has read before finds its layer noted, so it may as well note it again. -/
theorem noteRead_eq_noted {s : Stream} {f : Feed} (h : f.lastTimestamp ≠ none → f.layer ∈ s.layers)
    (p : Packet) (now : Millis) :
    s.noteRead f p now = s.noted (PacketRead.notes ⟨f.layer, p.payload.length, now⟩) := by
  show _ = ((s.addLayer f.layer).2.recordPacket f.layer p.payload.length.toUInt64 now)
  cases hf : f.lastTimestamp with
  | none => simp only [Stream.noteRead, hf, Option.isNone_none, if_true]
  | some timestamp =>
    have hknown : (s.addLayer f.layer).2 = s := by
      simp [Stream.addLayer, Stream.hasLayer, h (by simp [hf])]
    rw [hknown]
    simp [Stream.noteRead, hf]

/-- **The books of a stream tell which packets were read.** -/
structure Stocked (sid : StreamId) (reads : List PacketRead) (r : Relay) : Prop where
  tells : Stream.Tells (reads.flatMap PacketRead.notes) (r.registry.books sid)
  /-- A feed reads a track of a stream that there is, and has its layer noted once it read. -/
  fed : ∀ loop f, r.feeds.find? loop = some f → (r.registry.stream? f.stream).isSome = true ∧
    (f.stream = sid → f.lastTimestamp ≠ none → f.layer ∈ (r.registry.books sid).layers)

section

variable {sid : StreamId} {reads : List PacketRead}

theorem stocked_start (settings : Settings) (negotiate : Attempt → Except RelayError Agreement)
    (sid : StreamId) : Stocked sid [] (start settings negotiate) where
  tells := Stream.tells_empty
  fed loop f hf := absurd hf (by simp [start])

theorem Stocked.sameBooks (h : Stocked sid reads r) (g : r.SameBooks q) :
    Stocked sid reads q where
  tells := by
    rw [g.registry.books]
    exact h.tells
  fed loop f hf := by
    rw [g.feeds] at hf
    obtain ⟨hs, hlayer⟩ := h.fed loop f hf
    rw [g.registry.books]
    exact ⟨g.registry.stream? _ hs, hlayer⟩

theorem Stocked.openFeed (h : Stocked sid reads r) {j : StreamId}
    (hj : ∃ s, r.registry.stream? j = some s) (rid : String) (ssrc : UInt32) (mimeType : String)
    (canSend : Nat → Bool) :
    Stocked sid reads (r.openFeed j rid ssrc mimeType canSend).2 := by
  have hjoined := h.sameBooks (r.sameBooks_updateStream j (f := fun s =>
    { s with keyframes := s.keyframes.join { id := r.nextLoop, ssrc, canSend } }) fun _ => rfl)
  refine ⟨hjoined.tells, fun loop f hf => ?_⟩
  have hf : (r.feeds.insert r.nextLoop (.ofTrack j rid mimeType)).find? loop = some f := hf
  rw [Table.find?_insert] at hf
  split at hf
  · obtain rfl := Option.some.inj hf
    obtain ⟨s, hs⟩ := hj
    refine ⟨?_, fun _ hread => absurd rfl hread⟩
    show ((r.registry.update j _).stream? j).isSome = true
    rw [Registry.stream?_update, if_pos rfl, hs]
    rfl
  · exact hjoined.fed loop f hf

theorem Stocked.closeFeed (h : Stocked sid reads r) (loop : LoopId) :
    Stocked sid reads (r.closeFeed loop).2 := by
  unfold Relay.closeFeed
  split
  · exact h
  · rename_i f hf
    have hleft := h.sameBooks (r.sameBooks_updateStream f.stream (f := fun s =>
      { s with keyframes := s.keyframes.leave loop }) fun _ => rfl)
    refine ⟨hleft.tells, fun j g hg => ?_⟩
    have hg : (r.feeds.erase loop).find? j = some g := hg
    rw [Table.find?_erase] at hg
    split at hg
    · exact absurd hg (by simp)
    · exact hleft.fed j g hg

section

variable {f : Feed} {loop : LoopId}

theorem stream?_forwardTo {s : Stream} (hs : r.registry.stream? f.stream = some s) (loop : LoopId)
    (p : Packet) (viewers : List ViewerId) (j : StreamId) :
    (r.forwardTo loop f p viewers).registry.stream? j
      = if j = f.stream then some (s.noteRead f p r.clock) else r.registry.stream? j := by
  show (r.registry.update f.stream fun s => s.noteRead f p r.clock).stream? j = _
  rw [Registry.stream?_update, hs]
  rfl

theorem feeds_forwardTo (loop : LoopId) (p : Packet) (viewers : List ViewerId) (j : LoopId) :
    (r.forwardTo loop f p viewers).feeds.find? j
      = if j = loop then some (f.read p) else r.feeds.find? j := Table.find?_insert ..

theorem isSome_stream?_forwardTo {s : Stream} (hs : r.registry.stream? f.stream = some s)
    (loop : LoopId) (p : Packet) (viewers : List ViewerId) {j : StreamId}
    (hj : (r.registry.stream? j).isSome = true) :
    ((r.forwardTo loop f p viewers).registry.stream? j).isSome = true := by
  rw [stream?_forwardTo hs]
  split
  · rfl
  · exact hj

/-- **A packet that is read is noted** in both books. -/
theorem Stocked.forwardTo (h : Stocked f.stream reads r) (hf : r.feeds.find? loop = some f)
    (p : Packet) (viewers : List ViewerId) :
    Stocked f.stream (reads ++ [⟨f.layer, p.payload.length, r.clock⟩])
      (r.forwardTo loop f p viewers) := by
  obtain ⟨hstream, hlayer⟩ := h.fed loop f hf
  obtain ⟨s, hs⟩ := Option.isSome_iff_exists.mp hstream
  have htells := h.tells
  rw [Registry.books_of_stream? hs] at htells hlayer
  have hbooks : (r.forwardTo loop f p viewers).registry.books f.stream
      = (s.noted (PacketRead.notes ⟨f.layer, p.payload.length, r.clock⟩)).books := by
    rw [Registry.books_of_stream? ((stream?_forwardTo hs ..).trans (if_pos rfl)),
      noteRead_eq_noted (hlayer rfl)]
  have hnoted := htells.noted (PacketRead.notes ⟨f.layer, p.payload.length, r.clock⟩)
  rw [← hbooks] at hnoted
  have hgrown : ∀ layer ∈ s.layers,
      layer ∈ ((r.forwardTo loop f p viewers).registry.books f.stream).layers := by
    rw [hbooks]
    exact fun layer hl => (s.layers_prefix_noted _).subset hl
  refine ⟨?_, fun j g hg => ?_⟩
  · rw [List.flatMap_append, List.flatMap_singleton]
    exact hnoted
  · rw [feeds_forwardTo] at hg
    split at hg
    · obtain rfl := Option.some.inj hg
      refine ⟨isSome_stream?_forwardTo hs loop p viewers hstream, fun _ _ => ?_⟩
      rw [hnoted.layers, List.mem_eraseDups]
      simp [Stream.discovered, Stream.Note.discovered?, PacketRead.notes, Feed.read]
    · obtain ⟨hgs, hgl⟩ := h.fed j g hg
      rw [Registry.books_of_stream? hs] at hgl
      exact ⟨isSome_stream?_forwardTo hs loop p viewers hgs,
        fun he hread => hgrown _ (hgl he hread)⟩

/-- A packet of another stream is not. -/
theorem Stocked.forwardTo_of_ne (h : Stocked sid reads r) (hf : r.feeds.find? loop = some f)
    (hsid : f.stream ≠ sid) (p : Packet) (viewers : List ViewerId) :
    Stocked sid reads (r.forwardTo loop f p viewers) := by
  have hstream := (h.fed loop f hf).1
  obtain ⟨s, hs⟩ := Option.isSome_iff_exists.mp hstream
  have hbooks : (r.forwardTo loop f p viewers).registry.books sid = r.registry.books sid := by
    rw [Registry.books, stream?_forwardTo hs, if_neg (Ne.symm hsid), Registry.books]
  refine ⟨hbooks ▸ h.tells, fun j g hg => ?_⟩
  rw [hbooks]
  rw [feeds_forwardTo] at hg
  split at hg
  · obtain rfl := Option.some.inj hg
    exact ⟨isSome_stream?_forwardTo hs loop p viewers hstream, fun he => absurd he hsid⟩
  · obtain ⟨hgs, hgl⟩ := h.fed j g hg
    exact ⟨isSome_stream?_forwardTo hs loop p viewers hgs, hgl⟩

theorem Stocked.feedPacket (h : Stocked sid reads r) (loop : LoopId) (p : Packet) :
    Stocked sid (reads ++ (r.packet? sid (.feedPacket loop p)).toList)
      (r.feedPacket loop p).2 := by
  rw [packet?, feedOf]
  unfold Relay.feedPacket
  cases hf : r.feeds.find? loop with
  | none =>
    rw [Option.filter_none, Option.map_none, Option.toList_none, List.append_nil]
    exact h
  | some f =>
    by_cases hsid : f.stream = sid
    · subst hsid
      have hown : (some f).filter (fun g : Feed => decide (g.stream = f.stream)) = some f :=
        Option.filter_some_pos (decide_eq_true rfl)
      rw [hown, Option.map_some, Option.toList_some]
      exact h.forwardTo hf p _
    · rw [Option.filter_some_neg (by simpa using hsid), Option.map_none, Option.toList_none,
        List.append_nil]
      exact h.forwardTo_of_ne hf hsid p _

end

/-- **Each operation notes what it reads**, and nothing else. -/
theorem Stocked.perform (h : Stocked sid reads r) {op : Operation} (hp : r.Possible op) :
    Stocked sid (reads ++ (r.packet? sid op).toList) (r.perform op) := by
  have hquiet : r.SameBooks (r.perform op) → r.packet? sid op = none →
      Stocked sid (reads ++ (r.packet? sid op).toList) (r.perform op) := by
    intro hsame hnone
    rw [hnone, Option.toList_none, List.append_nil]
    exact h.sameBooks hsame
  cases op with
  | ingest offer key remote =>
    exact hquiet (finishes_validate r ⟨offer, key, remote⟩).sameBooks rfl
  | createSession offer key id => exact hquiet (r.sameBooks_createSession offer key id) rfl
  | setLayer id layer => exact hquiet (r.sameBooks_setLayer id layer) rfl
  | listLayers id => exact hquiet (.refl r) rfl
  | disconnect key => exact hquiet (finishes_lookUp r key).sameBooks rfl
  | shutdown => exact hquiet r.sameBooks_shutdown rfl
  | validate key => exact hquiet ⟨rfl, .refl _⟩ rfl
  | setKeys keys => exact hquiet ⟨rfl, .refl _⟩ rfl
  | clearLastMatched key => exact hquiet ⟨rfl, .refl _⟩ rfl
  | observeTrack j kind codec =>
    refine hquiet (r.sameBooks_updateStream j fun s => ?_) rfl
    unfold Stream.observeTrack
    rfl
  | openFeed j rid ssrc mimeType canSend =>
    show Stocked sid (reads ++ []) _
    rw [List.append_nil]
    exact h.openFeed hp rid ssrc mimeType canSend
  | feedPacket loop p => exact h.feedPacket loop p
  | closeFeed loop =>
    show Stocked sid (reads ++ []) _
    rw [List.append_nil]
    exact h.closeFeed loop
  | serveKeyframes => exact hquiet r.sameBooks_serveKeyframes rfl
  | scriptSink id answer => exact hquiet ⟨rfl, .refl _⟩ rfl
  | tick elapsed => exact hquiet ⟨rfl, .refl _⟩ rfl

theorem Stocked.after (h : Stocked sid reads r) {ops : List Operation} (hp : AllPossible r ops) :
    Stocked sid (reads ++ packetsRead sid r ops) (r.after ops) := by
  induction ops generalizing r reads with
  | nil =>
    rw [packetsRead, List.append_nil]
    exact h
  | cons op rest ih =>
    rw [packetsRead, ← List.append_assoc]
    exact ih (h.perform hp.1) hp.2

end

/-! ### What is listed -/

/-- **The status of a stream tells** which packets its feeds read, and how many bits in a second
that is.  Bitrates are exact as long as all bits together fit into 64 bits. -/
structure Details (s : Stream) (now : Millis) (reads : List PacketRead) (d : StreamDetail) :
    Prop where
  key : d.streamKey = s.key
  /-- It names the known layers in their order, -/
  names : d.layers.map LayerDetail.encodingId = s.layers
  /-- each with the number of packets that were read, -/
  packets : ∀ x ∈ d.layers,
    x.packets = .ofNat (Stream.sizesOf x.encodingId (reads.map PacketRead.counted)).length
  /-- and with the bits of its packets over the whole seconds since the first of them. -/
  layerBitrate : 8 * (reads.map PacketRead.size).sum < 2 ^ 64 → now < 2 ^ 64 * 1000 →
    ∀ x ∈ d.layers, ∃ first, reads.find? (fun p => p.layer = x.encodingId) = some first ∧
      x.bitrate.toNat
        = 8 * (Stream.sizesOf x.encodingId (reads.map PacketRead.counted)).sum
          / ((now - first.time) / 1000)
  /-- The bits of all packets count over the whole seconds since the stream was made. -/
  bitrate : 8 * (reads.map PacketRead.size).sum < 2 ^ 64 → now < 2 ^ 64 * 1000 →
    d.bitrate.toNat = 8 * (reads.map PacketRead.size).sum / ((now - s.createdAt) / 1000)

/-- **Both lists of a stream's layers tell which packets its feeds read.** -/
structure Listed (r : Relay) (sid : StreamId) (s : Stream) (reads : List PacketRead) : Prop where
  /-- The known layers are those of which a packet was read, in order of the first packet. -/
  layers : s.layers = (reads.map PacketRead.layer).eraseDups
  /-- This is what the viewers of the stream are sent. -/
  listed : ∀ id, r.registry.findViewer? id = some sid → r.listLayers id = .ok s.layers ∧
    ∀ raw, Http.pathParameter "session_id" raw = .ok id →
      (Http.whepLayers r raw).status = 200 ∧ Http.Conveys (Http.whepLayers r raw).body s.layers
  /-- A report does not depend on the order in which the counters come. -/
  reported : ∀ counters, counters.Perm s.counters.values →
    s.reportOf counters r.clock = s.report r.clock
  /-- It names the known layers in their order, -/
  named : (s.report r.clock).layers.map LayerCounters.layer = s.layers
  /-- with the numbers and sizes of the packets that were read. -/
  counted : Stream.Reports s (reads.map PacketRead.counted) (s.report r.clock)
  /-- The status of the stream is a document that tells the same. -/
  status : ∀ key, r.registry.find? key = some sid →
    ∀ raw, Http.pathParameter "stream_key" raw = .ok key →
    (Http.streamStatus r raw).status = 200 ∧
      ∃ d, StreamDetail.decode (Utf8.encode (Http.streamStatus r raw).body) = .ok d ∧
        Json.decode (Utf8.encode (Http.streamStatus r raw).body) = .ok d.value ∧
        Details s r.clock reads d

section

variable {s : Stream} {reads : List PacketRead}

theorem details_streamDetail (h : Stream.Tells (reads.flatMap PacketRead.notes) s.books)
    (hnamed : ∀ now, (s.report now).layers.map LayerCounters.layer = s.layers) (now : Millis) :
    Details s now reads (Http.streamDetail s now) := by
  have hreports := h.reports (.refl _) now
  rw [PacketRead.counted_notes] at hreports
  have hsizes : ((reads.map PacketRead.counted).map Prod.snd).sum
      = (reads.map PacketRead.size).sum := by
    rw [List.map_map]
    rfl
  constructor
  case key => rfl
  case names =>
    rw [← hnamed now, Http.streamDetail, List.map_map]
    rfl
  case packets =>
    intro x hx
    obtain ⟨c, hc, rfl⟩ := List.mem_map.mp hx
    exact (hreports.counts c hc).packets
  case layerBitrate =>
    intro hfits hlong x hx
    obtain ⟨c, hc, rfl⟩ := List.mem_map.mp hx
    have hfirst := h.since c.layer c (h.find?_of_mem_report hc)
    rw [PacketRead.firstCounted?_notes] at hfirst
    obtain ⟨first, hfind, hsince⟩ := Option.map_eq_some_iff.mp hfirst
    have hbytes : c.bytes.toNat
        = (Stream.sizesOf c.layer (reads.map PacketRead.counted)).sum :=
      (hreports.exact (by omega)).2 c hc
    have hle := Stream.sum_sizesOf_le c.layer (reads.map PacketRead.counted)
    have hage : now - c.since < 2 ^ 64 * 1000 := Nat.lt_of_le_of_lt (Nat.sub_le ..) hlong
    refine ⟨first, hfind, ?_⟩
    show (c.bitrate now).toNat = _
    rw [LayerCounters.bitrate, toNat_bitrate (by omega), Millis.toNat_seconds hage, hbytes, hsince]
  case bitrate =>
    intro hfits hlong
    have htotal : (s.report now).totalBytes.toNat = (reads.map PacketRead.size).sum :=
      hsizes ▸ (hreports.exact (by omega)).1
    have huptime : now - s.createdAt < 2 ^ 64 * 1000 := Nat.lt_of_le_of_lt (Nat.sub_le ..) hlong
    show (s.report now).bitrate.toNat = _
    rw [StreamReport.bitrate, toNat_bitrate (by omega), htotal]
    exact congrArg (_ / ·) (Millis.toNat_seconds huptime)

/-- So the entries of the layers are settled by the packets that were read. -/
theorem Details.layers_eq {now : Millis} {d : StreamDetail} (h : Details s now reads d)
    (hfits : 8 * (reads.map PacketRead.size).sum < 2 ^ 64) (hlong : now < 2 ^ 64 * 1000) :
    d.layers = s.layers.map fun layer =>
      let sizes := Stream.sizesOf layer (reads.map PacketRead.counted)
      let since := ((reads.find? fun p => p.layer = layer).map PacketRead.time).getD now
      { encodingId := layer
        packets := .ofNat sizes.length
        bitrate := .ofNat (8 * sizes.sum / ((now - since) / 1000)) } := by
  rw [← h.names, List.map_map]
  refine (List.map_id _).symm.trans (List.map_congr_left fun x hx => ?_)
  obtain ⟨first, hfirst, hrate⟩ := h.layerBitrate hfits hlong x hx
  have hpackets := h.packets x hx
  simp only [Function.comp_apply, hfirst, Option.map_some, Option.getD_some, ← hpackets, ← hrate,
    UInt64.ofNat_toNat, id_eq]

theorem Stocked.listed {sid : StreamId} (h : Stocked sid reads r)
    (hs : r.registry.stream? sid = some s) : Listed r sid s reads := by
  have htells := h.tells
  rw [Registry.books_of_stream? hs] at htells
  have hlayers : s.layers = (reads.map PacketRead.layer).eraseDups :=
    PacketRead.discovered_notes reads ▸ htells.layers
  have hreports : ∀ now, Stream.Reports s (reads.map PacketRead.counted) (s.report now) :=
    fun now => PacketRead.counted_notes reads ▸ htells.reports (.refl _) now
  have hfirst : (reads.map PacketRead.counted).map Prod.fst = reads.map PacketRead.layer := by
    rw [List.map_map]
    rfl
  have hnamed : ∀ now, (s.report now).layers.map LayerCounters.layer = s.layers :=
    fun now => (hreports now).names_eq (hfirst ▸ hlayers)
  have hvalues : ∀ c ∈ s.counters.values, c.layer ∈ s.layers := by
    intro c hc
    rw [← hnamed r.clock]
    exact List.mem_map_of_mem ((List.mergeSort_perm ..).mem_iff.mpr hc)
  refine ⟨hlayers, fun id hid => ?_, fun counters hperm => ?_, hnamed r.clock, hreports r.clock,
    fun key hkey raw hraw => ?_⟩
  · have hlist : r.listLayers id = .ok s.layers := by
      rw [listLayers, hid, Option.bind_some, hs]
    refine ⟨hlist, fun raw hraw => ?_⟩
    simp only [Http.whepLayers, hraw, hlist]
    exact ⟨trivial, Http.conveys_event s.layers⟩
  · exact Stream.reportOf_eq_report hperm (htells.map_layer_values ▸ Table.nodup_keys _) hvalues
      r.clock
  · have hstream : r.stream? key = some s := by rw [stream?, hkey, Option.bind_some, hs]
    have hresponse : Http.streamStatus r raw = .json (Http.streamDetail s r.clock).encode := by
      simp only [Http.streamStatus, hraw, hstream]
    rw [hresponse]
    refine ⟨rfl, Http.streamDetail s r.clock, ?_, StreamDetail.decode_encode _,
      details_streamDetail htells hnamed r.clock⟩
    exact (faithful_of_takes StreamDetail.decode_encode StreamDetail.takes_value).returns _

end

/-- **Layer lists and statistics agree.**  On a stream by itself the list of layers only grows,
and each report joins it with the counters; on a running relay both tell which packets were
read. -/
theorem listed_as_read :
    (∀ key c now notes, let s := (Stream.create key c now).noted notes
      s.layers = (Stream.discovered notes).eraseDups ∧ s.layers.Nodup ∧
        (∀ more, s.layers <+: (s.noted more).layers) ∧
        ∀ counters, counters.Perm s.counters.values → ∀ now',
          Stream.Reports s (Stream.counted notes) (s.reportOf counters now')) ∧
    ∀ settings negotiate ops, AllPossible (start settings negotiate) ops → ∀ sid s,
      ((start settings negotiate).after ops).registry.stream? sid = some s →
      Listed ((start settings negotiate).after ops) sid s
        (packetsRead sid (start settings negotiate) ops) := by
  refine ⟨fun key c now notes => ?_, fun settings negotiate ops hp sid s hs => ?_⟩
  · have hempty : Stream.Tells [] (Stream.create key c now).books := Stream.tells_empty
    have htells := hempty.noted notes
    have hlayers : ((Stream.create key c now).noted notes).layers
        = (Stream.discovered notes).eraseDups := htells.layers
    exact ⟨hlayers, hlayers ▸ nodup_eraseDups _, Stream.layers_prefix_noted _,
      fun counters hperm now' => htells.reports hperm now'⟩
  · have hstocked := (stocked_start settings negotiate sid).after hp
    rw [List.nil_append] at hstocked
    exact hstocked.listed hs

/-- A broadcast with a viewer and two feeds; the feed that was opened last reads first. -/
def twoFeeds : List Operation :=
  [.ingest "offer" "k" none, .createSession "offer" "k" "v",
    .openFeed 0 "q" 1 "video/h264" fun _ => true, .openFeed 0 "h" 2 "video/h264" fun _ => true,
    .feedPacket 1 { payload := [0, 1] }, .tick 1000, .feedPacket 0 { payload := [2] },
    .tick 1000, .feedPacket 1 { payload := [3, 4, 5] }, .tick 2000]

/-- The status that is read after four seconds has 48 bits on all layers together, 40 bits in
four seconds on one and 8 bits in three seconds on the other. -/
theorem listed_as_read_twoFeeds :
    let r := start { streamKeys := ["k"] } fun _ => .ok { answer := "answer" }
    AllPossible r twoFeeds ∧
      packetsRead 0 r twoFeeds = [⟨"h", 2, 0⟩, ⟨"q", 1, 1000⟩, ⟨"h", 3, 2000⟩] ∧
      (r.after twoFeeds).registry.findViewer? "v" = some 0 ∧
      (r.after twoFeeds).registry.find? "k" = some 0 ∧
      (∃ s, (r.after twoFeeds).registry.stream? 0 = some s ∧ s.layers = ["h", "q"] ∧
        Listed (r.after twoFeeds) 0 s (packetsRead 0 r twoFeeds)) ∧
      ∃ d, StreamDetail.decode (Utf8.encode (Http.streamStatus (r.after twoFeeds) "k").body)
          = .ok d ∧
        d.streamKey = "k" ∧ d.bitrate = 12 ∧ d.layers = [⟨"h", 2, 10⟩, ⟨"q", 1, 2⟩] := by
  intro r
  have hpossible : AllPossible r twoFeeds :=
    ⟨trivial, trivial, Option.isSome_iff_exists.mp (by decide),
      Option.isSome_iff_exists.mp (by decide), trivial, trivial, trivial, trivial, trivial,
      trivial, trivial⟩
  have hread : packetsRead 0 r twoFeeds = [⟨"h", 2, 0⟩, ⟨"q", 1, 1000⟩, ⟨"h", 3, 2000⟩] := by
    decide
  have hkey : (r.after twoFeeds).registry.find? "k" = some 0 := by decide
  have hclock : (r.after twoFeeds).clock = 4000 := by decide
  obtain ⟨s, hs⟩ := Option.isSome_iff_exists.mp
    (show ((r.after twoFeeds).registry.stream? 0).isSome = true by decide)
  have hmade : s.createdAt = 0 ∧ s.key = "k" := by
    have hstart : ((r.after twoFeeds).registry.stream? 0).map
        (fun s => (s.createdAt, s.key)) = some (0, "k") := by decide
    rw [hs] at hstart
    exact Prod.mk.inj (Option.some.inj hstart)
  have hlisted := listed_as_read.2 _ _ twoFeeds hpossible 0 s hs
  have hlayers : s.layers = ["h", "q"] := by
    rw [hlisted.layers, hread]
    decide
  refine ⟨hpossible, hread, by decide, hkey, ⟨s, hs, hlayers, hlisted⟩, ?_⟩
  obtain ⟨-, d, hdecoded, -, hdetails⟩ := hlisted.status "k" hkey "k" (by decide)
  rw [hread, hclock] at hdetails
  refine ⟨d, hdecoded, hdetails.key.trans hmade.2, ?_, ?_⟩
  · refine UInt64.toNat_inj.mp ?_
    rw [hdetails.bitrate (by decide) (by decide), hmade.1]
    decide
  · rw [hdetails.layers_eq (by decide) (by decide), hlayers]
    decide

end Relay

end Simulcast
