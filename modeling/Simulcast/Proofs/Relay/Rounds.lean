import Simulcast.Proofs.Relay.Errands
import Simulcast.Proofs.Relay.Settled
import Simulcast.Proofs.Viewer.Timeline
/-!
# Packets on their way round

What goes on around one stream while it is on air: its feeds read packets, each packet goes
to one attached viewer after another, viewers select layers, and viewers come and go.
`Relay.Happening` is one of these, and `Relay.through` is the relay after some of them.

For every packet the viewers are visited in some order (`Tour`), and every packet may have
its own.  To a single viewer no order matters, and neither does anybody else: it goes through
the history of calls that is left when all but itself is forgotten (`Relay.calls`), which is
`Relay.find?_viewers_through`.  So what `Viewer.after` says of histories of one viewer can be
used here.
-/

namespace Simulcast

/-- An order in which viewers are visited, each as often as it is listed. -/
structure Tour where
  visit : List ViewerId → List ViewerId
  perm : ∀ ids, (visit ids).Perm ids

namespace Tour

/-- The viewer that came first is visited first. -/
def inOrder : Tour := ⟨id, fun _ => .refl _⟩

/-- The viewer that came last is visited first. -/
def backwards : Tour := ⟨List.reverse, List.reverse_perm⟩

theorem mem_visit (t : Tour) (ids : List ViewerId) (id : ViewerId) :
    id ∈ t.visit ids ↔ id ∈ ids := (t.perm ids).mem_iff

theorem nodup_visit (t : Tour) {ids : List ViewerId} (h : ids.Nodup) : (t.visit ids).Nodup :=
  (t.perm ids).nodup_iff.mpr h

end Tour

/-- A packet as the feed that reads it offers it. -/
def Feed.offer (f : Feed) (p : Packet) : Viewer.Offer := ⟨p, f.layer, f.delta p.timestamp, f.av1⟩

/-- The packets that a feed reads one after another, as it offers them. -/
def Feed.offers (f : Feed) : List Packet → List Viewer.Offer
  | [] => []
  | p :: ps => f.offer p :: (f.read p).offers ps

/-- **On its way round a packet is offered once to every viewer that is visited**, wherever
the viewer stands in the order. -/
theorem find?_offerAll_of_nodup (f : Feed) (p : Packet) {ids : List ViewerId} (h : ids.Nodup)
    (vs : Table ViewerId Viewer) (j : ViewerId) :
    (offerAll f p vs ids).find? j
      = if j ∈ ids then (vs.find? j).map fun v => v.told (.send (f.offer p)) else vs.find? j := by
  induction ids generalizing vs with
  | nil => rw [if_neg List.not_mem_nil]; rfl
  | cons id rest ih =>
    obtain ⟨hid, hrest⟩ := List.nodup_cons.mp h
    have hstep := ih hrest (vs.modify id fun v => (v.send p f.layer (f.delta p.timestamp) f.av1).2)
    rw [Table.find?_modify] at hstep
    refine Eq.trans hstep ?_
    by_cases hj : j = id
    · subst hj
      rw [if_neg hid, if_pos rfl, if_pos List.mem_cons_self]
      rfl
    · rw [if_neg hj]
      simp only [List.mem_cons, hj, false_or]

namespace Stream

theorem layers_noteRead (s : Stream) (f : Feed) (p : Packet) (now : Millis) :
    (s.noteRead f p now).layers
      = if f.lastTimestamp.isNone = true ∧ f.layer ∉ s.layers then s.layers ++ [f.layer]
        else s.layers := by
  by_cases hf : f.lastTimestamp.isNone = true
  · by_cases hl : f.layer ∈ s.layers <;> simp [noteRead, recordPacket, addLayer, hasLayer, hf, hl]
  · simp [noteRead, recordPacket, hf]

theorem mem_layers_noteRead (s : Stream) (f : Feed) (p : Packet) (now : Millis) (layer : String) :
    layer ∈ (s.noteRead f p now).layers
      ↔ layer ∈ s.layers ∨ f.lastTimestamp = none ∧ f.layer = layer := by
  simp only [layers_noteRead, Option.isNone_iff_eq_none]
  by_cases hf : f.lastTimestamp = none
  · by_cases hl : f.layer ∈ s.layers
    · rw [if_neg (fun h => h.2 hl)]
      constructor
      · exact .inl
      · rintro (h | ⟨-, rfl⟩)
        · exact h
        · exact hl
    · rw [if_pos ⟨hf, hl⟩, List.mem_append, List.mem_singleton]
      simp only [hf, true_and, eq_comm]
  · rw [if_neg (fun h => hf h.1)]
    simp only [hf, false_and, or_false]

theorem counters_noteRead (s : Stream) (f : Feed) (p : Packet) (now : Millis) :
    (s.noteRead f p now).counters
      = s.counters.insert f.layer
          (((s.counters.find? f.layer).getD { layer := f.layer, since := now }).record
            p.payload.length.toUInt64) := by
  have hadd : (s.addLayer f.layer).2.counters = s.counters := by
    unfold addLayer
    split <;> rfl
  by_cases hf : f.lastTimestamp.isNone = true
  · simp only [noteRead, recordPacket, hf, if_true, hadd]
  · simp only [noteRead, recordPacket, hf]
    rfl

theorem isLive_noteRead (s : Stream) (f : Feed) (p : Packet) (now : Millis) :
    (s.noteRead f p now).isLive = s.isLive := by
  rw [isLive, (s.sameHold_noteRead f p now).phase, isLive]

theorem mem_viewers_enlist (s : Stream) (id j : ViewerId) :
    id ∈ (s.enlist j).viewers ↔ id = j ∨ id ∈ s.viewers := by
  unfold enlist
  by_cases hj : j ∈ s.viewers
  · simp only [if_pos hj]
    constructor
    · exact .inr
    · rintro (rfl | h)
      · exact hj
      · exact h
  · simp only [if_neg hj, List.mem_append, List.mem_singleton]
    exact or_comm

theorem nodup_viewers_enlist {s : Stream} (h : s.viewers.Nodup) (id : ViewerId) :
    (s.enlist id).viewers.Nodup := by
  unfold enlist
  by_cases hid : id ∈ s.viewers
  · simpa only [if_pos hid] using h
  · simp only [if_neg hid]
    rw [List.nodup_append]
    refine ⟨h, List.nodup_singleton id, ?_⟩
    rintro a ha b hb rfl
    exact hid (List.mem_singleton.mp hb ▸ ha)

theorem viewers_noteRead (s : Stream) (f : Feed) (p : Packet) (now : Millis) :
    (s.noteRead f p now).viewers = s.viewers := (s.sameHold_noteRead f p now).viewers

end Stream

namespace Relay

/-! ### What goes on around a stream -/

/-- A packet that a feed reads, and the order in which it goes round. -/
structure Reading where
  loop : LoopId
  packet : Packet
  tour : Tour

/-- One thing that goes on around a stream. -/
inductive Happening where
  | read (x : Reading)
  | select (id : ViewerId) (layer : String)
  | attach (id : ViewerId)
  | detach (id : ViewerId)

/-- The feed with a name, if it reads a track of the stream. -/
def feedOf (r : Relay) (sid : StreamId) (loop : LoopId) : Option Feed :=
  (r.feeds.find? loop).filter fun f => f.stream = sid

/-- A feed of the stream reads a packet, and the packet goes round. -/
def read (r : Relay) (sid : StreamId) (x : Reading) : Relay :=
  match r.feedOf sid x.loop with
  | some f => r.forwardTo x.loop f x.packet (x.tour.visit (r.registry.table sid))
  | none => r

def meet (r : Relay) (sid : StreamId) : Happening → Relay
  | .read x => r.read sid x
  | .select id layer => r.updateViewer id fun v => v.selectLayer layer
  | .attach id => (r.onRegistry (·.act sid (·.attach id))).2
  | .detach id => r.updateStream sid fun s => (s.detach id).2

def through (r : Relay) (sid : StreamId) (hs : List Happening) : Relay :=
  hs.foldl (fun r h => r.meet sid h) r

variable {r : Relay} {sid : StreamId}

theorem through_append (r : Relay) (sid : StreamId) (hs hs' : List Happening) :
    r.through sid (hs ++ hs') = (r.through sid hs).through sid hs' := List.foldl_append

theorem stream_of_feedOf {loop : LoopId} {f : Feed} (h : r.feedOf sid loop = some f) :
    r.feeds.find? loop = some f ∧ f.stream = sid := by
  simpa [feedOf] using h

/-- Feeds read in the order in which viewers came, unless told otherwise. -/
theorem feedPacket_eq_read {loop : LoopId} {f : Feed} (h : r.feedOf sid loop = some f)
    (p : Packet) : r.feedPacket loop p = (true, r.read sid ⟨loop, p, .inOrder⟩) := by
  obtain ⟨hf, rfl⟩ := stream_of_feedOf h
  rw [feedPacket, hf, read, h]
  rfl

theorem read_of_feedOf {x : Reading} {f : Feed} (h : r.feedOf sid x.loop = some f) :
    r.read sid x = r.forwardTo x.loop f x.packet (x.tour.visit (r.registry.table sid)) := by
  rw [read, h]

theorem read_of_none {x : Reading} (h : r.feedOf sid x.loop = none) : r.read sid x = r := by
  rw [read, h]

/-! ### What a happening leaves alone -/

@[simp] theorem clock_meet (r : Relay) (sid : StreamId) (h : Happening) :
    (r.meet sid h).clock = r.clock := by
  cases h with
  | read x =>
    simp only [meet, read]
    split <;> rfl
  | select id layer => rfl
  | attach id => rfl
  | detach id => rfl

theorem stream?_read {x : Reading} {f : Feed} (h : r.feedOf sid x.loop = some f) :
    (r.read sid x).registry.stream? sid
      = (r.registry.stream? sid).map fun s => s.noteRead f x.packet r.clock := by
  obtain ⟨-, rfl⟩ := stream_of_feedOf h
  rw [read_of_feedOf h]
  show (r.registry.update f.stream fun s => s.noteRead f x.packet r.clock).stream? f.stream = _
  rw [Registry.stream?_update, if_pos rfl]

theorem table_read (r : Relay) (sid : StreamId) (x : Reading) :
    (r.read sid x).registry.table sid = r.registry.table sid := by
  cases hf : r.feedOf sid x.loop with
  | none => rw [read_of_none hf]
  | some f =>
    rw [Registry.table, stream?_read hf, Registry.table]
    cases r.registry.stream? sid with
    | none => rfl
    | some s => exact (s.sameHold_noteRead f x.packet r.clock).viewers

/-- A feed that reads goes on from the packet that it read; the others stand where they
stood. -/
theorem feedOf_read (r : Relay) (sid : StreamId) (x : Reading) (loop : LoopId) :
    (r.read sid x).feedOf sid loop
      = if loop = x.loop then (r.feedOf sid loop).map fun f => f.read x.packet
        else r.feedOf sid loop := by
  cases hf : r.feedOf sid x.loop with
  | none =>
    rw [read_of_none hf]
    split
    · rename_i hl
      rw [hl, hf]
      rfl
    · rfl
  | some f =>
    obtain ⟨-, hsid⟩ := stream_of_feedOf hf
    rw [read_of_feedOf hf]
    show ((r.feeds.insert x.loop (f.read x.packet)).find? loop).filter _ = _
    rw [Table.find?_insert]
    split
    · rename_i hl
      rw [hl, hf]
      exact Option.filter_some_pos (decide_eq_true hsid)
    · rfl

/-- Nobody is listed twice, whatever goes on. -/
theorem nodup_table_meet (hn : (r.registry.table sid).Nodup) (h : Happening) :
    ((r.meet sid h).registry.table sid).Nodup := by
  cases h with
  | read x =>
    show ((r.read sid x).registry.table sid).Nodup
    rw [table_read]
    exact hn
  | select id layer => exact hn
  | attach id =>
    show ((r.registry.act sid (·.attach id)).2.table sid).Nodup
    rw [Registry.table, Registry.stream?_act, if_pos rfl]
    cases hs : r.registry.stream? sid with
    | none => exact List.nodup_nil
    | some s =>
      rw [Registry.table_of_some hs] at hn
      show (s.attach id).2.viewers.Nodup
      rw [Stream.attach_eq]
      split
      · exact Stream.nodup_viewers_enlist hn id
      · exact hn
  | detach id =>
    show ((r.registry.update sid fun s => (s.detach id).2).table sid).Nodup
    rw [Registry.table_update_detach]
    exact hn.filter _

/-! ### What one viewer goes through -/

/-- The packet that is offered to the viewers as a happening, if a feed reads one. -/
def offer? (r : Relay) (sid : StreamId) : Happening → Option Viewer.Offer
  | .read x => (r.feedOf sid x.loop).map fun f => f.offer x.packet
  | _ => none

/-- What a happening means to one viewer. -/
def call? (r : Relay) (sid : StreamId) (id : ViewerId) : Happening → Option Viewer.Call
  | .read x => if id ∈ r.registry.table sid then (r.offer? sid (.read x)).map .send else none
  | .select j layer => if j = id then some (.select layer) else none
  | .attach _ | .detach _ => none

def calls (sid : StreamId) (id : ViewerId) : Relay → List Happening → List Viewer.Call
  | _, [] => []
  | r, h :: hs => (r.call? sid id h).toList ++ calls sid id (r.meet sid h) hs

theorem find?_viewers_read (hn : (r.registry.table sid).Nodup) (x : Reading) (id : ViewerId) :
    (r.read sid x).viewers.find? id
      = (r.viewers.find? id).map fun v => v.after (r.call? sid id (.read x)).toList := by
  have hsame : r.viewers.find? id = (r.viewers.find? id).map fun v => v.after [] :=
    (Option.map_id' ..).symm
  cases hf : r.feedOf sid x.loop with
  | none =>
    rw [read_of_none hf, call?, offer?, hf, Option.map_none, Option.map_none, ite_self]
    exact hsame
  | some f =>
    rw [read_of_feedOf hf, call?, offer?, hf]
    refine (find?_offerAll_of_nodup f x.packet (x.tour.nodup_visit hn) r.viewers id).trans ?_
    simp only [Tour.mem_visit]
    split
    · rfl
    · exact hsame

/-- **One happening is at most one call of a viewer.** -/
theorem find?_viewers_meet (hn : (r.registry.table sid).Nodup) (h : Happening) (id : ViewerId) :
    (r.meet sid h).viewers.find? id
      = (r.viewers.find? id).map fun v => v.after (r.call? sid id h).toList := by
  cases h with
  | read x => exact find?_viewers_read hn x id
  | select j layer =>
    show (r.viewers.modify j fun v => v.selectLayer layer).find? id = _
    rw [Table.find?_modify, call?]
    by_cases hj : id = j
    · rw [if_pos hj, if_pos hj.symm]
      rfl
    · rw [if_neg hj, if_neg (Ne.symm hj)]
      exact (Option.map_id' ..).symm
  | attach j => exact (Option.map_id' ..).symm
  | detach j => exact (Option.map_id' ..).symm

/-- **What becomes of a viewer is its own history.** -/
theorem find?_viewers_through (hn : (r.registry.table sid).Nodup) (hs : List Happening)
    (id : ViewerId) :
    (r.through sid hs).viewers.find? id
      = (r.viewers.find? id).map fun v => v.after (calls sid id r hs) := by
  induction hs generalizing r with
  | nil => exact (Option.map_id' ..).symm
  | cons h rest ih =>
    show ((r.meet sid h).through sid rest).viewers.find? id = _
    rw [ih (nodup_table_meet hn h), find?_viewers_meet hn, Option.map_map]
    congr 1
    funext v
    show (v.after _).after _ = v.after (_ ++ _)
    simp only [Viewer.after, List.foldl_append]

/-! ### What the feeds read -/

/-- The packet that a happening brings, if it brings one. -/
def reading? : Happening → Option Reading
  | .read x => some x
  | _ => none

def readings (hs : List Happening) : List Reading := hs.filterMap reading?

/-- The packets that one feed reads, in order. -/
def packetsOf (loop : LoopId) (xs : List Reading) : List Packet :=
  (xs.filter fun x => x.loop = loop).map Reading.packet

theorem packetsOf_cons (loop : LoopId) (x : Reading) (xs : List Reading) :
    packetsOf loop (x :: xs)
      = if x.loop = loop then x.packet :: packetsOf loop xs else packetsOf loop xs := by
  unfold packetsOf
  by_cases h : x.loop = loop <;> simp [h]

/-- All that is offered to the attached viewers, whoever they are. -/
def offered (sid : StreamId) : Relay → List Happening → List Viewer.Offer
  | _, [] => []
  | r, h :: hs => (r.offer? sid h).toList ++ offered sid (r.meet sid h) hs

/-- A feed keeps its layer. -/
theorem feedOf_meet_layer (r : Relay) (sid : StreamId) (h : Happening) (loop : LoopId) :
    ((r.meet sid h).feedOf sid loop).map Feed.layer = (r.feedOf sid loop).map Feed.layer := by
  cases h with
  | read x =>
    show ((r.read sid x).feedOf sid loop).map _ = _
    rw [feedOf_read]
    split
    · cases r.feedOf sid loop <;> rfl
    · rfl
  | select id layer => rfl
  | attach id => rfl
  | detach id => rfl

/-- Of the feeds of a layer, only one reads. -/
def Sole (r : Relay) (sid : StreamId) (loop : LoopId) (layer : String) (xs : List Reading) : Prop :=
  ∀ x ∈ xs, (r.feedOf sid x.loop).map Feed.layer = some layer → x.loop = loop

theorem Sole.meet {loop : LoopId} {layer : String} {xs : List Reading}
    (h : r.Sole sid loop layer xs) (e : Happening) : (r.meet sid e).Sole sid loop layer xs := by
  intro x hx hl
  rw [feedOf_meet_layer] at hl
  exact h x hx hl

/-- **A layer carries what its one feed reads.** -/
theorem filter_offered_of_sole {loop : LoopId} {f : Feed} {hs : List Happening}
    (hf : r.feedOf sid loop = some f) (h : r.Sole sid loop f.layer (readings hs)) :
    (offered sid r hs).filter (fun o => o.layer = f.layer)
      = f.offers (packetsOf loop (readings hs)) := by
  induction hs generalizing r f with
  | nil => rfl
  | cons e rest ih =>
    rw [offered, List.filter_append]
    cases e with
    | read x =>
      have hxs : readings (.read x :: rest) = x :: readings rest := rfl
      rw [hxs] at h ⊢
      have hrest := Sole.meet (fun y hy => h y (List.mem_cons_of_mem x hy)) (.read x)
      have hnext : (r.meet sid (.read x)).feedOf sid loop
          = some (if loop = x.loop then f.read x.packet else f) := by
        show (r.read sid x).feedOf sid loop = _
        rw [feedOf_read, hf]
        split <;> rfl
      rw [packetsOf_cons, offer?]
      by_cases hl : x.loop = loop
      · rw [if_pos hl.symm] at hnext
        rw [if_pos hl, hl, hf, Feed.offers]
        have hself : (f.offer x.packet).layer = f.layer := rfl
        simp only [Option.map_some, Option.toList_some, hself, decide_true, List.filter_cons_of_pos,
          List.filter_nil, List.singleton_append]
        exact congrArg _ (ih hnext hrest)
      · rw [if_neg (Ne.symm hl)] at hnext
        rw [if_neg hl, ← ih hnext hrest]
        cases hg : r.feedOf sid x.loop with
        | none => rfl
        | some g =>
          have hne : g.layer ≠ f.layer := fun he => hl (h x List.mem_cons_self (by rw [hg, ← he]; rfl))
          simp [Feed.offer, hne]
    | select id layer => exact ih hf (Sole.meet h (.select id layer))
    | attach id => exact ih hf (Sole.meet h (.attach id))
    | detach id => exact ih hf (Sole.meet h (.detach id))

/-! ### A small relay -/

/-- A stream with two feeds and one viewer. -/
def twofold : Relay :=
  { start {} fun _ => .error .unauthorized with
    registry.streams := [{
      key := "k"
      keyframes := { capacity := 1 }
      phase := .connected
      viewers := ["v"] }]
    viewers := Table.empty.insert "v" { id := "v", streamKey := "k" }
    feeds := (Table.empty.insert 0 { stream := 0, layer := "q", av1 := false }).insert 1
      { stream := 0, layer := "h", av1 := true } }

end Relay

end Simulcast
