import Simulcast.Proofs.Relay.Refusal
/-!
# The share of a key

A relay serves many keys at once.  `Relay.share` is what one of them has in it: its streams
with the feeds that read them, its viewers, the one stream that is on air under it, the
notices about it, and the part of the configuration that all keys have in common.

Whatever changes the relay changes its shares alike: a change of a stream is one of the stream
in the share that owns it (`Relay.share_updateStream`), and in any other share it is a change
of nothing (`Share.change_of_none`).  The same goes for viewers and notices.
-/

namespace Simulcast

/-- The key that a notice is about. -/
def Notice.key : Notice → String
  | .connected key | .disconnected key => key

/-- What one key has in a relay. -/
@[ext]
structure Share where
  key : String
  settings : Settings
  negotiate : Attempt → Except RelayError Agreement
  /-- Which keys are accepted; nothing is remembered. -/
  validator : KeyValidator
  queueCapacity : Nat
  onAir : Option StreamId
  streams : StreamId → Option Stream
  feeds : LoopId → Option Feed
  viewers : ViewerId → Option Viewer
  notices : List Notice

namespace Share

/-! ### Changes to a share -/

def change (u : Share) (sid : StreamId) (f : Stream → Stream) : Share :=
  { u with streams := fun j => if j = sid then (u.streams j).map f else u.streams j }

def alter (u : Share) (ids : List ViewerId) (f : Viewer → Viewer) : Share :=
  { u with viewers := fun j => if j ∈ ids then (u.viewers j).map f else u.viewers j }

/-- Every stream is changed. -/
def changeAll (u : Share) (f : Stream → Stream) : Share :=
  { u with streams := fun j => (u.streams j).map f }

def setFeed (u : Share) (loop : LoopId) (f : Option Feed) : Share :=
  { u with feeds := fun j => if j = loop then f else u.feeds j }

/-- A feed, if it reads a stream of the share. -/
def reading (u : Share) (f : Feed) : Option Feed :=
  if (u.streams f.stream).isSome then some f else none

def addStream (u : Share) (sid : StreamId) (s : Stream) : Share :=
  { u with streams := fun j => if j = sid then some s else u.streams j }

def addViewer (u : Share) (id : ViewerId) (v : Viewer) : Share :=
  { u with viewers := fun j => if j = id then some v else u.viewers j }

/-- Another stream is on air, or none, and the outside is told. -/
def announce (u : Share) (onAir : Option StreamId) (n : Notice) : Share :=
  { u with onAir, notices := u.notices ++ [n] }

/-- The viewers that a stream has. -/
def audience (u : Share) (sid : StreamId) : List ViewerId :=
  ((u.streams sid).map Stream.viewers).getD []

/-- The stream is taken off the air, if it is on air. -/
def retire (u : Share) (sid : StreamId) : Share :=
  if u.onAir = some sid then
    ((u.alter (u.audience sid) Viewer.closed).change sid Stream.retired).announce none
      (.disconnected u.key)
  else u

/-- What is on air is taken off the air. -/
def finish (u : Share) : Share := (u.onAir.map u.retire).getD u

/-! ### What the key does not own cannot be changed -/

variable {u : Share}

theorem change_of_none {sid : StreamId} (h : u.streams sid = none) (f : Stream → Stream) :
    u.change sid f = u := by
  refine Share.ext rfl rfl rfl rfl rfl rfl (funext fun j => ?_) rfl rfl rfl
  show (if j = sid then _ else _) = _
  split
  · rename_i hj
    rw [hj, h]
    rfl
  · rfl

theorem alter_of_none {ids : List ViewerId} (h : ∀ id ∈ ids, u.viewers id = none)
    (f : Viewer → Viewer) : u.alter ids f = u := by
  refine Share.ext rfl rfl rfl rfl rfl rfl rfl rfl (funext fun j => ?_) rfl
  show (if j ∈ ids then _ else _) = _
  split
  · rename_i hj
    rw [h j hj]
    rfl
  · rfl

theorem setFeed_self {loop : LoopId} {f : Option Feed} (h : u.feeds loop = f) :
    u.setFeed loop f = u := by
  refine Share.ext rfl rfl rfl rfl rfl rfl rfl (funext fun j => ?_) rfl rfl
  show (if j = loop then _ else _) = _
  split
  · rename_i hj
    rw [hj, h]
  · rfl

/-- A change of a stream leaves it there to be read. -/
theorem reading_change (u : Share) (sid : StreamId) (g : Stream → Stream) (f : Feed) :
    (u.change sid g).reading f = u.reading f := by
  have hsame : ((u.change sid g).streams f.stream).isSome = (u.streams f.stream).isSome := by
    show (if f.stream = sid then (u.streams f.stream).map g else _).isSome = _
    split
    · exact Option.isSome_map ..
    · rfl
  rw [reading, hsame, reading]

theorem retire_of_ne {sid : StreamId} (h : u.onAir ≠ some sid) : u.retire sid = u := if_neg h

end Share

namespace Relay

/-! ### The share of a key -/

/-- A stream, if it belongs to a key. -/
def ownStream (r : Relay) (k : String) (sid : StreamId) : Option Stream :=
  (r.registry.stream? sid).filter fun s => s.key = k

/-- A viewer, if it was made for a key. -/
def ownViewer (r : Relay) (k : String) (id : ViewerId) : Option Viewer :=
  (r.viewers.find? id).filter fun v => v.streamKey = k

/-- A feed, if it reads a stream of a key. -/
def ownFeed (r : Relay) (k : String) (loop : LoopId) : Option Feed :=
  (r.feeds.find? loop).filter fun f => (r.ownStream k f.stream).isSome

def share (r : Relay) (k : String) : Share where
  key := k
  settings := r.settings
  negotiate := r.negotiate
  validator := { r.validator with lastMatched := none }
  queueCapacity := r.registry.queueCapacity
  onAir := r.registry.find? k
  streams := r.ownStream k
  feeds := r.ownFeed k
  viewers := r.ownViewer k
  notices := r.notices.filter fun n => n.key = k

variable {ids : List ViewerId} {r q : Relay} {k : String}

theorem ownStream_eq_some {sid : StreamId} {s : Stream} :
    r.ownStream k sid = some s ↔ r.registry.stream? sid = some s ∧ s.key = k := by
  simp [ownStream, Option.filter_eq_some_iff]

theorem ownViewer_eq_some {id : ViewerId} {v : Viewer} :
    r.ownViewer k id = some v ↔ r.viewers.find? id = some v ∧ v.streamKey = k := by
  simp [ownViewer, Option.filter_eq_some_iff]

theorem ownFeed_eq_some {loop : LoopId} {f : Feed} :
    r.ownFeed k loop = some f
      ↔ r.feeds.find? loop = some f ∧ ∃ s, r.ownStream k f.stream = some s := by
  simp [ownFeed, Option.filter_eq_some_iff, Option.isSome_iff_exists]

theorem ownStream_of_ne {sid : StreamId} {s : Stream} (hs : r.registry.stream? sid = some s)
    (hk : s.key ≠ k) : r.ownStream k sid = none := by
  rw [ownStream, hs]
  simp [hk]

theorem ownViewer_of_ne {id : ViewerId} {v : Viewer} (hv : r.viewers.find? id = some v)
    (hk : v.streamKey ≠ k) : r.ownViewer k id = none := by
  rw [ownViewer, hv]
  simp [hk]

/-- A change that keeps what a filter asks for may be made before it or after it. -/
theorem filter_map_of_same {α : Type} {p : α → Bool} {f : α → α} (h : ∀ a, p (f a) = p a)
    (o : Option α) : (o.map f).filter p = (o.filter p).map f := by
  cases o with
  | none => rfl
  | some a =>
    rw [Option.map_some, Option.filter_some, Option.filter_some, h]
    split <;> rfl

/-- Feeds go with their streams. -/
theorem ownFeed_of_same (hf : q.feeds = r.feeds)
    (hs : ∀ sid, (q.ownStream k sid).isSome = (r.ownStream k sid).isSome) :
    q.ownFeed k = r.ownFeed k := by
  funext loop
  rw [ownFeed, ownFeed, hf]
  simp only [hs]

section

variable {f : Stream → Stream} {sid : StreamId}

theorem ownStream_of_change (hf : ∀ s, (f s).key = s.key)
    (hs : ∀ j, q.registry.stream? j
      = if j = sid then (r.registry.stream? j).map f else r.registry.stream? j) (j : StreamId) :
    q.ownStream k j = if j = sid then (r.ownStream k j).map f else r.ownStream k j := by
  rw [ownStream, hs]
  split
  · exact filter_map_of_same (fun s => by rw [hf]) _
  · rfl

theorem ownFeed_of_change (hf : ∀ s, (f s).key = s.key)
    (hs : ∀ j, q.registry.stream? j
      = if j = sid then (r.registry.stream? j).map f else r.registry.stream? j)
    (hfeeds : q.feeds = r.feeds) : q.ownFeed k = r.ownFeed k := by
  refine ownFeed_of_same hfeeds fun j => ?_
  rw [ownStream_of_change hf hs]
  split
  · exact Option.isSome_map ..
  · rfl

end

/-! ### Parts of an operation -/

theorem share_updateStream {f : Stream → Stream} (hf : ∀ s, (f s).key = s.key) (sid : StreamId) :
    (r.updateStream sid f).share k = (r.share k).change sid f := by
  have hstream : ∀ j, (r.updateStream sid f).registry.stream? j
      = if j = sid then (r.registry.stream? j).map f else r.registry.stream? j := by
    intro j
    rw [registry_updateStream, Registry.stream?_update]
    split
    · rename_i hj
      rw [hj]
    · rfl
  exact Share.ext rfl rfl rfl rfl (Registry.queueCapacity_update ..) (Registry.find?_update ..)
    (funext (ownStream_of_change hf hstream)) (ownFeed_of_change hf hstream rfl) rfl rfl

theorem share_updateViewer {f : Viewer → Viewer} (hf : ∀ v, (f v).streamKey = v.streamKey)
    (id : ViewerId) : (r.updateViewer id f).share k = (r.share k).alter [id] f := by
  refine Share.ext rfl rfl rfl rfl rfl rfl rfl rfl (funext fun j => ?_) rfl
  show ((r.viewers.modify id f).find? j).filter _ = if j ∈ [id] then _ else _
  rw [Table.find?_modify]
  simp only [List.mem_singleton]
  split
  · exact filter_map_of_same (fun v => by rw [hf]) _
  · rfl

theorem share_notify_of_key {n : Notice} (h : n.key = k) :
    (r.notify n).share k = (r.share k).announce (r.share k).onAir n := by
  refine Share.ext rfl rfl rfl rfl rfl rfl rfl rfl rfl ?_
  show (r.notices ++ [n]).filter _ = r.notices.filter _ ++ [n]
  rw [List.filter_append, List.filter_cons_of_pos (by simpa using h)]
  rfl

theorem share_notify_of_ne {n : Notice} (h : n.key ≠ k) : (r.notify n).share k = r.share k := by
  refine Share.ext rfl rfl rfl rfl rfl rfl rfl rfl rfl ?_
  show (r.notices ++ [n]).filter _ = r.notices.filter _
  rw [List.filter_append, List.filter_cons_of_neg (by simpa using h)]
  exact List.append_nil _

/-- Beside its tables a relay is the same to every key. -/
theorem SameFrame.share_ext (h : r.SameFrame q) {u : Share}
    (hu : u = { r.share k with
      onAir := u.onAir, streams := u.streams, feeds := u.feeds, viewers := u.viewers })
    (hcapacity : q.registry.queueCapacity = r.registry.queueCapacity)
    (honAir : q.registry.find? k = u.onAir) (hstreams : ∀ sid, q.ownStream k sid = u.streams sid)
    (hfeeds : q.ownFeed k = u.feeds) (hviewers : ∀ id, q.ownViewer k id = u.viewers id) :
    q.share k = u := by
  rw [hu]
  unfold SameFrame at h
  refine Share.ext rfl ?_ ?_ ?_ hcapacity honAir (funext hstreams) hfeeds (funext hviewers) ?_
  · show q.settings = r.settings
    rw [h]
  · show q.negotiate = r.negotiate
    rw [h]
  · show { q.validator with lastMatched := none } = { r.validator with lastMatched := none }
    rw [h]
  · show q.notices.filter _ = r.notices.filter _
    rw [h]

end Relay

end Simulcast
