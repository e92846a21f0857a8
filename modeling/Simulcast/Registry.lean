import Simulcast.RelayError
import Simulcast.Stream
/-!
# The registry

The table of streams by key.  A stream is an object of its own: it keeps its name,
its place in the list of all streams ever made, when it leaves the table, and a new
stream under the same key is a different object.

Claiming a key is one step: the stream is found or made and then claimed.  Releasing
a stream is two steps, `beginRelease` on the stream and `forget` on the table, which
removes the entry only if it is still the same object.
-/

namespace Simulcast

/-- Streams by key. -/
structure Registry where
  /-- How many keyframe requests a new stream may queue. -/
  queueCapacity : Nat := 50
  /-- All streams ever made; a stream's name is its place. -/
  streams : List Stream := []
  /-- The registered streams by key. -/
  index : Table String StreamId := .empty

namespace Registry

instance : Inhabited Registry := ⟨{}⟩

/-! ### Stream objects -/

/-- The stream with a name. -/
def stream? (r : Registry) (id : StreamId) : Option Stream := r.streams[id]?

/-- Puts a stream in the place of the one with its name. -/
def put (r : Registry) (id : StreamId) (s : Stream) : Registry :=
  { r with streams := r.streams.set id s }

/-- Runs one step on a stream; none if there is no such stream. -/
def act {α : Type} (r : Registry) (id : StreamId) (step : Stream → α × Stream) :
    Option α × Registry :=
  match r.stream? id with
  | some s => (some (step s).1, r.put id (step s).2)
  | none => (none, r)

/-- Changes a stream, if there is one with the name. -/
def update (r : Registry) (id : StreamId) (change : Stream → Stream) : Registry :=
  (r.act id fun s => ((), change s)).2

theorem stream?_put (r : Registry) (id j : StreamId) (s : Stream) :
    (r.put id s).stream? j
      = if id = j then (if j < r.streams.length then some s else none) else r.stream? j := by
  simp only [stream?, put, List.getElem?_set]
  by_cases h : id = j
  · subst h
    simp
  · simp [h]

/-! ### Look-up -/

/-- The stream registered under a key. -/
def find? (r : Registry) (key : String) : Option StreamId := r.index.find? key

/-- The live stream registered under a key. -/
def live? (r : Registry) (key : String) : Except RelayError StreamId :=
  match r.find? key with
  | none => .error (.streamNotFound key)
  | some id =>
    if ((r.stream? id).map Stream.isLive).getD false then .ok id
    else .error (.streamNotActive key)

/-- The number of registered streams. -/
def size (r : Registry) : Nat := r.index.size

/-- The registered streams. -/
def registered (r : Registry) : List StreamId := r.index.values

/-- The keys of the live streams, in order. -/
def activeKeys (r : Registry) : List String :=
  (r.index.entries.filter fun e => ((r.stream? e.2).map Stream.isLive).getD false).map Prod.fst
    |>.mergeSort fun a b => a ≤ b

/-- The registered stream that has a viewer attached. -/
def findViewer? (r : Registry) (id : ViewerId) : Option StreamId :=
  r.registered.find? fun sid => ((r.stream? sid).map fun s => s.viewers.contains id).getD false

/-! ### Registration -/

/-- The stream under a key, made and registered if there is none. -/
def getOrCreate (r : Registry) (key : String) (now : Millis) : StreamId × Registry :=
  match r.find? key with
  | some id => (id, r)
  | none =>
    let id := r.streams.length
    (id, { r with
      streams := r.streams ++ [Stream.create key r.queueCapacity now]
      index := r.index.insert key id })

/-- Claims the stream under a key for a broadcaster. -/
def claim (r : Registry) (key : String) (now : Millis) : Except RelayError StreamId × Registry :=
  let (id, r) := r.getOrCreate key now
  match (r.stream? id).bind Stream.claim? with
  | some s => (.ok id, r.put id s)
  | none => (.error (.streamAlreadyPublishing key), r)

/-- First step of a release: the broadcaster's hold on the stream ends. -/
def beginRelease (r : Registry) (id : StreamId) : Option Released × Registry :=
  match (r.stream? id).bind Stream.release? with
  | some (released, s) => (some released, r.put id s)
  | none => (none, r)

/-- Second step of a release: the entry under the stream's key goes, if it is this
stream. -/
def forget (r : Registry) (id : StreamId) : Registry :=
  match r.stream? id with
  | some s => if r.find? s.key = some id then { r with index := r.index.erase s.key } else r
  | none => r

/-- Releases a stream; none if no broadcaster held it. -/
def release (r : Registry) (id : StreamId) : Option Released × Registry :=
  match r.beginRelease id with
  | (some released, r) => (some released, r.forget id)
  | (none, r) => (none, r)

/-- Removes the entry under a key, whatever stream it is. -/
def remove (r : Registry) (key : String) : Option StreamId × Registry :=
  (r.find? key, { r with index := r.index.erase key })

end Registry

end Simulcast
