/-!
# Keyframe requests

A viewer that joins or changes its layer needs a keyframe.  Requests wait in a
bounded queue on the stream.  Each inbound layer runs a loop that takes one request
after another and sends a picture loss indication for its own source.

Loops wait for requests in a line: the loop in front takes the next request and, if
its indication could be sent, goes to the end of the line.  A loop whose indication
fails is over; the request that it took is used up.
-/

namespace Simulcast

/-- The name of a running loop. -/
abbrev LoopId := Nat

/-- A loop that turns requests into picture loss indications. -/
structure KeyframeLoop where
  id : LoopId
  /-- The source that indications are sent for. -/
  ssrc : UInt32
  /-- Whether the indication with a number, from zero on, can be sent. -/
  canSend : Nat → Bool
  /-- Indications tried so far. -/
  attempts : Nat := 0

/-- One tried indication. -/
structure KeyframeAttempt where
  loop : LoopId
  ssrc : UInt32
  sent : Bool
  deriving DecidableEq, Repr

/-- The keyframe requests of a stream and the loops that wait for them. -/
structure KeyframeQueue where
  /-- How many requests may wait. -/
  capacity : Nat
  /-- Requests that no loop has taken. -/
  pending : Nat := 0
  /-- The waiting loops, the next one in front. -/
  waiting : List KeyframeLoop := []

namespace KeyframeQueue

/-- Whether there is room for one more request. -/
def hasRoom (q : KeyframeQueue) : Bool := q.pending < q.capacity

/-- Puts a request into the queue, if there is room. -/
def request (q : KeyframeQueue) : Bool × KeyframeQueue :=
  if q.hasRoom then (true, { q with pending := q.pending + 1 }) else (false, q)

/-- A loop starts waiting. -/
def join (q : KeyframeQueue) (loop : KeyframeLoop) : KeyframeQueue :=
  { q with waiting := q.waiting ++ [loop] }

/-- A waiting loop is stopped. -/
def leave (q : KeyframeQueue) (id : LoopId) : KeyframeQueue :=
  { q with waiting := q.waiting.filter (·.id ≠ id) }

/-- Whether a loop is still running. -/
def isWaiting (q : KeyframeQueue) (id : LoopId) : Bool := q.waiting.any (·.id = id)

/-- The loop in front takes a request and tries an indication; none if there is no
request or no loop. -/
def serveOne? (q : KeyframeQueue) : Option (KeyframeAttempt × KeyframeQueue) :=
  match q.pending, q.waiting with
  | pending + 1, loop :: rest =>
    let sent := loop.canSend loop.attempts
    let waiting := if sent then rest ++ [{ loop with attempts := loop.attempts + 1 }] else rest
    some (⟨loop.id, loop.ssrc, sent⟩, { q with pending, waiting })
  | _, _ => none

/-- Serves at most the given number of requests. -/
def serveUpTo : Nat → KeyframeQueue → List KeyframeAttempt × KeyframeQueue
  | 0, q => ([], q)
  | n + 1, q =>
    match q.serveOne? with
    | some (attempt, q') =>
      let (attempts, q'') := serveUpTo n q'
      (attempt :: attempts, q'')
    | none => ([], q)

/-- Serves requests until none is left or no loop is waiting. -/
def serve (q : KeyframeQueue) : List KeyframeAttempt × KeyframeQueue :=
  serveUpTo q.pending q

/-! ### What an operation does to the requests -/

theorem fst_request (q : KeyframeQueue) : q.request.1 = q.hasRoom := by
  unfold request; split <;> simp_all

theorem pending_request (q : KeyframeQueue) :
    q.request.2.pending = if q.hasRoom then q.pending + 1 else q.pending := by
  unfold request; split <;> simp_all

theorem capacity_request (q : KeyframeQueue) : q.request.2.capacity = q.capacity := by
  unfold request; split <;> rfl

/-- One attempt is made for each request that is taken. -/
theorem pending_serveOne {q q' : KeyframeQueue} {a : KeyframeAttempt}
    (h : q.serveOne? = some (a, q')) : q.pending = q'.pending + 1 := by
  unfold serveOne? at h
  split at h
  · rename_i pending _ _ hp _
    simp only [Option.some.injEq, Prod.mk.injEq] at h
    rw [hp, ← h.2]
  · simp at h

end KeyframeQueue

end Simulcast
