import Mathlib.Data.List.Nodup
import Simulcast.Proofs.Registry.Views
import Simulcast.Stream
/-!
# Keyframe requests are conserved

Several loops take requests from one queue.  A loop takes the oldest request that waits and
tries an indication for it; meanwhile it does not wait itself, so requests may be taken and put
in before it comes back.  `KeyframeService` is a stream with its loops in such a state, and it
numbers the requests: `untaken` are the numbers of those that wait, and each attempt is noted
with the number of the request that it is for.

Requests and attempts are matched by one equation (`KeyframeService.Sound.inOrder`): the
requests that were tried and the ones that wait are, in this order, all that were accepted.
Everything else is about loops: a loop waits or has an indication under way, under one name, and
never again once an indication of its failed.  `KeyframeService.Sound.move` carries this through
a move, and `KeyframeService.Conserved` is what follows for requests.

The queue's own schedule, by which the loop in front takes the next request
(`KeyframeQueue.serve`), is one of many: `KeyframeService.Sound.exists_run_serveUpTo`.
-/

namespace Simulcast

/-! ### Taking and answering -/

/-- The indication that a loop tries next. -/
def KeyframeLoop.attempt (loop : KeyframeLoop) : KeyframeAttempt :=
  ⟨loop.id, loop.ssrc, loop.canSend loop.attempts⟩

namespace KeyframeQueue

/-- A waiting loop takes a request and does not wait any more. -/
def take? (q : KeyframeQueue) (id : LoopId) : Option (KeyframeLoop × KeyframeQueue) :=
  if 0 < q.pending then
    (q.waiting.find? (·.id = id)).map fun loop =>
      (loop, { q.leave id with pending := q.pending - 1 })
  else none

/-- The indication of a loop succeeded or failed. -/
def answered (q : KeyframeQueue) (loop : KeyframeLoop) : KeyframeQueue :=
  if loop.canSend loop.attempts then q.join { loop with attempts := loop.attempts + 1 } else q

theorem exists_of_take? {q q' : KeyframeQueue} {id : LoopId} {loop : KeyframeLoop}
    (h : q.take? id = some (loop, q')) :
    loop ∈ q.waiting ∧ loop.id = id ∧ 0 < q.pending ∧
      q' = { q.leave id with pending := q.pending - 1 } := by
  rw [take?] at h
  split at h
  · rename_i hpos
    obtain ⟨found, hfound, he⟩ := Option.map_eq_some_iff.mp h
    obtain ⟨rfl, rfl⟩ := Prod.mk.inj he
    exact ⟨List.mem_of_find?_eq_some hfound, by simpa using List.find?_some hfound, hpos, rfl⟩
  · exact absurd h (by simp)

/-- A loop that waits can take a request as long as there is one. -/
theorem take?_of_waiting {q : KeyframeQueue} {id : LoopId} (hid : q.isWaiting id = true)
    (hpos : 0 < q.pending) : ∃ loop q', q.take? id = some (loop, q') := by
  obtain ⟨loop, hloop, he⟩ := List.any_eq_true.mp hid
  have hfind : (q.waiting.find? (·.id = id)).isSome = true :=
    List.find?_isSome.mpr ⟨loop, hloop, he⟩
  obtain ⟨found, hfound⟩ := Option.isSome_iff_exists.mp hfind
  exact ⟨found, _, by rw [take?, if_pos hpos, hfound, Option.map_some]⟩

/-- **The queue's schedule**: the loop in front takes the request, tries and comes back. -/
theorem serveOne?_of_front {q : KeyframeQueue} {loop : KeyframeLoop} {rest : List KeyframeLoop}
    (hq : q.waiting = loop :: rest) (hpos : 0 < q.pending)
    (hids : (q.waiting.map KeyframeLoop.id).Nodup) :
    ∃ q', q.take? loop.id = some (loop, q') ∧
      q.serveOne? = some (loop.attempt, q'.answered loop) := by
  obtain ⟨capacity, pending, waiting⟩ := q
  obtain rfl : waiting = loop :: rest := hq
  obtain ⟨n, rfl⟩ : ∃ n, pending = n + 1 := Nat.exists_eq_add_one.mpr hpos
  have hrest : (loop :: rest).filter (fun l => decide (l.id ≠ loop.id)) = rest := by
    rw [List.map_cons, List.nodup_cons] at hids
    rw [List.filter_cons_of_neg (by simp), List.filter_eq_self]
    intro l hl
    simpa using fun he : l.id = loop.id => hids.1 (he ▸ List.mem_map_of_mem hl)
  refine ⟨⟨capacity, n, rest⟩, ?_, ?_⟩
  · simp only [take?, leave, hrest, List.find?_cons, decide_true]
    rfl
  · simp only [serveOne?, answered, join, KeyframeLoop.attempt]
    split <;> rfl

end KeyframeQueue

/-! ### Services -/

/-- A stream, its keyframe loops and what became of the requests. -/
structure KeyframeService where
  stream : Stream
  /-- Loops whose indication is under way. -/
  sending : List KeyframeLoop := []
  /-- The sources of all loops that were started; a loop's name is its place. -/
  started : List UInt32 := []
  /-- What requests were answered, oldest first. -/
  answers : List Bool := []
  /-- The numbers of the accepted requests that nobody took, oldest first. -/
  untaken : List Nat := []
  /-- The attempts with the number of the request that each is for, oldest first. -/
  attempts : List (Option Nat × KeyframeAttempt) := []

namespace KeyframeService

inductive Move where
  | request
  | start (ssrc : UInt32) (canSend : Nat → Bool)
  /-- A loop takes a request; its indication is under way from now on. -/
  | take (id : LoopId)
  /-- The indication of a loop succeeded or failed. -/
  | answer (id : LoopId)
  /-- A loop is stopped. -/
  | stop (id : LoopId)

def accepted (k : KeyframeService) : Nat := k.answers.count true

def request (k : KeyframeService) : KeyframeService :=
  { k with
    stream := k.stream.requestKeyframe.2
    answers := k.answers ++ [k.stream.requestKeyframe.1]
    untaken := if k.stream.requestKeyframe.1 then k.untaken ++ [k.accepted] else k.untaken }

def withQueue (k : KeyframeService) (q : KeyframeQueue) : KeyframeService :=
  { k with stream := { k.stream with keyframes := q } }

def start (k : KeyframeService) (ssrc : UInt32) (canSend : Nat → Bool) : KeyframeService :=
  { k.withQueue (k.stream.keyframes.join { id := k.started.length, ssrc, canSend }) with
    started := k.started ++ [ssrc] }

def take (k : KeyframeService) (id : LoopId) : KeyframeService :=
  match k.stream.keyframes.take? id with
  | none => k
  | some (loop, q) =>
    { k.withQueue q with
      sending := k.sending ++ [loop]
      untaken := k.untaken.tail
      attempts := k.attempts ++ [(k.untaken.head?, loop.attempt)] }

def answer (k : KeyframeService) (id : LoopId) : KeyframeService :=
  match k.sending.find? (·.id = id) with
  | none => k
  | some loop =>
    { k.withQueue (k.stream.keyframes.answered loop) with
      sending := k.sending.filter (·.id ≠ id) }

def stop (k : KeyframeService) (id : LoopId) : KeyframeService :=
  { k.withQueue (k.stream.keyframes.leave id) with sending := k.sending.filter (·.id ≠ id) }

def move (k : KeyframeService) : Move → KeyframeService
  | .request => k.request
  | .start ssrc canSend => k.start ssrc canSend
  | .take id => k.take id
  | .answer id => k.answer id
  | .stop id => k.stop id

def run (k : KeyframeService) (moves : List Move) : KeyframeService := moves.foldl move k

theorem run_append (k : KeyframeService) (ms ns : List Move) :
    k.run (ms ++ ns) = (k.run ms).run ns :=
  List.foldl_append

/-! ### What moves do to the loops -/

/-- The loops that wait and those whose indication is under way, next to all that were started
and all that was tried. -/
structure Crew (started : List UInt32) (waiting sending : List KeyframeLoop)
    (tried : List KeyframeAttempt) : Prop where
  waits : ∀ loop ∈ waiting, started[loop.id]? = some loop.ssrc
  sends : ∀ loop ∈ sending, started[loop.id]? = some loop.ssrc
  tries : ∀ a ∈ tried, started[a.loop]? = some a.ssrc
  waitingOnce : (waiting.map KeyframeLoop.id).Nodup
  sendingOnce : (sending.map KeyframeLoop.id).Nodup
  apart : ∀ loop ∈ waiting, ∀ other ∈ sending, other.id ≠ loop.id
  /-- A loop whose indication failed does not wait, and will not wait again. -/
  failed : ∀ a ∈ tried, a.sent = false → (∀ loop ∈ waiting, loop.id ≠ a.loop) ∧
    ∀ loop ∈ sending, loop.id = a.loop → loop.canSend loop.attempts = false
  last : tried.Pairwise fun a b => a.sent = false → b.loop ≠ a.loop

section

variable {started : List UInt32} {waiting sending waiting' sending' : List KeyframeLoop}
  {tried : List KeyframeAttempt}

theorem Crew.sublist (h : Crew started waiting sending tried) (hw : waiting'.Sublist waiting)
    (hs : sending'.Sublist sending) : Crew started waiting' sending' tried where
  waits loop hl := h.waits loop (hw.subset hl)
  sends loop hl := h.sends loop (hs.subset hl)
  tries := h.tries
  waitingOnce := h.waitingOnce.sublist (hw.map _)
  sendingOnce := h.sendingOnce.sublist (hs.map _)
  apart loop hl other ho := h.apart loop (hw.subset hl) other (hs.subset ho)
  failed a ha hf := ⟨fun loop hl => (h.failed a ha hf).1 loop (hw.subset hl),
    fun loop hl => (h.failed a ha hf).2 loop (hs.subset hl)⟩
  last := h.last

theorem forall_mem_concat {α : Type} {p : α → Prop} {xs : List α} {x : α} (hold : ∀ y ∈ xs, p y)
    (hnew : p x) : ∀ y ∈ xs ++ [x], p y :=
  List.forall_mem_append.mpr ⟨hold, List.forall_mem_singleton.mpr hnew⟩

theorem nodup_ids_concat {loops : List KeyframeLoop} {loop : KeyframeLoop}
    (h : (loops.map KeyframeLoop.id).Nodup) (hnew : ∀ other ∈ loops, other.id ≠ loop.id) :
    ((loops ++ [loop]).map KeyframeLoop.id).Nodup := by
  rw [List.map_append, List.map_singleton, List.nodup_append]
  refine ⟨h, List.nodup_singleton _, fun i hi j hj => ?_⟩
  obtain ⟨other, ho, rfl⟩ := List.mem_map.mp hi
  rw [List.mem_singleton.mp hj]
  exact hnew other ho

/-- A loop of a name that no other has starts to wait. -/
theorem Crew.join (h : Crew started waiting sending tried) {loop : KeyframeLoop}
    (hknown : started[loop.id]? = some loop.ssrc) (hw : ∀ other ∈ waiting, other.id ≠ loop.id)
    (hs : ∀ other ∈ sending, other.id ≠ loop.id)
    (hgood : ∀ a ∈ tried, a.sent = false → loop.id ≠ a.loop) :
    Crew started (waiting ++ [loop]) sending tried := by
  exact { h with
    waits := forall_mem_concat h.waits hknown
    waitingOnce := nodup_ids_concat h.waitingOnce hw
    apart := forall_mem_concat h.apart hs
    failed := fun a ha hf =>
      ⟨forall_mem_concat (h.failed a ha hf).1 (hgood a ha hf), (h.failed a ha hf).2⟩ }

/-- One loop more is started. -/
theorem Crew.start (h : Crew started waiting sending tried) (ssrc : UInt32)
    (canSend : Nat → Bool) :
    Crew (started ++ [ssrc]) (waiting ++ [{ id := started.length, ssrc, canSend }]) sending
      tried := by
  have hnew : ∀ {i : LoopId} {source : UInt32}, started[i]? = some source → i ≠ started.length :=
    fun hi => Nat.ne_of_lt (List.getElem?_eq_some_iff.mp hi).1
  have hkept : ∀ {i : LoopId} {source : UInt32}, started[i]? = some source →
      (started ++ [ssrc])[i]? = some source :=
    fun hi => by rw [getElem?_concat, if_neg (hnew hi), hi]
  have hgrown : Crew (started ++ [ssrc]) waiting sending tried := { h with
    waits := fun loop hl => hkept (h.waits loop hl)
    sends := fun loop hl => hkept (h.sends loop hl)
    tries := fun a ha => hkept (h.tries a ha) }
  refine hgrown.join List.getElem?_concat_length (fun other ho => hnew (h.waits other ho))
    (fun other ho => hnew (h.sends other ho)) fun a ha _ => (hnew (h.tries a ha)).symm

/-- A waiting loop tries an indication. -/
theorem Crew.take (h : Crew started waiting sending tried) {loop : KeyframeLoop}
    (hl : loop ∈ waiting) :
    Crew started (waiting.filter (·.id ≠ loop.id)) (sending ++ [loop])
      (tried ++ [loop.attempt]) := by
  have hrest := h.sublist (List.filter_sublist (p := fun l => decide (l.id ≠ loop.id)))
    (List.Sublist.refl sending)
  have hgone : ∀ other ∈ waiting.filter (·.id ≠ loop.id), other.id ≠ loop.id :=
    fun other ho => by simpa using (List.mem_filter.mp ho).2
  exact {
    waits := hrest.waits
    sends := forall_mem_concat h.sends (h.waits loop hl)
    tries := forall_mem_concat h.tries (h.waits loop hl)
    waitingOnce := hrest.waitingOnce
    sendingOnce := nodup_ids_concat h.sendingOnce (h.apart loop hl)
    apart := fun other ho => forall_mem_concat (hrest.apart other ho) (hgone other ho).symm
    failed := by
      refine forall_mem_concat
        (fun a ha hf => ⟨(hrest.failed a ha hf).1, forall_mem_concat (h.failed a ha hf).2 ?_⟩)
        fun hf => ⟨hgone, forall_mem_concat (fun other ho he => ?_) fun _ => hf⟩
      · exact fun he => absurd he ((h.failed a ha hf).1 loop hl)
      · exact absurd he (h.apart loop hl other ho)
    last := by
      rw [List.pairwise_append]
      refine ⟨h.last, List.pairwise_singleton _ _, fun a ha b hb hf => ?_⟩
      rw [List.mem_singleton.mp hb]
      exact (h.failed a ha hf).1 loop hl }

/-- A loop comes back from its indication or not. -/
theorem Crew.answered {q : KeyframeQueue} (h : Crew started q.waiting sending tried)
    {loop : KeyframeLoop} (hl : loop ∈ sending) :
    Crew started (q.answered loop).waiting (sending.filter (·.id ≠ loop.id)) tried := by
  have hrest := h.sublist (List.Sublist.refl q.waiting)
    (List.filter_sublist (p := fun l => decide (l.id ≠ loop.id)) (l := sending))
  unfold KeyframeQueue.answered
  split
  · rename_i hsent
    refine hrest.join (h.sends loop hl) (fun other ho => (h.apart other ho loop hl).symm)
      (fun other ho => by simpa using (List.mem_filter.mp ho).2) fun a ha hf he => ?_
    exact absurd hsent (by rw [(h.failed a ha hf).2 loop hl he]; decide)
  · exact hrest

end

/-! ### What moves do to the requests -/

/-- **The books of a service are true.** -/
structure Sound (c : Nat) (k : KeyframeService) : Prop where
  capacity : k.stream.keyframes.capacity = c
  pending : k.stream.keyframes.pending = k.untaken.length
  bounded : k.untaken.length ≤ c
  /-- The requests that were tried, and behind them the ones that wait, are all that were
  accepted. -/
  inOrder : k.attempts.map Prod.fst ++ k.untaken.map some = (List.range k.accepted).map some
  crew : Crew k.started k.stream.keyframes.waiting k.sending (k.attempts.map Prod.snd)

section

variable {c : Nat} {k : KeyframeService}

theorem sound_create (key : String) (c : Nat) (now : Millis) :
    Sound c { stream := .create key c now } where
  capacity := rfl
  pending := rfl
  bounded := Nat.zero_le c
  inOrder := rfl
  crew := ⟨nofun, nofun, nofun, List.nodup_nil, List.nodup_nil, nofun, nofun, .nil⟩

/-- A request is accepted as long as fewer than the capacity are untaken. -/
theorem Sound.fst_requestKeyframe (h : k.Sound c) :
    k.stream.requestKeyframe.1 = decide (k.untaken.length < c) := by
  simp only [Stream.requestKeyframe, KeyframeQueue.fst_request, KeyframeQueue.hasRoom, h.pending,
    h.capacity]

theorem Sound.request (h : k.Sound c) : k.request.Sound c := by
  have hanswer := h.fst_requestKeyframe
  have hqueue : k.stream.requestKeyframe.2.keyframes
      = { k.stream.keyframes with
          pending := if k.stream.keyframes.hasRoom then k.stream.keyframes.pending + 1
            else k.stream.keyframes.pending } := by
    simp only [Stream.requestKeyframe, KeyframeQueue.request]
    split <;> rfl
  have hroom : k.stream.keyframes.hasRoom = decide (k.untaken.length < c) :=
    (KeyframeQueue.fst_request _).symm.trans hanswer
  by_cases hlt : k.untaken.length < c
  · have huntaken : k.request.untaken = k.untaken ++ [k.accepted] := by
      simp [KeyframeService.request, hanswer, hlt]
    have haccepted : k.request.accepted = k.accepted + 1 := by
      simp [accepted, KeyframeService.request, hanswer, hlt]
    refine ⟨?_, ?_, ?_, ?_, ?_⟩
    · show k.stream.requestKeyframe.2.keyframes.capacity = c
      rw [hqueue, ← h.capacity]
    · show k.stream.requestKeyframe.2.keyframes.pending = _
      rw [hqueue, hroom, if_pos (decide_eq_true hlt), huntaken, List.length_append]
      exact congrArg (· + 1) h.pending
    · rw [huntaken, List.length_append]
      exact hlt
    · rw [huntaken, haccepted, List.range_succ, List.map_append, List.map_append,
        ← List.append_assoc]
      exact congrArg (· ++ [some k.accepted]) h.inOrder
    · show Crew _ k.stream.requestKeyframe.2.keyframes.waiting _ _
      rw [hqueue]
      exact h.crew
  · have huntaken : k.request.untaken = k.untaken := by
      simp [KeyframeService.request, hanswer, hlt]
    have haccepted : k.request.accepted = k.accepted := by
      simp [accepted, KeyframeService.request, hanswer, hlt]
    have hsame : k.stream.requestKeyframe.2.keyframes = k.stream.keyframes := by
      rw [hqueue, hroom, if_neg (by simpa using hlt)]
    refine ⟨?_, ?_, ?_, ?_, ?_⟩
    · exact (congrArg KeyframeQueue.capacity hsame).trans h.capacity
    · rw [huntaken]
      exact (congrArg KeyframeQueue.pending hsame).trans h.pending
    · rw [huntaken]
      exact h.bounded
    · rw [huntaken, haccepted]
      exact h.inOrder
    · show Crew _ k.stream.requestKeyframe.2.keyframes.waiting _ _
      rw [hsame]
      exact h.crew

theorem Sound.start (h : k.Sound c) (ssrc : UInt32) (canSend : Nat → Bool) :
    (k.start ssrc canSend).Sound c :=
  { h with crew := h.crew.start ssrc canSend }

/-- **What a loop that takes a request does**: it takes the oldest one and tries one
indication for it. -/
theorem Sound.take_of_waiting (h : k.Sound c) {id : LoopId}
    (hid : k.stream.keyframes.isWaiting id = true) {n : Nat} {rest : List Nat}
    (hn : k.untaken = n :: rest) :
    ∃ loop ∈ k.stream.keyframes.waiting, loop.id = id ∧
      k.take id = { k.withQueue { k.stream.keyframes.leave id with pending := rest.length } with
        sending := k.sending ++ [loop]
        untaken := rest
        attempts := k.attempts ++ [(some n, loop.attempt)] } := by
  have hpending : k.stream.keyframes.pending = rest.length + 1 := by rw [h.pending, hn]; rfl
  obtain ⟨loop, q, htake⟩ := KeyframeQueue.take?_of_waiting hid
    (by rw [hpending]; exact Nat.succ_pos _)
  obtain ⟨hloop, hname, -, rfl⟩ := KeyframeQueue.exists_of_take? htake
  refine ⟨loop, hloop, hname, ?_⟩
  rw [KeyframeService.take, htake]
  simp only [hn, hpending, List.tail_cons, List.head?_cons, Nat.add_sub_cancel]

theorem Sound.take_of_none (h : k.Sound c) {id : LoopId}
    (hno : k.stream.keyframes.isWaiting id = false ∨ k.untaken = []) : k.take id = k := by
  cases htake : k.stream.keyframes.take? id with
  | none => rw [KeyframeService.take, htake]
  | some found =>
    obtain ⟨hloop, hname, hpos, -⟩ := KeyframeQueue.exists_of_take? htake
    rcases hno with hno | hno
    · have hwaits : k.stream.keyframes.isWaiting id = true :=
        List.any_eq_true.mpr ⟨found.1, hloop, decide_eq_true hname⟩
      exact absurd (hno.symm.trans hwaits) (by decide)
    · rw [h.pending, hno] at hpos
      exact absurd hpos (Nat.lt_irrefl 0)

theorem Sound.take (h : k.Sound c) (id : LoopId) : (k.take id).Sound c := by
  cases hid : k.stream.keyframes.isWaiting id with
  | false =>
    rw [h.take_of_none (.inl hid)]
    exact h
  | true =>
    cases hn : k.untaken with
    | nil =>
      rw [h.take_of_none (.inr hn)]
      exact h
    | cons n rest =>
      obtain ⟨loop, hloop, rfl, htake⟩ := h.take_of_waiting hid hn
      rw [htake]
      have hbounded := h.bounded
      have hall := h.inOrder
      rw [hn] at hbounded hall
      refine ⟨h.capacity, rfl, Nat.le_of_succ_le hbounded, ?_, ?_⟩
      · show (k.attempts ++ [(some n, loop.attempt)]).map Prod.fst ++ rest.map some
          = (List.range k.accepted).map some
        rw [List.map_append, List.append_assoc]
        exact hall
      · rw [List.map_append, List.map_singleton]
        exact h.crew.take hloop

theorem Sound.answer (h : k.Sound c) (id : LoopId) : (k.answer id).Sound c := by
  unfold KeyframeService.answer
  split
  · exact h
  · rename_i loop hfound
    obtain rfl : loop.id = id := by simpa using List.find?_some hfound
    have hqueue : (k.stream.keyframes.answered loop).capacity = k.stream.keyframes.capacity ∧
        (k.stream.keyframes.answered loop).pending = k.stream.keyframes.pending := by
      unfold KeyframeQueue.answered
      split <;> exact ⟨rfl, rfl⟩
    exact ⟨hqueue.1.trans h.capacity, hqueue.2.trans h.pending, h.bounded, h.inOrder,
      h.crew.answered (List.mem_of_find?_eq_some hfound)⟩

theorem Sound.stop (h : k.Sound c) (id : LoopId) : (k.stop id).Sound c :=
  { h with crew := h.crew.sublist List.filter_sublist List.filter_sublist }

theorem Sound.move (h : k.Sound c) (m : Move) : (k.move m).Sound c := by
  cases m with
  | request => exact h.request
  | start ssrc canSend => exact h.start ssrc canSend
  | take id => exact h.take id
  | answer id => exact h.answer id
  | stop id => exact h.stop id

theorem Sound.run (h : k.Sound c) (moves : List Move) : (k.run moves).Sound c := by
  induction moves generalizing k with
  | nil => exact h
  | cons m rest ih => exact ih (h.move m)

end

/-! ### What becomes of requests -/

/-- **Requests are conserved.** -/
structure Conserved (c : Nat) (k : KeyframeService) : Prop where
  /-- A request is accepted as long as fewer than the capacity are untaken. -/
  accepts : k.stream.requestKeyframe.1 = decide (k.untaken.length < c)
  waits : k.stream.keyframes.pending = k.untaken.length
  bounded : k.untaken.length ≤ c
  balance : k.accepted = k.attempts.length + k.untaken.length
  /-- Each request that is not untaken any more was tried once, the oldest first. -/
  inOrder : k.attempts.map Prod.fst ++ k.untaken.map some = (List.range k.accepted).map some
  /-- Loops try indications for their own source. -/
  own : ∀ a ∈ k.attempts, k.started[a.2.loop]? = some a.2.ssrc
  /-- The first indication of a loop that failed is its last. -/
  last : k.attempts.Pairwise fun a b => a.2.sent = false → b.2.loop ≠ a.2.loop
  /-- A loop that failed does not wait for requests any more. -/
  failed : ∀ a ∈ k.attempts, a.2.sent = false → k.stream.keyframes.isWaiting a.2.loop = false
  /-- Every loop that waits can have the oldest request that waits, and tries one indication for
  it. -/
  available : ∀ id n rest, k.stream.keyframes.isWaiting id = true → k.untaken = n :: rest →
    ∃ ssrc sent, k.started[id]? = some ssrc ∧ (k.move (.take id)).untaken = rest ∧
      (k.move (.take id)).attempts = k.attempts ++ [(some n, ⟨id, ssrc, sent⟩)]
  /-- Without a request nobody takes one. -/
  idle : ∀ id, k.stream.keyframes.isWaiting id = false ∨ k.untaken = [] → k.move (.take id) = k
  /-- New loops wait for requests like all others. -/
  joins : ∀ ssrc canSend,
    (k.move (.start ssrc canSend)).stream.keyframes.isWaiting k.started.length = true
  /-- Whether an indication succeeds, and whether a loop is stopped, is nothing to the requests
  that wait. -/
  kept : ∀ id, (k.move (.answer id)).untaken = k.untaken ∧
    (k.move (.answer id)).attempts = k.attempts ∧ (k.move (.stop id)).untaken = k.untaken ∧
    (k.move (.stop id)).attempts = k.attempts
  /-- To serve all requests is to let the loops in front take and answer one after another. -/
  serves : ∃ moves, (k.run moves).stream
      = { k.stream with keyframes := k.stream.keyframes.serve.2 } ∧
    (k.run moves).attempts.map Prod.snd = k.attempts.map Prod.snd ++ k.stream.keyframes.serve.1

section

variable {c : Nat} {k : KeyframeService}

/-- One step of the queue's schedule: the loop in front takes a request and answers. -/
theorem Sound.exists_run_serveOne? (h : k.Sound c) {a : KeyframeAttempt} {q : KeyframeQueue}
    (hq : k.stream.keyframes.serveOne? = some (a, q)) :
    ∃ moves, (k.run moves).stream = { k.stream with keyframes := q } ∧
      (k.run moves).attempts.map Prod.snd = k.attempts.map Prod.snd ++ [a] := by
  cases hw : k.stream.keyframes.waiting with
  | nil =>
    rw [KeyframeQueue.serveOne?, hw] at hq
    exact absurd hq (by simp)
  | cons loop rest =>
    have hpos : 0 < k.stream.keyframes.pending := by
      rw [KeyframeQueue.pending_serveOne hq]
      exact Nat.succ_pos _
    obtain ⟨q', htake, hserve⟩ := KeyframeQueue.serveOne?_of_front hw hpos h.crew.waitingOnce
    obtain ⟨rfl, rfl⟩ := Prod.mk.inj (Option.some.inj (hserve.symm.trans hq))
    have hloop : loop ∈ k.stream.keyframes.waiting := hw ▸ List.mem_cons_self
    have htaken : k.take loop.id = { k.withQueue q' with
        sending := k.sending ++ [loop]
        untaken := k.untaken.tail
        attempts := k.attempts ++ [(k.untaken.head?, loop.attempt)] } := by
      rw [KeyframeService.take, htake]
    -- no other loop of this name has an indication under way
    have hfind : (k.take loop.id).sending.find? (·.id = loop.id) = some loop := by
      have hnone : k.sending.find? (·.id = loop.id) = none := by
        rw [List.find?_eq_none]
        intro other ho
        simpa using h.crew.apart loop hloop other ho
      rw [htaken]
      simp [List.find?_append, hnone]
    refine ⟨[.take loop.id, .answer loop.id], ?_, ?_⟩
    · show ((k.take loop.id).answer loop.id).stream = _
      rw [KeyframeService.answer, hfind, htaken]
      rfl
    · show ((k.take loop.id).answer loop.id).attempts.map Prod.snd = _
      rw [KeyframeService.answer, hfind, htaken]
      exact List.map_append

/-- **The queue's own schedule is one of the schedules.** -/
theorem Sound.exists_run_serveUpTo (n : Nat) (h : k.Sound c) :
    ∃ moves, (k.run moves).stream
        = { k.stream with keyframes := (KeyframeQueue.serveUpTo n k.stream.keyframes).2 } ∧
      (k.run moves).attempts.map Prod.snd
        = k.attempts.map Prod.snd ++ (KeyframeQueue.serveUpTo n k.stream.keyframes).1 := by
  induction n generalizing k with
  | zero => exact ⟨[], rfl, (List.append_nil _).symm⟩
  | succ n ih =>
    cases hq : k.stream.keyframes.serveOne? with
    | none =>
      simp only [KeyframeQueue.serveUpTo, hq]
      exact ⟨[], rfl, (List.append_nil _).symm⟩
    | some served =>
      obtain ⟨first, hstream, htried⟩ := h.exists_run_serveOne? hq
      obtain ⟨rest, hrest, hall⟩ := ih (h.run first)
      refine ⟨first ++ rest, ?_, ?_⟩
      · rw [run_append]
        simp only [KeyframeQueue.serveUpTo, hq]
        rw [hstream] at hrest
        exact hrest
      · rw [run_append]
        simp only [KeyframeQueue.serveUpTo, hq]
        rw [htried, hstream, List.append_assoc] at hall
        exact hall

theorem Sound.conserved (h : k.Sound c) : k.Conserved c where
  accepts := h.fst_requestKeyframe
  waits := h.pending
  bounded := h.bounded
  balance := by
    have hlength := congrArg List.length h.inOrder
    simpa using hlength.symm
  inOrder := h.inOrder
  own a ha := h.crew.tries a.2 (List.mem_map_of_mem ha)
  last := List.pairwise_map.mp h.crew.last
  failed a ha hf := by
    rw [KeyframeQueue.isWaiting, List.any_eq_false]
    intro loop hl
    simpa using (h.crew.failed a.2 (List.mem_map_of_mem ha) hf).1 loop hl
  available id n rest hid hn := by
    obtain ⟨loop, hloop, rfl, htake⟩ := h.take_of_waiting hid hn
    refine ⟨loop.ssrc, loop.canSend loop.attempts, h.crew.waits loop hloop, ?_, ?_⟩
    · show (k.take loop.id).untaken = rest
      rw [htake]
    · show (k.take loop.id).attempts = _
      rw [htake]
      rfl
  idle id hno := h.take_of_none hno
  joins ssrc canSend :=
    List.any_eq_true.mpr ⟨{ id := k.started.length, ssrc, canSend },
      List.mem_append_right _ (List.mem_singleton.mpr rfl), decide_eq_true rfl⟩
  kept id := by
    refine ⟨?_, ?_, rfl, rfl⟩
    · simp only [KeyframeService.move, KeyframeService.answer]
      split <;> rfl
    · simp only [KeyframeService.move, KeyframeService.answer]
      split <;> rfl
  serves := h.exists_run_serveUpTo _

end

/-- **Keyframe requests are conserved**, whatever the loops of a stream do. -/
theorem conserved_run (key : String) (c : Nat) (now : Millis) (moves : List Move) :
    (run { stream := .create key c now } moves).Conserved c :=
  ((sound_create key c now).run moves).conserved

end KeyframeService

end Simulcast
