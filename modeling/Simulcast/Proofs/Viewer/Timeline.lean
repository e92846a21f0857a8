import Mathlib
import Simulcast.Viewer
/-!
# The timeline of one viewer

A viewer is told two things, in any order: which layer it wants, and what packets its
stream has.  This file says what the viewer's sink is handed and what is counted, as a
function of the history of these calls alone.

`Viewer.inForce` is the layer in force after a history: the one selected last, or the
layer of the first packet offered if none was selected.  A packet is accepted if its
layer is in force when it is offered (`Viewer.accepted`).  The accepted packets, not the
delivered ones, make the timeline: `Viewer.timeline_law` says that the packet accepted
as number `i`, counted from one, is handed over with sequence number `i` and with the
timestamp that is 50000 and the distances of the first `i` accepted packets, both
wrapping, whatever the sink answered to the ones before.

`Viewer.Follows` is the invariant: it ties a viewer's state to its history, and
`Viewer.Follows.step` takes it over one call.
-/

namespace Simulcast

namespace Viewer

/-- A packet of the stream as it is offered to a viewer. -/
structure Offer where
  packet : Packet
  layer : String
  /-- The distance in time from the packet before it on its layer. -/
  delta : UInt32
  av1 : Bool

/-- What a viewer is told. -/
inductive Call where
  | select (layer : String)
  | send (o : Offer)

/-- The viewer after one call. -/
def told (v : Viewer) : Call → Viewer
  | .select layer => v.selectLayer layer
  | .send o => (v.send o.packet o.layer o.delta o.av1).2

/-- The viewer after a history of calls, oldest first. -/
def after (v : Viewer) (calls : List Call) : Viewer := calls.foldl told v

theorem after_append_singleton (v : Viewer) (calls : List Call) (c : Call) :
    v.after (calls ++ [c]) = (v.after calls).told c := by
  simp [after, List.foldl_append]

/-! ### Histories -/

/-- The layer that a call selects. -/
def Call.selected? : Call → Option String
  | .select layer => some layer
  | .send _ => none

/-- The layer of the packet that a call offers. -/
def Call.offered? : Call → Option String
  | .select _ => none
  | .send o => some o.layer

/-- **The layer in force after a history**: the one selected last, or, if none was
selected, the layer of the first packet. -/
def inForce (calls : List Call) : Option String :=
  (calls.filterMap Call.selected?).getLast?.or (calls.filterMap Call.offered?).head?

/-- Every packet that a history offers after some calls, and whether its layer is in
force as it is offered. -/
def judgedFrom (before : List Call) : List Call → List (Offer × Bool)
  | [] => []
  | .select layer :: rest => judgedFrom (before ++ [.select layer]) rest
  | .send o :: rest =>
    (o, inForce (before ++ [.send o]) = some o.layer) :: judgedFrom (before ++ [.send o]) rest

/-- Every packet that a history offers, and whether its layer is in force then. -/
def judged (calls : List Call) : List (Offer × Bool) := judgedFrom [] calls

/-- The packets that a history offers for the layer in force. -/
def accepted (calls : List Call) : List Offer :=
  (judged calls).filterMap fun j => if j.2 then some j.1 else none

@[simp] theorem inForce_select (calls : List Call) (layer : String) :
    inForce (calls ++ [Call.select layer]) = some layer := by
  simp [inForce, Call.selected?]

/-- A packet is in force by itself if nothing else is. -/
theorem inForce_send (calls : List Call) (o : Offer) :
    inForce (calls ++ [Call.send o]) = (inForce calls).or (some o.layer) := by
  have hs : (calls ++ [Call.send o]).filterMap Call.selected? = calls.filterMap Call.selected? := by
    simp [Call.selected?]
  have ho : (calls ++ [Call.send o]).filterMap Call.offered?
      = calls.filterMap Call.offered? ++ [o.layer] := by
    simp [Call.offered?]
  rw [inForce, inForce, hs, ho, List.head?_append, Option.or_assoc]
  rfl

theorem judgedFrom_append_singleton (calls : List Call) (c : Call) (before : List Call) :
    judgedFrom before (calls ++ [c])
      = judgedFrom before calls ++ judgedFrom (before ++ calls) [c] := by
  induction calls generalizing before with
  | nil => rw [List.nil_append, List.append_nil]; rfl
  | cons d rest ih =>
    cases d with
    | select layer =>
      show judgedFrom (before ++ [Call.select layer]) (rest ++ [c]) = _
      rw [ih, List.append_assoc, List.singleton_append]
      rfl
    | send o =>
      show _ :: judgedFrom (before ++ [Call.send o]) (rest ++ [c]) = _
      rw [ih, List.append_assoc, List.singleton_append]
      rfl

@[simp] theorem judged_select (calls : List Call) (layer : String) :
    judged (calls ++ [Call.select layer]) = judged calls := by
  rw [judged, judgedFrom_append_singleton]
  exact List.append_nil _

theorem judged_send (calls : List Call) (o : Offer) :
    judged (calls ++ [Call.send o])
      = judged calls ++ [(o, decide (inForce (calls ++ [Call.send o]) = some o.layer))] := by
  rw [judged, judgedFrom_append_singleton]
  rfl

@[simp] theorem accepted_select (calls : List Call) (layer : String) :
    accepted (calls ++ [Call.select layer]) = accepted calls := by
  rw [accepted, judged_select, accepted]

theorem accepted_send_of_inForce {calls : List Call} {o : Offer}
    (h : inForce (calls ++ [Call.send o]) = some o.layer) :
    accepted (calls ++ [Call.send o]) = accepted calls ++ [o] := by
  rw [accepted, judged_send, List.filterMap_append, accepted]
  simp [h]

theorem accepted_send_of_not_inForce {calls : List Call} {o : Offer}
    (h : inForce (calls ++ [Call.send o]) ≠ some o.layer) :
    accepted (calls ++ [Call.send o]) = accepted calls := by
  rw [accepted, judged_send, List.filterMap_append, accepted]
  simp [h]

/-! ### One packet -/

/-- What the sender is told for an answer of the sink. -/
def verdict : Option TransportFault → Except TransportFault Bool
  | none => .ok true
  | some fault => if fault = .closedPipe then .ok false else .error fault

/-- Whether an answer of the sink counts as a failed write: it is a fault, and not that the
binding is closed. -/
def isFailure (answer : Option TransportFault) : Bool := answer.any fun f => f ≠ .closedPipe

/-- The counters after an answer of the sink. -/
def counted (c : ViewerCounters) (answer : Option TransportFault) : ViewerCounters :=
  { c with
    sent := c.sent + if answer.isNone then 1 else 0
    writeErrors := c.writeErrors + if isFailure answer then 1 else 0 }

theorem settle_eq (v : Viewer) (answer : Option TransportFault) :
    v.settle answer = (verdict answer, { v with counters := counted v.counters answer }) := by
  cases answer with
  | none => simp [settle, verdict, counted, isFailure]
  | some fault =>
    by_cases h : fault = .closedPipe <;>
      simp [settle, verdict, counted, isFailure, TransportFault.isClosedPipe_iff, h]

/-- **A packet of the layer in force** moves the timeline, is handed over, and is counted by
the sink's answer. -/
theorem send_of_accepts {v : Viewer} {o : Offer} (h : v.accepts o.layer = true) :
    v.send o.packet o.layer o.delta o.av1
      = (verdict v.sink.nextAnswer,
        { v with
          layer := some o.layer
          timeline := v.timeline.advance o.delta
          sink := (v.sink.write (outbound (v.timeline.advance o.delta) o.packet o.av1)).2
          counters := counted v.counters v.sink.nextAnswer }) := by
  rw [send, if_pos h]
  exact settle_eq _ _

/-- **A packet of another layer** is counted and nothing else. -/
theorem send_of_not_accepts {v : Viewer} {o : Offer} (h : v.accepts o.layer = false) :
    v.send o.packet o.layer o.delta o.av1
      = (.ok false,
        { v with counters := { v.counters with filtered := v.counters.filtered + 1 } }) := by
  rw [send, if_neg (by simp [h])]

/-! ### The viewer that a history leads to -/

/-- The distances of some packets, added up. -/
def elapsed (os : List Offer) : Nat := (os.map (·.delta.toNat)).sum

/-- A packet as the viewer's `n`-th, at a distance from the start of the timeline.  Nothing else
is changed, but of AV1 no header extension is left. -/
def Offer.placed (o : Offer) (n time : Nat) : Packet :=
  { o.packet with
    sequenceNumber := .ofNat n
    timestamp := .ofNat (50000 + time)
    hasExtensions := if o.av1 then false else o.packet.hasExtensions
    extensionProfile := if o.av1 then 0 else o.packet.extensionProfile
    extensions := if o.av1 then [] else o.packet.extensions }

/-- How many of the first `n` answers of a sink have a property. -/
def answered (answer : Nat → Option TransportFault) (p : Option TransportFault → Bool) (n : Nat) :
    Nat :=
  (List.range n).countP fun i => p (answer i)

/-- What a history comes to in the viewer's counters. -/
def tally (answer : Nat → Option TransportFault) (calls : List Call) : ViewerCounters where
  sent := .ofNat (answered answer Option.isNone (accepted calls).length)
  filtered := .ofNat ((judged calls).countP fun j => !j.2)
  writeErrors := .ofNat (answered answer isFailure (accepted calls).length)
  layerSwitches := .ofNat (calls.countP fun c => c.selected?.isSome)

/-- A viewer that was told nothing yet. -/
structure Fresh (v : Viewer) : Prop where
  layer : v.layer = none
  timeline : v.timeline = {}
  counters : v.counters = {}
  deliveries : v.sink.deliveries = #[]

/-- A viewer's state, tied to the history that led to it.  `script` is what the sink will
answer, write by write. -/
structure Follows (script : Nat → Option TransportFault) (calls : List Call) (v : Viewer) :
    Prop where
  layer : v.layer = inForce calls
  sequenceNumber : v.timeline.sequenceNumber = .ofNat (accepted calls).length
  timestamp : v.timeline.timestamp = .ofNat (50000 + elapsed (accepted calls))
  counters : v.counters = tally script calls
  answer : v.sink.answer = script
  size : v.sink.handed.length = (accepted calls).length
  handed : ∀ (i : Nat) (o : Offer), (accepted calls)[i]? = some o →
    v.sink.handed[i]? = some (o.placed (i + 1) (elapsed ((accepted calls).take (i + 1))))

theorem Fresh.follows {v : Viewer} (h : v.Fresh) : Follows v.sink.answer [] v where
  layer := h.layer
  sequenceNumber := by rw [h.timeline]; rfl
  timestamp := by rw [h.timeline]; rfl
  counters := h.counters
  answer := rfl
  size := by rw [Sink.handed, h.deliveries]; rfl
  handed := by
    intro i o ho
    exact absurd ho (by simp [accepted, judged, judgedFrom])

/-- A viewer accepts exactly the packets of the layer in force. -/
theorem Follows.accepts_iff {script : Nat → Option TransportFault} {calls : List Call}
    {v : Viewer} (h : Follows script calls v) (o : Offer) :
    v.accepts o.layer = true ↔ inForce (calls ++ [Call.send o]) = some o.layer := by
  rw [inForce_send, ← h.layer, accepts]
  cases v.layer with
  | none => simp
  | some current => simp

/-- The sink answers the next write as its script says. -/
theorem Follows.nextAnswer {script : Nat → Option TransportFault} {calls : List Call}
    {v : Viewer} (h : Follows script calls v) :
    v.sink.nextAnswer = script (accepted calls).length := by
  have hsize := h.size
  rw [Sink.handed, List.length_map, Array.length_toList] at hsize
  rw [Sink.nextAnswer, h.answer, hsize]

/-- The next packet of the layer in force comes out as its place says. -/
theorem Follows.outbound_eq {script : Nat → Option TransportFault} {calls : List Call}
    {v : Viewer} (h : Follows script calls v) (o : Offer) :
    outbound (v.timeline.advance o.delta) o.packet o.av1
      = o.placed ((accepted calls).length + 1) (elapsed (accepted calls ++ [o])) := by
  have hn : v.timeline.sequenceNumber + 1 = .ofNat ((accepted calls).length + 1) := by
    rw [h.sequenceNumber, UInt16.ofNat_add]
    rfl
  have ht : v.timeline.timestamp + o.delta = .ofNat (50000 + elapsed (accepted calls ++ [o])) := by
    simp [h.timestamp, elapsed, UInt32.ofNat_add, UInt32.add_assoc]
  rw [outbound, Timeline.place, Timeline.advance, hn, ht, Offer.placed]
  cases o.av1 <;> rfl

/-! ### One call more -/

theorem answered_succ (script : Nat → Option TransportFault) (p : Option TransportFault → Bool)
    (n : Nat) : answered script p (n + 1) = answered script p n + if p (script n) then 1 else 0 := by
  rw [answered, List.range_succ, List.countP_append, List.countP_singleton]
  rfl

theorem ofNat_add_ite (n : Nat) (b : Bool) :
    UInt64.ofNat (n + if b then 1 else 0) = UInt64.ofNat n + if b then 1 else 0 := by
  cases b <;> simp

theorem tally_select (script : Nat → Option TransportFault) (calls : List Call) (layer : String) :
    tally script (calls ++ [Call.select layer])
      = { tally script calls with layerSwitches := (tally script calls).layerSwitches + 1 } := by
  simp [tally, Call.selected?]

theorem tally_send_of_inForce (script : Nat → Option TransportFault) {calls : List Call}
    {o : Offer} (h : inForce (calls ++ [Call.send o]) = some o.layer) :
    tally script (calls ++ [Call.send o])
      = counted (tally script calls) (script (accepted calls).length) := by
  simp only [tally, counted, accepted_send_of_inForce h, List.length_append,
    List.length_singleton, answered_succ, ofNat_add_ite, judged_send, h, decide_true,
    List.countP_append, List.countP_singleton]
  simp [Call.selected?]

theorem tally_send_of_not_inForce (script : Nat → Option TransportFault) {calls : List Call}
    {o : Offer} (h : inForce (calls ++ [Call.send o]) ≠ some o.layer) :
    tally script (calls ++ [Call.send o])
      = { tally script calls with filtered := (tally script calls).filtered + 1 } := by
  simp only [tally, accepted_send_of_not_inForce h, judged_send, h, decide_false,
    List.countP_append, List.countP_singleton]
  simp [Call.selected?]

theorem Follows.select {script : Nat → Option TransportFault} {calls : List Call} {v : Viewer}
    (h : Follows script calls v) (layer : String) :
    Follows script (calls ++ [Call.select layer]) (v.told (.select layer)) where
  layer := (inForce_select calls layer).symm
  sequenceNumber := by rw [accepted_select]; exact h.sequenceNumber
  timestamp := by rw [accepted_select]; exact h.timestamp
  counters := by
    rw [tally_select, ← h.counters]
    rfl
  answer := h.answer
  size := by rw [accepted_select]; exact h.size
  handed := by rw [accepted_select]; exact h.handed

theorem Follows.send_of_not_inForce {script : Nat → Option TransportFault} {calls : List Call}
    {v : Viewer} (h : Follows script calls v) {o : Offer}
    (hf : inForce (calls ++ [Call.send o]) ≠ some o.layer) :
    Follows script (calls ++ [Call.send o]) (v.told (.send o)) := by
  have ha : v.accepts o.layer = false := by
    rw [← Bool.not_eq_true, h.accepts_iff]
    exact hf
  have hl : inForce (calls ++ [Call.send o]) = inForce calls := by
    rw [inForce_send] at hf ⊢
    cases hc : inForce calls with
    | none => exact absurd (by rw [hc]; rfl) hf
    | some current => rfl
  rw [told, send_of_not_accepts ha]
  exact {
    layer := by rw [hl]; exact h.layer
    sequenceNumber := by rw [accepted_send_of_not_inForce hf]; exact h.sequenceNumber
    timestamp := by rw [accepted_send_of_not_inForce hf]; exact h.timestamp
    counters := by rw [tally_send_of_not_inForce script hf, ← h.counters]
    answer := h.answer
    size := by rw [accepted_send_of_not_inForce hf]; exact h.size
    handed := by rw [accepted_send_of_not_inForce hf]; exact h.handed }

theorem Follows.send_of_inForce {script : Nat → Option TransportFault} {calls : List Call}
    {v : Viewer} (h : Follows script calls v) {o : Offer}
    (hf : inForce (calls ++ [Call.send o]) = some o.layer) :
    Follows script (calls ++ [Call.send o]) (v.told (.send o)) := by
  have hout := h.outbound_eq o
  have hnext := h.nextAnswer
  rw [told, send_of_accepts ((h.accepts_iff o).mpr hf), hout, hnext]
  have hhanded : (v.sink.write
      (o.placed ((accepted calls).length + 1) (elapsed (accepted calls ++ [o])))).2.handed
      = v.sink.handed
        ++ [o.placed ((accepted calls).length + 1) (elapsed (accepted calls ++ [o]))] :=
    Sink.handed_write ..
  exact {
    layer := hf.symm
    sequenceNumber := by
      rw [accepted_send_of_inForce hf, List.length_append]
      simp [Timeline.advance, h.sequenceNumber]
    timestamp := by
      rw [accepted_send_of_inForce hf]
      simp [Timeline.advance, h.timestamp, elapsed, UInt32.add_assoc]
    counters := by rw [tally_send_of_inForce script hf, ← h.counters]
    answer := h.answer
    size := by
      rw [accepted_send_of_inForce hf, hhanded, List.length_append, List.length_append, h.size]
      rfl
    handed := by
      intro i p hp
      rw [accepted_send_of_inForce hf] at hp ⊢
      rw [hhanded]
      by_cases hi : i < (accepted calls).length
      · rw [List.getElem?_append_left hi] at hp
        rw [List.getElem?_append_left (h.size ▸ hi), List.take_append_of_le_length hi]
        exact h.handed i p hp
      · have hlast : i = (accepted calls).length := by
          have := (List.getElem?_eq_some_iff.mp hp).1
          rw [List.length_append, List.length_singleton] at this
          omega
        subst hlast
        rw [List.getElem?_concat_length] at hp
        obtain rfl := Option.some.inj hp
        rw [← h.size, List.getElem?_concat_length, h.size, List.take_of_length_le (by simp)] }

/-- **One call more.**  A viewer that follows a history follows it after the next call. -/
theorem Follows.step {script : Nat → Option TransportFault} {calls : List Call} {v : Viewer}
    (h : Follows script calls v) (c : Call) : Follows script (calls ++ [c]) (v.told c) := by
  cases c with
  | select layer => exact h.select layer
  | send o =>
    by_cases hf : inForce (calls ++ [Call.send o]) = some o.layer
    · exact h.send_of_inForce hf
    · exact h.send_of_not_inForce hf

theorem Fresh.follows_after {v : Viewer} (h : v.Fresh) (calls : List Call) :
    Follows v.sink.answer calls (v.after calls) := by
  induction calls using List.reverseRecOn with
  | nil => exact h.follows
  | append_singleton calls c ih =>
    rw [after_append_singleton]
    exact ih.step c

/-! ### The law -/

/-- **The timeline of a viewer**, after any history of selections and packets.  The sink
was handed the accepted packets, each placed by its number among them and by their
distances so far; the timeline stands at the last of them, also if its write failed; the
counters tell the history.  A further packet of the layer in force comes next in line and
its sender is told the sink's answer; any other packet is dropped. -/
theorem timeline_law {v : Viewer} (hv : v.Fresh) (calls : List Call) :
    (v.after calls).sink.handed.length = (accepted calls).length ∧
    (∀ (i : Nat) (o : Offer), (accepted calls)[i]? = some o →
      (v.after calls).sink.handed[i]?
        = some (o.placed (i + 1) (elapsed ((accepted calls).take (i + 1))))) ∧
    (v.after calls).timeline
      = { sequenceNumber := .ofNat (accepted calls).length
          timestamp := .ofNat (50000 + elapsed (accepted calls)) } ∧
    (v.after calls).layer = inForce calls ∧
    (v.after calls).counters = tally v.sink.answer calls ∧
    ∀ o : Offer,
      (inForce (calls ++ [.send o]) = some o.layer →
        ((v.after calls).send o.packet o.layer o.delta o.av1).1
          = verdict (v.sink.answer (accepted calls).length) ∧
        (v.after (calls ++ [.send o])).sink.handed
          = (v.after calls).sink.handed
            ++ [o.placed ((accepted calls).length + 1) (elapsed (accepted calls ++ [o]))]) ∧
      (inForce (calls ++ [.send o]) ≠ some o.layer →
        ((v.after calls).send o.packet o.layer o.delta o.av1).1 = .ok false ∧
        (v.after (calls ++ [.send o])).sink = (v.after calls).sink ∧
        (v.after (calls ++ [.send o])).timeline = (v.after calls).timeline) := by
  have h := hv.follows_after calls
  refine ⟨h.size, h.handed, ?_, h.layer, h.counters, fun o => ⟨fun hf => ?_, fun hf => ?_⟩⟩
  · rw [← h.sequenceNumber, ← h.timestamp]
  · have hs := send_of_accepts ((h.accepts_iff o).mpr hf)
    rw [after_append_singleton, told, hs, h.outbound_eq o, h.nextAnswer]
    exact ⟨rfl, Sink.handed_write ..⟩
  · have ha : (v.after calls).accepts o.layer = false := by
      rw [← Bool.not_eq_true, h.accepts_iff]
      exact hf
    rw [after_append_singleton, told, send_of_not_accepts ha]
    exact ⟨rfl, rfl, rfl⟩

/-- A viewer whose second write meets a closed binding. -/
def stumbling : Viewer :=
  { id := "v", streamKey := "k"
    sink := { answer := fun n => if n = 1 then some .closedPipe else none } }

/-- A packet with a header extension. -/
def extended : Packet :=
  { marker := true, sequenceNumber := 7, timestamp := 900, hasExtensions := true,
    extensionProfile := 48862, extensions := [(1, [5, 6])], payload := [10] }

/-- Two layers, the first adopted and the second selected later, which is of AV1. -/
def switching : List Call :=
  [.send ⟨extended, "q", 0, false⟩, .send ⟨{}, "f", 40, false⟩, .send ⟨{}, "q", 90, false⟩,
    .select "f", .send ⟨{}, "q", 90, false⟩, .send ⟨extended, "f", 3000, true⟩]

/-- Three packets are accepted, and the failed write of the second keeps its place.  The first
and the last are the same packet, handed over with its header extension and then, as AV1,
without. -/
theorem timeline_after_switching :
    stumbling.Fresh ∧ (stumbling.after switching).timeline = ⟨3, 53090⟩ ∧
      (stumbling.after switching).counters
        = { sent := 2, filtered := 2, writeErrors := 0, layerSwitches := 1 } ∧
      (stumbling.after switching).sink.handed.length = 3 ∧
      (stumbling.after switching).sink.handed[0]?
        = some { marker := true, sequenceNumber := 1, timestamp := 50000, hasExtensions := true,
                 extensionProfile := 48862, extensions := [(1, [5, 6])], payload := [10] } ∧
      (stumbling.after switching).sink.handed[2]?
        = some { marker := true, sequenceNumber := 3, timestamp := 53090, hasExtensions := false,
                 extensionProfile := 0, extensions := [], payload := [10] } := by
  have hv : stumbling.Fresh := ⟨rfl, rfl, rfl, rfl⟩
  obtain ⟨hlength, hhanded, ht, -, hc, -⟩ := timeline_law hv switching
  have hfirst := hhanded 0 ⟨extended, "q", 0, false⟩ rfl
  have hlast := hhanded 2 ⟨extended, "f", 3000, true⟩ rfl
  exact ⟨hv, ht.trans (by decide), hc.trans (by decide), hlength.trans (by decide),
    hfirst.trans (by decide), hlast.trans (by decide)⟩

end Viewer

end Simulcast
