import Mathlib
import Simulcast.AudioCopy
import Simulcast.Proofs.Viewer.Timeline
/-!
# An audio copy is a copy of a prefix

A copy ends early for one reason only: an answer of the sink that is a fault other than a
closed binding.  `AudioCopy.firstFailure?` says from the sink's answers alone where that
happens, and with it how far the copy goes: to the packet of the first failure, that packet
included, or to the end of the source.

What is carried through the copy is `runFrom_append`: packets without a failure among
their answers can be taken off the front, one write for each of them, so a copy either
comes to its first failure with all packets before it handed over, or to its end.
`AudioCopy.run_copies` puts the two ends together.
-/

namespace Simulcast

namespace Sink

/-- The answer to the write that comes after `i` more. -/
def outcome (s : Sink) (i : Nat) : Option TransportFault := s.answer (s.deliveries.size + i)

/-- What writing some packets in order adds to the deliveries. -/
def answers (s : Sink) (packets : List Packet) : List Delivery :=
  packets.mapIdx fun i p => ⟨p, s.outcome i⟩

/-- The packets among some that are accepted if all are written in order. -/
def taken (s : Sink) (packets : List Packet) : List Packet :=
  ((s.answers packets).filter (·.fault.isNone)).map (·.packet)

/-- Hands over some packets in order. -/
def writeAll (s : Sink) (packets : List Packet) : Sink :=
  packets.foldl (fun sink p => (sink.write p).2) s

theorem outcome_zero (s : Sink) : s.outcome 0 = s.nextAnswer := rfl

@[simp] theorem outcome_write (s : Sink) (p : Packet) (i : Nat) :
    (s.write p).2.outcome i = s.outcome (i + 1) := by
  rw [outcome, outcome, write, Array.size_push, Nat.add_assoc, Nat.add_comm 1 i]

theorem answers_cons (s : Sink) (p : Packet) (packets : List Packet) :
    s.answers (p :: packets) = ⟨p, s.outcome 0⟩ :: (s.write p).2.answers packets := by
  rw [answers, List.mapIdx_cons, answers]
  simp only [outcome_write]

theorem taken_cons_of_accepted {s : Sink} {p : Packet} (h : s.outcome 0 = none)
    (packets : List Packet) : s.taken (p :: packets) = p :: (s.write p).2.taken packets := by
  rw [taken, answers_cons, taken, h]
  rfl

theorem taken_cons_of_refused {s : Sink} {p : Packet} {f : TransportFault}
    (h : s.outcome 0 = some f) (packets : List Packet) :
    s.taken (p :: packets) = (s.write p).2.taken packets := by
  rw [taken, answers_cons, taken, h]
  rfl

/-- A last packet that is refused is not among the accepted ones. -/
theorem taken_concat_of_refused {s : Sink} {packets : List Packet} {f : TransportFault}
    (h : s.outcome packets.length = some f) (p : Packet) :
    s.taken (packets ++ [p]) = s.taken packets := by
  rw [taken, answers, List.mapIdx_concat, h, List.filter_append, List.map_append]
  exact List.append_nil _

theorem writeAll_concat (s : Sink) (packets : List Packet) (p : Packet) :
    s.writeAll (packets ++ [p]) = ((s.writeAll packets).write p).2 := by
  rw [writeAll, List.foldl_append]
  rfl

@[simp] theorem answer_writeAll (s : Sink) (packets : List Packet) :
    (s.writeAll packets).answer = s.answer := by
  induction packets generalizing s with
  | nil => rfl
  | cons p packets ih => exact ih _

theorem deliveries_writeAll (s : Sink) (packets : List Packet) :
    (s.writeAll packets).deliveries.toList = s.deliveries.toList ++ s.answers packets := by
  induction packets generalizing s with
  | nil => exact (List.append_nil _).symm
  | cons p packets ih =>
    show ((s.write p).2.writeAll packets).deliveries.toList = _
    rw [ih, answers_cons, write, Array.toList_push, List.append_assoc]
    rfl

theorem handed_writeAll (s : Sink) (packets : List Packet) :
    (s.writeAll packets).handed = s.handed ++ packets := by
  induction packets generalizing s with
  | nil => exact (List.append_nil _).symm
  | cons p packets ih =>
    show ((s.write p).2.writeAll packets).handed = _
    rw [ih, handed_write, List.append_assoc, List.singleton_append]

theorem accepted_writeAll (s : Sink) (packets : List Packet) :
    (s.writeAll packets).accepted = s.accepted ++ s.taken packets := by
  rw [accepted, deliveries_writeAll, List.filter_append, List.map_append]
  rfl

theorem outcome_writeAll (s : Sink) (packets : List Packet) (i : Nat) :
    (s.writeAll packets).outcome i = s.outcome (packets.length + i) := by
  induction packets generalizing s with
  | nil => rw [List.length_nil, Nat.zero_add]; rfl
  | cons p packets ih =>
    show ((s.write p).2.writeAll packets).outcome i = _
    rw [ih, outcome_write, List.length_cons]
    congr 1
    omega

end Sink

namespace AudioCopy

/-! ### How far a copy goes -/

/-- The place of the first packet that the sink answers with a fault other than a closed
binding. -/
def firstFailure? (sink : Sink) (packets : List Packet) : Option Nat :=
  (List.range packets.length).find? fun i => Viewer.isFailure (sink.outcome i)

/-- The number of packets handed over: the one with the first failure is the last. -/
def reach (sink : Sink) (packets : List Packet) : Nat :=
  match firstFailure? sink packets with
  | some f => f + 1
  | none => packets.length

/-- A sink and a count after a copy of some packets, all handed over in order and unchanged. -/
structure Copied (sink : Sink) (packets : List Packet) (out : AudioCopy) : Prop where
  deliveries : out.sink.deliveries.toList = sink.deliveries.toList ++ sink.answers packets
  handed : out.sink.handed = sink.handed ++ packets
  accepted : out.sink.accepted = sink.accepted ++ sink.taken packets
  relayed : out.relayed.toNat = (sink.taken packets).length % 2 ^ 64
  answer : out.sink.answer = sink.answer

theorem firstFailure?_eq_some {sink : Sink} {packets : List Packet} {f : Nat}
    (h : firstFailure? sink packets = some f) :
    f < packets.length ∧ Viewer.isFailure (sink.outcome f) = true
      ∧ ∀ i < f, Viewer.isFailure (sink.outcome i) = false := by
  obtain ⟨hfails, hlt, hbefore⟩ := List.find?_range_eq_some.mp h
  refine ⟨List.mem_range.mp hlt, hfails, ?_⟩
  intro i hi
  have := hbefore i hi
  simpa using this

theorem firstFailure?_eq_none {sink : Sink} {packets : List Packet}
    (h : firstFailure? sink packets = none) :
    ∀ i < packets.length, Viewer.isFailure (sink.outcome i) = false := by
  intro i hi
  have := List.find?_eq_none.mp h i (List.mem_range.mpr hi)
  simpa using this

/-! ### The copy, packet by packet -/

/-- One packet whose answer is no failure. -/
theorem runFrom_cons {sink : Sink} {p : Packet} (h : Viewer.isFailure (sink.outcome 0) = false)
    (relayed : UInt64) (fault : TransportFault) (packets : List Packet) :
    runFrom relayed sink fault (p :: packets)
      = runFrom (relayed + if (sink.outcome 0).isNone then 1 else 0) (sink.write p).2 fault
          packets := by
  rw [Sink.outcome_zero] at h ⊢
  rw [runFrom]
  cases hanswer : sink.nextAnswer with
  | none =>
    have hwrite : sink.write p = (none, (sink.write p).2) := by
      rw [← hanswer]
      rfl
    rw [hwrite]
    rfl
  | some f =>
    have hwrite : sink.write p = (some f, (sink.write p).2) := by
      rw [← hanswer]
      rfl
    have hclosed : f.isClosedPipe = true := by
      rw [hanswer] at h
      exact TransportFault.isClosedPipe_iff.mpr (by simpa [Viewer.isFailure] using h)
    rw [hwrite]
    show (if f.isClosedPipe then _ else _) = _
    rw [if_pos hclosed]
    simp

/-- **Packets without a failure** come off the front of a copy, each with one write. -/
theorem runFrom_append (relayed : UInt64) (sink : Sink) (fault : TransportFault)
    (front packets : List Packet)
    (h : ∀ i < front.length, Viewer.isFailure (sink.outcome i) = false) :
    runFrom relayed sink fault (front ++ packets)
      = runFrom (relayed + .ofNat (sink.taken front).length) (sink.writeAll front) fault
          packets := by
  induction front generalizing relayed sink with
  | nil =>
    show _ = runFrom (relayed + 0) sink fault packets
    rw [UInt64.add_zero]
    rfl
  | cons p front ih =>
    have hfirst : Viewer.isFailure (sink.outcome 0) = false := h 0 (Nat.succ_pos _)
    have hrest : ∀ i < front.length, Viewer.isFailure ((sink.write p).2.outcome i) = false := by
      intro i hi
      rw [Sink.outcome_write]
      exact h (i + 1) (Nat.succ_lt_succ hi)
    rw [List.cons_append, runFrom_cons hfirst, ih _ _ hrest]
    show runFrom _ (sink.writeAll (p :: front)) fault packets = _
    congr 1
    cases hanswer : sink.outcome 0 with
    | none =>
      rw [Sink.taken_cons_of_accepted hanswer, List.length_cons, UInt64.ofNat_add, UInt64.add_assoc,
        UInt64.add_comm _ (UInt64.ofNat 1)]
      rfl
    | some f =>
      rw [Sink.taken_cons_of_refused hanswer]
      simp

/-- At a failure the copy ends, with that packet handed over. -/
theorem runFrom_cons_of_failure {sink : Sink} {p : Packet}
    (h : Viewer.isFailure (sink.outcome 0) = true) (relayed : UInt64) (fault : TransportFault)
    (packets : List Packet) :
    runFrom relayed sink fault (p :: packets)
      = { relayed, sink := (sink.write p).2, rest := some { packets, fault } } := by
  rw [Sink.outcome_zero] at h
  rw [runFrom]
  cases hanswer : sink.nextAnswer with
  | none =>
    rw [hanswer] at h
    exact absurd h (by decide)
  | some f =>
    have hwrite : sink.write p = (some f, (sink.write p).2) := by
      rw [← hanswer]
      rfl
    have hopen : ¬ f.isClosedPipe = true := by
      rw [hanswer] at h
      rw [TransportFault.isClosedPipe_iff]
      simpa [Viewer.isFailure] using h
    rw [hwrite]
    show (if f.isClosedPipe then _ else _) = _
    rw [if_neg hopen]

/-- A copy that wrote some packets and counted the accepted ones. -/
theorem copied_writeAll (sink : Sink) (packets : List Packet) (rest : Option AudioSource) :
    Copied sink packets
      { relayed := .ofNat (sink.taken packets).length, sink := sink.writeAll packets, rest } where
  deliveries := sink.deliveries_writeAll packets
  handed := sink.handed_writeAll packets
  accepted := sink.accepted_writeAll packets
  relayed := UInt64.toNat_ofNat'
  answer := sink.answer_writeAll packets

/-! ### Whole copies -/

theorem run_of_no_failure {source : AudioSource} {sink : Sink}
    (h : firstFailure? sink source.packets = none) :
    run source sink
      = { relayed := .ofNat (sink.taken source.packets).length
          sink := sink.writeAll source.packets
          rest := none } := by
  have hrun := runFrom_append 0 sink source.fault source.packets [] (firstFailure?_eq_none h)
  rw [List.append_nil] at hrun
  rw [run, hrun, UInt64.zero_add]
  rfl

/-- The packet that fails counts as handed over, but not as taken. -/
theorem run_of_failure {source : AudioSource} {sink : Sink} {f : Nat}
    (h : firstFailure? sink source.packets = some f) :
    run source sink
      = { relayed := .ofNat (sink.taken (source.packets.take (f + 1))).length
          sink := sink.writeAll (source.packets.take (f + 1))
          rest := some { packets := source.packets.drop (f + 1), fault := source.fault } } := by
  obtain ⟨hlt, hfails, hbefore⟩ := firstFailure?_eq_some h
  have hlength : (source.packets.take f).length = f := List.length_take_of_le (by omega)
  have hsplit : source.packets
      = source.packets.take f ++ source.packets[f] :: source.packets.drop (f + 1) := by
    rw [List.getElem_cons_drop, List.take_append_drop]
  have hfront : ∀ i < (source.packets.take f).length,
      Viewer.isFailure (sink.outcome i) = false := by
    rw [hlength]
    exact hbefore
  have hthere : (sink.writeAll (source.packets.take f)).outcome 0 = sink.outcome f := by
    rw [Sink.outcome_writeAll, hlength, Nat.add_zero]
  obtain ⟨answer, hanswer⟩ : ∃ answer, sink.outcome f = some answer := by
    cases ho : sink.outcome f with
    | none =>
      rw [ho] at hfails
      exact absurd hfails (by decide)
    | some answer => exact ⟨answer, rfl⟩
  have htake : source.packets.take (f + 1) = source.packets.take f ++ [source.packets[f]] :=
    List.take_succ_eq_append_getElem hlt
  calc run source sink
      = runFrom 0 sink source.fault
          (source.packets.take f ++ source.packets[f] :: source.packets.drop (f + 1)) := by
        rw [← hsplit]
        rfl
    _ = runFrom (0 + .ofNat (sink.taken (source.packets.take f)).length)
          (sink.writeAll (source.packets.take f)) source.fault
          (source.packets[f] :: source.packets.drop (f + 1)) := runFrom_append _ _ _ _ _ hfront
    _ = _ := by
        rw [runFrom_cons_of_failure (hthere ▸ hfails), UInt64.zero_add, htake,
          Sink.writeAll_concat, Sink.taken_concat_of_refused (hlength.symm ▸ hanswer)]

/-- **A copy is a copy of a prefix.**  Handed over, in order and unchanged, are the packets up
to the first one that the sink answers with a fault other than a closed binding, that packet
included, and all packets if there is none.  What is behind it is left in the source, and
nothing otherwise.  The packets counted are those that the sink accepted.  The fault that
ends the source has no part in this. -/
theorem run_copies (source : AudioSource) (sink : Sink) :
    Copied sink (source.packets.take (reach sink source.packets)) (run source sink)
      ∧ (run source sink).rest
          = (firstFailure? sink source.packets).map (fun f =>
              { packets := source.packets.drop (f + 1), fault := source.fault })
      ∧ ∀ fault, run { source with fault } sink
          = { run source sink with rest := (run source sink).rest.map ({ · with fault }) } := by
  cases h : firstFailure? sink source.packets with
  | none =>
    have hall : source.packets.take (reach sink source.packets) = source.packets := by
      rw [reach, h]
      exact List.take_length
    refine ⟨?_, ?_, ?_⟩
    · rw [hall, run_of_no_failure h]
      exact copied_writeAll sink source.packets none
    · rw [run_of_no_failure h]
      rfl
    · intro fault
      have hother : firstFailure? sink ({ source with fault } : AudioSource).packets = none := h
      rw [run_of_no_failure h, run_of_no_failure hother]
      rfl
  | some f =>
    have hreach : reach sink source.packets = f + 1 := by rw [reach, h]
    refine ⟨?_, ?_, ?_⟩
    · rw [hreach, run_of_failure h]
      exact copied_writeAll sink _ _
    · rw [run_of_failure h]
      rfl
    · intro fault
      have hother : firstFailure? sink ({ source with fault } : AudioSource).packets = some f := h
      rw [run_of_failure h, run_of_failure hother]
      rfl

end AudioCopy

end Simulcast
