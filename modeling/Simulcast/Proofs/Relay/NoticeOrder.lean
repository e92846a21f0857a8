import Simulcast.Proofs.Log
import Simulcast.Proofs.Relay.Interleaving
/-!
# The order of notices

The outside is told when a broadcast goes on air and when it ends.  The two notices come
from two calls, the ingest and some teardown, and a stream is on air before the ingest has
told so.  A teardown that runs in between tells of the end first.

`Relay.Busy.InOrder` says that the notices about one broadcast come in order.
`Relay.Busy.inOrder_iff` says exactly when they do: as long as no teardown of the broadcast
comes to its notice while the ingest still has to tell of the beginning.  Until the ingest
has done so there always is such a continuation, and afterwards there is none.
`Relay.Busy.not_inOrder_overtakenIngest` is the shortest bad run.

The proof follows what the calls still have to tell (`Relay.Stage.duty`).  A step either
passes no landmark, and then nobody's duties change and no stream goes on or off the air,
or it passes one; `Relay.Stage.step_cases` lists the five cases.  From them
`Relay.Busy.Accounted` follows for every run: a broadcast is on air, or some call has to
tell of its end, or that was told.
-/

namespace Simulcast

namespace Registry

/-- A stream is on air. -/
def Live (g : Registry) (sid : StreamId) : Prop :=
  ∃ s, g.stream? sid = some s ∧ s.isLive = true

theorem live_iff_of_stream? {g g' : Registry} (h : ∀ j, g'.stream? j = g.stream? j)
    (j : StreamId) : g'.Live j ↔ g.Live j := by
  rw [Live, Live, h]

/-- Changing a stream beside its phase does not matter. -/
theorem live_act {α : Type} (g : Registry) (sid : StreamId) {step : Stream → α × Stream}
    (h : ∀ s, (step s).2.isLive = s.isLive) (j : StreamId) :
    (g.act sid step).2.Live j ↔ g.Live j := by
  rw [Live, Live, stream?_act]
  split
  · rename_i hj
    subst hj
    cases g.stream? j with
    | none => simp
    | some s => simp [h s]
  · exact Iff.rfl

/-- A claim puts no stream on air and takes none off. -/
theorem live_claim (g : Registry) (key : String) (now : Millis) (j : StreamId) :
    (g.claim key now).2.Live j ↔ g.Live j := by
  cases hf : g.find? key with
  | none =>
    rw [claim_of_find?_eq_none hf, Live, Live, stream?_enroll]
    split
    · rename_i hj
      rw [hj, stream?_length]
      simp [Stream.isLive, Stream.claimed]
    · exact Iff.rfl
  | some id =>
    cases hs : g.stream? id with
    | none =>
      have hget : g.getOrCreate key now = (id, g) := by rw [getOrCreate, hf]
      rw [claim, hget]
      simp only [hs, Option.bind_none]
    | some s =>
      rw [claim_of_find?_eq_some hf hs]
      cases hp : s.hasPublisher with
      | true => exact Iff.rfl
      | false =>
        have hold : s.isLive = false := Stream.isLive_of_free hp
        have hnew : s.claimed.isLive = false := rfl
        rw [if_neg (by simp), Live, Live, stream?_put_of_some hs]
        split
        · rename_i hj
          subst hj
          simp [hs, hold, hnew]
        · exact Iff.rfl

theorem live_put_released {g : Registry} {sid : StreamId} {s : Stream}
    (hs : g.stream? sid = some s) (j : StreamId) :
    (g.put sid s.released).Live j ↔ j ≠ sid ∧ g.Live j := by
  rw [Live, Live, stream?_put_of_some hs]
  split
  · rename_i hj
    simp [hj, Stream.isLive, Stream.released]
  · rename_i hj
    simp [hj]

theorem live_put_connected {g : Registry} {sid : StreamId} {s : Stream}
    (hs : g.stream? sid = some s) (hp : s.phase = .negotiating) (remote : Option SocketAddress)
    (j : StreamId) :
    (g.put sid (s.markConnected remote).2).Live j ↔ j = sid ∨ g.Live j := by
  rw [Live, Live, stream?_put_of_some hs, Stream.markConnected, if_pos hp]
  split
  · rename_i hj
    simp [hj, Stream.isLive]
  · rename_i hj
    simp [hj]

end Registry

namespace Relay

theorem live_closeViewer (r : Relay) (id : ViewerId) (j : StreamId) :
    (r.closeViewer id).registry.Live j ↔ r.registry.Live j := by
  unfold closeViewer
  split
  · exact Iff.rfl
  · simp only
    split
    · unfold leaveHome
      split
      · exact r.registry.live_act _ (fun s => rfl) j
      · exact Iff.rfl
    · exact Iff.rfl

/-! ### What a call still has to tell -/

/-- A notice that is to be given. -/
inductive Duty where
  | announce
  | report
  deriving DecidableEq

/-- What a landmark does to the duty of the call that passes it. -/
inductive Discharges : Option Duty → Option Landmark → Option Duty → Prop where
  | quiet (duty : Option Duty) : Discharges duty none duty
  | onAir (sid : StreamId) : Discharges none (some (.onAir sid)) (some .announce)
  | announced (key : String) : Discharges (some .announce) (some (.announced key)) none
  | offAir (sid : StreamId) : Discharges none (some (.offAir sid)) (some .report)
  | reported (key : String) : Discharges (some .report) (some (.reported key)) none

section

variable {old new : Option Duty}

theorem Discharges.of_none (h : Discharges old none new) : new = old := by cases h; rfl

theorem Discharges.of_onAir {sid : StreamId} (h : Discharges old (some (.onAir sid)) new) :
    old = none ∧ new = some .announce := by cases h; exact ⟨rfl, rfl⟩

theorem Discharges.of_announced {key : String} (h : Discharges old (some (.announced key)) new) :
    old = some .announce ∧ new = none := by cases h; exact ⟨rfl, rfl⟩

theorem Discharges.of_offAir {sid : StreamId} (h : Discharges old (some (.offAir sid)) new) :
    old = none ∧ new = some .report := by cases h; exact ⟨rfl, rfl⟩

theorem Discharges.of_reported {key : String} (h : Discharges old (some (.reported key)) new) :
    old = some .report ∧ new = none := by cases h; exact ⟨rfl, rfl⟩

end

/-- The streams on air after a landmark. -/
def LiveAfter (g : Registry) (j : StreamId) : Option Landmark → Prop
  | some (.onAir sid) => j = sid ∨ g.Live j
  | some (.offAir sid) => j ≠ sid ∧ g.Live j
  | _ => g.Live j

namespace Stage

/-- What a call at a stage still has to tell. -/
def duty : Stage → Option Duty
  | announce _ _ => some .announce
  | forget e | hangUp e | clear e | drain e | dismiss e _ | report e =>
    if e.released.wasConnected then some .report else none
  | _ => none

theorem discharges_step (r : Relay) (stage : Stage) :
    Discharges stage.duty (stage.step r).mark (stage.step r).stage.duty := by
  cases stage with
  | validate bid => simp only [step]; split <;> exact .quiet none
  | claim bid => simp only [step]; split <;> exact .quiet none
  | connect bid sid => simp only [step]; split <;> exact .quiet none
  | attach bid sid c => exact .quiet none
  | negotiate bid sid c => simp only [step]; split <;> exact .quiet none
  | mark bid sid answer =>
    simp only [step]
    split
    · exact .quiet none
    · exact .onAir sid
  | announce bid answer => exact .announced bid.key
  | lookUp key => simp only [step]; split <;> exact .quiet none
  | release sid reply =>
    simp only [step]
    split
    · exact .quiet none
    · split
      · exact .quiet none
      · simp only [duty]
        split
        · exact .offAir sid
        · exact .quiet none
  | forget e => exact .quiet _
  | hangUp e => exact .quiet _
  | clear e => exact .quiet _
  | drain e => exact .quiet _
  | dismiss e ids => cases ids <;> exact .quiet _
  | report e =>
    simp only [step, duty]
    split
    · exact .reported e.key
    · exact .quiet none
  | finished reply => exact .quiet none

/-- **All that a step can do** to the streams on air. -/
theorem live_step (r : Relay) (stage : Stage) (j : StreamId) :
    (stage.step r).relay.registry.Live j ↔ LiveAfter r.registry j (stage.step r).mark := by
  cases stage with
  | validate bid =>
    have hsame : ∀ j, (r.validate bid.key).2.registry.Live j ↔ r.registry.Live j :=
      fun j => Iff.rfl
    simp only [step]
    split <;> rename_i he <;> rw [he] at hsame <;> exact hsame j
  | claim bid =>
    have hclaim : ∀ j, (r.onRegistry (·.claim bid.key r.clock)).2.registry.Live j
        ↔ r.registry.Live j := r.registry.live_claim bid.key r.clock
    simp only [step]
    split <;> rename_i he <;> rw [he] at hclaim <;> exact hclaim j
  | connect bid sid =>
    obtain ⟨e, he⟩ | he := r.openConnection_cases <;> simp only [step, he] <;> exact Iff.rfl
  | attach bid sid c => exact r.registry.live_act sid (fun s => rfl) j
  | negotiate bid sid c => simp only [step]; split <;> exact Iff.rfl
  | mark bid sid answer =>
    obtain he | ⟨s, hs, hp, he⟩ := r.markConnected_cases sid bid.remote
    · simp only [step, he]
      exact Iff.rfl
    · simp only [step, he]
      exact Registry.live_put_connected hs hp bid.remote j
  | announce bid answer => exact Iff.rfl
  | lookUp key => simp only [step]; split <;> exact Iff.rfl
  | release sid reply =>
    simp only [step]
    obtain ⟨he, hfree⟩ | ⟨s, hs, hp, he⟩ := r.registry.beginRelease_cases sid
    · simp only [onRegistry, he]
      split <;> exact Iff.rfl
    · simp only [hs, onRegistry, he]
      refine (Registry.live_put_released hs j).trans ?_
      split
      · exact Iff.rfl
      · rename_i hl
        -- a stream that was only negotiating was not on air before
        refine and_iff_right_of_imp ?_
        rintro ⟨t, ht, hlt⟩ rfl
        rw [hs] at ht
        exact hl (Option.some.inj ht ▸ hlt)
  | forget e => exact Registry.live_iff_of_stream? (fun j => Registry.stream?_forget ..) j
  | hangUp e => simp only [step, registry_closeReleased, LiveAfter]
  | clear e => exact Iff.rfl
  | drain e =>
    simp only [step, registry_drainViewers]
    exact r.registry.live_act e.stream (fun s => rfl) j
  | dismiss e ids =>
    cases ids with
    | nil => exact Iff.rfl
    | cons id rest => exact r.live_closeViewer id j
  | report e => simp only [step]; split <;> exact Iff.rfl
  | finished reply => exact Iff.rfl

/-- Which landmark lies before which stage. -/
inductive Faces : Stage → Landmark → Prop where
  | onAir (bid : Bid) (sid : StreamId) (answer : String) : Faces (.mark bid sid answer) (.onAir sid)
  | announced (bid : Bid) (answer : String) : Faces (.announce bid answer) (.announced bid.key)
  | offAir (sid : StreamId) (reply : Reply) : Faces (.release sid reply) (.offAir sid)
  | reported (e : Ending) : Faces (.report e) (.reported e.key)

theorem faces_of_mark {r : Relay} {stage : Stage} {m : Landmark}
    (h : (stage.step r).mark = some m) : stage.Faces m := by
  cases stage with
  | mark bid sid answer =>
    simp only [step] at h
    split at h
    · exact absurd h (by simp)
    · exact Option.some.inj h ▸ .onAir bid sid answer
  | announce bid answer => exact Option.some.inj h ▸ .announced bid answer
  | release sid reply =>
    simp only [step] at h
    split at h
    · exact absurd h (by simp)
    · split at h
      · exact absurd h (by simp)
      · split at h
        · exact Option.some.inj h ▸ .offAir sid reply
        · exact absurd h (by simp)
  | report e =>
    simp only [step] at h
    split at h
    · exact Option.some.inj h ▸ .reported e
    · exact absurd h (by simp)
  | dismiss e ids => cases ids <;> exact absurd h (by simp [step])
  | validate | claim | connect | negotiate | lookUp =>
    simp only [step] at h
    split at h <;> exact absurd h (by simp)
  | attach | forget | hangUp | clear | drain | finished => exact absurd h (by simp [step])

/-- Only a stream that was not on air goes on air. -/
theorem not_live_of_onAir {r : Relay} {stage : Stage} {sid : StreamId}
    (h : (stage.step r).mark = some (.onAir sid)) : ¬ r.registry.Live sid := by
  obtain ⟨bid, _, answer⟩ := faces_of_mark h
  obtain he | ⟨s, hs, hp, -⟩ := r.markConnected_cases sid bid.remote
  · simp only [step, he] at h
    exact absurd h (by simp)
  · rintro ⟨t, ht, hl⟩
    obtain rfl := Option.some.inj (hs.symm.trans ht)
    rw [Stream.isLive, hp] at hl
    exact absurd hl (by decide)

/-- A call that has told of the beginning is over. -/
theorem finished_of_announced {r : Relay} {stage : Stage} {key : String}
    (h : (stage.step r).mark = some (.announced key)) :
    ∃ reply, (stage.step r).stage = .finished reply := by
  obtain ⟨bid, answer⟩ := faces_of_mark h
  exact ⟨_, rfl⟩

/-- A call that has told of the end is over. -/
theorem finished_of_reported {r : Relay} {stage : Stage} {key : String}
    (h : (stage.step r).mark = some (.reported key)) :
    ∃ reply, (stage.step r).stage = .finished reply := by
  obtain ⟨e⟩ := faces_of_mark h
  simp only [step]
  split <;> exact ⟨_, rfl⟩

end Stage

/-! ### What a run keeps -/

namespace Busy

/-- The outside was told that a broadcast began. -/
def Announced (b : Busy) (i : CallId) : Prop := ∃ key, ⟨.connected key, some i⟩ ∈ b.told

/-- The outside was told that a broadcast ended. -/
def Reported (b : Busy) (i : CallId) : Prop := ∃ key, ⟨.disconnected key, some i⟩ ∈ b.told

/-- A call has put its stream on air and has to tell so yet. -/
def Awaits (b : Busy) (i : CallId) : Prop :=
  ∃ call, b.calls[i]? = some call ∧ call.stage.duty = some .announce

/-- A call has taken a broadcast off the air and has to tell so yet. -/
def Ends (b : Busy) (j i : CallId) : Prop :=
  ∃ call, b.calls[j]? = some call ∧ call.ended = some i ∧ call.stage.duty = some .report

/-- What the calls have done and what they have told agree. -/
structure Accounted (b : Busy) : Prop where
  /-- A broadcast is on air, or some call has to tell of its end, or that was told. -/
  ends : ∀ sid i, (sid, i) ∈ b.broadcasts →
    (b.onAir? sid = some i ∧ b.relay.registry.Live sid) ∨ (∃ j, b.Ends j i) ∨ b.Reported i
  /-- The ingest of a broadcast has to tell so or has told. -/
  begins : ∀ sid i, (sid, i) ∈ b.broadcasts → b.Awaits i ∨ b.Announced i
  awaits : ∀ i, b.Awaits i → ∃ sid, (sid, i) ∈ b.broadcasts
  /-- A call that has told of the beginning is over. -/
  announced : ∀ i, b.Announced i → ∃ reply, (b.calls[i]?).map Call.stage = some (.finished reply)
  /-- What is taken off the air was put there. -/
  ended : ∀ (j : CallId) (call : Call) (i : CallId), b.calls[j]? = some call → call.ended = some i →
    ∃ sid, (sid, i) ∈ b.broadcasts

theorem accounted_of (r : Relay) : Accounted { relay := r } where
  ends := fun sid i h => absurd h List.not_mem_nil
  begins := fun sid i h => absurd h List.not_mem_nil
  awaits := fun i ⟨call, h, _⟩ => absurd h (by simp)
  announced := fun i ⟨key, h⟩ => absurd h List.not_mem_nil
  ended := fun j call i h => absurd h (by simp)

section

variable {b b' : Busy} {id : CallId} {call call' : Call}

theorem awaits_of_calls
    (hcalls : ∀ i : CallId, b'.calls[i]? = if i = id then some call' else b.calls[i]?) (i : CallId) :
    b'.Awaits i ↔ (i = id ∧ call'.stage.duty = some .announce) ∨ (i ≠ id ∧ b.Awaits i) := by
  rw [Awaits, hcalls]
  split
  · rename_i hi
    simp [hi]
  · rename_i hi
    simp [hi, Awaits]

theorem ends_of_calls
    (hcalls : ∀ i : CallId, b'.calls[i]? = if i = id then some call' else b.calls[i]?)
    (j i : CallId) :
    b'.Ends j i ↔ (j = id ∧ call'.ended = some i ∧ call'.stage.duty = some .report) ∨
      (j ≠ id ∧ b.Ends j i) := by
  rw [Ends, hcalls]
  split
  · rename_i hj
    simp [hj]
  · rename_i hj
    simp [hj, Ends]

/-- Calls that have told of a beginning are over, if the one that moves does not come back. -/
theorem Accounted.announced_of_calls (h : b.Accounted)
    (hcalls : ∀ i : CallId, b'.calls[i]? = if i = id then some call' else b.calls[i]?)
    (hdone : ∀ call reply, b.calls[id]? = some call → call.stage = .finished reply →
      call'.stage = .finished reply)
    (htold : ∀ i, b'.Announced i →
      b.Announced i ∨ i = id ∧ ∃ reply, call'.stage = .finished reply) (i : CallId)
    (hi : b'.Announced i) : ∃ reply, (b'.calls[i]?).map Call.stage = some (.finished reply) := by
  rw [hcalls]
  rcases htold i hi with hold | ⟨rfl, reply, hnew⟩
  · obtain ⟨reply, hr⟩ := h.announced i hold
    obtain ⟨call, hc, hstage⟩ := Option.map_eq_some_iff.mp hr
    refine ⟨reply, ?_⟩
    split
    · rename_i hid
      rw [Option.map_some, hdone call reply (hid ▸ hc) hstage]
    · exact hr
  · exact ⟨reply, by rw [if_pos rfl, Option.map_some, hnew]⟩

/-- What is taken off the air was put there, if this holds of the call that moves. -/
theorem Accounted.ended_of_calls (h : b.Accounted)
    (hcalls : ∀ i : CallId, b'.calls[i]? = if i = id then some call' else b.calls[i]?)
    (hnew : ∀ i, call'.ended = some i → ∃ sid, (sid, i) ∈ b.broadcasts)
    (hsub : ∀ p ∈ b.broadcasts, p ∈ b'.broadcasts) (j : CallId) (c : Call) (i : CallId)
    (hj : b'.calls[j]? = some c) (hi : c.ended = some i) : ∃ sid, (sid, i) ∈ b'.broadcasts := by
  rw [hcalls] at hj
  have hmem : ∃ sid, (sid, i) ∈ b.broadcasts := by
    split at hj
    · obtain rfl := Option.some.inj hj
      exact hnew i hi
    · exact h.ended j c i hj hi
  obtain ⟨sid, hsid⟩ := hmem
  exact ⟨sid, hsub _ hsid⟩

/-- A call that comes in, or takes a step past no landmark, changes nothing in the books. -/
theorem Accounted.quiet (h : b.Accounted)
    (hcalls : ∀ i : CallId, b'.calls[i]? = if i = id then some call' else b.calls[i]?)
    (hold : ∀ call, b.calls[id]? = some call → call'.stage.duty = call.stage.duty ∧
      call'.ended = call.ended ∧ ∀ reply, call.stage = .finished reply → call'.stage = .finished reply)
    (hnew : b.calls[id]? = none → call'.stage.duty = none ∧ call'.ended = none)
    (hlive : ∀ sid, b'.relay.registry.Live sid ↔ b.relay.registry.Live sid)
    (hbroadcasts : b'.broadcasts = b.broadcasts) (htold : b'.told = b.told) : b'.Accounted := by
  have hawaits : ∀ i, b'.Awaits i ↔ b.Awaits i := by
    intro i
    rw [awaits_of_calls hcalls]
    by_cases hi : i = id
    · subst hi
      cases hc : b.calls[i]? with
      | none => simp [Awaits, hc, (hnew hc).1]
      | some call => simp [Awaits, hc, (hold call hc).1]
    · simp [hi]
  have hends : ∀ j i, b'.Ends j i ↔ b.Ends j i := by
    intro j i
    rw [ends_of_calls hcalls]
    by_cases hj : j = id
    · subst hj
      cases hc : b.calls[j]? with
      | none => simp [Ends, hc, (hnew hc).1]
      | some call => simp [Ends, hc, (hold call hc).1, (hold call hc).2.1]
    · simp [hj]
  have hannounced : ∀ i, b'.Announced i ↔ b.Announced i := fun i => by rw [Announced, htold]; rfl
  have hreported : ∀ i, b'.Reported i ↔ b.Reported i := fun i => by rw [Reported, htold]; rfl
  refine ⟨?_, ?_, ?_, ?_, ?_⟩
  · intro sid i hi
    rw [hbroadcasts] at hi
    simp only [hlive, hends, hreported, onAir?, hbroadcasts]
    exact h.ends sid i hi
  · intro sid i hi
    rw [hbroadcasts] at hi
    rw [hawaits, hannounced]
    exact h.begins sid i hi
  · intro i hi
    rw [hbroadcasts]
    exact h.awaits i ((hawaits i).mp hi)
  · exact h.announced_of_calls hcalls (fun c reply hc => (hold c hc).2.2 reply)
      fun i hi => .inl ((hannounced i).mp hi)
  · refine h.ended_of_calls hcalls (fun i hi => ?_) fun p hp => hbroadcasts ▸ hp
    cases hc : b.calls[id]? with
    | none =>
      rw [(hnew hc).2] at hi
      exact absurd hi (by simp)
    | some old =>
      rw [(hold old hc).2.1] at hi
      exact h.ended id old i hc hi

theorem Accounted.enter (h : b.Accounted) (request : Request) : (b.enter request).Accounted := by
  have hnone : b.calls[b.calls.length]? = none := List.getElem?_eq_none (Nat.le_refl _)
  refine h.quiet (b.calls_enter request) (fun call hc => ?_) (fun _ => ?_) (fun sid => Iff.rfl)
    rfl rfl
  · rw [hnone] at hc
    exact absurd hc (by simp)
  · cases request <;> exact ⟨rfl, rfl⟩

/-- Of an old call nothing is left but what its new stage says. -/
theorem awaits_iff_of_duty
    (hcalls : ∀ i : CallId, b'.calls[i]? = if i = id then some call' else b.calls[i]?)
    (hc : b.calls[id]? = some call) (hold : call.stage.duty ≠ some .announce)
    (hnew : call'.stage.duty ≠ some .announce) (i : CallId) : b'.Awaits i ↔ b.Awaits i := by
  rw [awaits_of_calls hcalls]
  by_cases hi : i = id
  · subst hi
    simp [Awaits, hc, hold, hnew]
  · simp [hi]

theorem ends_iff_of_duty
    (hcalls : ∀ i : CallId, b'.calls[i]? = if i = id then some call' else b.calls[i]?)
    (hc : b.calls[id]? = some call) (hold : call.stage.duty ≠ some .report)
    (hnew : call'.stage.duty ≠ some .report) (j i : CallId) : b'.Ends j i ↔ b.Ends j i := by
  rw [ends_of_calls hcalls]
  by_cases hj : j = id
  · subst hj
    simp [Ends, hc, hold, hnew]
  · simp [hj]

/-- **A stream goes on air.** -/
theorem Accounted.onAir (h : b.Accounted) {sid : StreamId}
    (hcalls : ∀ i : CallId, b'.calls[i]? = if i = id then some call' else b.calls[i]?)
    (hc : b.calls[id]? = some call) (hold : call.stage.duty = none)
    (hnew : call'.stage.duty = some .announce) (hended : call'.ended = call.ended)
    (hdone : ∀ reply, call.stage ≠ .finished reply) (hdead : ¬ b.relay.registry.Live sid)
    (hlive : ∀ j, b'.relay.registry.Live j ↔ j = sid ∨ b.relay.registry.Live j)
    (hbroadcasts : b'.broadcasts = (sid, id) :: b.broadcasts) (htold : b'.told = b.told) :
    b'.Accounted := by
  have hends := ends_iff_of_duty hcalls hc (by simp [hold]) (by simp [hnew])
  have hannounced : ∀ i, b'.Announced i ↔ b.Announced i := fun i => by rw [Announced, htold]; rfl
  have hreported : ∀ i, b'.Reported i ↔ b.Reported i := fun i => by rw [Reported, htold]; rfl
  have hlookup : ∀ j, b'.onAir? j = if j = sid then some id else b.onAir? j := by
    intro j
    rw [onAir?, hbroadcasts, Entries.lookup]
    simp only [eq_comm, onAir?]
  refine ⟨?_, ?_, ?_, ?_, ?_⟩
  · intro j i hi
    rw [hbroadcasts] at hi
    simp only [hlive, hends, hreported, hlookup]
    rcases List.mem_cons.mp hi with he | hi
    · obtain ⟨rfl, rfl⟩ := Prod.mk.inj he
      exact .inl ⟨if_pos rfl, .inl rfl⟩
    · refine (h.ends j i hi).imp_left ?_
      rintro ⟨hon, hl⟩
      have hj : j ≠ sid := by
        rintro rfl
        exact hdead hl
      exact ⟨by rw [if_neg hj, hon], .inr hl⟩
  · intro j i hi
    rw [hbroadcasts] at hi
    rw [awaits_of_calls hcalls, hannounced]
    by_cases hid : i = id
    · exact .inl (.inl ⟨hid, hnew⟩)
    · -- an older broadcast, of another call
      rcases List.mem_cons.mp hi with he | hi
      · exact absurd (Prod.mk.inj he).2 hid
      · exact (h.begins j i hi).imp_left fun hw => .inr ⟨hid, hw⟩
  · intro i hi
    rw [hbroadcasts]
    rcases (awaits_of_calls hcalls i).mp hi with ⟨rfl, -⟩ | ⟨-, hw⟩
    · exact ⟨sid, List.mem_cons_self⟩
    · obtain ⟨j, hj⟩ := h.awaits i hw
      exact ⟨j, List.mem_cons_of_mem _ hj⟩
  · exact h.announced_of_calls hcalls (fun c reply hc' he =>
      absurd he (Option.some.inj (hc'.symm.trans hc) ▸ hdone reply))
      fun i hi => .inl ((hannounced i).mp hi)
  · exact h.ended_of_calls hcalls (fun i hi => h.ended id call i hc (hended ▸ hi))
      fun p hp => hbroadcasts ▸ List.mem_cons_of_mem _ hp

/-- **The outside is told of a beginning.** -/
theorem Accounted.announce (h : b.Accounted) {key : String} {reply : Reply}
    (hcalls : ∀ i : CallId, b'.calls[i]? = if i = id then some call' else b.calls[i]?)
    (hc : b.calls[id]? = some call) (hold : call.stage.duty = some .announce)
    (hnew : call'.stage = .finished reply) (hended : call'.ended = call.ended)
    (hlive : ∀ j, b'.relay.registry.Live j ↔ b.relay.registry.Live j)
    (hbroadcasts : b'.broadcasts = b.broadcasts)
    (htold : b'.told = b.told ++ [⟨.connected key, some id⟩]) : b'.Accounted := by
  have hends := ends_iff_of_duty hcalls hc (by simp [hold]) (by simp [hnew, Stage.duty])
  have hannounced : ∀ i, b'.Announced i ↔ b.Announced i ∨ i = id := by
    intro i
    simp [Announced, htold, exists_or]
  have hreported : ∀ i, b'.Reported i ↔ b.Reported i := by
    intro i
    simp [Reported, htold]
  have hawaits : ∀ i, b'.Awaits i ↔ i ≠ id ∧ b.Awaits i := by
    intro i
    simp [awaits_of_calls hcalls, hnew, Stage.duty]
  refine ⟨?_, ?_, ?_, ?_, ?_⟩
  · intro sid i hi
    rw [hbroadcasts] at hi
    simp only [hlive, hends, hreported, onAir?, hbroadcasts]
    exact h.ends sid i hi
  · intro sid i hi
    rw [hbroadcasts] at hi
    rw [hawaits, hannounced]
    by_cases hid : i = id
    · exact .inr (.inr hid)
    · exact (h.begins sid i hi).imp (fun hw => ⟨hid, hw⟩) .inl
  · intro i hi
    rw [hbroadcasts]
    exact h.awaits i ((hawaits i).mp hi).2
  · refine h.announced_of_calls hcalls (fun c r hc' he => ?_)
      fun i hi => ((hannounced i).mp hi).imp_right fun hid => ⟨hid, reply, hnew⟩
    obtain rfl := Option.some.inj (hc'.symm.trans hc)
    rw [he] at hold
    exact absurd hold (by simp [Stage.duty])
  · exact h.ended_of_calls hcalls (fun i hi => h.ended id call i hc (hended ▸ hi))
      fun p hp => hbroadcasts ▸ hp

/-- **A stream goes off the air.** -/
theorem Accounted.offAir (h : b.Accounted) {sid : StreamId}
    (hcalls : ∀ i : CallId, b'.calls[i]? = if i = id then some call' else b.calls[i]?)
    (hc : b.calls[id]? = some call) (hold : call.stage.duty = none)
    (hnew : call'.stage.duty = some .report) (hended : call'.ended = b.onAir? sid)
    (hdone : ∀ reply, call.stage ≠ .finished reply)
    (hlive : ∀ j, b'.relay.registry.Live j ↔ j ≠ sid ∧ b.relay.registry.Live j)
    (hbroadcasts : b'.broadcasts = b.broadcasts) (htold : b'.told = b.told) : b'.Accounted := by
  have hawaits := awaits_iff_of_duty hcalls hc (by simp [hold]) (by simp [hnew])
  have hannounced : ∀ i, b'.Announced i ↔ b.Announced i := fun i => by rw [Announced, htold]; rfl
  have hreported : ∀ i, b'.Reported i ↔ b.Reported i := fun i => by rw [Reported, htold]; rfl
  refine ⟨?_, ?_, ?_, ?_, ?_⟩
  · intro j i hi
    rw [hbroadcasts] at hi
    simp only [hlive, hreported, ends_of_calls hcalls]
    rcases h.ends j i hi with ⟨hon, hl⟩ | ⟨k, hk⟩ | hr
    · by_cases hj : j = sid
      · subst hj
        exact .inr (.inl ⟨id, .inl ⟨rfl, hended.trans hon, hnew⟩⟩)
      · refine .inl ⟨?_, hj, hl⟩
        rw [onAir?, hbroadcasts]
        exact hon
    · refine .inr (.inl ⟨k, .inr ⟨?_, hk⟩⟩)
      rintro rfl
      obtain ⟨c, hc', -, hduty⟩ := hk
      rw [Option.some.inj (hc'.symm.trans hc), hold] at hduty
      exact absurd hduty (by simp)
    · exact .inr (.inr hr)
  · intro j i hi
    rw [hbroadcasts] at hi
    rw [hawaits, hannounced]
    exact h.begins j i hi
  · intro i hi
    rw [hbroadcasts]
    exact h.awaits i ((hawaits i).mp hi)
  · exact h.announced_of_calls hcalls (fun c reply hc' he =>
      absurd he (Option.some.inj (hc'.symm.trans hc) ▸ hdone reply))
      fun i hi => .inl ((hannounced i).mp hi)
  · refine h.ended_of_calls hcalls (fun i hi => ⟨sid, ?_⟩) fun p hp => hbroadcasts ▸ hp
    exact mem_broadcasts_of_onAir? (hended ▸ hi)

/-- **The outside is told of an end.** -/
theorem Accounted.report (h : b.Accounted) {key : String} {reply : Reply}
    (hcalls : ∀ i : CallId, b'.calls[i]? = if i = id then some call' else b.calls[i]?)
    (hc : b.calls[id]? = some call) (hold : call.stage.duty = some .report)
    (hnew : call'.stage = .finished reply) (hended : call'.ended = call.ended)
    (hlive : ∀ j, b'.relay.registry.Live j ↔ b.relay.registry.Live j)
    (hbroadcasts : b'.broadcasts = b.broadcasts)
    (htold : b'.told = b.told ++ [⟨.disconnected key, call.ended⟩]) : b'.Accounted := by
  have hawaits := awaits_iff_of_duty hcalls hc (by simp [hold]) (by simp [hnew, Stage.duty])
  have hannounced : ∀ i, b'.Announced i ↔ b.Announced i := by
    intro i
    simp [Announced, htold]
  have hreported : ∀ i, b'.Reported i ↔ b.Reported i ∨ call.ended = some i := by
    intro i
    simp [Reported, htold, exists_or, eq_comm]
  refine ⟨?_, ?_, ?_, ?_, ?_⟩
  · intro sid i hi
    rw [hbroadcasts] at hi
    simp only [hlive, hreported, ends_of_calls hcalls, onAir?, hbroadcasts]
    rcases h.ends sid i hi with hon | ⟨j, hj⟩ | hr
    · exact .inl hon
    · by_cases hid : j = id
      · subst hid
        obtain ⟨c, hc', he, -⟩ := hj
        obtain rfl := Option.some.inj (hc'.symm.trans hc)
        exact .inr (.inr (.inr he))
      · exact .inr (.inl ⟨j, .inr ⟨hid, hj⟩⟩)
    · exact .inr (.inr (.inl hr))
  · intro sid i hi
    rw [hbroadcasts] at hi
    rw [hawaits, hannounced]
    exact h.begins sid i hi
  · intro i hi
    rw [hbroadcasts]
    exact h.awaits i ((hawaits i).mp hi)
  · refine h.announced_of_calls hcalls (fun c r hc' he => ?_)
      fun i hi => .inl ((hannounced i).mp hi)
    obtain rfl := Option.some.inj (hc'.symm.trans hc)
    rw [he] at hold
    exact absurd hold (by simp [Stage.duty])
  · exact h.ended_of_calls hcalls (fun i hi => h.ended id call i hc (hended ▸ hi))
      fun p hp => hbroadcasts ▸ hp

theorem Accounted.advance (h : b.Accounted) (id : CallId) : (b.advance id).Accounted := by
  cases hc : b.calls[id]? with
  | none =>
    have hstep : b.advance id = b := by rw [Busy.advance, hc]
    rw [hstep]
    exact h
  | some call =>
    have hduty := call.stage.discharges_step b.relay
    have hlive := call.stage.live_step b.relay
    have hset := getElem?_set_of_some hc
    rw [advance_of_some hc, settle]
    cases hm : (call.stage.step b.relay).mark with
    | none =>
      rw [hm] at hduty hlive
      refine h.quiet (hset _) (fun c hc' => ?_) (fun hnone => ?_) hlive rfl rfl
      · obtain rfl := Option.some.inj (hc'.symm.trans hc)
        exact ⟨hduty.of_none, rfl, fun reply he => by rw [he]; rfl⟩
      · exact absurd (hnone.symm.trans hc) (by simp)
    | some m =>
      have hdone : ∀ reply, call.stage ≠ .finished reply := by
        intro reply he
        have hface := Stage.faces_of_mark hm
        rw [he] at hface
        cases hface
      rw [hm] at hduty hlive
      cases m with
      | onAir sid =>
        obtain ⟨hold, hnew⟩ := hduty.of_onAir
        exact h.onAir (hset _) hc hold hnew rfl hdone (Stage.not_live_of_onAir hm) hlive rfl rfl
      | announced key =>
        obtain ⟨reply, hdone⟩ := Stage.finished_of_announced hm
        exact h.announce (hset _) hc hduty.of_announced.1 hdone rfl hlive rfl rfl
      | offAir sid =>
        obtain ⟨hold, hnew⟩ := hduty.of_offAir
        exact h.offAir (hset _) hc hold hnew rfl hdone hlive rfl rfl
      | reported key =>
        obtain ⟨reply, hdone⟩ := Stage.finished_of_reported hm
        exact h.report (hset _) hc hduty.of_reported.1 hdone rfl hlive rfl rfl

theorem Accounted.run (h : b.Accounted) (moves : List Move) : (b.run moves).Accounted := by
  induction moves generalizing b with
  | nil => exact h
  | cons m rest ih =>
    cases m with
    | enter request => exact ih (h.enter request)
    | advance id => exact ih (h.advance id)

end

/-! ### Notices in order -/

/-- **The notices about a broadcast come in order**: none of its end before one of its
beginning. -/
def InOrder (b : Busy) (i : CallId) : Prop :=
  ∀ before key after, b.told = before ++ ⟨.disconnected key, some i⟩ :: after →
    ∃ k, ⟨.connected k, some i⟩ ∈ before

/-- The next step of a call tells of the end of a broadcast. -/
def Reports (b : Busy) (j i : CallId) : Prop :=
  ∃ call e, b.calls[j]? = some call ∧ call.stage = .report e ∧
    e.released.wasConnected = true ∧ call.ended = some i

/-- Somewhere in a run the end of a broadcast is told while its beginning is still to tell. -/
def Overtaken (b : Busy) (moves : List Move) (i : CallId) : Prop :=
  ∃ before j after, moves = before ++ .advance j :: after ∧
    (b.run before).Reports j i ∧ (b.run before).Awaits i

section

variable {b : Busy} {i j : CallId}

theorem Overtaken.cons {m : Move} {moves : List Move} (h : (b.move m).Overtaken moves i) :
    b.Overtaken (m :: moves) i := by
  obtain ⟨before, j, after, he, hr, hw⟩ := h
  exact ⟨m :: before, j, after, by rw [he, List.cons_append], hr, hw⟩

/-- **All that a step can tell**: nothing, the beginning of its own broadcast, or the end
of one. -/
theorem told_advance (b : Busy) (j : CallId) :
    (b.advance j).told = b.told ∨
    (∃ key, (b.advance j).told = b.told ++ [⟨.connected key, some j⟩]) ∨
    ∃ call e, b.calls[j]? = some call ∧ call.stage = .report e ∧
      e.released.wasConnected = true ∧
      (b.advance j).told = b.told ++ [⟨.disconnected e.key, call.ended⟩] := by
  cases hc : b.calls[j]? with
  | none => exact .inl (by rw [advance, hc])
  | some call =>
    rw [advance_of_some hc, settle]
    cases hm : (call.stage.step b.relay).mark with
    | none => exact .inl rfl
    | some m =>
      cases m with
      | onAir sid => exact .inl rfl
      | offAir sid => exact .inl rfl
      | announced key => exact .inr (.inl ⟨key, rfl⟩)
      | reported key =>
        have hduty := call.stage.discharges_step b.relay
        rw [hm] at hduty
        have hreport := hduty.of_reported.1
        obtain ⟨stage, ended⟩ := call
        cases Stage.faces_of_mark hm with
        | reported e =>
          refine .inr (.inr ⟨⟨.report e, ended⟩, e, rfl, rfl, ?_, rfl⟩)
          simpa [Stage.duty] using hreport

theorem told_prefix_run (b : Busy) (moves : List Move) : b.told <+: (b.run moves).told := by
  induction moves generalizing b with
  | nil => exact List.prefix_refl _
  | cons m rest ih =>
    refine List.IsPrefix.trans ?_ (ih (b.move m))
    cases m with
    | enter request => exact List.prefix_refl _
    | advance j =>
      show b.told <+: (b.advance j).told
      obtain he | ⟨key, he⟩ | ⟨call, e, -, -, -, he⟩ := b.told_advance j
      · exact ⟨[], by rw [he, List.append_nil]⟩
      · rw [he]
        exact List.prefix_append ..
      · rw [he]
        exact List.prefix_append ..

theorem Announced.run (h : b.Announced i) (moves : List Move) : (b.run moves).Announced i := by
  obtain ⟨key, hk⟩ := h
  exact ⟨key, (b.told_prefix_run moves).subset hk⟩

theorem Accounted.not_announced_of_awaits (h : b.Accounted) (hw : b.Awaits i) :
    ¬ b.Announced i := by
  intro ha
  obtain ⟨reply, hr⟩ := h.announced i ha
  obtain ⟨call, hc, hduty⟩ := hw
  rw [hc, Option.map_some, Option.some.injEq] at hr
  rw [hr] at hduty
  exact absurd hduty (by simp [Stage.duty])

/-- One notice more. -/
theorem inOrder_append {told : List Told} {t : Told} (h : b.InOrder i)
    (htold : told = b.told ++ [t]) (hnew : (∃ key, t = ⟨.disconnected key, some i⟩) → b.Announced i)
    {before after : List Told} {key : String}
    (he : told = before ++ ⟨.disconnected key, some i⟩ :: after) :
    ∃ k, ⟨.connected k, some i⟩ ∈ before := by
  rw [htold] at he
  -- the notice in question is the new one, or it was there before
  rcases concat_eq_split_iff.mp he with ⟨rfl, ht, -⟩ | ⟨rest, -, hrest⟩
  · exact hnew ⟨key, ht.symm⟩
  · exact h before key rest hrest

theorem InOrder.advance (h : b.InOrder i) (ha : b.Accounted) (j : CallId)
    (hno : b.Reports j i → ¬ b.Awaits i) : (b.advance j).InOrder i := by
  intro before key after hb
  obtain he | ⟨k, he⟩ | ⟨call, e, hc, hstage, hl, he⟩ := b.told_advance j
  · rw [he] at hb
    exact h before key after hb
  · exact inOrder_append h he (fun ⟨k, hk⟩ => absurd hk (by simp)) hb
  · refine inOrder_append h he (fun ⟨k, hk⟩ => ?_) hb
    have hended : call.ended = some i := (Told.mk.inj hk).2
    obtain ⟨sid, hsid⟩ := ha.ended j call i hc hended
    exact (ha.begins sid i hsid).resolve_left (hno ⟨call, e, hc, hstage, hl, hended⟩)

/-- **A run keeps the order unless a broadcast is overtaken.** -/
theorem InOrder.run (h : b.InOrder i) (ha : b.Accounted) {moves : List Move}
    (hno : ¬ b.Overtaken moves i) : (b.run moves).InOrder i := by
  induction moves generalizing b with
  | nil => exact h
  | cons m rest ih =>
    have hrest : ¬ (b.move m).Overtaken rest i := fun ho => hno ho.cons
    cases m with
    | enter request => exact ih (b := b.enter request) h (ha.enter request) hrest
    | advance j =>
      refine ih (b := b.advance j) (h.advance ha j fun hr hw => ?_) (ha.advance j) hrest
      exact hno ⟨[], j, rest, rfl, hr, hw⟩

/-- An overtaken broadcast is out of order for good. -/
theorem Accounted.not_inOrder_of_overtaken (h : b.Accounted) {moves : List Move}
    (ho : b.Overtaken moves i) : ¬ (b.run moves).InOrder i := by
  obtain ⟨before, j, after, rfl, ⟨call, e, hc, hstage, hl, hended⟩, hw⟩ := ho
  intro horder
  have htold : ((b.run before).advance j).told
      = (b.run before).told ++ [⟨.disconnected e.key, some i⟩] := by
    rw [advance_of_some hc, settle, hstage]
    simp only [Stage.step, if_pos hl, hended]
  obtain ⟨rest, hrest⟩ := ((b.run before).advance j).told_prefix_run after
  have hrun : (b.run (before ++ .advance j :: after)).told
      = (b.run before).told ++ ⟨.disconnected e.key, some i⟩ :: rest := by
    rw [run_append]
    show (((b.run before).advance j).run after).told = _
    rw [← hrest, htold, List.append_assoc]
    rfl
  exact (h.run before).not_announced_of_awaits hw (horder _ _ _ hrun)

/-! ### Being overtaken -/

/-- A call that has to tell of an end can do so at once. -/
theorem Ends.exists_run (h : b.Ends j i) :
    ∃ moves key, (b.run moves).told = b.told ++ [⟨.disconnected key, some i⟩] := by
  obtain ⟨⟨stage, ended⟩, hc, hended, hduty⟩ := h
  simp only at hended hduty
  have hlead : ∃ r e, Leads b.relay stage [] r (.report e) ∧ e.released.wasConnected = true := by
    cases stage with
    | forget e =>
      obtain ⟨q, hq, -⟩ := leads_hangUp e
        { b.relay with registry := b.relay.registry.forget e.stream }
      exact ⟨q, e, .quiet rfl hq, by simpa [Stage.duty] using hduty⟩
    | hangUp e =>
      obtain ⟨q, hq, -⟩ := leads_hangUp e b.relay
      exact ⟨q, e, hq, by simpa [Stage.duty] using hduty⟩
    | clear e =>
      obtain ⟨q, hq⟩ := leads_drain e (b.relay.clearLastMatched e.key)
      exact ⟨q, e, .quiet rfl hq, by simpa [Stage.duty] using hduty⟩
    | drain e =>
      obtain ⟨q, hq⟩ := leads_drain e b.relay
      exact ⟨q, e, hq, by simpa [Stage.duty] using hduty⟩
    | dismiss e rest =>
      exact ⟨_, e, leads_dismiss e rest b.relay, by simpa [Stage.duty] using hduty⟩
    | report e => exact ⟨_, e, .refl _ _, by simpa [Stage.duty] using hduty⟩
    | _ => exact absurd hduty (by simp [Stage.duty])
  obtain ⟨r, e, hlead, hl⟩ := hlead
  obtain ⟨n, hn⟩ := run_of_leads hc hlead
  refine ⟨List.replicate n (.advance j) ++ [.advance j], e.key, ?_⟩
  have hc' : (b.run (List.replicate n (.advance j))).calls[j]? = some ⟨.report e, ended⟩ := by
    rw [hn]
    simp only
    rw [getElem?_set_of_some hc, if_pos rfl]
  rw [run_append]
  show ((b.run (List.replicate n (.advance j))).advance j).told = _
  rw [advance_of_some hc', settle]
  simp only [Stage.step, if_pos hl, hn, hended]

/-- A broadcast that is on air can be taken off. -/
theorem ends_of_lose {sid : StreamId} (hon : b.onAir? sid = some i)
    (hl : b.relay.registry.Live sid) :
    ((b.enter (.lose sid)).advance b.calls.length).Ends b.calls.length i ∧
      ((b.enter (.lose sid)).advance b.calls.length).told = b.told := by
  obtain ⟨s, hs, hlive⟩ := hl
  have hheld : s.hasPublisher = true := by
    refine Decidable.byContradiction fun hp => ?_
    rw [Stream.isLive_of_free (by simpa using hp)] at hlive
    exact absurd hlive (by simp)
  have hc : (b.enter (.lose sid)).calls[b.calls.length]? = some ⟨.release sid none, none⟩ := by
    rw [calls_enter, if_pos rfl]
    rfl
  have hstep : Stage.step (b.enter (.lose sid)).relay (.release sid none)
      = { stage := .forget ⟨sid, s.key, ⟨s.connection, true⟩, none⟩,
          relay := { b.relay with registry := b.relay.registry.put sid s.released },
          mark := some (.offAir sid) } := by
    show Stage.step b.relay (.release sid none) = _
    simp only [Stage.step, hs, onRegistry, Registry.beginRelease_of_held hs hheld, hlive, if_true]
  rw [advance_of_some hc, settle]
  simp only [hstep]
  refine ⟨⟨⟨.forget ⟨sid, s.key, ⟨s.connection, true⟩, none⟩, b.onAir? sid⟩, ?_, hon, rfl⟩, rfl⟩
  rw [getElem?_set_of_some hc, if_pos rfl]
  rfl

/-- **Whoever has still to tell can be overtaken.** -/
theorem Accounted.exists_not_inOrder (h : b.Accounted) (hw : b.Awaits i) :
    ∃ moves, ¬ (b.run moves).InOrder i := by
  have hbad : ∀ (moves : List Move) (key : String),
      (b.run moves).told = b.told ++ [⟨.disconnected key, some i⟩] →
        ¬ (b.run moves).InOrder i := by
    intro moves key htold horder
    exact h.not_announced_of_awaits hw (horder b.told key [] htold)
  obtain ⟨sid, hsid⟩ := h.awaits i hw
  rcases h.ends sid i hsid with ⟨hon, hl⟩ | ⟨j, hj⟩ | ⟨key, hk⟩
  · -- the stream is still on air: let its transport fail
    obtain ⟨hends, htold⟩ := ends_of_lose hon hl
    obtain ⟨moves, key, hrun⟩ := hends.exists_run
    exact ⟨.enter (.lose sid) :: .advance b.calls.length :: moves,
      hbad _ key (hrun.trans (by rw [htold]))⟩
  · -- some teardown is past the flip: let it run on
    obtain ⟨moves, key, hrun⟩ := hj.exists_run
    exact ⟨moves, hbad moves key hrun⟩
  · -- the end was told already
    obtain ⟨before, after, he⟩ := List.append_of_mem hk
    refine ⟨[], fun horder => ?_⟩
    obtain ⟨k, hk'⟩ := horder before key after he
    exact h.not_announced_of_awaits hw ⟨k, he ▸ List.mem_append_left _ hk'⟩

end

/-! ### The law and its limit -/

/-- **The notices about a broadcast are in order exactly if it was not overtaken**, in
every run; the book lists all that the outside was told in the run.  Once a call has put its
stream on air, all that may follow is in order exactly if the outside was told of the
beginning, and before the end. -/
theorem inOrder_iff (r : Relay) (moves : List Move) (i : CallId) :
    (run { relay := r } moves).relay.notices
      = r.notices ++ (run { relay := r } moves).told.map Told.notice ∧
    ((run { relay := r } moves).InOrder i ↔ ¬ Overtaken { relay := r } moves i) ∧
    ((∃ sid, (sid, i) ∈ (run { relay := r } moves).broadcasts) →
      ((∀ more, (run { relay := r } (moves ++ more)).InOrder i) ↔
        (run { relay := r } moves).Announced i ∧ (run { relay := r } moves).InOrder i)) := by
  have hstart := accounted_of r
  have hempty : InOrder { relay := r } i := by
    intro before key after he
    exact absurd he (by simp)
  have hsound := hstart.run moves
  refine ⟨notices_run (List.append_nil _).symm moves,
    ⟨fun h ho => hstart.not_inOrder_of_overtaken ho h, hempty.run hstart⟩, ?_⟩
  rintro ⟨sid, hsid⟩
  constructor
  · intro h
    refine ⟨(hsound.begins sid i hsid).resolve_left fun hw => ?_, by simpa using h []⟩
    obtain ⟨more, hmore⟩ := hsound.exists_not_inOrder hw
    exact hmore (run_append _ moves more ▸ h more)
  · rintro ⟨ha, horder⟩ more
    rw [run_append]
    refine horder.run hsound ?_
    rintro ⟨before, j, after, -, -, hw⟩
    exact (hsound.run before).not_announced_of_awaits hw (ha.run before)

/-- An ingest puts its stream on air; before it says so, a disconnect runs to its end. -/
def overtakenIngest : List Move :=
  .enter (.ingest { offer := "offer", key := "k" }) :: List.replicate 6 (.advance 0) ++
    .enter (.disconnect "k") :: List.replicate 8 (.advance 1) ++ [.advance 0]

/-- **An overtaken ingest tells of the end first**: its connection was marked, and the
notices come the wrong way round. -/
theorem not_inOrder_overtakenIngest :
    let b := run { relay := start { streamKeys := ["k"] } fun _ => .ok { answer := "answer" } }
      overtakenIngest
    (0, 0) ∈ b.broadcasts ∧ b.relay.notices = [.disconnected "k", .connected "k"] ∧
      ¬ b.InOrder 0 := by
  refine ⟨by decide, by decide, fun h => ?_⟩
  obtain ⟨k, hk⟩ := h [] "k" [⟨.connected "k", some 0⟩] (by decide)
  exact absurd hk List.not_mem_nil

end Busy

end Relay

end Simulcast
