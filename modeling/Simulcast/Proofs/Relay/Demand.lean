import Simulcast.Proofs.Relay.Accounts
/-!
# No stream queues more keyframe requests than it may

A new stream has no request in its queue, and a request is put in only where there is room.
All that runs beside this leaves queues alone, or takes requests out.  So in a relay that is
within its bounds (`Relay.Within`) every operation ends within them:
`Relay.Settled.within_perform`.

A request in a queue within its bound is one request more, up to the bound, whether there was
room or not: `KeyframeQueue.Within.request`.
-/

namespace Simulcast

/-! ### Queues -/

namespace KeyframeQueue

variable {q : KeyframeQueue}

/-- No more requests wait than may. -/
def Within (q : KeyframeQueue) : Prop := q.pending ≤ q.capacity

/-- **A request** counts up to the bound, and nothing else of the queue changes. -/
theorem Within.request (h : q.Within) :
    q.request.2 = { q with pending := min q.capacity (q.pending + 1) } := by
  unfold KeyframeQueue.request
  by_cases hroom : q.hasRoom = true
  · have hlt : q.pending < q.capacity := by simpa [hasRoom] using hroom
    rw [if_pos hroom, Nat.min_eq_right hlt]
  · have hle : q.capacity ≤ q.pending := by simpa [hasRoom] using hroom
    have hfull : q.pending = q.capacity := Nat.le_antisymm h hle
    rw [if_neg hroom, Nat.min_eq_left (Nat.le_succ_of_le hle)]
    exact congrArg (fun n => { q with pending := n }) hfull

theorem Within.of_request (h : q.Within) : q.request.2.Within := by
  rw [h.request]
  exact Nat.min_le_left ..

theorem Within.serveOne? (h : q.Within) {a : KeyframeAttempt} {q' : KeyframeQueue}
    (hs : q.serveOne? = some (a, q')) : q'.Within := by
  unfold KeyframeQueue.serveOne? at hs
  split at hs
  · rename_i n loop rest hn hw
    simp only [Option.some.injEq, Prod.mk.injEq] at hs
    rw [← hs.2]
    show n ≤ q.capacity
    have hbound : q.pending ≤ q.capacity := h
    omega
  · exact absurd hs (by simp)

theorem Within.serveUpTo (h : q.Within) (n : Nat) : (serveUpTo n q).2.Within := by
  induction n generalizing q with
  | zero => exact h
  | succ n ih =>
    rw [KeyframeQueue.serveUpTo]
    split
    · rename_i a q' hs
      exact ih (h.serveOne? hs)
    · exact h

end KeyframeQueue

theorem Stream.keyframes_noteRead (s : Stream) (f : Feed) (p : Packet) (now : Millis) :
    (s.noteRead f p now).keyframes = s.keyframes := by
  unfold noteRead addLayer
  split
  · split <;> rfl
  · rfl

namespace Relay

variable {ids : List ViewerId} {r q : Relay}

/-! ### Streams -/

/-- Every queue of the relay is within its bound. -/
def Within (r : Relay) : Prop :=
  ∀ sid s, r.registry.stream? sid = some s → s.keyframes.Within

theorem within_start (settings : Settings) (negotiate : Attempt → Except RelayError Agreement) :
    (start settings negotiate).Within := by
  intro sid s hs
  exact absurd hs (by simp [start, Registry.stream?])

theorem Within.of_same (h : r.Within) (hq : q.registry = r.registry) : q.Within := by
  intro sid s hs
  exact h sid s (hq ▸ hs)

/-- Streams are changed, and their queues stay within their bounds. -/
theorem Within.of_map (h : r.Within) {f : Stream → Stream}
    (hf : ∀ s : Stream, s.keyframes.Within → (f s).keyframes.Within)
    (hq : ∀ j, q.registry.stream? j = r.registry.stream? j ∨
      q.registry.stream? j = (r.registry.stream? j).map f) : q.Within := by
  intro j t ht
  rcases hq j with he | he
  · exact h j t (he ▸ ht)
  · rw [he] at ht
    obtain ⟨s, hs, rfl⟩ := Option.map_eq_some_iff.mp ht
    exact hf s (h j s hs)

theorem Within.updateStream (h : r.Within) (sid : StreamId) {f : Stream → Stream}
    (hf : ∀ s : Stream, s.keyframes.Within → (f s).keyframes.Within) :
    (r.updateStream sid f).Within := by
  refine h.of_map hf fun j => ?_
  rw [registry_updateStream, Registry.stream?_update]
  split
  · rename_i hj
    rw [hj]
    exact .inr rfl
  · exact .inl rfl

/-- One stream more, whose queue is within its bound. -/
theorem Within.added (h : r.Within) {t : Stream} (a : Added r q t) (ht : t.keyframes.Within) :
    q.Within := by
  intro j u hu
  rw [a.stream?] at hu
  split at hu
  · obtain rfl := Option.some.inj hu
    exact ht
  · exact h j u hu

/-! ### Operations -/

theorem Settled.within_teardown (h : Settled ids r.registry r.viewers) (hr : r.Within)
    (sid : StreamId) : (r.teardown sid).Within := by
  cases hs : r.registry.stream? sid with
  | none =>
    rw [teardown_of_none hs]
    exact hr
  | some s =>
    cases hp : s.hasPublisher with
    | false =>
      rw [teardown_of_free hs hp]
      exact hr
    | true =>
      obtain ⟨q, hq, e⟩ := h.ended (h.find?_of_held hs hp) hs
      rw [hq]
      refine hr.of_map (f := Stream.retired) (fun _ hs => hs) fun j => ?_
      show q.registry.stream? j = _ ∨ q.registry.stream? j = _
      rw [e.stream?]
      split
      · exact .inr rfl
      · exact .inl rfl

theorem Settled.within_shutdown (h : Settled ids r.registry r.viewers) (hr : r.Within) :
    r.shutdown.Within := by
  have hfold : ∀ (sids : List StreamId) (r : Relay), Settled ids r.registry r.viewers →
      r.Within → (sids.foldl Relay.teardown r).Within := by
    intro sids
    induction sids with
    | nil => exact fun r _ hr => hr
    | cons sid rest ih => exact fun r h hr => ih _ (h.teardown sid) (h.within_teardown hr sid)
  exact hfold _ r h hr

theorem Settled.within_ingest (h : Settled ids r.registry r.viewers) (hr : r.Within)
    (offer key : String) (remote : Option SocketAddress) :
    (r.ingest offer key remote).2.Within := by
  obtain ⟨-, last, he⟩ | ⟨-, q, t, b, hcapacity, hnew, ⟨e, -, he⟩ | ⟨answer, c, -, hup, he⟩⟩ :=
    h.ingest_outcome offer key remote
  · rw [he]
    exact hr.of_same rfl
  · rw [he]
    refine hr.added (b.added_teardown hcapacity) ?_
    rw [hnew]
    exact Nat.zero_le _
  · rw [he]
    refine (hr.added (b.added_markConnected hcapacity remote) ?_).of_same rfl
    rw [hup]
    exact Nat.zero_le _

theorem Settled.within_createSession (h : Settled ids r.registry r.viewers) (hr : r.Within)
    {id : ViewerId} (hid : id ∉ ids) (offer key : String) :
    (r.createSession offer key id).2.Within := by
  obtain ⟨e, he⟩ | ⟨q, sid, s, codec, seat, ⟨e, he⟩ | ⟨answer, he⟩⟩ :=
    r.createSession_cases offer key id
  · rw [he]
    exact hr
  · rw [he]
    exact hr.of_same
      (seat.registry_dropViewer (fun id v hv => (h.named id v hv).2) (h.unwatched_of_fresh hid))
  · rw [he]
    intro j t ht
    rw [registry_updateViewer, seat.registry, Registry.stream?_put_of_some seat.stream?] at ht
    split at ht
    · obtain rfl := Option.some.inj ht
      have hsame : (s.attach id).2.keyframes = s.keyframes := by
        rw [Stream.attach, if_pos seat.live]
      rw [hsame]
      exact hr sid s seat.stream?
    · exact hr j t ht

/-- **Every operation ends within the bounds.** -/
theorem Settled.within_perform (h : Settled ids r.registry r.viewers) (hr : r.Within)
    {op : Operation} (hnew : ∀ id ∈ newViewer? op, id ∉ ids) : (r.perform op).Within := by
  cases op with
  | ingest offer key remote => exact h.within_ingest hr offer key remote
  | createSession offer key id => exact h.within_createSession hr (hnew id rfl) offer key
  | setLayer id layer =>
    simp only [Relay.perform, Relay.setLayer]
    split
    · exact hr
    · exact Within.updateStream (r := r.updateViewer id fun v => v.selectLayer layer)
        (hr.of_same rfl) _ fun s hs => hs.of_request
  | disconnect key =>
    simp only [Relay.perform, Relay.disconnect]
    split
    · exact h.within_teardown hr _
    · exact hr
  | shutdown => exact h.within_shutdown hr
  | observeTrack sid kind codec => exact hr.updateStream sid fun s hs => hs
  | openFeed sid rid ssrc mimeType canSend =>
    refine Within.of_same (r := (r.startKeyframeLoop sid ssrc canSend).2) ?_ rfl
    refine Within.of_same (r := r.updateStream sid fun s => { s with
      keyframes := s.keyframes.join { id := r.nextLoop, ssrc, canSend } }) ?_ rfl
    exact hr.updateStream sid fun s hs => hs
  | feedPacket loop p =>
    simp only [Relay.perform, Relay.feedPacket]
    split
    · exact hr
    · rename_i f hf
      refine Within.of_same (r := r.updateStream f.stream fun s => s.noteRead f p r.clock) ?_ rfl
      refine hr.updateStream f.stream fun s hs => ?_
      rw [Stream.keyframes_noteRead]
      exact hs
  | closeFeed loop =>
    simp only [Relay.perform, Relay.closeFeed]
    split
    · exact hr
    · rename_i f hf
      refine Within.of_same (r := r.stopKeyframeLoop f.stream loop) ?_ rfl
      exact hr.updateStream f.stream fun s hs => hs
  | serveKeyframes =>
    exact hr.of_map (f := fun s => { s with keyframes := s.keyframes.serve.2 })
      (fun s hs => hs.serveUpTo s.keyframes.pending) fun j => .inr (stream?_serveKeyframes r j)
  | validate key | listLayers id | setKeys keys | clearLastMatched key | scriptSink id answer
  | tick elapsed => exact hr.of_same rfl

end Relay

end Simulcast
