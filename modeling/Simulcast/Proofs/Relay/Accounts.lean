import Simulcast.Proofs.Relay.ShareSteps
/-!
# The account of a key

Of a history, some operations concern a key: what is asked for it, what is done to viewers
that were made for it and to the streams and feeds that belong to it, and what is done to
everything at once.  `Relay.account` is what is left of a history for the key.  Stream objects
and feeds are named by the relay, in the order in which they come, whatever key they come for;
the account counts the ones of the key instead.

An operation that does not concern the key does nothing to its share
(`Relay.Footing.share_of_unconcerned`).
-/

namespace Simulcast

/-- The error without the name of the viewer that it is about. -/
def RelayError.unnamed : RelayError → RelayError
  | sessionNotFound _ => sessionNotFound ""
  | e => e

namespace Relay

variable {ids : List ViewerId} {r q : Relay} {k : String}

/-! ### Concerns -/

/-- An operation as it concerns one key.  Streams and feeds are counted, in the order in
which they came. -/
inductive Concern where
  | ingest (offer : String) (remote : Option SocketAddress)
  | createSession (offer : String) (id : ViewerId)
  | setLayer (id : ViewerId) (layer : String)
  | listLayers (id : ViewerId)
  | disconnect
  | shutdown
  | setKeys (keys : List String)
  | observeTrack (stream : Nat) (kind : MediaKind) (codec : Codec)
  | openFeed (stream : Nat) (rid : String) (ssrc : UInt32) (mimeType : String)
      (canSend : Nat → Bool)
  | feedPacket (feed : Nat) (p : Packet)
  | closeFeed (feed : Nat)
  | serveKeyframes
  | scriptSink (id : ViewerId) (answer : Nat → Option TransportFault)

/-- The same with other names for the viewers. -/
def Concern.rename (ρ : ViewerId ≃ ViewerId) : Concern → Concern
  | createSession offer id => createSession offer (ρ id)
  | setLayer id layer => setLayer (ρ id) layer
  | listLayers id => listLayers (ρ id)
  | scriptSink id answer => scriptSink (ρ id) answer
  | c => c

/-- All stream objects that were made for a key. -/
def streamsOf (r : Relay) (k : String) : List StreamId :=
  (List.range r.registry.streams.length).filter fun sid => (r.ownStream k sid).isSome

/-- The feeds that read streams of a key. -/
def feedsOf (r : Relay) (k : String) : List LoopId :=
  (List.range r.nextLoop).filter fun loop => (r.ownFeed k loop).isSome

/-- What an operation is to a key, if it concerns it. -/
def concern? (r : Relay) (k : String) : Operation → Option Concern
  | .ingest offer key remote => if key = k then some (.ingest offer remote) else none
  | .createSession offer key id => if key = k then some (.createSession offer id) else none
  | .setLayer id layer => if (r.ownViewer k id).isSome then some (.setLayer id layer) else none
  | .listLayers id => if (r.ownViewer k id).isSome then some (.listLayers id) else none
  | .disconnect key => if key = k then some .disconnect else none
  | .shutdown => some .shutdown
  | .setKeys keys => some (.setKeys keys)
  | .observeTrack sid kind codec => ((r.streamsOf k).idxOf? sid).map (.observeTrack · kind codec)
  | .openFeed sid rid ssrc mimeType canSend =>
    ((r.streamsOf k).idxOf? sid).map (.openFeed · rid ssrc mimeType canSend)
  | .feedPacket loop p => ((r.feedsOf k).idxOf? loop).map (.feedPacket · p)
  | .closeFeed loop => ((r.feedsOf k).idxOf? loop).map .closeFeed
  | .serveKeyframes => some .serveKeyframes
  | .scriptSink id answer =>
    if (r.ownViewer k id).isSome then some (.scriptSink id answer) else none
  | .validate _ | .clearLastMatched _ | .tick _ => none

/-- What is left of a history for one key. -/
def account (k : String) : Relay → List Operation → List Concern
  | _, [] => []
  | r, op :: ops => (r.concern? k op).toList ++ account k (r.perform op) ops

/-! ### What is heard -/

/-- What the caller of an operation is told.  An error that names the viewer names no one. -/
inductive Outcome where
  | answer (result : Except RelayError String)
  | done (result : Except RelayError Unit)
  | layers (result : Except RelayError (List String))
  /-- The details of the broadcaster that the outside is told of, if a track changed them. -/
  | info (changed : Option BroadcasterInfo)
  | running (found : Bool)

def outcome? (r : Relay) : Operation → Option Outcome
  | .ingest offer key remote => some (.answer (r.ingest offer key remote).1)
  | .createSession offer key id => some (.answer (r.createSession offer key id).1)
  | .setLayer id layer => some (.done ((r.setLayer id layer).1.mapError RelayError.unnamed))
  | .listLayers id => some (.layers ((r.listLayers id).mapError RelayError.unnamed))
  | .observeTrack sid kind codec =>
    some (.info ((r.registry.stream? sid).bind fun s => (s.observeTrack kind codec).1))
  | .feedPacket loop p => some (.running (r.feedPacket loop p).1)
  | .closeFeed loop => some (.running (r.closeFeed loop).1)
  | _ => none

/-- A reply to somebody, or a notice to the outside. -/
inductive Heard where
  | outcome (x : Outcome)
  | notice (n : Notice)

/-- What is heard of a key when an operation is performed: the reply, if it concerns the key,
and the new notices about the key. -/
def heard (r : Relay) (k : String) (op : Operation) : List Heard :=
  ((r.concern? k op).bind fun _ => r.outcome? op).toList.map .outcome
    ++ (((r.perform op).share k).notices.drop (r.share k).notices.length).map .notice

def allHeard (k : String) : Relay → List Operation → List Heard
  | _, [] => []
  | r, op :: ops => r.heard k op ++ allHeard k (r.perform op) ops

/-! ### Histories that can be -/

/-- A track belongs to a stream object that there is. -/
def Possible (r : Relay) : Operation → Prop
  | .openFeed sid _ _ _ _ => ∃ s, r.registry.stream? sid = some s
  | _ => True

def AllPossible : Relay → List Operation → Prop
  | _, [] => True
  | r, op :: ops => r.Possible op ∧ AllPossible (r.perform op) ops

/-- A relay between two operations. -/
structure Footing (ids : List ViewerId) (r : Relay) : Prop where
  settled : Settled ids r.registry r.viewers
  anchored : r.Anchored

/-- A relay that has the same feeds and at least as many names and stream objects. -/
structure Grows (r q : Relay) : Prop where
  feeds : q.feeds = r.feeds
  nextLoop : r.nextLoop ≤ q.nextLoop
  stream? : ∀ sid s, r.registry.stream? sid = some s → ∃ t, q.registry.stream? sid = some t

theorem Grows.refl (r : Relay) : r.Grows r := ⟨rfl, Nat.le_refl _, fun _ s hs => ⟨s, hs⟩⟩

theorem Grows.trans {p : Relay} (h : r.Grows q) (g : q.Grows p) : r.Grows p := by
  refine ⟨g.feeds.trans h.feeds, Nat.le_trans h.nextLoop g.nextLoop, fun sid s hs => ?_⟩
  obtain ⟨t, ht⟩ := h.stream? sid s hs
  exact g.stream? sid t ht

theorem Anchored.grows (h : r.Anchored) (g : r.Grows q) : q.Anchored := by
  intro loop f hf
  rw [g.feeds] at hf
  obtain ⟨hlt, s, hs⟩ := h loop f hf
  exact ⟨Nat.lt_of_lt_of_le hlt g.nextLoop, g.stream? _ s hs⟩

theorem Anchored.insertFeed (h : r.Anchored) {loop : LoopId} {f : Feed} (hlt : loop < r.nextLoop)
    (hs : ∃ s, r.registry.stream? f.stream = some s) :
    ({ r with feeds := r.feeds.insert loop f } : Relay).Anchored := by
  intro j g hg
  have hg' : (r.feeds.insert loop f).find? j = some g := hg
  rw [Table.find?_insert] at hg'
  split at hg'
  · rename_i hj
    obtain rfl := Option.some.inj hg'
    exact ⟨hj ▸ hlt, hs⟩
  · exact h j g hg'

theorem Anchored.eraseFeed (h : r.Anchored) (loop : LoopId) :
    ({ r with feeds := r.feeds.erase loop } : Relay).Anchored := by
  intro j g hg
  have hg' : (r.feeds.erase loop).find? j = some g := hg
  rw [Table.find?_erase] at hg'
  split at hg'
  · exact absurd hg' (by simp)
  · exact h j g hg'

theorem grows_updateStream (r : Relay) (sid : StreamId) (f : Stream → Stream) :
    r.Grows (r.updateStream sid f) := by
  refine ⟨rfl, Nat.le_refl _, fun j s hs => ?_⟩
  rw [registry_updateStream, Registry.stream?_update]
  split
  · rename_i hj
    rw [← hj, hs]
    exact ⟨f s, rfl⟩
  · exact ⟨s, hs⟩

theorem SameFrame.grows (h : r.SameFrame q)
    (hs : ∀ sid s, r.registry.stream? sid = some s → ∃ t, q.registry.stream? sid = some t) :
    r.Grows q := ⟨by rw [h], by rw [h], hs⟩

theorem Settled.grows_teardown (h : Settled ids r.registry r.viewers) (sid : StreamId) :
    r.Grows (r.teardown sid) := by
  cases hs : r.registry.stream? sid with
  | none =>
    rw [teardown_of_none hs]
    exact .refl r
  | some s =>
    cases hp : s.hasPublisher with
    | false =>
      rw [teardown_of_free hs hp]
      exact .refl r
    | true =>
      obtain ⟨q, hq, e⟩ := h.ended (h.find?_of_held hs hp) hs
      have hgrows : r.Grows q := by
        refine e.frame.grows fun j t ht => ?_
        rw [e.stream?, ht]
        split
        · exact ⟨_, rfl⟩
        · exact ⟨t, rfl⟩
      rw [hq]
      exact ⟨hgrows.feeds, hgrows.nextLoop, hgrows.stream?⟩

theorem Settled.grows_shutdown (h : Settled ids r.registry r.viewers) : r.Grows r.shutdown := by
  have hfold : ∀ (sids : List StreamId) (r : Relay), Settled ids r.registry r.viewers →
      r.Grows (sids.foldl Relay.teardown r) := by
    intro sids
    induction sids with
    | nil => exact fun r _ => .refl r
    | cons sid rest ih => exact fun r h => (h.grows_teardown sid).trans (ih _ (h.teardown sid))
  exact hfold _ r h

theorem Added.grows {t : Stream} (a : Added r q t) : r.Grows q := by
  refine a.frame.grows fun sid s hs => ?_
  rw [a.stream?, if_neg (Nat.ne_of_lt (Registry.lt_of_stream? hs))]
  exact ⟨s, hs⟩

theorem Settled.grows_ingest (h : Settled ids r.registry r.viewers) (offer key : String)
    (remote : Option SocketAddress) : r.Grows (r.ingest offer key remote).2 := by
  obtain ⟨-, last, he⟩ | ⟨-, q, t, b, hcapacity, -, ⟨e, -, he⟩ | ⟨answer, c, -, -, he⟩⟩ :=
    h.ingest_outcome offer key remote
  · rw [he]
    exact ⟨rfl, Nat.le_refl _, fun _ s hs => ⟨s, hs⟩⟩
  · rw [he]
    exact (b.added_teardown hcapacity).grows
  · rw [he]
    have hadded := (b.added_markConnected hcapacity remote).grows
    exact ⟨hadded.feeds, hadded.nextLoop, hadded.stream?⟩

theorem Settled.grows_createSession (h : Settled ids r.registry r.viewers) {id : ViewerId}
    (hid : id ∉ ids) (offer key : String) : r.Grows (r.createSession offer key id).2 := by
  obtain ⟨e, he⟩ | ⟨q, sid, s, codec, seat, ⟨e, he⟩ | ⟨answer, he⟩⟩ :=
    r.createSession_cases offer key id
  · rw [he]
    exact .refl r
  · rw [he]
    have hdrop := seat.undisturbed (fun id v hv => (h.named id v hv).2) (h.unwatched_of_fresh hid)
      (h.find?_of_fresh hid)
    exact hdrop.frame.grows fun j t ht => ⟨t, hdrop.stream? j t ht⟩
  · rw [he]
    have hframe : r.SameFrame (q.updateViewer id Viewer.activate) := seat.frame.trans rfl
    refine hframe.grows fun j t ht => ?_
    rw [registry_updateViewer, seat.registry, Registry.stream?_put_of_some seat.stream?]
    split
    · exact ⟨_, rfl⟩
    · exact ⟨t, ht⟩

/-- **Every operation leaves the relay on its footing.** -/
theorem Footing.perform (h : Footing ids r) {op : Operation}
    (hnew : ∀ id ∈ newViewer? op, id ∉ ids) (hp : r.Possible op) :
    Footing ((newViewer? op).toList ++ ids) (r.perform op) := by
  refine ⟨h.settled.perform op hnew, ?_⟩
  cases op with
  | ingest offer key remote => exact h.anchored.grows (h.settled.grows_ingest offer key remote)
  | createSession offer key id =>
    exact h.anchored.grows (h.settled.grows_createSession (hnew id rfl) offer key)
  | setLayer id layer =>
    refine h.anchored.grows ?_
    show r.Grows (r.setLayer id layer).2
    unfold setLayer
    split
    · exact .refl r
    · have hgrows := grows_updateStream (r.updateViewer id fun v => v.selectLayer layer)
      exact ⟨rfl, Nat.le_refl _, (hgrows _ _).stream?⟩
  | disconnect key =>
    refine h.anchored.grows ?_
    show r.Grows (r.disconnect key)
    unfold disconnect
    split
    · exact h.settled.grows_teardown _
    · exact .refl r
  | shutdown => exact h.anchored.grows h.settled.grows_shutdown
  | observeTrack sid kind codec => exact h.anchored.grows (grows_updateStream ..)
  | openFeed sid rid ssrc mimeType canSend =>
    obtain ⟨s, hs⟩ := hp
    have hgrows := grows_updateStream r sid fun s => { s with
      keyframes := s.keyframes.join { id := r.nextLoop, ssrc, canSend } }
    have hstarted : (r.startKeyframeLoop sid ssrc canSend).2.Anchored :=
      h.anchored.grows ⟨rfl, Nat.le_succ _, hgrows.stream?⟩
    exact hstarted.insertFeed (Nat.lt_succ_self _) (hgrows.stream? sid s hs)
  | feedPacket loop p =>
    show (r.feedPacket loop p).2.Anchored
    cases hf : r.feeds.find? loop with
    | none =>
      rw [feedPacket, hf]
      exact h.anchored
    | some f =>
      obtain ⟨hlt, s, hs⟩ := h.anchored loop f hf
      have hgrows := grows_updateStream r f.stream fun s => s.noteRead f p r.clock
      rw [feedPacket, hf]
      exact (h.anchored.grows hgrows).insertFeed (f := f.read p) hlt (hgrows.stream? _ s hs)
  | closeFeed loop =>
    show (r.closeFeed loop).2.Anchored
    cases hf : r.feeds.find? loop with
    | none =>
      rw [closeFeed, hf]
      exact h.anchored
    | some f =>
      rw [closeFeed, hf]
      exact (h.anchored.grows (grows_updateStream ..)).eraseFeed loop
  | serveKeyframes =>
    refine h.anchored.grows ⟨rfl, Nat.le_refl _, fun sid s hs => ?_⟩
    exact ⟨_, (r.stream?_serveKeyframes sid).trans (by rw [hs]; rfl)⟩
  | listLayers id => exact h.anchored
  | validate key => exact h.anchored
  | setKeys keys => exact h.anchored
  | clearLastMatched key => exact h.anchored
  | scriptSink id answer => exact h.anchored
  | tick elapsed => exact h.anchored

/-! ### What does not concern a key -/

theorem mem_streamsOf (r : Relay) (k : String) (sid : StreamId) :
    sid ∈ r.streamsOf k ↔ ∃ s, r.ownStream k sid = some s := by
  rw [streamsOf, List.mem_filter, List.mem_range, Option.isSome_iff_exists]
  constructor
  · exact fun h => h.2
  · rintro ⟨s, hs⟩
    exact ⟨Registry.lt_of_stream? (ownStream_eq_some.mp hs).1, s, hs⟩

theorem Anchored.mem_feedsOf (h : r.Anchored) (k : String) (loop : LoopId) :
    loop ∈ r.feedsOf k ↔ ∃ f, r.ownFeed k loop = some f := by
  rw [feedsOf, List.mem_filter, List.mem_range, Option.isSome_iff_exists]
  constructor
  · exact fun h => h.2
  · rintro ⟨f, hf⟩
    exact ⟨(h loop f (ownFeed_eq_some.mp hf).1).1, f, hf⟩

theorem ownStream_of_not_mem {sid : StreamId} (h : (r.streamsOf k).idxOf? sid = none) :
    r.ownStream k sid = none := by
  rw [List.idxOf?_eq_none_iff, mem_streamsOf] at h
  exact Option.eq_none_iff_forall_ne_some.mpr fun s hs => h ⟨s, hs⟩

theorem Anchored.ownFeed_of_not_mem (ha : r.Anchored) {loop : LoopId}
    (h : (r.feedsOf k).idxOf? loop = none) : r.ownFeed k loop = none := by
  rw [List.idxOf?_eq_none_iff, ha.mem_feedsOf] at h
  exact Option.eq_none_iff_forall_ne_some.mpr fun f hf => h ⟨f, hf⟩

/-- A feed of another key reads a stream of another key. -/
theorem ownStream_of_ownFeed_eq_none {loop : LoopId} {f : Feed}
    (hf : r.feeds.find? loop = some f) (h : r.ownFeed k loop = none) :
    r.ownStream k f.stream = none :=
  Option.eq_none_iff_forall_ne_some.mpr fun s hs =>
    absurd (h.symm.trans (ownFeed_eq_some.mpr ⟨hf, s, hs⟩)) (by simp)

/-- A viewer that is found watches the stream of its key. -/
theorem Settled.findViewer?_spec (h : Settled ids r.registry r.viewers) {id : ViewerId}
    {sid : StreamId} (hf : r.registry.findViewer? id = some sid) :
    ∃ s v, r.registry.stream? sid = some s ∧ id ∈ s.viewers ∧ r.registry.find? s.key = some sid ∧
      r.viewers.find? id = some v ∧ v.streamKey = s.key := by
  have hmem := List.mem_of_find?_eq_some hf
  have hyes := List.find?_some hf
  obtain ⟨⟨key, j⟩, hentry, rfl⟩ := List.mem_map.mp hmem
  have hkey : r.registry.find? key = some j := (Table.mem_entries_iff ..).mp hentry
  obtain ⟨s, hs, rfl⟩ := h.indexed key j hkey
  rw [hs] at hyes
  have hid : id ∈ s.viewers := by simpa using hyes
  obtain ⟨v, hv, -, hvk, -⟩ := h.attached j s id hs hid
  exact ⟨s, v, hs, hid, hkey, hv, hvk⟩

/-- **An operation that does not concern a key does nothing to its share.** -/
theorem Footing.share_of_unconcerned (h : Footing ids r) {op : Operation}
    (hnew : ∀ id ∈ newViewer? op, id ∉ ids) (hc : r.concern? k op = none) :
    (r.perform op).share k = r.share k := by
  cases op with
  | ingest offer key remote =>
    have hne : key ≠ k := by simpa [concern?] using hc
    exact h.settled.share_ingest_of_ne h.anchored offer remote hne
  | createSession offer key id =>
    have hne : key ≠ k := by simpa [concern?] using hc
    exact h.settled.share_createSession_of_ne (hnew id rfl) offer hne
  | setLayer id layer =>
    have hv : r.ownViewer k id = none := by simpa [concern?] using hc
    cases hf : r.registry.findViewer? id with
    | none => exact congrArg (fun p => p.2.share k) (setLayer_of_none hf layer)
    | some sid =>
      obtain ⟨s, v, hs, -, -, hv', hk⟩ := h.settled.findViewer?_spec hf
      have hne : s.key ≠ k := by
        intro he
        exact absurd (hv.symm.trans (ownViewer_eq_some.mpr ⟨hv', hk.trans he⟩)) (by simp)
      refine (share_setLayer_of_some hf layer k).trans ?_
      have hviewers : ∀ j ∈ [id], (r.share k).viewers j = none := by
        intro j hj
        rw [List.mem_singleton.mp hj]
        exact hv
      rw [Share.alter_of_none hviewers]
      exact Share.change_of_none (ownStream_of_ne hs hne) _
  | listLayers id => rfl
  | disconnect key =>
    have hne : key ≠ k := by simpa [concern?] using hc
    exact (h.settled.share_disconnect key k).trans (if_neg hne)
  | shutdown => exact absurd hc (by simp [concern?])
  | validate key =>
    obtain ⟨last, hval⟩ := r.validate_eq key
    exact congrArg (fun p => p.2.share k) hval
  | setKeys keys => exact absurd hc (by simp [concern?])
  | clearLastMatched key =>
    refine (sameFrame_clearLastMatched r key).share_ext rfl rfl rfl (fun _ => rfl) rfl fun _ => rfl
  | observeTrack sid kind codec =>
    have hs : r.ownStream k sid = none := ownStream_of_not_mem (by simpa [concern?] using hc)
    exact (r.share_observeTrack sid kind codec k).trans (Share.change_of_none hs _)
  | openFeed sid rid ssrc mimeType canSend =>
    have hs : r.ownStream k sid = none := ownStream_of_not_mem (by simpa [concern?] using hc)
    have hnone : r.ownFeed k r.nextLoop = none := by
      refine Option.eq_none_iff_forall_ne_some.mpr fun f hf => ?_
      exact Nat.lt_irrefl _ (h.anchored _ f (ownFeed_eq_some.mp hf).1).1
    refine (share_openFeed r sid rid ssrc mimeType canSend k).trans ?_
    rw [Share.change_of_none hs]
    refine Share.setFeed_self (hnone.trans ?_)
    show none = if (r.ownStream k sid).isSome then _ else none
    rw [hs]
    rfl
  | feedPacket loop p =>
    show (r.feedPacket loop p).2.share k = r.share k
    cases hf : r.feeds.find? loop with
    | none => rw [feedPacket, hf]
    | some f =>
      have hfeed : r.ownFeed k loop = none :=
        h.anchored.ownFeed_of_not_mem (by simpa [concern?] using hc)
      have hs := ownStream_of_ownFeed_eq_none hf hfeed
      have hviewers : ∀ j ∈ r.registry.table f.stream, (r.share k).viewers j = none := by
        intro j hj
        obtain ⟨-, s, hs'⟩ := h.anchored loop f hf
        rw [Registry.table_of_some hs'] at hj
        obtain ⟨v, hv, -, hk, -⟩ := h.settled.attached _ s j hs' hj
        refine ownViewer_of_ne hv fun he => ?_
        exact absurd (hs.symm.trans (ownStream_eq_some.mpr ⟨hs', hk.symm.trans he⟩)) (by simp)
      rw [h.settled.share_feedPacket hf, Share.change_of_none hs, Share.alter_of_none hviewers]
      refine Share.setFeed_self (hfeed.trans ?_)
      show none = if (r.ownStream k f.stream).isSome then _ else none
      rw [hs]
      rfl
  | closeFeed loop =>
    show (r.closeFeed loop).2.share k = r.share k
    cases hf : r.feeds.find? loop with
    | none => rw [closeFeed, hf]
    | some f =>
      have hfeed : r.ownFeed k loop = none :=
        h.anchored.ownFeed_of_not_mem (by simpa [concern?] using hc)
      rw [share_closeFeed hf, Share.change_of_none (ownStream_of_ownFeed_eq_none hf hfeed)]
      exact Share.setFeed_self hfeed
  | serveKeyframes => exact absurd hc (by simp [concern?])
  | scriptSink id answer =>
    have hv : r.ownViewer k id = none := by simpa [concern?] using hc
    have hviewers : ∀ j ∈ [id], (r.share k).viewers j = none := by
      intro j hj
      rw [List.mem_singleton.mp hj]
      exact hv
    exact (r.share_scriptSink id answer k).trans (Share.alter_of_none hviewers _)
  | tick elapsed => rfl

end Relay

end Simulcast
