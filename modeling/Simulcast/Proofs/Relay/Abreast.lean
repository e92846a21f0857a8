import Simulcast.Proofs.Relay.Resemblance
/-!
# Two relays abreast

Two relays are abreast as to a key if its shares in them are alike (`Relay.Abreast`).  When
the same is done to the key on both sides, each caller is told the same and the relays are
abreast again (`Relay.Abreast.agree_of_concerned`).  The proof goes through the concerns one
by one; `Relay.Stands` reads off a concern which operation it stands for.
-/

namespace Simulcast

theorem Stream.alikeUnder_launched (ρ : ViewerId ≃ ViewerId) (feeds : List (LoopId × LoopId))
    (key : String) (queueCapacity : Nat) (now now' : Millis) (c c' : ConnectionId)
    (remote : Option SocketAddress) :
    (Relay.launched key queueCapacity now c remote).AlikeUnder ρ feeds
      (Relay.launched key queueCapacity now' c' remote) :=
  ⟨rfl, rfl, fun _ => rfl, rfl, rfl, rfl, rfl, rfl, .nil⟩

namespace Stream

theorem keyframes_attach (s : Stream) (id : ViewerId) :
    (s.attach id).2.keyframes = s.keyframes := by
  unfold Stream.attach
  split <;> rfl

theorem waiting_requestKeyframe (s : Stream) :
    s.requestKeyframe.2.keyframes.waiting = s.keyframes.waiting := by
  show s.keyframes.request.2.waiting = _
  unfold KeyframeQueue.request
  split <;> rfl

end Stream

theorem Feed.offer_of_eq {f g : Feed} (h : g = { f with stream := g.stream }) (p : Packet) :
    g.offer p = f.offer p := by
  have hdelta : g.delta p.timestamp = f.delta p.timestamp := by
    rw [h]
    rfl
  rw [offer, offer, hdelta, h]

namespace Relay

variable {ids ids' : List ViewerId} {r q : Relay} {k : String} {ρ : ViewerId ≃ ViewerId}
  {ties : Ties}

/-! ### What a concern stands for -/

/-- An operation that is a certain concern of a key. -/
def Stands (r : Relay) (k : String) (op : Operation) : Concern → Prop
  | .ingest offer remote => op = .ingest offer k remote
  | .createSession offer id => op = .createSession offer k id
  | .setLayer id layer => op = .setLayer id layer ∧ (r.ownViewer k id).isSome
  | .listLayers id => op = .listLayers id ∧ (r.ownViewer k id).isSome
  | .disconnect => op = .disconnect k
  | .shutdown => op = .shutdown
  | .setKeys keys => op = .setKeys keys
  | .observeTrack i kind codec => ∃ sid, (r.streamsOf k)[i]? = some sid ∧
    op = .observeTrack sid kind codec
  | .openFeed i rid ssrc mimeType canSend => ∃ sid, (r.streamsOf k)[i]? = some sid ∧
    op = .openFeed sid rid ssrc mimeType canSend
  | .feedPacket i p => ∃ loop, (r.feedsOf k)[i]? = some loop ∧ op = .feedPacket loop p
  | .closeFeed i => ∃ loop, (r.feedsOf k)[i]? = some loop ∧ op = .closeFeed loop
  | .serveKeyframes => op = .serveKeyframes
  | .scriptSink id answer => op = .scriptSink id answer

/-- What stands at its own number. -/
theorem getElem?_of_idxOf? {l : List Nat} {a i : Nat} (h : l.idxOf? a = some i) :
    l[i]? = some a := by
  obtain ⟨hlt, ha, -⟩ := List.idxOf?_eq_some_iff.mp h
  rw [List.getElem?_eq_getElem hlt, ha]

theorem stands_of_concern? {op : Operation} {c : Concern} (h : r.concern? k op = some c) :
    r.Stands k op c := by
  have hnumber : ∀ {l : List Nat} {a : Nat} {f : Nat → Concern},
      (l.idxOf? a).map f = some c → ∃ i, l[i]? = some a ∧ f i = c := by
    intro l a f h
    obtain ⟨i, hi, hc⟩ := Option.map_eq_some_iff.mp h
    exact ⟨i, getElem?_of_idxOf? hi, hc⟩
  cases op with
  | ingest offer key remote =>
    obtain ⟨rfl, hc⟩ := Option.ite_none_right_eq_some.mp h
    obtain rfl := Option.some.inj hc
    rfl
  | createSession offer key id =>
    obtain ⟨rfl, hc⟩ := Option.ite_none_right_eq_some.mp h
    obtain rfl := Option.some.inj hc
    rfl
  | setLayer id layer =>
    obtain ⟨hv, hc⟩ := Option.ite_none_right_eq_some.mp h
    obtain rfl := Option.some.inj hc
    exact ⟨rfl, hv⟩
  | listLayers id =>
    obtain ⟨hv, hc⟩ := Option.ite_none_right_eq_some.mp h
    obtain rfl := Option.some.inj hc
    exact ⟨rfl, hv⟩
  | disconnect key =>
    obtain ⟨rfl, hc⟩ := Option.ite_none_right_eq_some.mp h
    obtain rfl := Option.some.inj hc
    rfl
  | shutdown =>
    obtain rfl := Option.some.inj h
    rfl
  | setKeys keys =>
    obtain rfl := Option.some.inj h
    rfl
  | observeTrack sid kind codec =>
    obtain ⟨i, hi, rfl⟩ := hnumber h
    exact ⟨sid, hi, rfl⟩
  | openFeed sid rid ssrc mimeType canSend =>
    obtain ⟨i, hi, rfl⟩ := hnumber h
    exact ⟨sid, hi, rfl⟩
  | feedPacket loop p =>
    obtain ⟨i, hi, rfl⟩ := hnumber h
    exact ⟨loop, hi, rfl⟩
  | closeFeed loop =>
    obtain ⟨i, hi, rfl⟩ := hnumber h
    exact ⟨loop, hi, rfl⟩
  | serveKeyframes =>
    obtain rfl := Option.some.inj h
    rfl
  | scriptSink id answer =>
    obtain ⟨-, hc⟩ := Option.ite_none_right_eq_some.mp h
    obtain rfl := Option.some.inj hc
    rfl
  | validate key => exact absurd h nofun
  | clearLastMatched key => exact absurd h nofun
  | tick elapsed => exact absurd h nofun

/-! ### Where the shares are alike -/

/-- Two relays between operations whose shares of a key are alike. -/
structure Abreast (ρ : ViewerId ≃ ViewerId) (ties : Ties) (k : String) (ids ids' : List ViewerId)
    (r q : Relay) : Prop where
  left : Footing ids r
  right : Footing ids' q
  alike : (r.share k).AlikeUnder ρ ties (q.share k)

/-- After an operation on either side the shares are alike, and the callers were told the
same. -/
def Agree (ρ : ViewerId ≃ ViewerId) (k : String) (r q : Relay) (op op' : Operation) : Prop :=
  (∃ ties, ((r.perform op).share k).AlikeUnder ρ ties ((q.perform op').share k)) ∧
    q.outcome? op' = r.outcome? op

theorem lists_streamsOf (r : Relay) (k : String) : Lists (r.streamsOf k) (r.share k).streams :=
  ⟨List.pairwise_lt_range.filter _, r.mem_streamsOf k⟩

theorem Anchored.lists_feedsOf (h : r.Anchored) (k : String) :
    Lists (r.feedsOf k) (r.share k).feeds :=
  ⟨List.pairwise_lt_range.filter _, h.mem_feedsOf k⟩

/-- New streams come under names that the share does not know. -/
theorem lt_of_share_streams {j : StreamId} {s : Stream} (h : (r.share k).streams j = some s) :
    j < r.registry.streams.length := Registry.lt_of_stream? (ownStream_eq_some.mp h).1

theorem Anchored.lt_of_share_feeds (ha : r.Anchored) {j : LoopId} {f : Feed}
    (h : (r.share k).feeds j = some f) : j < r.nextLoop := (ha j f (ownFeed_eq_some.mp h).1).1

theorem audience_share {sid : StreamId} {s : Stream} (h : r.ownStream k sid = some s) :
    (r.share k).audience sid = s.viewers := by
  show ((r.ownStream k sid).map Stream.viewers).getD [] = _
  rw [h]
  rfl

theorem table_eq_audience {sid : StreamId} {s : Stream} (h : r.ownStream k sid = some s) :
    r.registry.table sid = (r.share k).audience sid := by
  rw [audience_share h, Registry.table_of_some (ownStream_eq_some.mp h).1]

/-- A viewer of a key can be found exactly while the stream on air under the key has it. -/
theorem Settled.findViewer?_iff_of_own (h : Settled ids r.registry r.viewers) {id : ViewerId}
    (hv : (r.ownViewer k id).isSome) (sid : StreamId) :
    r.registry.findViewer? id = some sid
      ↔ r.registry.find? k = some sid ∧ id ∈ (r.share k).audience sid := by
  obtain ⟨v, hv⟩ := Option.isSome_iff_exists.mp hv
  obtain ⟨hfound, rfl⟩ := ownViewer_eq_some.mp hv
  constructor
  · intro hf
    obtain ⟨s, v', hs, hid, hair, hv', hk⟩ := h.findViewer?_spec hf
    obtain rfl := Option.some.inj (hfound.symm.trans hv')
    rw [hk]
    exact ⟨hair, by rwa [audience_share (ownStream_eq_some.mpr ⟨hs, rfl⟩)]⟩
  · rintro ⟨hair, hid⟩
    obtain ⟨s, hs, hk⟩ := h.indexed _ sid hair
    rw [audience_share (ownStream_eq_some.mpr ⟨hs, hk⟩)] at hid
    exact Registry.findViewer?_of_unique hair hs hid fun j t ht hjd =>
      (h.eq_of_mem hs ht hid hjd).symm

namespace Abreast

/-- Streams with one number are tied. -/
theorem tied_streams (h : Abreast ρ ties k ids ids' r q) {i : Nat} {a b : StreamId}
    (ha : (r.streamsOf k)[i]? = some a) (hb : (q.streamsOf k)[i]? = some b) :
    (a, b) ∈ ties.streams := by
  rw [(r.lists_streamsOf k).eq h.alike.streamNames.1] at ha
  rw [(q.lists_streamsOf k).eq h.alike.streamNames.2] at hb
  exact mem_ties_of_getElem? ha hb

theorem tied_feeds (h : Abreast ρ ties k ids ids' r q) {i : Nat} {a b : LoopId}
    (ha : (r.feedsOf k)[i]? = some a) (hb : (q.feedsOf k)[i]? = some b) : (a, b) ∈ ties.feeds := by
  rw [(h.left.anchored.lists_feedsOf k).eq h.alike.feedNames.1] at ha
  rw [(h.right.anchored.lists_feedsOf k).eq h.alike.feedNames.2] at hb
  exact mem_ties_of_getElem? ha hb

theorem settings (h : Abreast ρ ties k ids ids' r q) : q.settings = r.settings := h.alike.settings

theorem accepts (h : Abreast ρ ties k ids ids' r q) (key : String) :
    q.validator.accepts key = r.validator.accepts key := by
  have hsame := congrArg (fun v : KeyValidator => v.accepts key) h.alike.validator
  exact hsame

theorem connectionFault? (h : Abreast ρ ties k ids ids' r q) :
    q.connectionFault? = r.connectionFault? := by
  rw [Relay.connectionFault?, h.settings, Relay.connectionFault?]

theorem answerOffer (h : Abreast ρ ties k ids ids' r q) (side : Side) (c c' : ConnectionId)
    (offer : String) : q.answerOffer ⟨side, c', offer⟩ = r.answerOffer ⟨side, c, offer⟩ := by
  have hnegotiate : q.negotiate ⟨side, c', offer⟩ = r.negotiate ⟨side, c, offer⟩ :=
    h.alike.negotiate side c c' offer
  rw [Relay.answerOffer, hnegotiate, h.settings, Relay.answerOffer]

theorem verdict (h : Abreast ρ ties k ids ids' r q) (offer : String) :
    q.verdict offer = r.verdict offer := by
  rw [Relay.verdict, h.connectionFault?, h.answerOffer .broadcaster r.connections.opened,
    Relay.verdict]

theorem negotiateSession (h : Abreast ρ ties k ids ids' r q) (c c' : ConnectionId)
    (offer : String) (codec : Codec) :
    q.negotiateSession c' offer codec = r.negotiateSession c offer codec := by
  rw [Relay.negotiateSession, h.answerOffer .viewer c, Relay.negotiateSession]

theorem mayBid (h : Abreast ρ ties k ids ids' r q) : q.mayBid k = r.mayBid k := by
  have hair : (q.registry.find? k).isNone = (r.registry.find? k).isNone := by
    obtain ⟨hr, hq⟩ | ⟨p, -, hr, hq⟩ := h.alike.onAir
    · exact congrArg Option.isNone (hq.trans hr.symm)
    · rw [show q.registry.find? k = _ from hq, show r.registry.find? k = _ from hr]
      rfl
  rw [Relay.mayBid, h.accepts, hair, Relay.mayBid]

theorem bidFault (h : Abreast ρ ties k ids ids' r q) : q.bidFault k = r.bidFault k := by
  rw [Relay.bidFault, h.accepts, Relay.bidFault]

/-! ### Broadcasters -/

theorem ingest (h : Abreast ρ ties k ids ids' r q) (offer : String)
    (remote : Option SocketAddress) :
    Agree ρ k r q (.ingest offer k remote) (.ingest offer k remote) := by
  suffices hagree : (∃ ties, ((r.ingest offer k remote).2.share k).AlikeUnder ρ ties
        ((q.ingest offer k remote).2.share k)) ∧
      (q.ingest offer k remote).1 = (r.ingest offer k remote).1 by
    exact ⟨hagree.1, congrArg (fun x => some (Outcome.answer x)) hagree.2⟩
  have hcapacity : q.registry.queueCapacity = r.registry.queueCapacity := h.alike.queueCapacity
  have hnew : ∀ {r : Relay} (j : StreamId) (s : Stream), (r.share k).streams j = some s →
      j < r.registry.streams.length := fun _ _ => lt_of_share_streams
  constructor
  · obtain ⟨c, hshare⟩ := h.left.settled.share_ingest h.left.anchored offer k remote
    obtain ⟨c', hshare'⟩ := h.right.settled.share_ingest h.right.anchored offer k remote
    rw [hshare, hshare', h.mayBid, h.verdict, hcapacity]
    split
    · cases r.verdict offer with
      | ok answer =>
        have hadded := h.alike.addStream hnew hnew (Stream.alikeUnder_launched ρ ties.feeds k
          r.registry.queueCapacity r.clock q.clock c c' remote) rfl
        exact ⟨_, hadded.announce_some (List.mem_append_right _ List.mem_cons_self) _⟩
      | error e => exact ⟨_, h.alike.addStream hnew hnew (Stream.alikeUnder_create ..) rfl⟩
    · exact ⟨ties, h.alike⟩
  · rw [h.left.settled.fst_ingest, h.right.settled.fst_ingest, h.mayBid, h.verdict, h.bidFault]

theorem disconnect (h : Abreast ρ ties k ids ids' r q) :
    Agree ρ k r q (.disconnect k) (.disconnect k) := by
  refine ⟨⟨ties, ?_⟩, rfl⟩
  show ((r.disconnect k).share k).AlikeUnder ρ ties ((q.disconnect k).share k)
  rw [h.left.settled.share_disconnect, h.right.settled.share_disconnect, if_pos rfl, if_pos rfl]
  exact h.alike.finish

theorem shutdown (h : Abreast ρ ties k ids ids' r q) : Agree ρ k r q .shutdown .shutdown := by
  refine ⟨⟨ties, ?_⟩, rfl⟩
  show (r.shutdown.share k).AlikeUnder ρ ties (q.shutdown.share k)
  rw [h.left.settled.share_shutdown, h.right.settled.share_shutdown]
  exact h.alike.finish

theorem setKeys (h : Abreast ρ ties k ids ids' r q) (keys : List String) :
    Agree ρ k r q (.setKeys keys) (.setKeys keys) :=
  ⟨⟨ties, { h.alike with
    validator := congrArg (fun v : KeyValidator => v.setKeys keys) h.alike.validator }⟩, rfl⟩

theorem observeTrack (h : Abreast ρ ties k ids ids' r q) {p : StreamId × StreamId}
    (hp : p ∈ ties.streams) (kind : MediaKind) (codec : Codec) :
    Agree ρ k r q (.observeTrack p.1 kind codec) (.observeTrack p.2 kind codec) := by
  obtain ⟨s, t, hs, ht, hst⟩ := h.alike.streams p hp
  refine ⟨⟨ties, ?_⟩, ?_⟩
  · show ((r.updateStream p.1 fun s => (s.observeTrack kind codec).2).share k).AlikeUnder ρ ties
      ((q.updateStream p.2 fun s => (s.observeTrack kind codec).2).share k)
    rw [share_observeTrack, share_observeTrack]
    refine h.alike.change hp (fun s t _ _ hst => (hst.observeTrack kind codec).1) ?_
    exact fun s hs l hl => h.alike.waiting p.1 s hs l hl
  · show some (Outcome.info ((q.registry.stream? p.2).bind _))
      = some (Outcome.info ((r.registry.stream? p.1).bind _))
    rw [(ownStream_eq_some.mp hs).1, (ownStream_eq_some.mp ht).1]
    exact congrArg (fun x => some (Outcome.info x)) (hst.observeTrack kind codec).2

/-! ### Feeds -/

theorem openFeed (h : Abreast ρ ties k ids ids' r q) {p : StreamId × StreamId}
    (hp : p ∈ ties.streams) (rid : String) (ssrc : UInt32) (mimeType : String)
    (canSend : Nat → Bool) :
    Agree ρ k r q (.openFeed p.1 rid ssrc mimeType canSend)
      (.openFeed p.2 rid ssrc mimeType canSend) := by
  obtain ⟨s, t, hs, ht, -⟩ := h.alike.streams p hp
  have hreading : (r.share k).reading (Feed.ofTrack p.1 rid mimeType)
      = some (Feed.ofTrack p.1 rid mimeType) := if_pos (by rw [Feed.ofTrack, hs]; rfl)
  have hreading' : (q.share k).reading (Feed.ofTrack p.2 rid mimeType)
      = some (Feed.ofTrack p.2 rid mimeType) := if_pos (by rw [Feed.ofTrack, ht]; rfl)
  -- the feeds come first: the new keyframe loops are tied under their names
  have hfeed := h.alike.addFeed (f := Feed.ofTrack p.1 rid mimeType)
    (g := Feed.ofTrack p.2 rid mimeType) (fun _ _ => h.left.anchored.lt_of_share_feeds)
    (fun _ _ => h.right.anchored.lt_of_share_feeds) hp rfl
  refine ⟨⟨{ ties with feeds := ties.feeds ++ [(r.nextLoop, q.nextLoop)] }, ?_⟩, rfl⟩
  show ((r.openFeed p.1 rid ssrc mimeType canSend).2.share k).AlikeUnder ρ _
    ((q.openFeed p.2 rid ssrc mimeType canSend).2.share k)
  rw [share_openFeed, share_openFeed, hreading, hreading']
  refine hfeed.change hp (fun s t _ _ hst => { hst with keyframes := hst.keyframes.join ?_ }) ?_
  · exact ⟨List.mem_append_right _ List.mem_cons_self, rfl⟩
  · intro s hs l hl
    rcases List.mem_append.mp hl with hl | hl
    · exact hfeed.waiting p.1 s hs l hl
    · rw [List.mem_singleton.mp hl]
      exact ⟨_, if_pos rfl, rfl⟩

theorem feedPacket (h : Abreast ρ ties k ids ids' r q) {p : LoopId × LoopId} (hp : p ∈ ties.feeds)
    (x : Packet) : Agree ρ k r q (.feedPacket p.1 x) (.feedPacket p.2 x) := by
  obtain ⟨f, g, hf, hg, hstreams, hfg⟩ := h.alike.feeds p hp
  have hloop := (ownFeed_eq_some.mp hf).1
  have hloop' := (ownFeed_eq_some.mp hg).1
  obtain ⟨s, t, hs, ht, hst⟩ := h.alike.streams _ hstreams
  refine ⟨⟨ties, ?_⟩, ?_⟩
  · show ((r.feedPacket p.1 x).2.share k).AlikeUnder ρ ties ((q.feedPacket p.2 x).2.share k)
    have hreading : (r.share k).reading (f.read x) = some (f.read x) :=
      if_pos (by rw [show (f.read x).stream = f.stream from rfl, hs]; rfl)
    have hreading' : (q.share k).reading (g.read x) = some (g.read x) :=
      if_pos (by rw [show (g.read x).stream = g.stream from rfl, ht]; rfl)
    rw [h.left.settled.share_feedPacket hloop, h.right.settled.share_feedPacket hloop', hreading,
      hreading', table_eq_audience hs, table_eq_audience ht, audience_share hs, audience_share ht,
      hst.viewers, Feed.offer_of_eq hfg]
    have hnoted := h.alike.change hstreams (f := fun s => s.noteRead f x r.clock)
      (g := fun t => t.noteRead g x q.clock)
      (fun s t _ _ hst => hst.noteRead hfg x r.clock q.clock) fun s hs l hl => ?_
    have htold := hnoted.alter s.viewers (f := fun v => v.told (.send (f.offer x)))
      (g := fun v => v.told (.send (f.offer x))) fun v v' hv => ?_
    · exact htold.setFeed hp hf hg rfl rfl (by rw [hfg]; rfl)
    · rw [Viewer.face_told, Viewer.face_told, hv]
    · rw [(s.noteRead_leaves f x r.clock).1] at hl
      exact h.alike.waiting f.stream s hs l hl
  · show some (Outcome.running (q.feedPacket p.2 x).1) = some (Outcome.running (r.feedPacket p.1 x).1)
    rw [Relay.feedPacket, Relay.feedPacket, hloop, hloop']

theorem closeFeed (h : Abreast ρ ties k ids ids' r q) {p : LoopId × LoopId} (hp : p ∈ ties.feeds) :
    Agree ρ k r q (.closeFeed p.1) (.closeFeed p.2) := by
  obtain ⟨f, g, hf, hg, hstreams, hfg⟩ := h.alike.feeds p hp
  have hloop := (ownFeed_eq_some.mp hf).1
  have hloop' := (ownFeed_eq_some.mp hg).1
  refine ⟨⟨{ ties with feeds := ties.feeds.filter fun p' => p'.1 ≠ p.1 }, ?_⟩, ?_⟩
  · show ((r.closeFeed p.1).2.share k).AlikeUnder ρ _ ((q.closeFeed p.2).2.share k)
    rw [share_closeFeed hloop, share_closeFeed hloop']
    have hleft := h.alike.change hstreams
      (f := fun s => { s with keyframes := s.keyframes.leave p.1 })
      (g := fun t => { t with keyframes := t.keyframes.leave p.2 })
      (fun s t _ _ hst => { hst with
        keyframes := hst.keyframes.leave fun p' hp' => h.alike.one_one_feeds hp' hp })
      fun s hs l hl => h.alike.waiting f.stream s hs l (List.mem_of_mem_filter hl)
    refine hleft.dropFeed hp fun sid s hs l hl hid => ?_
    -- a loop under that name would wait at the stream that the feed reads, but it left
    obtain ⟨f', hf', hsid⟩ := hleft.waiting sid s hs l hl
    rw [hid] at hf'
    obtain rfl := Option.some.inj (hf.symm.trans hf')
    subst hsid
    have hs' : (if f.stream = f.stream then _ else _) = some s := hs
    rw [if_pos rfl] at hs'
    obtain ⟨s', -, rfl⟩ := Option.map_eq_some_iff.mp hs'
    have hkept := List.of_mem_filter (p := fun l : KeyframeLoop => decide (l.id ≠ p.1)) hl
    exact of_decide_eq_true hkept hid
  · show some (Outcome.running (q.closeFeed p.2).1) = some (Outcome.running (r.closeFeed p.1).1)
    rw [Relay.closeFeed, Relay.closeFeed, hloop, hloop']

theorem serveKeyframes (h : Abreast ρ ties k ids ids' r q) :
    Agree ρ k r q .serveKeyframes .serveKeyframes := by
  refine ⟨⟨ties, ?_⟩, rfl⟩
  show (r.serveKeyframes.2.share k).AlikeUnder ρ ties (q.serveKeyframes.2.share k)
  rw [share_serveKeyframes, share_serveKeyframes]
  exact h.alike.changeAll (fun _ _ hst => hst.serveKeyframes) fun _ _ =>
    KeyframeQueue.mem_waiting_serve

/-! ### Viewers -/

theorem createSession (h : Abreast ρ ties k ids ids' r q) (offer : String) {id : ViewerId}
    (hid : id ∉ ids) (hid' : ρ id ∉ ids') :
    Agree ρ k r q (.createSession offer k id) (.createSession offer k (ρ id)) := by
  suffices hagree : (∃ ties, ((r.createSession offer k id).2.share k).AlikeUnder ρ ties
        ((q.createSession offer k (ρ id)).2.share k)) ∧
      (q.createSession offer k (ρ id)).1 = (r.createSession offer k id).1 by
    exact ⟨hagree.1, congrArg (fun x => some (Outcome.answer x)) hagree.2⟩
  obtain ⟨hair, hair'⟩ | ⟨p, hp, hair, hair'⟩ := h.alike.onAir
  · rw [createSession_of_none hair, createSession_of_none hair']
    exact ⟨⟨ties, h.alike⟩, rfl⟩
  have hfault := h.connectionFault?
  cases he : r.connectionFault? with
  | some e =>
    rw [h.left.settled.createSession_of_fault hair he,
      h.right.settled.createSession_of_fault hair' (hfault.trans he)]
    exact ⟨⟨ties, h.alike⟩, rfl⟩
  | none =>
    obtain ⟨s, t, hs, ht, hst⟩ := h.alike.streams p hp
    have hcodec : t.viewerCodec = s.viewerCodec := by
      rw [Stream.viewerCodec, hst.videoCodec, Stream.viewerCodec]
    obtain ⟨hout, -, c, hshare⟩ := h.left.settled.share_createSession hid hair hs he offer
    obtain ⟨hout', -, c', hshare'⟩ :=
      h.right.settled.share_createSession hid' hair' ht (hfault.trans he) offer
    rw [hcodec, h.negotiateSession r.connections.opened] at hout' hshare'
    refine ⟨⟨ties, ?_⟩, hout'.trans hout.symm⟩
    rw [hshare, hshare']
    cases r.negotiateSession r.connections.opened offer s.viewerCodec with
    | ok answer =>
      have hattached := h.alike.change hp (f := fun s => (s.attach id).2)
        (g := fun t => (t.attach (ρ id)).2) (fun s t _ _ hst => hst.attach id)
        fun s hs l hl => ?_
      · exact hattached.addViewer id rfl
      · rw [Stream.keyframes_attach] at hl
        exact h.alike.waiting p.1 s hs l hl
    | error e => exact h.alike.addViewer id rfl

theorem scriptSink (h : Abreast ρ ties k ids ids' r q) (id : ViewerId)
    (answer : Nat → Option TransportFault) :
    Agree ρ k r q (.scriptSink id answer) (.scriptSink (ρ id) answer) := by
  refine ⟨⟨ties, ?_⟩, rfl⟩
  show ((r.updateViewer id fun v => { v with sink := { v.sink with answer } }).share k).AlikeUnder
    ρ ties ((q.updateViewer (ρ id) fun v => { v with sink := { v.sink with answer } }).share k)
  rw [share_scriptSink, share_scriptSink]
  refine h.alike.alter [id] fun v v' hv => ?_
  exact congrArg (fun v : Viewer => { v with sink := { v.sink with answer } }) hv

/-- A viewer of the key is found on both sides or on neither. -/
theorem findViewer? (h : Abreast ρ ties k ids ids' r q) {id : ViewerId}
    (hv : (r.ownViewer k id).isSome) (hv' : (q.ownViewer k (ρ id)).isSome) :
    r.registry.findViewer? id = none ∧ q.registry.findViewer? (ρ id) = none ∨
      ∃ p ∈ ties.streams, r.registry.findViewer? id = some p.1 ∧
        q.registry.findViewer? (ρ id) = some p.2 := by
  have hfind := h.left.settled.findViewer?_iff_of_own hv
  have hfind' := h.right.settled.findViewer?_iff_of_own hv'
  have hnone : ∀ {o : Option StreamId}, (∀ sid, o ≠ some sid) → o = none :=
    Option.eq_none_iff_forall_ne_some.mpr
  obtain ⟨hair, hair'⟩ | ⟨p, hp, hair, hair'⟩ := h.alike.onAir
  · refine .inl ⟨hnone fun sid hf => ?_, hnone fun sid hf => ?_⟩
    · exact absurd (hair.symm.trans ((hfind sid).mp hf).1) nofun
    · exact absurd (hair'.symm.trans ((hfind' sid).mp hf).1) nofun
  · obtain ⟨s, t, hs, ht, hst⟩ := h.alike.streams p hp
    by_cases hid : id ∈ s.viewers
    · refine .inr ⟨p, hp, (hfind p.1).mpr ⟨hair, ?_⟩, (hfind' p.2).mpr ⟨hair', ?_⟩⟩
      · rwa [audience_share hs]
      · rwa [audience_share ht, hst.mem_viewers]
    · refine .inl ⟨hnone fun sid hf => ?_, hnone fun sid hf => ?_⟩
      · obtain ⟨hf, hmem⟩ := (hfind sid).mp hf
        obtain rfl := Option.some.inj (hair.symm.trans hf)
        rw [audience_share hs] at hmem
        exact hid hmem
      · obtain ⟨hf, hmem⟩ := (hfind' sid).mp hf
        obtain rfl := Option.some.inj (hair'.symm.trans hf)
        rw [audience_share ht, hst.mem_viewers] at hmem
        exact hid hmem

theorem setLayer (h : Abreast ρ ties k ids ids' r q) {id : ViewerId} (layer : String)
    (hv : (r.ownViewer k id).isSome) (hv' : (q.ownViewer k (ρ id)).isSome) :
    Agree ρ k r q (.setLayer id layer) (.setLayer (ρ id) layer) := by
  suffices hagree : (∃ ties, ((r.setLayer id layer).2.share k).AlikeUnder ρ ties
        ((q.setLayer (ρ id) layer).2.share k)) ∧
      (q.setLayer (ρ id) layer).1.mapError RelayError.unnamed
        = (r.setLayer id layer).1.mapError RelayError.unnamed by
    exact ⟨hagree.1, congrArg (fun x => some (Outcome.done x)) hagree.2⟩
  obtain ⟨hf, hf'⟩ | ⟨p, hp, hf, hf'⟩ := h.findViewer? hv hv'
  · rw [setLayer_of_none hf, setLayer_of_none hf']
    exact ⟨⟨ties, h.alike⟩, rfl⟩
  · rw [share_setLayer_of_some hf, share_setLayer_of_some hf', fst_setLayer_of_some hf,
      fst_setLayer_of_some hf']
    have hselected := h.alike.alter [id] (f := fun v => v.selectLayer layer)
      (g := fun v => v.selectLayer layer)
      fun v v' hv => congrArg (fun v : Viewer => v.selectLayer layer) hv
    refine ⟨⟨ties, hselected.change hp (fun s t _ _ hst => hst.requestKeyframe) ?_⟩, rfl⟩
    intro s hs l hl
    rw [Stream.waiting_requestKeyframe] at hl
    exact h.alike.waiting p.1 s hs l hl

theorem listLayers (h : Abreast ρ ties k ids ids' r q) {id : ViewerId}
    (hv : (r.ownViewer k id).isSome) (hv' : (q.ownViewer k (ρ id)).isSome) :
    Agree ρ k r q (.listLayers id) (.listLayers (ρ id)) := by
  refine ⟨⟨ties, h.alike⟩, ?_⟩
  show some (Outcome.layers ((q.listLayers (ρ id)).mapError _))
    = some (Outcome.layers ((r.listLayers id).mapError _))
  rw [Relay.listLayers, Relay.listLayers]
  obtain ⟨hf, hf'⟩ | ⟨p, hp, hf, hf'⟩ := h.findViewer? hv hv'
  · rw [hf, hf']
    rfl
  · obtain ⟨s, t, hs, ht, hst⟩ := h.alike.streams p hp
    rw [hf, hf', Option.bind_some, Option.bind_some, (ownStream_eq_some.mp hs).1,
      (ownStream_eq_some.mp ht).1]
    exact congrArg (fun layers => some (Outcome.layers (.ok layers))) hst.layers

/-! ### One concern -/

/-- **What is the same to a key on both sides ends the same.** -/
theorem agree_of_concerned (h : Abreast ρ ties k ids ids' r q) {op op' : Operation} {c : Concern}
    (hc : r.concern? k op = some c) (hc' : q.concern? k op' = some (c.rename ρ))
    (hnew : ∀ id ∈ newViewer? op, id ∉ ids) (hnew' : ∀ id ∈ newViewer? op', id ∉ ids') :
    Agree ρ k r q op op' := by
  have hstands := stands_of_concern? hc
  have hstands' := stands_of_concern? hc'
  cases c with
  | ingest offer remote =>
    obtain rfl := hstands
    obtain rfl := hstands'
    exact h.ingest offer remote
  | createSession offer id =>
    obtain rfl := hstands
    obtain rfl := hstands'
    exact h.createSession offer (hnew id rfl) (hnew' (ρ id) rfl)
  | setLayer id layer =>
    obtain ⟨rfl, hv⟩ := hstands
    obtain ⟨rfl, hv'⟩ := hstands'
    exact h.setLayer layer hv hv'
  | listLayers id =>
    obtain ⟨rfl, hv⟩ := hstands
    obtain ⟨rfl, hv'⟩ := hstands'
    exact h.listLayers hv hv'
  | disconnect =>
    obtain rfl := hstands
    obtain rfl := hstands'
    exact h.disconnect
  | shutdown =>
    obtain rfl := hstands
    obtain rfl := hstands'
    exact h.shutdown
  | setKeys keys =>
    obtain rfl := hstands
    obtain rfl := hstands'
    exact h.setKeys keys
  | observeTrack i kind codec =>
    obtain ⟨sid, hi, rfl⟩ := hstands
    obtain ⟨sid', hi', rfl⟩ := hstands'
    exact h.observeTrack (h.tied_streams hi hi') kind codec
  | openFeed i rid ssrc mimeType canSend =>
    obtain ⟨sid, hi, rfl⟩ := hstands
    obtain ⟨sid', hi', rfl⟩ := hstands'
    exact h.openFeed (h.tied_streams hi hi') rid ssrc mimeType canSend
  | feedPacket i p =>
    obtain ⟨loop, hi, rfl⟩ := hstands
    obtain ⟨loop', hi', rfl⟩ := hstands'
    exact h.feedPacket (h.tied_feeds hi hi') p
  | closeFeed i =>
    obtain ⟨loop, hi, rfl⟩ := hstands
    obtain ⟨loop', hi', rfl⟩ := hstands'
    exact h.closeFeed (h.tied_feeds hi hi')
  | serveKeyframes =>
    obtain rfl := hstands
    obtain rfl := hstands'
    exact h.serveKeyframes
  | scriptSink id answer =>
    obtain rfl := hstands
    obtain rfl := hstands'
    exact h.scriptSink id answer

end Abreast

end Relay

end Simulcast
