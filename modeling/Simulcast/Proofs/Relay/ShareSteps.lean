import Simulcast.Proofs.Relay.Rounds
import Simulcast.Proofs.Relay.Shares
/-!
# What operations do to a share

Every operation does to a share what it does to the relay, as far as the share goes.  This
file says so operation by operation: the share afterwards is a function of the share before
and of the operation, whichever key the share belongs to (`Relay.Settled.share_teardown`,
`Relay.Settled.share_feedPacket`).  Where something new is made, one share gets it
(`Relay.Settled.share_ingest`, `Relay.Settled.share_createSession`) and the others stay.
-/

namespace Simulcast

namespace Relay

variable {ids : List ViewerId} {r q : Relay} {k : String}

/-! ### Teardown -/

theorem sameFrame_foldl_closeViewer (ids : List ViewerId) (r : Relay) :
    r.SameFrame (ids.foldl closeViewer r) := by
  induction ids generalizing r with
  | nil => rfl
  | cons id rest ih => exact (sameFrame_closeViewer r id).trans (ih (r.closeViewer id))

theorem queueCapacity_withoutStream (r : Relay) (sid : StreamId) (s : Stream) :
    (r.withoutStream sid s).queueCapacity = r.registry.queueCapacity := by
  unfold withoutStream Registry.forget
  split
  · split <;> rfl
  · rfl

/-- A relay that took a stream off the air and closed its viewers, and has not told yet. -/
structure Ended (r q : Relay) (sid : StreamId) (s : Stream) : Prop where
  frame : r.SameFrame q
  queueCapacity : q.registry.queueCapacity = r.registry.queueCapacity
  find? : ∀ k, q.registry.find? k = if k = s.key then none else r.registry.find? k
  stream? : ∀ j, q.registry.stream? j
    = if j = sid then (r.registry.stream? j).map Stream.retired else r.registry.stream? j
  viewers : ∀ j, q.viewers.find? j
    = if j ∈ s.viewers then (r.viewers.find? j).map Viewer.closed else r.viewers.find? j

theorem Settled.ended (h : Settled ids r.registry r.viewers) {sid : StreamId} {s : Stream}
    (hf : r.registry.find? s.key = some sid) (hs : r.registry.stream? sid = some s) :
    ∃ q, r.teardown sid = q.notify (.disconnected s.key) ∧ Ended r q sid s := by
  have hlive := h.isLive_of_onAir hf hs
  have hp := Stream.hasPublisher_of_isLive hlive
  have hdown := teardown_of_held hs hp
  rw [if_pos hlive] at hdown
  have hreg := registry_teardown (fun id v hv => (h.named id v hv).2) hs hp
    fun j t hj ht id hid hjd => hj (h.eq_of_mem hs ht hid hjd).symm
  have hviewers := viewers_teardown hs hp
  rw [hdown] at hreg hviewers
  refine ⟨_, hdown, (r.sameFrame_drained sid s).trans (sameFrame_foldl_closeViewer ..), ?_,
    fun k => ?_, fun j => ?_, hviewers⟩
  · exact (congrArg Registry.queueCapacity hreg).trans (queueCapacity_withoutStream r sid s)
  · refine (congrArg (fun g => g.find? k) hreg).trans ((find?_withoutStream hs k).trans ?_)
    by_cases hk : k = s.key
    · rw [if_pos ⟨hk, hk ▸ hf⟩, if_pos hk]
    · rw [if_neg (fun c => hk c.1), if_neg hk]
  · refine (congrArg (fun g => g.stream? j) hreg).trans ((stream?_withoutStream hs j).trans ?_)
    split
    · rename_i hj
      rw [hj, hs, Option.map_some]
    · rfl

theorem Ended.share_of_key {sid : StreamId} {s : Stream} (e : Ended r q sid s)
    (hs : r.registry.stream? sid = some s) (hf : r.registry.find? s.key = some sid) :
    (q.notify (.disconnected s.key)).share s.key = (r.share s.key).retire sid := by
  have honAir : (r.share s.key).onAir = some sid := hf
  have haudience : (r.share s.key).audience sid = s.viewers := by
    show ((r.ownStream s.key sid).map _).getD [] = _
    rw [ownStream_eq_some.mpr ⟨hs, rfl⟩]
    rfl
  have hshare : q.share s.key
      = { ((r.share s.key).alter s.viewers Viewer.closed).change sid Stream.retired with
          onAir := none } := by
    refine e.frame.share_ext rfl e.queueCapacity ?_
      (ownStream_of_change (f := Stream.retired) (fun _ => rfl) e.stream?)
      (ownFeed_of_change (f := Stream.retired) (fun _ => rfl) e.stream? (by rw [e.frame]))
      fun j => ?_
    · exact (e.find? s.key).trans (if_pos rfl)
    · show (q.viewers.find? j).filter _ = if j ∈ s.viewers then _ else _
      rw [e.viewers]
      split
      · exact filter_map_of_same (f := Viewer.closed) (fun _ => rfl) _
      · rfl
  have hkey : (Notice.disconnected s.key).key = s.key := rfl
  rw [share_notify_of_key hkey, hshare, Share.retire, if_pos honAir, haudience]
  rfl

theorem Ended.share_of_ne {sid : StreamId} {s : Stream} (e : Ended r q sid s)
    (h : Settled ids r.registry r.viewers) (hs : r.registry.stream? sid = some s)
    (hk : s.key ≠ k) : (q.notify (.disconnected s.key)).share k = r.share k := by
  have hne : (Notice.disconnected s.key).key ≠ k := hk
  rw [share_notify_of_ne hne]
  refine e.frame.share_ext rfl e.queueCapacity ?_ (fun j => ?_)
    (ownFeed_of_change (f := Stream.retired) (fun _ => rfl) e.stream? (by rw [e.frame]))
    fun j => ?_
  · exact (e.find? k).trans (if_neg (Ne.symm hk))
  · rw [ownStream_of_change (f := Stream.retired) (fun _ => rfl) e.stream?]
    split
    · rename_i hj
      show _ = r.ownStream k j
      rw [hj, ownStream_of_ne hs hk]
      rfl
    · rfl
  · show (q.viewers.find? j).filter _ = r.ownViewer k j
    rw [e.viewers]
    split
    · rename_i hj
      obtain ⟨v, hv, -, hkv, -⟩ := h.attached sid s j hs hj
      rw [ownViewer_of_ne hv (hkv ▸ hk), hv]
      simp [Viewer.closed, Viewer.close, hkv, hk]
    · rfl

/-- **Teardown takes the stream of a key off the air**, and does nothing to any other key. -/
theorem Settled.share_teardown (h : Settled ids r.registry r.viewers) (sid : StreamId)
    (k : String) : (r.teardown sid).share k = (r.share k).retire sid := by
  cases hs : r.registry.stream? sid with
  | none =>
    have hne : (r.share k).onAir ≠ some sid := by
      intro hf
      obtain ⟨s, hs', -⟩ := h.indexed k sid hf
      exact absurd (hs.symm.trans hs') (by simp)
    rw [teardown_of_none hs, Share.retire_of_ne hne]
  | some s =>
    have hair : (r.share k).onAir = some sid → s.key = k := by
      intro hf
      obtain ⟨t, ht, hkt⟩ := h.indexed k sid hf
      rwa [Option.some.inj (hs.symm.trans ht)]
    cases hp : s.hasPublisher with
    | false =>
      have hne : (r.share k).onAir ≠ some sid := by
        intro hf
        rw [Stream.hasPublisher_of_isLive (h.isLive_of_onAir hf hs)] at hp
        exact absurd hp (by decide)
      rw [teardown_of_free hs hp, Share.retire_of_ne hne]
    | true =>
      have hf := h.find?_of_held hs hp
      obtain ⟨q, hq, e⟩ := h.ended hf hs
      rw [hq]
      by_cases hk : s.key = k
      · subst hk
        exact e.share_of_key hs hf
      · rw [e.share_of_ne h hs hk, Share.retire_of_ne fun hf' => hk (hair hf')]

theorem Settled.share_disconnect (h : Settled ids r.registry r.viewers) (key k : String) :
    (r.disconnect key).share k
      = if key = k then (r.share k).finish else r.share k := by
  unfold Relay.disconnect
  split
  · rename_i sid hf
    rw [h.share_teardown]
    by_cases hk : key = k
    · subst hk
      have honAir : (r.share key).onAir = some sid := hf
      rw [if_pos rfl, Share.finish, honAir]
      rfl
    · rw [if_neg hk, Share.retire_of_ne]
      intro hf'
      obtain ⟨s, hs, hks⟩ := h.indexed key sid hf
      obtain ⟨t, ht, hkt⟩ := h.indexed k sid hf'
      obtain rfl := Option.some.inj (hs.symm.trans ht)
      exact hk (hks.symm.trans hkt)
  · rename_i hf
    split
    · rename_i hk
      subst hk
      have honAir : (r.share key).onAir = none := hf
      rw [Share.finish, honAir]
      rfl
    · rfl

/-- Once off the air, a share is left alone by any teardown. -/
theorem foldl_retire_of_none {u : Share} (h : u.onAir = none) (sids : List StreamId) :
    sids.foldl Share.retire u = u := by
  induction sids with
  | nil => rfl
  | cons sid rest ih =>
    rw [List.foldl_cons, Share.retire_of_ne (by rw [h]; exact nofun), ih]

theorem foldl_retire_of_mem {u : Share} {sid : StreamId} (h : u.onAir = some sid)
    {sids : List StreamId} (hm : sid ∈ sids) : sids.foldl Share.retire u = u.retire sid := by
  induction sids with
  | nil => exact absurd hm List.not_mem_nil
  | cons j rest ih =>
    rw [List.foldl_cons]
    by_cases hj : sid = j
    · subst hj
      refine foldl_retire_of_none ?_ rest
      rw [Share.retire, if_pos h]
      rfl
    · rw [Share.retire_of_ne (by rw [h]; exact fun hc => hj (Option.some.inj hc))]
      exact ih ((List.mem_cons.mp hm).resolve_left hj)

/-- **To each key, the end of everything is its own end.** -/
theorem Settled.share_shutdown (h : Settled ids r.registry r.viewers) (k : String) :
    r.shutdown.share k = (r.share k).finish := by
  have hfold : ∀ (sids : List StreamId) (r : Relay), Settled ids r.registry r.viewers →
      (sids.foldl Relay.teardown r).share k = sids.foldl Share.retire (r.share k) := by
    intro sids
    induction sids with
    | nil => exact fun r _ => rfl
    | cons sid rest ih =>
      intro r h
      rw [List.foldl_cons, List.foldl_cons, ih (r.teardown sid) (h.teardown sid), h.share_teardown]
  rw [Relay.shutdown, hfold _ r h, Share.finish]
  cases hf : (r.share k).onAir with
  | none => exact foldl_retire_of_none hf _
  | some sid =>
    have hmem : sid ∈ r.registry.registered :=
      List.mem_map.mpr ⟨(k, sid), (Table.mem_entries_iff r.registry.index k sid).mpr hf, rfl⟩
    rw [foldl_retire_of_mem hf hmem]
    rfl

/-! ### A stream object more -/

/-- Every feed has a name that was given and reads a stream that was made. -/
def Anchored (r : Relay) : Prop :=
  ∀ loop f, r.feeds.find? loop = some f →
    loop < r.nextLoop ∧ ∃ s, r.registry.stream? f.stream = some s

/-- A relay that has one stream object more than another. -/
structure Added (r q : Relay) (t : Stream) : Prop where
  frame : r.SameFrame q
  queueCapacity : q.registry.queueCapacity = r.registry.queueCapacity
  viewers : q.viewers = r.viewers
  stream? : ∀ j, q.registry.stream? j
    = if j = r.registry.streams.length then some t else r.registry.stream? j

section

variable {t : Stream}

theorem Added.ownStream (a : Added r q t) (k : String) (j : StreamId) : q.ownStream k j
    = if j = r.registry.streams.length ∧ t.key = k then some t else r.ownStream k j := by
  rw [Relay.ownStream, a.stream?]
  by_cases hj : j = r.registry.streams.length
  · rw [if_pos hj, Relay.ownStream, hj, Registry.stream?_length, Option.filter_some]
    simp
  · rw [if_neg hj, if_neg fun c => hj c.1]
    rfl

/-- No feed reads the new object yet. -/
theorem Added.ownFeed (a : Added r q t) (h : r.Anchored) (k : String) :
    q.ownFeed k = r.ownFeed k := by
  funext loop
  rw [Relay.ownFeed, Relay.ownFeed, a.frame]
  show (r.feeds.find? loop).filter _ = (r.feeds.find? loop).filter _
  cases hf : r.feeds.find? loop with
  | none => rfl
  | some f =>
    obtain ⟨-, s, hs⟩ := h loop f hf
    have hlt := Registry.lt_of_stream? hs
    have hstream : q.ownStream k f.stream = r.ownStream k f.stream := by
      rw [a.ownStream, if_neg fun c => Nat.ne_of_lt hlt c.1]
    rw [Option.filter_some, Option.filter_some]
    show (if (q.ownStream k f.stream).isSome = true then _ else _) = _
    rw [hstream]

theorem Added.share_of_key (a : Added r q t) (h : r.Anchored) :
    q.share t.key = { (r.share t.key).addStream r.registry.streams.length t with
      onAir := q.registry.find? t.key } := by
  refine a.frame.share_ext rfl a.queueCapacity rfl (fun j => ?_) (a.ownFeed h t.key) fun j => ?_
  · rw [a.ownStream]
    simp only [and_true]
    rfl
  · rw [Relay.ownViewer, a.viewers]
    rfl

theorem Added.share_of_ne (a : Added r q t) (h : r.Anchored) (hk : t.key ≠ k)
    (hf : q.registry.find? k = r.registry.find? k) : q.share k = r.share k := by
  refine a.frame.share_ext rfl a.queueCapacity hf (fun j => ?_) (a.ownFeed h k) fun j => ?_
  · rw [a.ownStream, if_neg fun c => hk c.2]
    rfl
  · rw [Relay.ownViewer, a.viewers]
    rfl

end

/-! ### Ingest -/

section

variable {key : String} {t : Stream}

theorem Bidding.added_teardown (b : Bidding r q key t)
    (hcapacity : q.registry.queueCapacity = r.registry.queueCapacity) :
    Added r (q.teardown r.registry.streams.length) t.retired := by
  have hs := b.stream?
  obtain ⟨hreg, hviewers⟩ := teardown_of_unwatched hs b.hasPublisher b.viewers
  refine ⟨b.undisturbed.frame, ?_, hviewers.trans b.viewers_eq, fun j => ?_⟩
  · rw [hreg, queueCapacity_withoutStream, hcapacity]
  · rw [hreg, stream?_withoutStream hs, b.gains.stream?]
    split <;> rfl

theorem Bidding.added_markConnected (b : Bidding r q key t)
    (hcapacity : q.registry.queueCapacity = r.registry.queueCapacity)
    (remote : Option SocketAddress) :
    Added r { q with
      registry := q.registry.put r.registry.streams.length (t.markConnected remote).2 }
      (t.markConnected remote).2 := by
  refine ⟨b.frame.trans rfl, hcapacity, b.viewers_eq, fun j => ?_⟩
  show (q.registry.put _ _).stream? j = _
  rw [Registry.stream?_put_of_some b.stream?, b.gains.stream?]
  split <;> rfl

end

/-- **The reply to an ingest** is the verdict, if it gets as far as that. -/
theorem Settled.fst_ingest (h : Settled ids r.registry r.viewers) (offer key : String)
    (remote : Option SocketAddress) :
    (r.ingest offer key remote).1
      = if r.mayBid key then r.verdict offer else .error (r.bidFault key) := by
  obtain ⟨hno, last, he⟩ | ⟨hyes, q, t, -, -, -, ⟨e, hv, he⟩ | ⟨answer, c, hv, -, he⟩⟩ :=
    h.ingest_outcome offer key remote
  · rw [he, hno]
    rfl
  · rw [he, hyes, hv]
    rfl
  · rw [he, hyes, hv]
    rfl

theorem Settled.share_ingest_of_ne (h : Settled ids r.registry r.viewers) (ha : r.Anchored)
    (offer : String) {key : String} (remote : Option SocketAddress) (hk : key ≠ k) :
    (r.ingest offer key remote).2.share k = r.share k := by
  obtain ⟨-, last, he⟩ | ⟨-, q, t, b, hcapacity, -, ⟨e, -, he⟩ | ⟨answer, c, -, -, he⟩⟩ :=
    h.ingest_outcome offer key remote
  · rw [he]
    rfl
  · have hne : t.retired.key ≠ k := fun hc => hk (b.key.symm.trans hc)
    rw [he]
    exact (b.added_teardown hcapacity).share_of_ne ha hne (b.undisturbed.find? k)
  · have hne : (t.markConnected remote).2.key ≠ k := by
      rw [Stream.key_markConnected, b.key]
      exact hk
    have hfind := (b.gains.find? k).trans (if_neg fun hc => hk (b.key.symm.trans hc.symm))
    rw [he, share_notify_of_ne (n := .connected key) hk]
    exact (b.added_markConnected hcapacity remote).share_of_ne ha hne hfind

/-- **What an ingest does to the share of its key.**  A broadcaster that may negotiate leaves a
stream object behind, and if the verdict is in its favour that stream is on air. -/
theorem Settled.share_ingest (h : Settled ids r.registry r.viewers) (ha : r.Anchored)
    (offer key : String) (remote : Option SocketAddress) :
    ∃ c, (r.ingest offer key remote).2.share key
      = if r.mayBid key then
          match r.verdict offer with
          | .ok _ => ((r.share key).addStream r.registry.streams.length
              (launched key r.registry.queueCapacity r.clock c remote)).announce
                (some r.registry.streams.length) (.connected key)
          | .error _ => (r.share key).addStream r.registry.streams.length
              (Stream.create key r.registry.queueCapacity r.clock)
        else r.share key := by
  obtain ⟨hno, last, he⟩ | ⟨hyes, q, t, b, hcapacity, hretired, ⟨e, hv, he⟩ | ⟨answer, c, hv, ht, he⟩⟩ :=
    h.ingest_outcome offer key remote
  · refine ⟨0, ?_⟩
    rw [he, hno]
    rfl
  · have hadded := b.added_teardown hcapacity
    rw [hretired] at hadded
    refine ⟨0, ?_⟩
    rw [he, hyes, hv]
    refine (hadded.share_of_key ha).trans ?_
    exact Share.ext rfl rfl rfl rfl rfl (b.undisturbed.find? key) rfl rfl rfl rfl
  · have hadded := b.added_markConnected hcapacity remote
    have honAir := (b.gains.find? key).trans (if_pos b.key.symm)
    have hkey : (Notice.connected key).key = key := rfl
    rw [ht] at hadded
    refine ⟨c, ?_⟩
    rw [he, hyes, hv, ht, share_notify_of_key hkey,
      show Relay.share _ key = _ from hadded.share_of_key ha]
    exact Share.ext rfl rfl rfl rfl rfl honAir rfl rfl rfl rfl

/-! ### New viewers -/

theorem ownViewer_of_new {id : ViewerId} {v : Viewer}
    (hv : ∀ j, q.viewers.find? j = if j = id then some v else r.viewers.find? j)
    (hk : v.streamKey = k) (j : ViewerId) :
    q.ownViewer k j = if j = id then some v else r.ownViewer k j := by
  rw [ownViewer, hv]
  split
  · simp [hk]
  · rfl

theorem ownViewer_of_other {id : ViewerId} {v : Viewer} (hnew : r.viewers.find? id = none)
    (hv : ∀ j, q.viewers.find? j = if j = id then some v else r.viewers.find? j)
    (hk : v.streamKey ≠ k) (j : ViewerId) : q.ownViewer k j = r.ownViewer k j := by
  rw [ownViewer, hv, ownViewer]
  split
  · rename_i hj
    rw [hj, hnew]
    simp [hk]
  · rfl

section

variable {key : String} {id : ViewerId} {sid : StreamId} {s : Stream} {codec : Codec}

/-- A viewer that got its place and keeps it. -/
theorem Seated.share_activate (seat : Seated r q key id sid s codec) (hk : s.key = key)
    (hnew : r.viewers.find? id = none) (k : String) :
    (q.updateViewer id Viewer.activate).share k
      = if key = k then ((r.share k).change sid fun s => (s.attach id).2).addViewer id
          (newcomer id key codec r.connections.opened sid).activate
        else r.share k := by
  have hattach : ∀ s : Stream, (s.attach id).2.key = s.key := by
    intro s
    rw [Stream.attach]
    split <;> rfl
  have hframe : r.SameFrame (q.updateViewer id Viewer.activate) := seat.frame.trans rfl
  have hviewers : ∀ j, (q.updateViewer id Viewer.activate).viewers.find? j
      = if j = id then some (newcomer id key codec r.connections.opened sid).activate
        else r.viewers.find? j := by
    intro j
    rw [viewers_updateViewer, Table.find?_modify, seat.viewers]
    split <;> rfl
  have hchange : ∀ j, (q.updateViewer id Viewer.activate).registry.stream? j
      = if j = sid then (r.registry.stream? j).map (fun s => (s.attach id).2)
        else r.registry.stream? j := by
    intro j
    rw [registry_updateViewer, seat.registry, Registry.stream?_put_of_some seat.stream?]
    split
    · rename_i hj
      rw [hj, seat.stream?, Option.map_some]
    · rfl
  have hstream := ownStream_of_change (k := k) hattach hchange
  have hfeeds := ownFeed_of_change (k := k) hattach hchange (by rw [hframe])
  have hcapacity : q.registry.queueCapacity = r.registry.queueCapacity := by
    rw [seat.registry]
    rfl
  have hfind : q.registry.find? k = r.registry.find? k := by
    rw [seat.registry]
    rfl
  split
  · rename_i hkey
    subst hkey
    exact hframe.share_ext rfl hcapacity hfind hstream hfeeds
      (ownViewer_of_new hviewers rfl)
  · rename_i hkey
    refine hframe.share_ext rfl hcapacity hfind (fun j => ?_) hfeeds
      (ownViewer_of_other hnew hviewers hkey)
    rw [hstream]
    split
    · rename_i hj
      show _ = r.ownStream k j
      rw [hj, ownStream_of_ne seat.stream? (hk ▸ hkey)]
      rfl
    · rfl

/-- A viewer that got its place and loses it again. -/
theorem Seated.share_dropViewer (seat : Seated r q key id sid s codec) (hn : r.NamesViewers)
    (hid : r.registry.Unwatched id) (hnew : r.viewers.find? id = none) (k : String) :
    (q.dropViewer sid id).share k
      = if key = k then
          (r.share k).addViewer id (newcomer id key codec r.connections.opened sid).closed
        else r.share k := by
  have hframe := (seat.undisturbed hn hid hnew).frame
  have hreg := seat.registry_dropViewer hn hid
  have hviewers := seat.viewers_dropViewer
  have hstream : ∀ j, (q.dropViewer sid id).ownStream k j = r.ownStream k j := by
    intro j
    rw [ownStream, hreg, ownStream]
  have hfeeds := ownFeed_of_same (by rw [hframe]) fun j => congrArg Option.isSome (hstream j)
  split
  · rename_i hkey
    exact hframe.share_ext rfl (by rw [hreg]) (by rw [hreg]; rfl) hstream hfeeds
      (ownViewer_of_new hviewers hkey)
  · rename_i hkey
    exact hframe.share_ext rfl (by rw [hreg]) (by rw [hreg]; rfl) hstream hfeeds
      (ownViewer_of_other hnew hviewers hkey)

end

section

variable {key : String} {sid : StreamId}

theorem createSession_of_none (hf : r.registry.find? key = none) (offer : String) (id : ViewerId) :
    r.createSession offer key id = (.error (.streamNotFound key), r) := by
  have hlive : r.registry.live? key = .error (.streamNotFound key) := by rw [Registry.live?, hf]
  rw [Relay.createSession, hlive]

theorem Settled.live?_of_onAir (h : Settled ids r.registry r.viewers)
    (hf : r.registry.find? key = some sid) : r.registry.live? key = .ok sid := by
  obtain ⟨s, hs, -⟩ := h.indexed key sid hf
  simp only [Registry.live?, hf, hs, Option.map_some, Option.getD_some, h.isLive_of_onAir hf hs,
    if_true]

theorem Settled.createSession_of_fault (h : Settled ids r.registry r.viewers)
    (hf : r.registry.find? key = some sid) {e : RelayError} (he : r.connectionFault? = some e)
    (offer : String) (id : ViewerId) : r.createSession offer key id = (.error e, r) := by
  rw [Relay.createSession, h.live?_of_onAir hf]
  simp only [openConnection_eq, he]

/-- **What becomes of a new viewer** that gets its place: it keeps it if the verdict on its
session description is in its favour.  Other keys do not notice. -/
theorem Settled.share_createSession (h : Settled ids r.registry r.viewers) {id : ViewerId}
    (hid : id ∉ ids) {s : Stream} (hf : r.registry.find? key = some sid)
    (hs : r.ownStream key sid = some s) (he : r.connectionFault? = none) (offer : String) :
    (r.createSession offer key id).1
        = r.negotiateSession r.connections.opened offer s.viewerCodec ∧
      (∀ k, key ≠ k → (r.createSession offer key id).2.share k = r.share k) ∧
      ∃ c, (r.createSession offer key id).2.share key
        = match r.negotiateSession r.connections.opened offer s.viewerCodec with
          | .ok _ => ((r.share key).change sid fun s => (s.attach id).2).addViewer id
              (newcomer id key s.viewerCodec c sid).activate
          | .error _ => (r.share key).addViewer id (newcomer id key s.viewerCodec c sid).closed := by
  obtain ⟨hstream, hk⟩ := ownStream_eq_some.mp hs
  have hl := h.isLive_of_onAir hf hstream
  obtain ⟨q, hq, seat⟩ := attachViewer_of_live hf hstream hl id s.viewerCodec
  have hnew := h.find?_of_fresh hid
  have hcodec : ((r.registry.stream? sid).map Stream.viewerCodec).getD .h264
      = s.viewerCodec := by rw [hstream]; rfl
  have hverdict : q.negotiateSession r.connections.opened offer s.viewerCodec
      = r.negotiateSession r.connections.opened offer s.viewerCodec := by rw [seat.frame]; rfl
  rw [Relay.createSession, h.live?_of_onAir hf]
  simp only [openConnection_eq, he, hcodec, hq, hverdict]
  cases r.negotiateSession r.connections.opened offer s.viewerCodec with
  | ok answer =>
    have hshare := seat.share_activate hk hnew
    refine ⟨rfl, fun k hne => (hshare k).trans (if_neg hne), r.connections.opened, ?_⟩
    exact (hshare key).trans (if_pos rfl)
  | error e =>
    have hshare := seat.share_dropViewer (fun id v hv => (h.named id v hv).2)
      (h.unwatched_of_fresh hid) hnew
    refine ⟨rfl, fun k hne => (hshare k).trans (if_neg hne), r.connections.opened, ?_⟩
    exact (hshare key).trans (if_pos rfl)

theorem Settled.share_createSession_of_ne (h : Settled ids r.registry r.viewers) {id : ViewerId}
    (hid : id ∉ ids) (offer : String) (hk : key ≠ k) :
    (r.createSession offer key id).2.share k = r.share k := by
  cases hf : r.registry.find? key with
  | none => rw [createSession_of_none hf]
  | some sid =>
    cases he : r.connectionFault? with
    | some e => rw [h.createSession_of_fault hf he]
    | none =>
      obtain ⟨s, hs, hkey⟩ := h.indexed key sid hf
      exact (h.share_createSession hid hf (ownStream_eq_some.mpr ⟨hs, hkey⟩) he offer).2.1 k hk

end

/-! ### Layers -/

theorem setLayer_of_none {id : ViewerId} (h : r.registry.findViewer? id = none)
    (layer : String) : r.setLayer id layer = (.error (.sessionNotFound id), r) := by
  rw [setLayer, h]

theorem fst_setLayer_of_some {id : ViewerId} {sid : StreamId}
    (h : r.registry.findViewer? id = some sid) (layer : String) :
    (r.setLayer id layer).1 = .ok () := by
  rw [setLayer, h]

theorem share_setLayer_of_some {id : ViewerId} {sid : StreamId}
    (h : r.registry.findViewer? id = some sid) (layer k : String) :
    (r.setLayer id layer).2.share k
      = ((r.share k).alter [id] fun v => v.selectLayer layer).change sid
          fun s => s.requestKeyframe.2 := by
  have hviewer := share_updateViewer (r := r) (k := k) (f := fun v => v.selectLayer layer)
    (fun _ => rfl) id
  rw [setLayer, h]
  show ((r.updateViewer id _).updateStream sid _).share k = _
  rw [share_updateStream, hviewer]
  exact fun _ => rfl

theorem share_observeTrack (r : Relay) (sid : StreamId) (kind : MediaKind) (codec : Codec)
    (k : String) :
    (r.updateStream sid fun s => (s.observeTrack kind codec).2).share k
      = (r.share k).change sid fun s => (s.observeTrack kind codec).2 :=
  share_updateStream (f := fun s => (s.observeTrack kind codec).2) (fun _ => rfl) sid

theorem share_scriptSink (r : Relay) (id : ViewerId) (answer : Nat → Option TransportFault)
    (k : String) :
    (r.updateViewer id fun v => { v with sink := { v.sink with answer } }).share k
      = (r.share k).alter [id] fun v => { v with sink := { v.sink with answer } } :=
  share_updateViewer (f := fun v => { v with sink := { v.sink with answer } }) (fun _ => rfl) id

/-! ### Feeds -/

theorem share_insertFeed (r : Relay) (loop : LoopId) (f : Feed) (k : String) :
    ({ r with feeds := r.feeds.insert loop f } : Relay).share k
      = (r.share k).setFeed loop ((r.share k).reading f) := by
  refine Share.ext rfl rfl rfl rfl rfl rfl rfl (funext fun j => ?_) rfl rfl
  show ((r.feeds.insert loop f).find? j).filter _ = if j = loop then _ else r.ownFeed k j
  rw [Table.find?_insert]
  split
  · exact Option.filter_some
  · rfl

theorem share_eraseFeed (r : Relay) (loop : LoopId) (k : String) :
    ({ r with feeds := r.feeds.erase loop } : Relay).share k = (r.share k).setFeed loop none := by
  refine Share.ext rfl rfl rfl rfl rfl rfl rfl (funext fun j => ?_) rfl rfl
  show ((r.feeds.erase loop).find? j).filter _ = if j = loop then none else r.ownFeed k j
  rw [Table.find?_erase]
  split <;> rfl

theorem share_openFeed (r : Relay) (sid : StreamId) (rid : String) (ssrc : UInt32)
    (mimeType : String) (canSend : Nat → Bool) (k : String) :
    (r.openFeed sid rid ssrc mimeType canSend).2.share k
      = ((r.share k).change sid fun s => { s with
          keyframes := s.keyframes.join { id := r.nextLoop, ssrc, canSend } }).setFeed r.nextLoop
        ((r.share k).reading (Feed.ofTrack sid rid mimeType)) := by
  have hstart := share_updateStream (r := r) (k := k) (f := fun s => { s with
    keyframes := s.keyframes.join { id := r.nextLoop, ssrc, canSend } }) (fun _ => rfl) sid
  refine (share_insertFeed (r.startKeyframeLoop sid ssrc canSend).2 r.nextLoop
    (Feed.ofTrack sid rid mimeType) k).trans ?_
  rw [show (r.startKeyframeLoop sid ssrc canSend).2.share k = _ from hstart, Share.reading_change]

theorem share_closeFeed {loop : LoopId} {f : Feed} (hf : r.feeds.find? loop = some f)
    (k : String) :
    (r.closeFeed loop).2.share k
      = ((r.share k).change f.stream fun s => { s with
          keyframes := s.keyframes.leave loop }).setFeed loop none := by
  rw [closeFeed, hf]
  refine (share_eraseFeed (r.stopKeyframeLoop f.stream loop) loop k).trans ?_
  rw [stopKeyframeLoop, share_updateStream]
  exact fun _ => rfl

theorem Settled.nodup_table (h : Settled ids r.registry r.viewers) (sid : StreamId) :
    (r.registry.table sid).Nodup := by
  cases hs : r.registry.stream? sid with
  | none =>
    rw [Registry.table, hs]
    exact List.nodup_nil
  | some s =>
    rw [Registry.table_of_some hs]
    exact h.nodup sid s hs

/-- **A packet goes to the share that its feed belongs to.** -/
theorem Settled.share_feedPacket (h : Settled ids r.registry r.viewers) {loop : LoopId} {f : Feed}
    (hf : r.feeds.find? loop = some f) (p : Packet) (k : String) :
    (r.feedPacket loop p).2.share k
      = (((r.share k).change f.stream fun s => s.noteRead f p r.clock).alter
          (r.registry.table f.stream) fun v => v.told (.send (f.offer p))).setFeed loop
        ((r.share k).reading (f.read p)) := by
  have hnote := share_updateStream (r := r) (k := k) (f := fun s => s.noteRead f p r.clock)
    (fun s => (s.sameHold_noteRead f p r.clock).key) f.stream
  have hoffer : ({ r.updateStream f.stream fun s => s.noteRead f p r.clock with
        viewers := offerAll f p r.viewers (r.registry.table f.stream) } : Relay).share k
      = ((r.share k).change f.stream fun s => s.noteRead f p r.clock).alter
          (r.registry.table f.stream) fun v => v.told (.send (f.offer p)) := by
    rw [← hnote]
    refine Share.ext rfl rfl rfl rfl rfl rfl rfl rfl (funext fun j => ?_) rfl
    show ((offerAll f p r.viewers _).find? j).filter _ = if j ∈ _ then _ else r.ownViewer k j
    rw [find?_offerAll_of_nodup f p (h.nodup_table f.stream)]
    split
    · have hkey : ∀ v : Viewer, (v.told (.send (f.offer p))).streamKey = v.streamKey :=
        fun v => (v.sameSeat_send ..).streamKey
      exact filter_map_of_same (fun v => by rw [hkey]) _
    · rfl
  have hfeed := share_insertFeed { r.updateStream f.stream fun s => s.noteRead f p r.clock with
    viewers := offerAll f p r.viewers (r.registry.table f.stream) } loop (f.read p) k
  rw [hoffer] at hfeed
  rw [Relay.feedPacket, hf]
  refine Eq.trans hfeed ?_
  exact congrArg _ (Share.reading_change (r.share k) ..)

theorem share_serveKeyframes (r : Relay) (k : String) :
    r.serveKeyframes.2.share k
      = (r.share k).changeAll fun s => { s with keyframes := s.keyframes.serve.2 } := by
  have hstream : ∀ j, r.serveKeyframes.2.ownStream k j
      = (r.ownStream k j).map fun s => { s with keyframes := s.keyframes.serve.2 } := by
    intro j
    rw [ownStream, stream?_serveKeyframes]
    exact filter_map_of_same (p := fun s : Stream => decide (s.key = k))
      (f := fun s : Stream => { s with keyframes := s.keyframes.serve.2 }) (fun _ => rfl) _
  refine Share.ext rfl rfl rfl rfl rfl rfl (funext hstream) (ownFeed_of_same rfl fun j => ?_) rfl rfl
  rw [hstream]
  exact Option.isSome_map ..

end Relay

end Simulcast
