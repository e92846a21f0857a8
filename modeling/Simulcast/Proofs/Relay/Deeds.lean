import Simulcast.Proofs.Registry.Lifecycle
import Simulcast.Proofs.Relay.ShareSteps
/-!
# A relay that is handled from outside

The registry and its streams are there for everybody who can reach the relay: streams are made
and claimed for no broadcaster, connected without a session description, given a connection
that was made elsewhere, and watched by viewers that were made by hand.  `Deed` is all of that
together with the relay's own operations.

So little can be relied on.  A held stream need not be on air, one that nobody holds may be
registered and may have viewers, and an attached viewer may know nothing of its place.  What
stays is `Relay.Tidy`: entries name streams of their own key, and a viewer of a stream is a
viewer that there is and that no other stream has.  Most deeds take viewers out of streams at
the most (`Relay.Tidy.wane`).
-/

namespace Simulcast

/-- Whatever is done to a relay. -/
inductive Deed where
  | operate (op : Operation)
  | getOrCreate (key : String)
  | claim (key : String)
  | markConnected (sid : StreamId) (remote : Option SocketAddress)
  | attachConnection (sid : StreamId) (c : ConnectionId)
  /-- A viewer is made by hand; it has no connection and is in no stream. -/
  | makeViewer (id : ViewerId) (key : String)
  | attachViewer (sid : StreamId) (id : ViewerId)

namespace Deed

/-- The name of the viewer that a deed makes. -/
def newViewer? : Deed → Option ViewerId
  | operate op => Relay.newViewer? op
  | makeViewer id _ => some id
  | _ => none

/-- The names that are handed in. -/
def newViewers (deeds : List Deed) : List ViewerId := deeds.filterMap newViewer?

theorem newViewers_cons (deed : Deed) (deeds : List Deed) :
    newViewers (deed :: deeds) = (newViewer? deed).toList ++ newViewers deeds := by
  rw [newViewers, List.filterMap_cons]
  cases newViewer? deed with
  | none => rfl
  | some id => rfl

end Deed

/-! ### Session tables -/

namespace Registry

variable {g : Registry} {sid : StreamId} {s : Stream}

theorem mem_table_iff {id : ViewerId} :
    id ∈ g.table sid ↔ ∃ s, g.stream? sid = some s ∧ id ∈ s.viewers := by
  cases hs : g.stream? sid with
  | none => simp [table, hs]
  | some s => simp [table_of_some hs]

theorem table_act_subset {α : Type} (g : Registry) (sid : StreamId) {step : Stream → α × Stream}
    (h : ∀ s, (step s).2.viewers ⊆ s.viewers) (j : StreamId) :
    (g.act sid step).2.table j ⊆ g.table j := by
  intro id hid
  obtain ⟨t, ht, hid⟩ := mem_table_iff.mp hid
  rw [stream?_act] at ht
  split at ht
  · rename_i hj
    obtain ⟨s, hs, rfl⟩ := Option.map_eq_some_iff.mp ht
    exact mem_table_iff.mpr ⟨s, hj ▸ hs, h s hid⟩
  · exact mem_table_iff.mpr ⟨t, ht, hid⟩

/-- Nobody watches a stream object that is made. -/
theorem table_enroll (g : Registry) (key : String) (h : s.viewers = []) (j : StreamId) :
    (g.enroll key s).table j = g.table j := by
  rw [table, stream?_enroll, table]
  split
  · rename_i hj
    rw [hj, stream?_length]
    exact h
  · rfl

end Registry

namespace Relay

variable {ids : List ViewerId} {g : Registry} {vs : Table ViewerId Viewer} {r : Relay}

/-! ### What can be relied on -/

/-- Streams and viewers of a relay that is handled from outside.  `ids` are the viewer names
that were handed in so far. -/
structure Tidy (ids : List ViewerId) (g : Registry) (vs : Table ViewerId Viewer) : Prop where
  indexed : g.Indexed
  attached : ∀ sid, ∀ id ∈ g.table sid, ∃ v, vs.find? id = some v
  once : ∀ sid j id, id ∈ g.table sid → id ∈ g.table j → sid = j
  named : ∀ id v, vs.find? id = some v → id ∈ ids ∧ v.id = id

theorem tidy_empty (queueCapacity : Nat) :
    Tidy [] { queueCapacity } (.empty : Table ViewerId Viewer) where
  indexed := fun k sid h => absurd h (by simp [Registry.find?])
  attached := fun sid id h => absurd h List.not_mem_nil
  once := fun sid j id h => absurd h List.not_mem_nil
  named := fun id v h => absurd h (by simp)

theorem Tidy.namesViewers (h : Tidy ids r.registry r.viewers) : r.NamesViewers :=
  fun id v hv => (h.named id v hv).2

/-- The viewers of a stream are in no other one. -/
theorem Tidy.not_mem (h : Tidy ids g vs) {sid j : StreamId} {s t : Stream} {id : ViewerId}
    (hs : g.stream? sid = some s) (ht : g.stream? j = some t) (hj : j ≠ sid)
    (hid : id ∈ s.viewers) : id ∉ t.viewers := fun hm =>
  hj (h.once j sid id (Registry.mem_table_iff.mpr ⟨t, ht, hm⟩)
    (Registry.mem_table_iff.mpr ⟨s, hs, hid⟩))

/-- Nobody watches a stream under a name that was not handed in yet. -/
theorem Tidy.unwatched_of_fresh (h : Tidy ids g vs) {id : ViewerId} (hid : id ∉ ids)
    (sid : StreamId) : id ∉ g.table sid := by
  intro hm
  obtain ⟨v, hv⟩ := h.attached sid id hm
  exact hid (h.named id v hv).1

theorem exists_change_self (o : Option Viewer) :
    ∃ change : Viewer → Viewer, (∀ v, (change v).id = v.id) ∧ o = o.map change :=
  ⟨fun v => v, fun _ => rfl, (Option.map_id' ..).symm⟩

/-- **Viewers may leave**: nobody is put into a stream, and no viewer is made. -/
theorem Tidy.wane (h : Tidy ids g vs) {g' : Registry} {vs' : Table ViewerId Viewer}
    (hg : g'.Indexed) (htable : ∀ sid, g'.table sid ⊆ g.table sid)
    (hviewers : ∀ id, ∃ change : Viewer → Viewer, (∀ v, (change v).id = v.id) ∧
      vs'.find? id = (vs.find? id).map change) : Tidy ids g' vs' where
  indexed := hg
  attached := by
    intro sid id hid
    obtain ⟨v, hv⟩ := h.attached sid id (htable sid hid)
    obtain ⟨change, -, he⟩ := hviewers id
    exact ⟨change v, by rw [he, hv, Option.map_some]⟩
  once := fun sid j id hid hjd => h.once sid j id (htable sid hid) (htable j hjd)
  named := by
    intro id w hw
    obtain ⟨change, hchange, he⟩ := hviewers id
    rw [he] at hw
    obtain ⟨v, hv, rfl⟩ := Option.map_eq_some_iff.mp hw
    rw [hchange]
    exact h.named id v hv

theorem Tidy.wane_registry (h : Tidy ids g vs) {g' : Registry} (hg : g'.Indexed)
    (htable : ∀ sid, g'.table sid ⊆ g.table sid) : Tidy ids g' vs :=
  h.wane hg htable fun _ => exists_change_self _

theorem Tidy.act {α : Type} (h : Tidy ids g vs) (sid : StreamId) {f : Stream → α × Stream}
    (hkey : ∀ s, (f s).2.key = s.key) (hviewers : ∀ s, (f s).2.viewers ⊆ s.viewers) :
    Tidy ids (g.act sid f).2 vs :=
  h.wane_registry (h.indexed.act sid hkey) (g.table_act_subset sid hviewers)

theorem Tidy.updateStream (h : Tidy ids g vs) (sid : StreamId) {f : Stream → Stream}
    (hkey : ∀ s, (f s).key = s.key) (hviewers : ∀ s, (f s).viewers ⊆ s.viewers) :
    Tidy ids (g.update sid f) vs :=
  h.act sid hkey hviewers

theorem Tidy.updateViewer (h : Tidy ids g vs) (id : ViewerId) {f : Viewer → Viewer}
    (hf : ∀ v, (f v).id = v.id) : Tidy ids g (vs.modify id f) := by
  refine h.wane h.indexed (fun _ => List.Subset.refl _) fun j => ?_
  rw [Table.find?_modify]
  split
  · exact ⟨f, hf, rfl⟩
  · exact exists_change_self _

/-- A viewer is made under a new name. -/
theorem Tidy.addViewer (h : Tidy ids g vs) {v : Viewer} (hid : v.id ∉ ids) :
    Tidy (v.id :: ids) g (vs.insert v.id v) where
  indexed := h.indexed
  attached := by
    intro sid id hm
    obtain ⟨w, hw⟩ := h.attached sid id hm
    refine ⟨w, ?_⟩
    rw [Table.find?_insert, if_neg, hw]
    rintro rfl
    exact h.unwatched_of_fresh hid sid hm
  once := h.once
  named := by
    intro id w hw
    rw [Table.find?_insert] at hw
    split at hw
    · rename_i he
      obtain rfl := Option.some.inj hw
      exact ⟨he ▸ List.mem_cons_self, he.symm⟩
    · exact ⟨List.mem_cons_of_mem _ (h.named id w hw).1, (h.named id w hw).2⟩

/-- A viewer that there is may be put into a stream, if no other one has it. -/
theorem Tidy.attach (h : Tidy ids g vs) {sid : StreamId} {id : ViewerId}
    (hid : ∃ v, vs.find? id = some v) (halone : ∀ j, id ∈ g.table j → j = sid) :
    Tidy ids (g.act sid (·.attach id)).2 vs := by
  have hkey : ∀ s : Stream, (s.attach id).2.key = s.key := by
    intro s
    rw [Stream.attach]
    split <;> rfl
  have hback : ∀ {j k}, k ∈ (g.act sid (·.attach id)).2.table j →
      k ∈ g.table j ∨ k = id ∧ j = sid := by
    intro j k hk
    obtain ⟨t, ht, hk⟩ := Registry.mem_table_iff.mp hk
    rw [Registry.stream?_act] at ht
    split at ht
    · rename_i hj
      obtain ⟨s, hs, rfl⟩ := Option.map_eq_some_iff.mp ht
      have hold : k ∈ s.viewers → k ∈ g.table j :=
        fun hm => Registry.mem_table_iff.mpr ⟨s, hj ▸ hs, hm⟩
      rw [Stream.attach] at hk
      split at hk
      · simp only at hk
        split at hk
        · exact .inl (hold hk)
        · rcases List.mem_append.mp hk with hm | hm
          · exact .inl (hold hm)
          · exact .inr ⟨List.mem_singleton.mp hm, hj⟩
      · exact .inl (hold hk)
    · exact .inl (Registry.mem_table_iff.mpr ⟨t, ht, hk⟩)
  refine ⟨h.indexed.act sid hkey, fun j k hk => ?_, fun i j k hi hj => ?_, h.named⟩
  · rcases hback hk with hold | ⟨rfl, -⟩
    · exact h.attached j k hold
    · exact hid
  · rcases hback hi with hold | ⟨rfl, rfl⟩
    · rcases hback hj with hold' | ⟨rfl, rfl⟩
      · exact h.once i j k hold hold'
      · exact halone i hold
    · rcases hback hj with hold' | ⟨-, rfl⟩
      · exact (halone j hold').symm
      · rfl

/-! ### Broadcasts -/

theorem Tidy.claim (h : Tidy ids g vs) (key : String) (now : Millis) :
    Tidy ids (g.claim key now).2 vs := by
  refine h.wane_registry (h.indexed.claim key now) fun j => ?_
  obtain ⟨-, he⟩ | ⟨sid, s, -, hs, -, ⟨-, he⟩ | ⟨-, he⟩⟩ := g.claim_cases h.indexed key now <;>
    rw [he]
  · rw [g.table_enroll key rfl]
    exact List.Subset.refl _
  · intro id hid
    obtain ⟨t, ht, hid⟩ := Registry.mem_table_iff.mp hid
    rw [Registry.stream?_put_of_some hs] at ht
    split at ht
    · rename_i hj
      obtain rfl := Option.some.inj ht
      exact Registry.mem_table_iff.mpr ⟨s, hj ▸ hs, hid⟩
    · exact Registry.mem_table_iff.mpr ⟨t, ht, hid⟩
  · exact List.Subset.refl _

theorem Tidy.getOrCreate (h : Tidy ids g vs) (key : String) (now : Millis) :
    Tidy ids (g.getOrCreate key now).2 vs := by
  obtain ⟨id, -, he⟩ | ⟨-, he⟩ := g.getOrCreate_cases key now <;> rw [he]
  · exact h
  · refine h.wane_registry (h.indexed.enroll rfl) fun j => ?_
    rw [g.table_enroll key rfl]
    exact List.Subset.refl _

theorem Tidy.markConnected (h : Tidy ids r.registry r.viewers) (sid : StreamId)
    (remote : Option SocketAddress) :
    Tidy ids (r.markConnected sid remote).2.registry (r.markConnected sid remote).2.viewers := by
  have hact := h.act sid (f := (·.markConnected remote)) (Stream.key_markConnected · remote) (by
    intro s
    rw [Stream.markConnected]
    split <;> exact List.Subset.refl _)
  obtain he | ⟨s, hs, -, he⟩ := r.markConnected_cases sid remote <;> rw [he]
  · exact h
  · rw [Registry.act_of_some hs] at hact
    exact hact

/-- Teardown leaves the other streams alone. -/
theorem Tidy.registry_teardown (h : Tidy ids r.registry r.viewers) {sid : StreamId} {s : Stream}
    (hs : r.registry.stream? sid = some s) (hp : s.hasPublisher = true) :
    (r.teardown sid).registry = r.withoutStream sid s :=
  Relay.registry_teardown h.namesViewers hs hp fun _ _ hj ht _ hid => h.not_mem hs ht hj hid

theorem Tidy.teardown (h : Tidy ids r.registry r.viewers) (sid : StreamId) :
    Tidy ids (r.teardown sid).registry (r.teardown sid).viewers := by
  cases hs : r.registry.stream? sid with
  | none =>
    rw [teardown_of_none hs]
    exact h
  | some s =>
    cases hp : s.hasPublisher with
    | false =>
      rw [teardown_of_free hs hp]
      exact h
    | true =>
      have hkept : ((r.registry.put sid s.released).forget sid).stream? sid = some s.released := by
        rw [Registry.stream?_forget, Registry.stream?_put_of_some hs, if_pos rfl]
      have hreleased : (r.registry.put sid s.released).Indexed := h.indexed.put hs rfl
      have hindexed : (r.withoutStream sid s).Indexed := (hreleased.forget sid).put hkept rfl
      rw [h.registry_teardown hs hp]
      refine h.wane hindexed (fun j id hid => ?_) fun id => ?_
      · obtain ⟨t, ht, hid⟩ := Registry.mem_table_iff.mp hid
        rw [stream?_withoutStream hs] at ht
        split at ht
        · rw [← Option.some.inj ht, Stream.viewers_retired] at hid
          exact absurd hid List.not_mem_nil
        · exact Registry.mem_table_iff.mpr ⟨t, ht, hid⟩
      · rw [viewers_teardown hs hp]
        split
        · exact ⟨Viewer.closed, fun _ => rfl, rfl⟩
        · exact exists_change_self _

theorem Tidy.disconnect (h : Tidy ids r.registry r.viewers) (key : String) :
    Tidy ids (r.disconnect key).registry (r.disconnect key).viewers := by
  unfold Relay.disconnect
  split
  · exact h.teardown _
  · exact h

theorem Tidy.foldl_teardown (h : Tidy ids r.registry r.viewers) (sids : List StreamId) :
    Tidy ids (sids.foldl Relay.teardown r).registry (sids.foldl Relay.teardown r).viewers := by
  induction sids generalizing r with
  | nil => exact h
  | cons sid rest ih => exact ih (h.teardown sid)

theorem Tidy.negotiateIngest (h : Tidy ids r.registry r.viewers) (sid : StreamId)
    (offer : String) :
    Tidy ids (r.negotiateIngest sid offer).2.registry (r.negotiateIngest sid offer).2.viewers := by
  obtain ⟨e, he⟩ | he := r.openConnection_cases <;> simp only [Relay.negotiateIngest, he]
  · exact h
  · exact h.updateStream sid (fun _ => rfl) fun _ => List.Subset.refl _

theorem Tidy.ingest (h : Tidy ids r.registry r.viewers) (offer key : String)
    (remote : Option SocketAddress) :
    Tidy ids (r.ingest offer key remote).2.registry (r.ingest offer key remote).2.viewers := by
  obtain ⟨last, hval⟩ := r.validate_eq key
  unfold Relay.ingest
  rw [hval]
  cases r.validator.accepts key with
  | false => exact h
  | true =>
    have hclaim := h.claim key r.clock
    simp only [onRegistry]
    generalize r.registry.claim key r.clock = answer at hclaim
    obtain ⟨e | sid, g⟩ := answer
    · exact hclaim
    · have hnegotiated := Tidy.negotiateIngest (r := { r with
        validator := { r.validator with lastMatched := last }, registry := g }) hclaim sid offer
      simp only
      split <;> rename_i he <;> rw [he] at hnegotiated
      · exact hnegotiated.teardown sid
      · have hmarked := hnegotiated.markConnected sid remote
        split <;> rename_i he <;> rw [he] at hmarked <;> exact hmarked

/-! ### Viewers -/

theorem Tidy.closeViewer (h : Tidy ids r.registry r.viewers) (id : ViewerId) :
    Tidy ids (r.closeViewer id).registry (r.closeViewer id).viewers := by
  have hclosed := h.updateViewer id (f := fun v => v.close.2) fun _ => rfl
  unfold Relay.closeViewer
  split
  · exact h
  · split
    · unfold leaveHome
      split
      · exact hclosed.updateStream _ (fun _ => rfl) fun _ => List.filter_sublist.subset
      · exact hclosed
    · exact hclosed

theorem Tidy.dropViewer (h : Tidy ids r.registry r.viewers) (sid : StreamId) (id : ViewerId) :
    Tidy ids (r.dropViewer sid id).registry (r.dropViewer sid id).viewers :=
  Tidy.closeViewer (r := r.updateStream sid fun s => (s.detach id).2)
    (h.updateStream sid (fun _ => rfl) fun _ => List.filter_sublist.subset) id

/-- A newcomer has its place. -/
theorem Tidy.seat (h : Tidy ids r.registry r.viewers) {q : Relay} {key : String} {id : ViewerId}
    {sid : StreamId} {s : Stream} {codec : Codec} (seat : Seated r q key id sid s codec)
    (hid : id ∉ ids) : Tidy (id :: ids) q.registry q.viewers := by
  have hmade := h.addViewer (v := newcomer id key codec r.connections.opened sid) hid
  have hseated : Tidy (id :: ids) (r.registry.act sid (·.attach id)).2 _ :=
    hmade.attach ⟨_, (Table.find?_insert ..).trans (if_pos rfl)⟩
      fun j hm => absurd hm (h.unwatched_of_fresh hid j)
  rw [Registry.act_of_some seat.stream?] at hseated
  rw [seat.registry]
  refine hseated.wane hseated.indexed (fun _ => List.Subset.refl _) fun j => ?_
  refine ⟨fun v => v, fun _ => rfl, ?_⟩
  rw [seat.viewers, Table.find?_insert, Option.map_id']
  rfl

theorem Tidy.createSession (h : Tidy ids r.registry r.viewers) (offer key : String)
    {id : ViewerId} (hid : id ∉ ids) :
    Tidy (id :: ids) (r.createSession offer key id).2.registry
      (r.createSession offer key id).2.viewers := by
  obtain ⟨e, he⟩ | ⟨q, sid, s, codec, seat, ⟨e, he⟩ | ⟨answer, he⟩⟩ :=
    r.createSession_cases offer key id <;> rw [he]
  · exact { h with
      named := fun j v hv => ⟨List.mem_cons_of_mem _ (h.named j v hv).1, (h.named j v hv).2⟩ }
  · exact (h.seat seat hid).dropViewer sid id
  · exact (h.seat seat hid).updateViewer id fun _ => rfl

/-! ### Operations and deeds -/

theorem Tidy.feedPacket (h : Tidy ids r.registry r.viewers) (loop : LoopId) (p : Packet) :
    Tidy ids (r.feedPacket loop p).2.registry (r.feedPacket loop p).2.viewers := by
  unfold Relay.feedPacket
  split
  · exact h
  · rename_i f hf
    have hread := h.updateStream f.stream (f := fun s => s.noteRead f p r.clock)
      (fun s => (s.sameHold_noteRead f p r.clock).key)
      fun s => (s.sameHold_noteRead f p r.clock).viewers ▸ List.Subset.refl _
    refine hread.wane hread.indexed (fun _ => List.Subset.refl _) fun j => ?_
    obtain ⟨change, hchange, he⟩ := find?_offerAll f p
      (((r.registry.stream? f.stream).map Stream.viewers).getD []) r.viewers j
    exact ⟨change, fun v => (hchange v).id, he⟩

theorem Tidy.serveKeyframes (h : Tidy ids r.registry r.viewers) :
    Tidy ids r.serveKeyframes.2.registry r.serveKeyframes.2.viewers := by
  refine h.wane_registry (fun k sid hk => ?_) fun sid id hid => ?_
  · obtain ⟨s, hs, hkey⟩ := h.indexed k sid hk
    exact ⟨{ s with keyframes := s.keyframes.serve.2 },
      by rw [stream?_serveKeyframes, hs]; rfl, hkey⟩
  · obtain ⟨t, ht, hid⟩ := Registry.mem_table_iff.mp hid
    rw [stream?_serveKeyframes] at ht
    obtain ⟨s, hs, rfl⟩ := Option.map_eq_some_iff.mp ht
    exact Registry.mem_table_iff.mpr ⟨s, hs, hid⟩

theorem Tidy.perform (h : Tidy ids r.registry r.viewers) (op : Operation)
    (hnew : ∀ id ∈ newViewer? op, id ∉ ids) :
    Tidy ((newViewer? op).toList ++ ids) (r.perform op).registry (r.perform op).viewers := by
  have hkept : ∀ s : Stream, s.viewers ⊆ s.viewers := fun _ => List.Subset.refl _
  cases op with
  | ingest offer key remote => exact h.ingest offer key remote
  | createSession offer key id => exact h.createSession offer key (hnew id rfl)
  | setLayer id layer =>
    simp only [Relay.perform, Relay.setLayer]
    split
    · exact h
    · exact (h.updateViewer id (f := fun v => v.selectLayer layer) fun _ => rfl).updateStream
        _ (fun _ => rfl) hkept
  | listLayers id => exact h
  | disconnect key => exact h.disconnect key
  | shutdown => exact h.foldl_teardown r.registry.registered
  | validate key => exact h
  | setKeys keys => exact h
  | clearLastMatched key => exact h
  | observeTrack sid kind codec => exact h.updateStream sid (fun _ => rfl) hkept
  | openFeed sid rid ssrc mimeType canSend => exact h.updateStream sid (fun _ => rfl) hkept
  | feedPacket loop p => exact h.feedPacket loop p
  | closeFeed loop =>
    simp only [Relay.perform, Relay.closeFeed]
    split
    · exact h
    · exact h.updateStream _ (fun _ => rfl) hkept
  | serveKeyframes => exact h.serveKeyframes
  | scriptSink id answer => exact h.updateViewer id fun _ => rfl
  | tick elapsed => exact h

/-- The relay after one deed. -/
def enact (r : Relay) : Deed → Relay
  | .operate op => r.perform op
  | .getOrCreate key => (r.onRegistry (·.getOrCreate key r.clock)).2
  | .claim key => (r.onRegistry (·.claim key r.clock)).2
  | .markConnected sid remote => (r.markConnected sid remote).2
  | .attachConnection sid c => r.updateStream sid (·.attachConnection c)
  | .makeViewer id key => { r with viewers := r.viewers.insert id { id, streamKey := key } }
  | .attachViewer sid id => (r.onRegistry (·.act sid (·.attach id))).2

/-- The relay after many deeds, oldest first. -/
def enactAll (r : Relay) (deeds : List Deed) : Relay := deeds.foldl enact r

/-- A viewer that is put into a stream is one that there is and that no other stream has. -/
def Fair (r : Relay) : Deed → Prop
  | .attachViewer sid id =>
    (∃ v, r.viewers.find? id = some v) ∧ ∀ j, id ∈ r.registry.table j → j = sid
  | _ => True

def AllFair : Relay → List Deed → Prop
  | _, [] => True
  | r, deed :: deeds => r.Fair deed ∧ AllFair (r.enact deed) deeds

theorem Tidy.enact (h : Tidy ids r.registry r.viewers) {deed : Deed} (hfair : r.Fair deed)
    (hnew : ∀ id ∈ deed.newViewer?, id ∉ ids) :
    Tidy (deed.newViewer?.toList ++ ids) (r.enact deed).registry (r.enact deed).viewers := by
  cases deed with
  | operate op => exact h.perform op hnew
  | getOrCreate key => exact h.getOrCreate key r.clock
  | claim key => exact h.claim key r.clock
  | markConnected sid remote => exact h.markConnected sid remote
  | attachConnection sid c => exact h.updateStream sid (fun _ => rfl) fun _ => List.Subset.refl _
  | makeViewer id key => exact h.addViewer (v := { id, streamKey := key }) (hnew id rfl)
  | attachViewer sid id => exact h.attach hfair.1 hfair.2

/-- **Every fair run leaves the relay tidy**, if it hands in each name once. -/
theorem Tidy.enactAll (h : Tidy ids r.registry r.viewers) {deeds : List Deed}
    (hnodup : (Deed.newViewers deeds).Nodup) (hnew : ∀ id ∈ Deed.newViewers deeds, id ∉ ids)
    (hfair : AllFair r deeds) :
    ∃ named, Tidy named (r.enactAll deeds).registry (r.enactAll deeds).viewers := by
  induction deeds generalizing r ids with
  | nil => exact ⟨ids, h⟩
  | cons deed rest ih =>
    rw [Deed.newViewers_cons] at hnodup hnew
    obtain ⟨hdeed, hrest, hnext⟩ := new_of_append hnodup hnew
    exact ih (h.enact hfair.1 fun id hid => hdeed id (Option.mem_toList.mpr hid)) hrest hnext
      hfair.2

end Relay

end Simulcast
