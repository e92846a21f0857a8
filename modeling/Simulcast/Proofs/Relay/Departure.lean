import Simulcast.Proofs.Relay.Deeds
/-!
# The end of a broadcast

Ending the broadcast under a key takes one stream off the air and leaves all others alone.
`Relay.Departed` lists what is different afterwards: the entry, the stream, its viewers, the
remembered key, the connections and the notices.  It is read off `Relay.teardown_of_held`, which
needs that the viewers of the stream are in no other one (`Relay.Tidy`).

A shutdown ends the broadcasts of all entries, in the order in which the table happens to list
them.  The streams that are still to come are as they were at the start, so by induction on the
entries that are done the relay differs from the start in what those streams had
(`Relay.Cleared`).  Nothing in this but the order of the notices depends on the order of the
entries (`Relay.Cleared.alike`).
-/

namespace Simulcast

theorem KeyValidator.clearLastMatched_eq (v : KeyValidator) (key : String) :
    v.clearLastMatched key
      = { v with lastMatched := if v.lastMatched = some key then none else v.lastMatched } := by
  unfold clearLastMatched
  split <;> rfl

@[simp] theorem Viewer.connection_closed (v : Viewer) : v.closed.connection = none := rfl

namespace Relay

variable {ids : List ViewerId} {r q p : Relay}

/-! ### Connections -/

theorem mem_closed_closeViewer (r : Relay) (id : ViewerId) (c : ConnectionId) :
    c ∈ (r.closeViewer id).connections.closed ↔ c ∈ r.connections.closed ∨
      ∃ v, r.viewers.find? id = some v ∧ v.connection = some c := by
  have hleave : ∀ (q : Relay) v, (q.leaveHome v).connections = q.connections := by
    intro q v
    unfold leaveHome
    split <;> rfl
  unfold closeViewer
  cases hv : r.viewers.find? id with
  | none => simp
  | some v =>
    cases hc : v.connection with
    | none => simp [hc, updateViewer]
    | some d =>
      simp only [hleave, Option.some.injEq, exists_eq_left', hc]
      exact (ConnectionPool.mem_closed_close ..).trans (by rw [or_comm, eq_comm]; rfl)

theorem mem_closed_foldl_closeViewer (ids : List ViewerId) (r : Relay) (c : ConnectionId) :
    c ∈ (ids.foldl closeViewer r).connections.closed ↔ c ∈ r.connections.closed ∨
      ∃ id ∈ ids, ∃ v, r.viewers.find? id = some v ∧ v.connection = some c := by
  induction ids generalizing r with
  | nil => simp
  | cons id rest ih =>
    rw [List.foldl_cons, ih, mem_closed_closeViewer]
    constructor
    · rintro ((hc | ⟨v, hv, hvc⟩) | ⟨j, hj, v, hv, hvc⟩)
      · exact .inl hc
      · exact .inr ⟨id, List.mem_cons_self, v, hv, hvc⟩
      · rw [find?_viewers_closeViewer] at hv
        split at hv
        · -- the viewer was closed just now, so it has no connection any more
          obtain ⟨u, -, rfl⟩ := Option.map_eq_some_iff.mp hv
          exact absurd hvc (by simp)
        · exact .inr ⟨j, List.mem_cons_of_mem _ hj, v, hv, hvc⟩
    · rintro (hc | ⟨j, hj, v, hv, hvc⟩)
      · exact .inl (.inl hc)
      · by_cases he : j = id
        · exact .inl (.inr ⟨v, he ▸ hv, hvc⟩)
        · refine .inr ⟨j, (List.mem_cons.mp hj).resolve_left he, v, ?_, hvc⟩
          rw [find?_viewers_closeViewer, if_neg he, hv]

/-- The connections of a stream: its broadcaster's and those of its viewers. -/
def Serves (r : Relay) (s : Stream) (c : ConnectionId) : Prop :=
  s.connection = some c ∨
    ∃ id ∈ s.viewers, ∃ v, r.viewers.find? id = some v ∧ v.connection = some c

theorem mem_closed_closeReleased (r : Relay) (released : Released) (c : ConnectionId) :
    c ∈ (r.closeReleased released).connections.closed ↔
      released.connection = some c ∨ c ∈ r.connections.closed := by
  unfold closeReleased
  split
  · rename_i d hd
    rw [hd, Option.some.injEq, eq_comm]
    exact ConnectionPool.mem_closed_close ..
  · rename_i hnone
    simp [hnone]

/-! ### One broadcast ends -/

/-- Beside its tables, the remembered key and the notices, the relay is the same. -/
def SameRest (r q : Relay) : Prop :=
  q = { r with
    validator := { r.validator with lastMatched := q.validator.lastMatched }
    registry := { q.registry with queueCapacity := r.registry.queueCapacity }
    viewers := q.viewers
    connections := { q.connections with opened := r.connections.opened }
    notices := q.notices }

theorem SameRest.refl (r : Relay) : r.SameRest r := rfl

theorem SameRest.trans (h : r.SameRest q) (g : q.SameRest p) : r.SameRest p := by
  unfold SameRest at h g ⊢
  rw [h] at g
  exact g

theorem SameRest.symm (h : r.SameRest q) : q.SameRest r := by
  unfold SameRest at h ⊢
  rw [h]

theorem SameFrame.sameRest (h : r.SameFrame q)
    (hcapacity : q.registry.queueCapacity = r.registry.queueCapacity)
    (hopened : q.connections.opened = r.connections.opened) : r.SameRest q := by
  have hnotices : q.notices = r.notices := by rw [h]
  unfold SameRest
  rw [← hcapacity, ← hopened, hnotices]
  exact h

/-- **What the end of a broadcast leaves**: the relay `q` is the relay `r` without the broadcast
of the stream `s` under the key `k`. -/
structure Departed (r q : Relay) (k : String) (sid : StreamId) (s : Stream) : Prop where
  /-- The key is not registered any more; other keys are as before. -/
  unregistered : q.registry.find? k = none
  registered : ∀ j, j ≠ k → q.registry.find? j = r.registry.find? j
  /-- Nobody holds the stream, and its connection and its viewers are gone. -/
  retired : q.registry.stream? sid
    = some { s with phase := .disconnected, connection := none, viewers := [] }
  /-- Its viewers are closed. -/
  closed : ∀ id ∈ s.viewers, ∃ v, r.viewers.find? id = some v ∧
    q.viewers.find? id = some { v with phase := .closed, connection := none }
  /-- Every other stream is as before, and so are its viewers, -/
  others : ∀ j, j ≠ sid → q.registry.stream? j = r.registry.stream? j
  apart : ∀ j t, j ≠ sid → r.registry.stream? j = some t → ∀ id ∈ t.viewers,
    q.viewers.find? id = r.viewers.find? id
  /-- indeed all that were not in the stream. -/
  spared : ∀ id, id ∉ s.viewers → q.viewers.find? id = r.viewers.find? id
  /-- The key is forgotten if it was remembered. -/
  lastMatched : q.validator.lastMatched
    = if r.validator.lastMatched = some k then none else r.validator.lastMatched
  /-- The outside is told once if the broadcast was on air, and not at all otherwise. -/
  notices : q.notices = r.notices ++ if s.phase = .connected then [.disconnected k] else []
  /-- The connections of the broadcaster and of the viewers are closed, and no other. -/
  hungUp : ∀ c, c ∈ q.connections.closed ↔ c ∈ r.connections.closed ∨ r.Serves s c
  rest : r.SameRest q

theorem closeReleased_keeps (r : Relay) (released : Released) :
    (r.closeReleased released).connections.opened = r.connections.opened ∧
      (r.closeReleased released).validator = r.validator := by
  unfold closeReleased
  split
  · exact ⟨ConnectionPool.opened_close .., rfl⟩
  · exact ⟨rfl, rfl⟩

/-- No connection is made when viewers are closed, and no key is forgotten. -/
theorem foldl_closeViewer_keeps (ids : List ViewerId) (r : Relay) :
    (ids.foldl closeViewer r).connections.opened = r.connections.opened ∧
      (ids.foldl closeViewer r).validator = r.validator := by
  induction ids generalizing r with
  | nil => exact ⟨rfl, rfl⟩
  | cons id rest ih =>
    have hstep : (r.closeViewer id).connections.opened = r.connections.opened ∧
        (r.closeViewer id).validator = r.validator := by
      unfold closeViewer
      split
      · exact ⟨rfl, rfl⟩
      · split
        · unfold leaveHome
          split <;> exact ⟨ConnectionPool.opened_close .., rfl⟩
        · exact ⟨rfl, rfl⟩
    exact ⟨(ih _).1.trans hstep.1, (ih _).2.trans hstep.2⟩

/-- What teardown of a held stream does beside the streams and the viewers. -/
theorem Tidy.teardown_rest (h : Tidy ids r.registry r.viewers) {sid : StreamId} {s : Stream}
    (hs : r.registry.stream? sid = some s) (hp : s.hasPublisher = true) :
    (r.teardown sid).validator = r.validator.clearLastMatched s.key ∧
      (r.teardown sid).notices
        = r.notices ++ (if s.phase = .connected then [.disconnected s.key] else []) ∧
      (∀ c, c ∈ (r.teardown sid).connections.closed ↔
        c ∈ r.connections.closed ∨ r.Serves s c) ∧
      r.SameRest (r.teardown sid) := by
  have hdown := teardown_of_held hs hp
  have hframe := (r.sameFrame_drained sid s).trans
    (sameFrame_foldl_closeViewer s.viewers (r.drained sid s))
  obtain ⟨hopened, hvalidator⟩ := foldl_closeViewer_keeps s.viewers (r.drained sid s)
  obtain ⟨hopened', hvalidator'⟩ := r.closeReleased_keeps ⟨s.connection, s.isLive⟩
  have hclosed : ∀ c, c ∈ (s.viewers.foldl Relay.closeViewer (r.drained sid s)).connections.closed
      ↔ c ∈ r.connections.closed ∨ r.Serves s c := by
    intro c
    have hreleased : c ∈ (r.drained sid s).connections.closed ↔ _ :=
      r.mem_closed_closeReleased ⟨s.connection, s.isLive⟩ c
    rw [mem_closed_foldl_closeViewer, viewers_drained, hreleased,
      or_comm (a := s.connection = some c), or_assoc]
    rfl
  have hcapacity : (s.viewers.foldl Relay.closeViewer (r.drained sid s)).registry.queueCapacity
      = r.registry.queueCapacity := by
    have hreg := h.registry_teardown hs hp
    rw [← queueCapacity_withoutStream r sid s, ← hreg, hdown]
    split <;> rfl
  generalize s.viewers.foldl Relay.closeViewer (r.drained sid s) = q at *
  have hnotices : q.notices = r.notices := by rw [hframe]
  have hrest := hframe.sameRest hcapacity (hopened.trans hopened')
  have htold : r.teardown sid = { q with
      notices := r.notices ++ if s.phase = .connected then [.disconnected s.key] else [] } := by
    rw [hdown, Stream.isLive, ← hnotices]
    by_cases hl : s.phase = .connected
    · rw [if_pos (decide_eq_true hl), if_pos hl]
      rfl
    · rw [if_neg (by simpa using hl), if_neg hl, List.append_nil]
  rw [htold]
  refine ⟨hvalidator.trans ?_, rfl, hclosed, hrest.trans rfl⟩
  exact congrArg (·.clearLastMatched s.key) hvalidator'

/-- **One broadcast ends.** -/
theorem Tidy.departed (h : Tidy ids r.registry r.viewers) {sid : StreamId} {s : Stream}
    (hf : r.registry.find? s.key = some sid) (hs : r.registry.stream? sid = some s)
    (hp : s.hasPublisher = true) : Departed r (r.teardown sid) s.key sid s := by
  obtain ⟨hvalidator, hnotices, hclosed, hrest⟩ := h.teardown_rest hs hp
  have hviewers := viewers_teardown hs hp
  have hfind := find?_withoutStream hs
  have hstream := stream?_withoutStream hs
  rw [← h.registry_teardown hs hp] at hfind hstream
  have hspared : ∀ id, id ∉ s.viewers →
      (r.teardown sid).viewers.find? id = r.viewers.find? id :=
    fun id hid => (hviewers id).trans (if_neg hid)
  exact {
    unregistered := (hfind s.key).trans (if_pos ⟨rfl, hf⟩)
    registered := fun j hj => (hfind j).trans (if_neg fun c => hj c.1)
    retired := (hstream sid).trans (if_pos rfl)
    closed := by
      intro id hid
      obtain ⟨v, hv⟩ := h.attached sid id (Registry.mem_table_iff.mpr ⟨s, hs, hid⟩)
      exact ⟨v, hv, by rw [hviewers, if_pos hid, hv]; rfl⟩
    others := fun j hj => (hstream j).trans (if_neg hj)
    apart := fun j t hj ht id hid => hspared id fun hm => h.not_mem hs ht hj hm hid
    spared := hspared
    lastMatched := by rw [hvalidator, KeyValidator.clearLastMatched_eq]
    notices := hnotices
    hungUp := hclosed
    rest := hrest }

/-! ### Many broadcasts end -/

/-- The relay `q` is the relay `r` without the broadcasts of some streams. -/
structure Cleared (r q : Relay) (ended : List (StreamId × Stream)) : Prop where
  find? : ∀ k, q.registry.find? k
    = if k ∈ ended.map (·.2.key) then none else r.registry.find? k
  stream? : ∀ j, q.registry.stream? j
    = if j ∈ ended.map Prod.fst then (r.registry.stream? j).map Stream.retired
      else r.registry.stream? j
  viewers : ∀ id, q.viewers.find? id
    = if id ∈ ended.flatMap (·.2.viewers) then (r.viewers.find? id).map Viewer.closed
      else r.viewers.find? id
  lastMatched : q.validator.lastMatched
    = r.validator.lastMatched.filter (· ∉ ended.map (·.2.key))
  notices : q.notices
    = r.notices ++ (ended.filter (·.2.isLive)).map fun e => .disconnected e.2.key
  hungUp : ∀ c, c ∈ q.connections.closed
    ↔ c ∈ r.connections.closed ∨ ∃ e ∈ ended, r.Serves e.2 c
  rest : r.SameRest q

theorem cleared_nil (r : Relay) : Cleared r r [] where
  find? := fun _ => rfl
  stream? := fun _ => rfl
  viewers := fun _ => rfl
  lastMatched := by
    cases r.validator.lastMatched with
    | none => rfl
    | some k => rfl
  notices := (List.append_nil _).symm
  hungUp := by simp
  rest := .refl r

/-- What a stream serves is not changed by the end of other broadcasts, but for what was closed
with them. -/
theorem Cleared.serves_iff {ended : List (StreamId × Stream)} (h : Cleared r q ended) (s : Stream)
    (c : ConnectionId) :
    (∃ e ∈ ended, r.Serves e.2 c) ∨ q.Serves s c
      ↔ (∃ e ∈ ended, r.Serves e.2 c) ∨ r.Serves s c := by
  constructor
  · rintro (he | hc | ⟨id, hid, v, hv, hvc⟩)
    · exact .inl he
    · exact .inr (.inl hc)
    · rw [h.viewers] at hv
      split at hv
      · -- the viewer was closed, so it has no connection
        obtain ⟨u, -, rfl⟩ := Option.map_eq_some_iff.mp hv
        exact absurd hvc (by simp)
      · exact .inr (.inr ⟨id, hid, v, hv, hvc⟩)
  · rintro (he | hc | ⟨id, hid, v, hv, hvc⟩)
    · exact .inl he
    · exact .inr (.inl hc)
    · by_cases hm : id ∈ ended.flatMap (·.2.viewers)
      · obtain ⟨e, he, hide⟩ := List.mem_flatMap.mp hm
        exact .inl ⟨e, he, .inr ⟨id, hide, v, hv, hvc⟩⟩
      · exact .inr (.inr ⟨id, hid, v, by rw [h.viewers, if_neg hm, hv], hvc⟩)

theorem filter_not_mem_concat (o : Option String) (keys : List String) (k : String) :
    o.filter (· ∉ keys ++ [k])
      = if o.filter (· ∉ keys) = some k then none else o.filter (· ∉ keys) := by
  cases o with
  | none => rfl
  | some j =>
    rw [Option.filter_some, Option.filter_some]
    by_cases hold : j ∈ keys
    · simp [hold]
    · by_cases hj : j = k
      · simp [hj]
      · simp [hold, hj]

/-- **One broadcast more ends.** -/
theorem Cleared.snoc {ended : List (StreamId × Stream)} {sid : StreamId} {s : Stream}
    (h : Cleared r q ended) (hs : r.registry.stream? sid = some s)
    (hd : Departed q p s.key sid s) : Cleared r p (ended ++ [(sid, s)]) where
  find? k := by
    simp only [List.map_append, List.mem_append, List.map_cons, List.map_nil, List.mem_singleton]
    by_cases hk : k = s.key
    · rw [if_pos (.inr hk), hk, hd.unregistered]
    · simp only [hk, or_false]
      rw [hd.registered k hk, h.find?]
  stream? j := by
    simp only [List.map_append, List.mem_append, List.map_cons, List.map_nil, List.mem_singleton]
    by_cases hj : j = sid
    · rw [if_pos (.inr hj), hj, hd.retired, hs]
      rfl
    · simp only [hj, or_false]
      rw [hd.others j hj, h.stream?]
  viewers id := by
    simp only [List.flatMap_append, List.mem_append, List.flatMap_cons, List.flatMap_nil,
      List.append_nil]
    by_cases hid : id ∈ s.viewers
    · obtain ⟨v, hv, hclosed⟩ := hd.closed id hid
      have hclosed : p.viewers.find? id = (some v).map Viewer.closed := hclosed
      rw [h.viewers] at hv
      rw [if_pos (.inr hid), hclosed, ← hv]
      split
      · rw [Option.map_map]
        rfl
      · rfl
    · simp only [hid, or_false]
      rw [hd.spared id hid, h.viewers]
  lastMatched := by
    rw [hd.lastMatched, h.lastMatched]
    rw [List.map_append]
    exact (filter_not_mem_concat ..).symm
  notices := by
    rw [hd.notices, h.notices, List.append_assoc, List.filter_append, List.map_append]
    by_cases hl : s.phase = .connected
    · rw [if_pos hl, List.filter_cons_of_pos (by simpa [Stream.isLive] using hl)]
      rfl
    · rw [if_neg hl, List.filter_cons_of_neg (by simpa [Stream.isLive] using hl)]
      rfl
  hungUp c := by
    rw [hd.hungUp, h.hungUp, or_assoc, h.serves_iff]
    simp only [List.mem_append, List.mem_singleton, or_and_right, exists_or, exists_eq_left]
  rest := h.rest.trans hd.rest

/-- The streams that are held among those that a list of entries names. -/
def heldIn (r : Relay) (entries : List (String × StreamId)) : List (StreamId × Stream) :=
  entries.filterMap fun e =>
    ((r.registry.stream? e.2).filter Stream.hasPublisher).map fun s => (e.2, s)

theorem heldIn_append (r : Relay) (es fs : List (String × StreamId)) :
    r.heldIn (es ++ fs) = r.heldIn es ++ r.heldIn fs := List.filterMap_append

theorem mem_heldIn_iff {entries : List (String × StreamId)} {x : StreamId × Stream} :
    x ∈ r.heldIn entries ↔ (∃ k, (k, x.1) ∈ entries) ∧ r.registry.stream? x.1 = some x.2 ∧
      x.2.hasPublisher = true := by
  obtain ⟨sid, s⟩ := x
  simp only [heldIn, List.mem_filterMap, Option.map_eq_some_iff, Option.filter_eq_some_iff,
    Prod.mk.injEq]
  constructor
  · rintro ⟨⟨k, j⟩, he, t, ⟨ht, hp⟩, rfl, rfl⟩
    exact ⟨⟨k, he⟩, ht, hp⟩
  · rintro ⟨⟨k, he⟩, hs, hp⟩
    exact ⟨(k, sid), he, s, ⟨hs, hp⟩, rfl, rfl⟩

/-- **Broadcasts end one after the other**, each as if it were the only one. -/
theorem Tidy.cleared (h : Tidy ids r.registry r.viewers)
    {entries : List (String × StreamId)} (hnodup : (entries.map Prod.fst).Nodup)
    (hentries : ∀ e ∈ entries, r.registry.find? e.1 = some e.2) :
    Cleared r ((entries.map Prod.snd).foldl Relay.teardown r) (r.heldIn entries) ∧
      (entries.map Prod.fst).foldl Relay.disconnect r
        = (entries.map Prod.snd).foldl Relay.teardown r := by
  induction entries using List.reverseRecOn with
  | nil => exact ⟨cleared_nil r, rfl⟩
  | append_singleton done e ih =>
    obtain ⟨k, sid⟩ := e
    rw [List.map_append, List.nodup_append] at hnodup
    have hk : k ∉ done.map Prod.fst := fun hm =>
      hnodup.2.2 k hm k (List.mem_singleton_self _) rfl
    obtain ⟨hcleared, hsame⟩ := ih hnodup.1 fun e he => hentries e (List.mem_append_left _ he)
    have htidy := h.foldl_teardown (done.map Prod.snd)
    rw [List.map_append, List.map_append, List.foldl_append, List.foldl_append, hsame]
    generalize (done.map Prod.snd).foldl Relay.teardown r = q at *
    have hf := hentries (k, sid) (List.mem_append_right _ (List.mem_singleton_self _))
    obtain ⟨s, hs, rfl⟩ := h.indexed k sid hf
    -- the stream is still as it was, since it is none of those that were taken off the air
    have hother : ∀ x ∈ r.heldIn done, x.1 ≠ sid ∧ x.2.key ≠ s.key := by
      rintro ⟨j, t⟩ hx
      obtain ⟨⟨i, hi⟩, ht, -⟩ := mem_heldIn_iff.mp hx
      obtain ⟨u, hu, rfl⟩ := h.indexed i j (hentries (i, j) (List.mem_append_left _ hi))
      obtain rfl := Option.some.inj (ht.symm.trans hu)
      have hkey : t.key ≠ s.key := fun he => hk (he ▸ List.mem_map_of_mem (f := Prod.fst) hi)
      refine ⟨?_, hkey⟩
      rintro rfl
      exact hkey (congrArg Stream.key (Option.some.inj (ht.symm.trans hs)))
    have hfq : q.registry.find? s.key = some sid := by
      rw [hcleared.find?, if_neg, hf]
      intro hm
      obtain ⟨x, hx, hkey⟩ := List.mem_map.mp hm
      exact (hother x hx).2 hkey
    have hsq : q.registry.stream? sid = some s := by
      rw [hcleared.stream?, if_neg, hs]
      intro hm
      obtain ⟨x, hx, hsid⟩ := List.mem_map.mp hm
      exact (hother x hx).1 hsid
    refine ⟨?_, show q.disconnect s.key = q.teardown sid by rw [Relay.disconnect, hfq]⟩
    show Cleared r (q.teardown sid) _
    rw [heldIn_append]
    cases hp : s.hasPublisher with
    | false =>
      have hnone : r.heldIn [(s.key, sid)] = [] := by simp [heldIn, hs, hp]
      rw [teardown_of_free hsq hp, hnone, List.append_nil]
      exact hcleared
    | true =>
      have hone : r.heldIn [(s.key, sid)] = [(sid, s)] := by simp [heldIn, hs, hp]
      rw [hone]
      exact hcleared.snoc hs (htidy.departed hfq hsq hp)

/-! ### The order of the entries -/

/-- Two relays that keep the same, if in another order, and told the same, if in another order. -/
structure Alike (q p : Relay) : Prop where
  find? : ∀ k, p.registry.find? k = q.registry.find? k
  stream? : ∀ j, p.registry.stream? j = q.registry.stream? j
  viewers : ∀ id, p.viewers.find? id = q.viewers.find? id
  lastMatched : p.validator.lastMatched = q.validator.lastMatched
  notices : p.notices.Perm q.notices
  hungUp : ∀ c, c ∈ p.connections.closed ↔ c ∈ q.connections.closed
  rest : q.SameRest p

/-- **It does not matter in which order broadcasts end.** -/
theorem Cleared.alike {ended ended' : List (StreamId × Stream)} (h : Cleared r q ended)
    (h' : Cleared r p ended') (hperm : ended'.Perm ended) : Alike q p where
  find? k := by
    rw [h.find?, h'.find?]
    simp only [(hperm.map _).mem_iff]
  stream? j := by
    rw [h.stream?, h'.stream?]
    simp only [(hperm.map _).mem_iff]
  viewers id := by
    rw [h.viewers, h'.viewers]
    simp only [(hperm.flatMap_right _).mem_iff]
  lastMatched := by
    rw [h.lastMatched, h'.lastMatched]
    simp only [(hperm.map _).mem_iff]
  notices := by
    rw [h.notices, h'.notices]
    exact ((hperm.filter _).map _).append_left _
  hungUp c := by
    rw [h.hungUp, h'.hungUp]
    simp only [hperm.mem_iff]
  rest := h.rest.symm.trans h'.rest

/-! ### What disconnecting and shutting down do -/

/-- **What becomes of a key when its broadcast is ended.** -/
structure Departs (r : Relay) (k : String) : Prop where
  /-- If nothing is registered or nobody holds what is registered, nothing happens. -/
  idle : r.registry.Free k → r.disconnect k = r
  /-- Otherwise the broadcast of the registered stream ends, and whoever claims the key next gets
  a new stream. -/
  ends : ∀ sid s, r.registry.find? k = some sid → r.registry.stream? sid = some s →
    s.hasPublisher = true → Departed r (r.disconnect k) k sid s ∧
      ∀ now, ∃ j, ((r.disconnect k).registry.claim k now).1 = .ok j ∧ j ≠ sid ∧
        r.registry.stream? j = none
  /-- The second time nothing happens. -/
  again : (r.disconnect k).disconnect k = r.disconnect k

/-- **What becomes of a relay that is shut down**, when the entries of its table are listed in
some order. -/
structure ShutsDown (r : Relay) (order : List (String × StreamId)) : Prop where
  /-- Their streams are taken off the air as if their keys were disconnected one by one, -/
  each : (order.map Prod.snd).foldl teardown r = (order.map Prod.fst).foldl disconnect r
  /-- which ends the broadcasts of all that are held. -/
  cleared : Cleared r ((order.map Prod.snd).foldl teardown r) (r.heldIn order)
  /-- It comes to the same as in the order of the table. -/
  alike : Alike r.shutdown ((order.map Prod.snd).foldl teardown r)

theorem Tidy.departs (h : Tidy ids r.registry r.viewers) (k : String) : r.Departs k := by
  by_cases hfree : r.registry.Free k
  · have hidle : r.disconnect k = r := by
      unfold Relay.disconnect
      split
      · rename_i sid hf
        obtain ⟨s, hs, -⟩ := h.indexed k sid hf
        exact teardown_of_free hs (hfree sid s hf hs)
      · rfl
    refine ⟨fun _ => hidle, fun sid s hf hs hp => ?_, by rw [hidle, hidle]⟩
    exact absurd (hfree sid s hf hs) (by rw [hp]; simp)
  · obtain ⟨sid, s, hf, hs, hp⟩ := Registry.exists_of_not_free hfree
    obtain rfl : s.key = k := by
      obtain ⟨t, ht, hkey⟩ := h.indexed k sid hf
      exact Option.some.inj (hs.symm.trans ht) ▸ hkey
    have hdown : r.disconnect s.key = r.teardown sid := by rw [Relay.disconnect, hf]
    have hend := h.departed hf hs hp
    rw [← hdown] at hend
    refine ⟨fun hno => absurd hno hfree, fun j t hj ht _ => ?_, ?_⟩
    · obtain rfl := Option.some.inj (hf.symm.trans hj)
      obtain rfl := Option.some.inj (hs.symm.trans ht)
      have hnew := (r.disconnect s.key).registry.stream?_length
      have hne : (r.disconnect s.key).registry.streams.length ≠ sid := by
        intro he
        rw [he, hend.retired] at hnew
        exact absurd hnew (by simp)
      refine ⟨hend, fun now => ⟨_, ?_, hne, ?_⟩⟩
      · rw [Registry.claim_of_find?_eq_none hend.unregistered]
      · rw [← hend.others _ hne, hnew]
    · rw [Relay.disconnect, hend.unregistered]

theorem Tidy.shutsDown (h : Tidy ids r.registry r.viewers) {order : List (String × StreamId)}
    (hperm : order.Perm r.registry.index.entries) : r.ShutsDown order := by
  have hall : ∀ {es : List (String × StreamId)}, es.Perm r.registry.index.entries →
      Cleared r ((es.map Prod.snd).foldl Relay.teardown r) (r.heldIn es) ∧
        (es.map Prod.fst).foldl Relay.disconnect r = (es.map Prod.snd).foldl Relay.teardown r := by
    intro es hes
    refine h.cleared ((hes.map Prod.fst).nodup_iff.mpr r.registry.index.nodup) ?_
    rintro ⟨k, sid⟩ he
    exact (r.registry.index.mem_entries_iff k sid).mp (hes.mem_iff.mp he)
  obtain ⟨hcleared, hsame⟩ := hall hperm
  exact ⟨hsame.symm, hcleared, (hall (.refl _)).1.alike hcleared (hperm.filterMap _)⟩

/-- **The end of broadcasts**, whatever was done to the relay before. -/
theorem departs_and_shutsDown (settings : Settings)
    (negotiate : Attempt → Except RelayError Agreement) (deeds : List Deed)
    (hnodup : (Deed.newViewers deeds).Nodup) (hfair : AllFair (start settings negotiate) deeds) :
    (∀ k, ((start settings negotiate).enactAll deeds).Departs k) ∧
      ∀ order, order.Perm ((start settings negotiate).enactAll deeds).registry.index.entries →
        ((start settings negotiate).enactAll deeds).ShutsDown order := by
  obtain ⟨named, htidy⟩ := Tidy.enactAll (r := start settings negotiate)
    (tidy_empty settings.queueCapacity) hnodup (fun id _ => List.not_mem_nil) hfair
  exact ⟨htidy.departs, fun _ hperm => htidy.shutsDown hperm⟩

/-- A broadcast with two viewers, one of them made by hand, beside a stream that nobody holds and
one that is negotiated. -/
def threeKeys : List Deed :=
  [.operate (.ingest "offer" "k" none), .operate (.createSession "offer" "k" "v"),
    .makeViewer "w" "k", .attachViewer 0 "w", .getOrCreate "idle", .claim "late",
    .attachConnection 2 7]

theorem departs_and_shutsDown_threeKeys :
    let r := (start { streamKeys := ["k"] } fun _ => .ok { answer := "answer" }).enactAll threeKeys
    (Deed.newViewers threeKeys).Nodup ∧
      AllFair (start { streamKeys := ["k"] } fun _ => .ok { answer := "answer" }) threeKeys ∧
      r.registry.index.entries = [("k", 0), ("idle", 1), ("late", 2)] ∧
      r.registry.table 0 = ["v", "w"] ∧ (∀ k, r.Departs k) ∧
      (r.disconnect "k").notices = [.connected "k", .disconnected "k"] ∧
      (r.disconnect "late").notices = [.connected "k"] ∧
      r.ShutsDown [("late", 2), ("idle", 1), ("k", 0)] := by
  have hfair : AllFair (start { streamKeys := ["k"] } fun _ => .ok { answer := "answer" })
      threeKeys := by
    refine ⟨trivial, trivial, trivial, ⟨Option.isSome_iff_exists.mp (by decide), fun j hj => ?_⟩,
      trivial, trivial, trivial, trivial⟩
    cases j with
    | zero => rfl
    | succ j => exact absurd (show "w" ∈ ([] : List ViewerId) from hj) List.not_mem_nil
  have hentries : ((start { streamKeys := ["k"] } fun _ => .ok { answer := "answer" }).enactAll
      threeKeys).registry.index.entries = [("k", 0), ("idle", 1), ("late", 2)] := by decide
  obtain ⟨hdeparts, hdown⟩ := departs_and_shutsDown _ _ threeKeys (by decide) hfair
  refine ⟨by decide, hfair, hentries, by decide, hdeparts, by decide, by decide, hdown _ ?_⟩
  rw [hentries]
  exact List.reverse_perm [("k", 0), ("idle", 1), ("late", 2)]

end Relay

end Simulcast
