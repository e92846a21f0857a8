import Simulcast.Proofs.Relay.Operation
import Simulcast.Proofs.Relay.Views
/-!
# Settled streams and viewers

Between two complete operations a stream is either on air and registered or off the air
and empty, and a viewer is either attached to one stream or closed.  `Relay.Settled` is
this invariant of the registry and the viewers.

This file says which changes keep it.  `Relay.Settled.frame` covers all that only touch
layers, counters, keyframe requests, timelines and the like.  The others are the ways in
and out: a stream is added, on air or already off the air again
(`Relay.Settled.addStream`), a broadcast ends (`Relay.Settled.retire`), a viewer joins
(`Relay.Settled.join`) or is declined (`Relay.Settled.decline`).  Each is stated on what
look-up finds before and after, not on the operation that does it.
-/

namespace Simulcast

/-! ### What most operations leave alone -/

/-- Two states of a stream with the same key, hold and viewers. -/
structure Stream.SameHold (s t : Stream) : Prop where
  key : t.key = s.key
  phase : t.phase = s.phase
  connection : t.connection = s.connection
  viewers : t.viewers = s.viewers

/-- Two states of a viewer with the same name, phase and place. -/
structure Viewer.SameSeat (v w : Viewer) : Prop where
  id : w.id = v.id
  phase : w.phase = v.phase
  streamKey : w.streamKey = v.streamKey
  home : w.home = v.home

theorem Stream.SameHold.refl (s : Stream) : s.SameHold s := ⟨rfl, rfl, rfl, rfl⟩

theorem Viewer.SameSeat.refl (v : Viewer) : v.SameSeat v := ⟨rfl, rfl, rfl, rfl⟩

theorem Viewer.SameSeat.trans {u v w : Viewer} (h : u.SameSeat v) (g : v.SameSeat w) :
    u.SameSeat w :=
  ⟨g.id.trans h.id, g.phase.trans h.phase, g.streamKey.trans h.streamKey, g.home.trans h.home⟩

theorem Stream.sameHold_noteRead (s : Stream) (f : Feed) (p : Packet) (now : Millis) :
    s.SameHold (s.noteRead f p now) := by
  unfold noteRead addLayer
  split
  · split <;> exact ⟨rfl, rfl, rfl, rfl⟩
  · exact ⟨rfl, rfl, rfl, rfl⟩

theorem Viewer.sameSeat_send (v : Viewer) (p : Packet) (layer : String) (delta : UInt32)
    (av1 : Bool) : v.SameSeat (v.send p layer delta av1).2 := by
  unfold send settle
  split
  · simp only
    split
    · exact ⟨rfl, rfl, rfl, rfl⟩
    · split <;> exact ⟨rfl, rfl, rfl, rfl⟩
  · exact ⟨rfl, rfl, rfl, rfl⟩

/-- A packet offered to many viewers leaves each in its place. -/
theorem find?_offerAll (f : Feed) (p : Packet) (ids : List ViewerId)
    (vs : Table ViewerId Viewer) (j : ViewerId) :
    ∃ change : Viewer → Viewer, (∀ v : Viewer, v.SameSeat (change v)) ∧
      (offerAll f p vs ids).find? j = (vs.find? j).map change := by
  induction ids generalizing vs with
  | nil => exact ⟨fun v => v, Viewer.SameSeat.refl, (Option.map_id' ..).symm⟩
  | cons id rest ih =>
    obtain ⟨change, hchange, he⟩ :=
      ih (vs.modify id fun v => (v.send p f.layer (f.delta p.timestamp) f.av1).2)
    rw [Table.find?_modify] at he
    by_cases hj : j = id
    · rw [if_pos hj, Option.map_map] at he
      exact ⟨_, fun v => (Viewer.sameSeat_send v ..).trans (hchange _), he⟩
    · rw [if_neg hj] at he
      exact ⟨change, hchange, he⟩

namespace Relay

/-! ### The invariant -/

/-- Streams and viewers between two operations.  `ids` are the viewer names that were
handed in so far. -/
structure Settled (ids : List ViewerId) (g : Registry) (vs : Table ViewerId Viewer) : Prop where
  indexed : g.Indexed
  /-- A registered stream is on air. -/
  onAir : ∀ k sid s, g.find? k = some sid → g.stream? sid = some s →
    s.phase = .connected ∧ s.connection.isSome = true
  /-- Any other stream is off the air and empty. -/
  offAir : ∀ sid s, g.stream? sid = some s → g.find? s.key ≠ some sid →
    s.phase = .disconnected ∧ s.viewers = [] ∧ s.connection = none
  nodup : ∀ sid s, g.stream? sid = some s → s.viewers.Nodup
  /-- An attached viewer is active and knows its place. -/
  attached : ∀ sid s id, g.stream? sid = some s → id ∈ s.viewers →
    ∃ v, vs.find? id = some v ∧ v.phase = .active ∧ v.streamKey = s.key ∧ v.home = some sid
  named : ∀ id v, vs.find? id = some v → id ∈ ids ∧ v.id = id
  /-- A viewer is closed or attached. -/
  seated : ∀ id v, vs.find? id = some v → v.phase = .closed ∨
    ∃ sid s, v.home = some sid ∧ g.stream? sid = some s ∧ id ∈ s.viewers

variable {ids : List ViewerId} {g : Registry} {vs : Table ViewerId Viewer}

theorem settled_empty (queueCapacity : Nat) :
    Settled [] { queueCapacity } (.empty : Table ViewerId Viewer) where
  indexed := fun k sid h => absurd h (by simp [Registry.find?])
  onAir := fun k sid s h => absurd h (by simp [Registry.find?])
  offAir := fun sid s h => absurd h (by simp [Registry.stream?])
  nodup := fun sid s h => absurd h (by simp [Registry.stream?])
  attached := fun sid s id h => absurd h (by simp [Registry.stream?])
  named := fun id v h => absurd h (by simp)
  seated := fun id v h => absurd h (by simp)

/-- A stream on air is registered under its key. -/
theorem Settled.find?_of_held (h : Settled ids g vs) {sid : StreamId} {s : Stream}
    (hs : g.stream? sid = some s) (hp : s.hasPublisher = true) : g.find? s.key = some sid := by
  refine Decidable.byContradiction fun hf => ?_
  have hd := (h.offAir sid s hs hf).1
  rw [Stream.hasPublisher, hd] at hp
  exact absurd hp (by decide)

/-- A viewer is attached to one stream at most. -/
theorem Settled.eq_of_mem (h : Settled ids g vs) {sid j : StreamId} {s t : Stream}
    {id : ViewerId} (hs : g.stream? sid = some s) (ht : g.stream? j = some t)
    (hid : id ∈ s.viewers) (hjd : id ∈ t.viewers) : sid = j := by
  obtain ⟨v, hv, -, -, hhome⟩ := h.attached sid s id hs hid
  obtain ⟨w, hw, -, -, hhome'⟩ := h.attached j t id ht hjd
  obtain rfl := Option.some.inj (hv.symm.trans hw)
  exact Option.some.inj (hhome.symm.trans hhome')

/-! ### Changes beside the invariant -/

/-- **Changes beside the invariant**: entries, holds and places stay as they are. -/
theorem Settled.frame (h : Settled ids g vs) {g' : Registry} {vs' : Table ViewerId Viewer}
    (hf : ∀ k, g'.find? k = g.find? k)
    (hs : ∀ sid, ∃ change : Stream → Stream, (∀ s : Stream, s.SameHold (change s)) ∧
      g'.stream? sid = (g.stream? sid).map change)
    (hv : ∀ id, ∃ change : Viewer → Viewer, (∀ v : Viewer, v.SameSeat (change v)) ∧
      vs'.find? id = (vs.find? id).map change) : Settled ids g' vs' := by
  have hback : ∀ sid t, g'.stream? sid = some t → ∃ s, g.stream? sid = some s ∧ s.SameHold t := by
    intro sid t ht
    obtain ⟨change, hc, he⟩ := hs sid
    rw [he] at ht
    obtain ⟨s, hs, rfl⟩ := Option.map_eq_some_iff.mp ht
    exact ⟨s, hs, hc s⟩
  have hforth : ∀ sid s, g.stream? sid = some s → ∃ t, g'.stream? sid = some t ∧ s.SameHold t := by
    intro sid s hs'
    obtain ⟨change, hc, he⟩ := hs sid
    exact ⟨change s, by rw [he, hs', Option.map_some], hc s⟩
  have vback : ∀ id w, vs'.find? id = some w → ∃ v, vs.find? id = some v ∧ v.SameSeat w := by
    intro id w hw
    obtain ⟨change, hc, he⟩ := hv id
    rw [he] at hw
    obtain ⟨v, hv', rfl⟩ := Option.map_eq_some_iff.mp hw
    exact ⟨v, hv', hc v⟩
  have vforth : ∀ id v, vs.find? id = some v → ∃ w, vs'.find? id = some w ∧ v.SameSeat w := by
    intro id v hv'
    obtain ⟨change, hc, he⟩ := hv id
    exact ⟨change v, by rw [he, hv', Option.map_some], hc v⟩
  constructor
  · intro k sid hk
    rw [hf] at hk
    obtain ⟨s, hs', hkey⟩ := h.indexed k sid hk
    obtain ⟨t, ht, hst⟩ := hforth sid s hs'
    exact ⟨t, ht, hst.key.trans hkey⟩
  · intro k sid t hk ht
    rw [hf] at hk
    obtain ⟨s, hs', hst⟩ := hback sid t ht
    rw [hst.phase, hst.connection]
    exact h.onAir k sid s hk hs'
  · intro sid t ht hk
    obtain ⟨s, hs', hst⟩ := hback sid t ht
    rw [hf, hst.key] at hk
    rw [hst.phase, hst.viewers, hst.connection]
    exact h.offAir sid s hs' hk
  · intro sid t ht
    obtain ⟨s, hs', hst⟩ := hback sid t ht
    rw [hst.viewers]
    exact h.nodup sid s hs'
  · intro sid t id ht hid
    obtain ⟨s, hs', hst⟩ := hback sid t ht
    rw [hst.viewers] at hid
    obtain ⟨v, hv', hp, hk, hhome⟩ := h.attached sid s id hs' hid
    obtain ⟨w, hw, hvw⟩ := vforth id v hv'
    exact ⟨w, hw, hvw.phase.trans hp, by rw [hvw.streamKey, hst.key, hk], hvw.home.trans hhome⟩
  · intro id w hw
    obtain ⟨v, hv', hvw⟩ := vback id w hw
    rw [hvw.id]
    exact h.named id v hv'
  · intro id w hw
    obtain ⟨v, hv', hvw⟩ := vback id w hw
    rw [hvw.phase, hvw.home]
    refine (h.seated id v hv').imp_right ?_
    rintro ⟨sid, s, hhome, hs', hid⟩
    obtain ⟨t, ht, hst⟩ := hforth sid s hs'
    exact ⟨sid, t, hhome, ht, hst.viewers ▸ hid⟩

/-! ### Broadcasters come and go -/

/-- **One stream object more**, which nobody watches: it is on air and registered, or off
the air and not. -/
theorem Settled.addStream (h : Settled ids g vs) {g' : Registry} {t : Stream} (live : Bool)
    (hf : ∀ k, g'.find? k = if live = true ∧ k = t.key then some g.streams.length else g.find? k)
    (hs : ∀ j, g'.stream? j = if j = g.streams.length then some t else g.stream? j)
    (hviewers : t.viewers = [])
    (hlive : live = true →
      g.find? t.key = none ∧ t.phase = .connected ∧ t.connection.isSome = true)
    (hdead : live = false → t.phase = .disconnected ∧ t.connection = none) :
    Settled ids g' vs := by
  -- the new object has a new name: streams and entries from before are not of it
  have hold : ∀ {j u}, g.stream? j = some u → g'.stream? j = some u := by
    intro j u hu
    rw [hs, if_neg (Nat.ne_of_lt (Registry.lt_of_stream? hu)), hu]
  have hentry : ∀ {k j}, g.find? k = some j → j ≠ g.streams.length := by
    intro k j hk
    obtain ⟨u, hu, -⟩ := h.indexed k j hk
    exact Nat.ne_of_lt (Registry.lt_of_stream? hu)
  constructor
  · intro k j hk
    rw [hf] at hk
    split at hk
    · rename_i hc
      obtain rfl := Option.some.inj hk
      exact ⟨t, by rw [hs, if_pos rfl], hc.2.symm⟩
    · obtain ⟨u, hu, hkey⟩ := h.indexed k j hk
      exact ⟨u, hold hu, hkey⟩
  · intro k j u hk hu
    rw [hf] at hk
    rw [hs] at hu
    split at hk
    · rename_i hc
      obtain rfl := Option.some.inj hk
      rw [if_pos rfl] at hu
      obtain rfl := Option.some.inj hu
      exact (hlive hc.1).2
    · rw [if_neg (hentry hk)] at hu
      exact h.onAir k j u hk hu
  · intro j u hu hk
    rw [hs] at hu
    rw [hf] at hk
    split at hu
    · rename_i hj
      obtain rfl := Option.some.inj hu
      cases live with
      | true => exact absurd (by rw [if_pos ⟨rfl, rfl⟩, hj]) hk
      | false => exact ⟨(hdead rfl).1, hviewers, (hdead rfl).2⟩
    · refine h.offAir j u hu fun hc => hk ?_
      rw [if_neg, hc]
      rintro ⟨hl, hkey⟩
      rw [hkey, (hlive hl).1] at hc
      exact absurd hc (by simp)
  · intro j u hu
    rw [hs] at hu
    split at hu
    · obtain rfl := Option.some.inj hu
      rw [hviewers]
      exact List.nodup_nil
    · exact h.nodup j u hu
  · intro j u id hu hid
    rw [hs] at hu
    split at hu
    · obtain rfl := Option.some.inj hu
      rw [hviewers] at hid
      exact absurd hid List.not_mem_nil
    · exact h.attached j u id hu hid
  · exact h.named
  · intro id v hv
    refine (h.seated id v hv).imp_right ?_
    rintro ⟨j, u, hhome, hu, hid⟩
    exact ⟨j, u, hhome, hold hu, hid⟩

/-- **The end of a broadcast**: its entry goes, its stream is retired and its viewers are
closed. -/
theorem Settled.retire (h : Settled ids g vs) {g' : Registry} {vs' : Table ViewerId Viewer}
    {sid : StreamId} {s : Stream} (hs : g.stream? sid = some s) (hkey : g.find? s.key = some sid)
    (hfind : ∀ k, g'.find? k = if k = s.key then none else g.find? k)
    (hstream : ∀ j, g'.stream? j = if j = sid then some s.retired else g.stream? j)
    (hviewers : ∀ j, vs'.find? j
      = if j ∈ s.viewers then (vs.find? j).map Viewer.closed else vs.find? j) :
    Settled ids g' vs' := by
  -- an entry that is left is of another stream
  have hother : ∀ {k j}, g'.find? k = some j → g.find? k = some j ∧ j ≠ sid := by
    intro k j hk
    rw [hfind] at hk
    split at hk
    · exact absurd hk (by simp)
    · rename_i hne
      refine ⟨hk, ?_⟩
      rintro rfl
      obtain ⟨u, hu, rfl⟩ := h.indexed k j hk
      exact hne (congrArg Stream.key (Option.some.inj (hu.symm.trans hs)))
  constructor
  · intro k j hk
    obtain ⟨hk', hj⟩ := hother hk
    obtain ⟨u, hu, hkey'⟩ := h.indexed k j hk'
    exact ⟨u, by rw [hstream, if_neg hj, hu], hkey'⟩
  · intro k j u hk hu
    obtain ⟨hk', hj⟩ := hother hk
    rw [hstream, if_neg hj] at hu
    exact h.onAir k j u hk' hu
  · intro j u hu hk
    rw [hstream] at hu
    split at hu
    · obtain rfl := Option.some.inj hu
      exact ⟨rfl, rfl, rfl⟩
    · rename_i hj
      refine h.offAir j u hu fun hc => hk ?_
      rw [hfind, if_neg, hc]
      intro hkk
      rw [hkk, hkey] at hc
      exact hj (Option.some.inj hc).symm
  · intro j u hu
    rw [hstream] at hu
    split at hu
    · obtain rfl := Option.some.inj hu
      exact List.nodup_nil
    · exact h.nodup j u hu
  · intro j u id hu hid
    rw [hstream] at hu
    split at hu
    · obtain rfl := Option.some.inj hu
      exact absurd hid List.not_mem_nil
    · rename_i hj
      rw [hviewers, if_neg fun hm => hj (h.eq_of_mem hu hs hid hm)]
      exact h.attached j u id hu hid
  · intro id v hv
    rw [hviewers] at hv
    split at hv
    · obtain ⟨w, hw, rfl⟩ := Option.map_eq_some_iff.mp hv
      exact h.named id w hw
    · exact h.named id v hv
  · intro id v hv
    rw [hviewers] at hv
    split at hv
    · obtain ⟨w, -, rfl⟩ := Option.map_eq_some_iff.mp hv
      exact .inl (Viewer.phase_closed w)
    · rename_i hid
      refine (h.seated id v hv).imp_right ?_
      rintro ⟨j, u, hhome, hu, hjd⟩
      refine ⟨j, u, hhome, ?_, hjd⟩
      rw [hstream, if_neg, hu]
      rintro rfl
      exact hid (Option.some.inj (hs.symm.trans hu) ▸ hjd)

theorem Settled.teardown {r : Relay} (h : Settled ids r.registry r.viewers) (sid : StreamId) :
    Settled ids (r.teardown sid).registry (r.teardown sid).viewers := by
  cases hs : r.registry.stream? sid with
  | none =>
    rw [teardown_of_none hs]
    exact h
  | some s =>
    cases hp : s.hasPublisher with
    | false =>
      rw [teardown_of_free hs hp]
      exact h
    | true =>
      have hkey := h.find?_of_held hs hp
      rw [registry_teardown (fun id v hv => (h.named id v hv).2) hs hp
        fun j t hj ht id hid hjd => hj (h.eq_of_mem hs ht hid hjd).symm]
      refine h.retire hs hkey (fun k => ?_) (stream?_withoutStream hs) (viewers_teardown hs hp)
      rw [find?_withoutStream hs]
      by_cases hk : k = s.key
      · rw [if_pos ⟨hk, hk ▸ hkey⟩, if_pos hk]
      · rw [if_neg (fun c => hk c.1), if_neg hk]

theorem Settled.shutdown {r : Relay} (h : Settled ids r.registry r.viewers) :
    Settled ids r.shutdown.registry r.shutdown.viewers := by
  have hfold : ∀ (sids : List StreamId) (r : Relay), Settled ids r.registry r.viewers →
      Settled ids (sids.foldl Relay.teardown r).registry (sids.foldl Relay.teardown r).viewers := by
    intro sids
    induction sids with
    | nil => exact fun r h => h
    | cons sid rest ih => exact fun r h => ih (r.teardown sid) (h.teardown sid)
  exact hfold _ r h

/-! ### Viewers come and go -/

/-- A name that was not handed in yet names no viewer. -/
theorem Settled.find?_of_fresh (h : Settled ids g vs) {id : ViewerId} (hid : id ∉ ids) :
    vs.find? id = none := by
  cases hv : vs.find? id with
  | none => rfl
  | some v => exact absurd (h.named id v hv).1 hid

/-- **A viewer joins** a registered stream. -/
theorem Settled.join (h : Settled ids g vs) {g' : Registry} {vs' : Table ViewerId Viewer}
    {sid : StreamId} {s : Stream} {v : Viewer} (hs : g.stream? sid = some s)
    (hkey : g.find? s.key = some sid) (hfresh : v.id ∉ ids)
    (hfind : ∀ k, g'.find? k = g.find? k)
    (hstream : ∀ j, g'.stream? j
      = if j = sid then some { s with viewers := s.viewers ++ [v.id] } else g.stream? j)
    (hviewers : ∀ j, vs'.find? j = if j = v.id then some v else vs.find? j)
    (hphase : v.phase = .active) (hstreamKey : v.streamKey = s.key)
    (hhome : v.home = some sid) : Settled (v.id :: ids) g' vs' := by
  have hnew := h.find?_of_fresh hfresh
  -- the new name is in no stream yet, so no stream gets it twice
  have hunseen : ∀ {j u}, g.stream? j = some u → v.id ∉ u.viewers := by
    intro j u hu hm
    obtain ⟨w, hw, -⟩ := h.attached j u v.id hu hm
    rw [hnew] at hw
    exact absurd hw (by simp)
  have hback : ∀ {j u}, g'.stream? j = some u → ∃ t, g.stream? j = some t ∧ u.key = t.key ∧
      u.phase = t.phase ∧ u.connection = t.connection ∧
      u.viewers = if j = sid then t.viewers ++ [v.id] else t.viewers := by
    intro j u hu
    rw [hstream] at hu
    split at hu
    · rename_i hj
      obtain rfl := Option.some.inj hu
      exact ⟨s, by rw [hj, hs], rfl, rfl, rfl, by rw [if_pos hj]⟩
    · rename_i hj
      exact ⟨u, hu, rfl, rfl, rfl, by rw [if_neg hj]⟩
  constructor
  · intro k j hk
    rw [hfind] at hk
    obtain ⟨u, hu, hkey'⟩ := h.indexed k j hk
    rw [hstream]
    split
    · rename_i hj
      rw [hj, hs] at hu
      exact ⟨_, rfl, (congrArg Stream.key (Option.some.inj hu)).trans hkey'⟩
    · exact ⟨u, hu, hkey'⟩
  · intro k j u hk hu
    rw [hfind] at hk
    obtain ⟨t, ht, -, hp, hc, -⟩ := hback hu
    rw [hp, hc]
    exact h.onAir k j t hk ht
  · intro j u hu hk
    obtain ⟨t, ht, hkey', hp, hc, hvs⟩ := hback hu
    rw [hfind, hkey'] at hk
    have hj : j ≠ sid := by
      rintro rfl
      rw [hs] at ht
      obtain rfl := Option.some.inj ht
      exact hk hkey
    rw [hp, hc, hvs, if_neg hj]
    exact h.offAir j t ht hk
  · intro j u hu
    obtain ⟨t, ht, -, -, -, hvs⟩ := hback hu
    rw [hvs]
    split
    · rw [List.nodup_append]
      refine ⟨h.nodup j t ht, by simp, ?_⟩
      rintro a ha b hb rfl
      rw [List.mem_singleton] at hb
      exact hunseen ht (hb ▸ ha)
    · exact h.nodup j t ht
  · intro j u id hu hid
    obtain ⟨t, ht, hkey', -, -, hvs⟩ := hback hu
    rw [hviewers, hkey']
    by_cases hi : id = v.id
    · rw [if_pos hi]
      have hj : j = sid := by
        refine Decidable.byContradiction fun hj => ?_
        rw [hvs, if_neg hj, hi] at hid
        exact hunseen ht hid
      subst hj
      obtain rfl := Option.some.inj (hs.symm.trans ht)
      exact ⟨v, rfl, hphase, hstreamKey, hhome⟩
    · rw [if_neg hi]
      refine h.attached j t id ht ?_
      rw [hvs] at hid
      split at hid
      · rcases List.mem_append.mp hid with hm | hm
        · exact hm
        · exact absurd (List.mem_singleton.mp hm) hi
      · exact hid
  · intro id w hw
    rw [hviewers] at hw
    split at hw
    · rename_i hi
      obtain rfl := Option.some.inj hw
      exact ⟨hi ▸ List.mem_cons_self, hi.symm⟩
    · exact ⟨List.mem_cons_of_mem _ (h.named id w hw).1, (h.named id w hw).2⟩
  · intro id w hw
    rw [hviewers] at hw
    split at hw
    · rename_i hi
      obtain rfl := Option.some.inj hw
      exact .inr ⟨sid, _, hhome, by rw [hstream, if_pos rfl], by simp [hi]⟩
    · refine (h.seated id w hw).imp_right ?_
      rintro ⟨j, u, hhome', hu, hid⟩
      refine ⟨j, if j = sid then { s with viewers := s.viewers ++ [v.id] } else u, hhome', ?_, ?_⟩
      · rw [hstream]
        split
        · rfl
        · exact hu
      · split
        · rename_i hj
          rw [hj, hs] at hu
          obtain rfl := Option.some.inj hu
          exact List.mem_append_left _ hid
        · exact hid

/-- **A viewer is declined**: it ends closed and is attached nowhere. -/
theorem Settled.decline (h : Settled ids g vs) {vs' : Table ViewerId Viewer} {v : Viewer}
    (hfresh : v.id ∉ ids) (hviewers : ∀ j, vs'.find? j = if j = v.id then some v else vs.find? j)
    (hphase : v.phase = .closed) : Settled (v.id :: ids) g vs' := by
  have hnew := h.find?_of_fresh hfresh
  refine ⟨h.indexed, h.onAir, h.offAir, h.nodup, ?_, ?_, ?_⟩
  · intro j u id hu hid
    obtain ⟨w, hw, hrest⟩ := h.attached j u id hu hid
    refine ⟨w, ?_, hrest⟩
    rw [hviewers, if_neg, hw]
    rintro rfl
    rw [hnew] at hw
    exact absurd hw (by simp)
  · intro id w hw
    rw [hviewers] at hw
    split at hw
    · rename_i hi
      obtain rfl := Option.some.inj hw
      exact ⟨hi ▸ List.mem_cons_self, hi.symm⟩
    · exact ⟨List.mem_cons_of_mem _ (h.named id w hw).1, (h.named id w hw).2⟩
  · intro id w hw
    rw [hviewers] at hw
    split at hw
    · obtain rfl := Option.some.inj hw
      exact .inl hphase
    · exact h.seated id w hw

/-- More names may have been handed in. -/
theorem Settled.cons (h : Settled ids g vs) (id : ViewerId) : Settled (id :: ids) g vs :=
  { h with named := fun j v hv => ⟨List.mem_cons_of_mem _ (h.named j v hv).1, (h.named j v hv).2⟩ }

end Relay

end Simulcast
