import Simulcast.Proofs.Registry.Views
import Simulcast.Relay.Broadcasting
import Simulcast.Relay.Forwarding
/-!
# What the relay's operations do

The relay keeps two tables of objects: the registry with its streams, and the viewers.
For the operations that touch one of them this file says what they do to it.  The long
ones are `Relay.closeViewer`, which changes no stream once the viewer is detached, and
`Relay.teardown`, which takes one stream off the air and closes its viewers:
`Relay.registry_teardown` and `Relay.viewers_teardown` give the state it leaves.
-/

namespace Simulcast

/-! ### Connections -/

namespace ConnectionPool

@[simp] theorem opened_close (p : ConnectionPool) (c : ConnectionId) :
    (p.close c).opened = p.opened := by
  unfold close
  split <;> rfl

theorem mem_closed_close (p : ConnectionPool) (c d : ConnectionId) :
    d ∈ (p.close c).closed ↔ d = c ∨ d ∈ p.closed := by
  unfold close
  split
  · rename_i hc
    exact ⟨.inr, fun h => h.elim (fun he => he ▸ hc) id⟩
  · exact List.mem_cons

theorem isOpen_iff (p : ConnectionPool) (c : ConnectionId) :
    p.isOpen c = true ↔ c < p.opened ∧ c ∉ p.closed := by
  simp [isOpen]

end ConnectionPool

/-! ### Viewers of one stream -/

namespace Stream

/-- The stream after its broadcast: nobody holds it and nobody watches it. -/
def retired (s : Stream) : Stream := { s.released with viewers := [] }

@[simp] theorem viewers_retired (s : Stream) : s.retired.viewers = [] := rfl

/-- Detaching a viewer that is not attached does nothing. -/
theorem detach_of_not_mem {s : Stream} {id : ViewerId} (h : id ∉ s.viewers) :
    (s.detach id).2 = s := by
  have hf : s.viewers.filter (· ≠ id) = s.viewers := by
    rw [List.filter_eq_self]
    intro j hj
    simpa using fun he : j = id => h (he ▸ hj)
  show { s with viewers := s.viewers.filter (· ≠ id) } = s
  rw [hf]

/-- Attaching a new viewer and detaching it again does nothing. -/
theorem detach_attach {s : Stream} {id : ViewerId} (hl : s.isLive = true) (h : id ∉ s.viewers) :
    ((s.attach id).2.detach id).2 = s := by
  have hf : (s.viewers ++ [id]).filter (· ≠ id) = s.viewers := by
    rw [List.filter_append, List.filter_eq_self.mpr]
    · simp
    · intro j hj
      simpa using fun he : j = id => h (he ▸ hj)
  rw [attach, if_pos hl, if_neg h, detach]
  simp only [hf]

end Stream

namespace Viewer

/-- The viewer after its relay closed it. -/
def closed (v : Viewer) : Viewer := v.close.2

@[simp] theorem phase_closed (v : Viewer) : v.closed.phase = .closed := rfl

end Viewer

namespace Registry

/-- No stream has the viewer attached. -/
def Unwatched (r : Registry) (id : ViewerId) : Prop :=
  ∀ sid s, r.stream? sid = some s → id ∉ s.viewers

/-- Changing a stream into itself does nothing. -/
theorem update_of_fixed {r : Registry} {id : StreamId} {change : Stream → Stream}
    (h : ∀ s, r.stream? id = some s → change s = s) : r.update id change = r := by
  rw [update]
  cases hs : r.stream? id with
  | none => rw [act_of_none hs]
  | some s =>
    rw [act_of_some hs]
    show r.put id (change s) = r
    rw [h s hs, put_self hs]

end Registry

namespace Relay

/-! ### Parts that an operation leaves alone -/

@[simp] theorem viewers_updateStream (r : Relay) (sid : StreamId) (change : Stream → Stream) :
    (r.updateStream sid change).viewers = r.viewers := rfl

@[simp] theorem registry_updateStream (r : Relay) (sid : StreamId) (change : Stream → Stream) :
    (r.updateStream sid change).registry = r.registry.update sid change := rfl

@[simp] theorem registry_updateViewer (r : Relay) (id : ViewerId) (change : Viewer → Viewer) :
    (r.updateViewer id change).registry = r.registry := rfl

@[simp] theorem viewers_updateViewer (r : Relay) (id : ViewerId) (change : Viewer → Viewer) :
    (r.updateViewer id change).viewers = r.viewers.modify id change := rfl

@[simp] theorem viewers_leaveHome (r : Relay) (v : Viewer) :
    (r.leaveHome v).viewers = r.viewers := by
  unfold leaveHome
  split <;> rfl

@[simp] theorem registry_closeReleased (r : Relay) (released : Released) :
    (r.closeReleased released).registry = r.registry := by
  unfold closeReleased
  split <;> rfl

@[simp] theorem viewers_closeReleased (r : Relay) (released : Released) :
    (r.closeReleased released).viewers = r.viewers := by
  unfold closeReleased
  split <;> rfl

theorem stream?_serveKeyframes (r : Relay) (sid : StreamId) :
    r.serveKeyframes.2.registry.stream? sid
      = (r.registry.stream? sid).map fun s => { s with keyframes := s.keyframes.serve.2 } := by
  simp only [serveKeyframes, Registry.stream?, List.map_map, List.getElem?_map]
  rfl

theorem markConnected_of_negotiating {r : Relay} {sid : StreamId} {s : Stream}
    (hs : r.registry.stream? sid = some s) (hp : s.phase = .negotiating)
    (remote : Option SocketAddress) :
    r.markConnected sid remote
      = (true, { r with registry := r.registry.put sid (s.markConnected remote).2 }) := by
  have hm : s.markConnected remote = (true, (s.markConnected remote).2) := by
    rw [Stream.markConnected, if_pos hp]
  rw [markConnected, onRegistry, Registry.act_of_some hs, hm]

/-- **All that the end of a negotiation can do**: nothing, or it puts a stream on air. -/
theorem markConnected_cases (r : Relay) (sid : StreamId) (remote : Option SocketAddress) :
    r.markConnected sid remote = (false, r) ∨
      ∃ s, r.registry.stream? sid = some s ∧ s.phase = .negotiating ∧
        r.markConnected sid remote
          = (true, { r with registry := r.registry.put sid (s.markConnected remote).2 }) := by
  cases hs : r.registry.stream? sid with
  | none => exact .inl (by simp only [markConnected, onRegistry, Registry.act_of_none hs])
  | some s =>
    by_cases hp : s.phase = .negotiating
    · exact .inr ⟨s, rfl, hp, markConnected_of_negotiating hs hp remote⟩
    · refine .inl ?_
      simp only [markConnected, onRegistry, Registry.act_of_some hs, Stream.markConnected,
        if_neg hp, Registry.put_self hs]

/-- A peer connection is made or not; streams and viewers do not change. -/
theorem openConnection_cases (r : Relay) :
    (∃ e, r.openConnection = (.error e, r)) ∨
      r.openConnection
        = (.ok r.connections.opened, { r with connections := r.connections.openNext.2 }) := by
  unfold openConnection
  split
  · exact .inl ⟨_, rfl⟩
  · exact .inr rfl

/-! ### Closing viewers -/

/-- Every viewer is kept under its own name. -/
def NamesViewers (r : Relay) : Prop := ∀ id v, r.viewers.find? id = some v → v.id = id

theorem find?_viewers_closeViewer (r : Relay) (id j : ViewerId) :
    (r.closeViewer id).viewers.find? j
      = if j = id then (r.viewers.find? j).map Viewer.closed else r.viewers.find? j := by
  have hmod := Table.find?_modify r.viewers id j fun v => v.close.2
  cases hv : r.viewers.find? id with
  | none =>
    rw [closeViewer, hv]
    simp only
    split
    · rename_i hj
      rw [hj, hv]
      rfl
    · rfl
  | some v =>
    rw [closeViewer, hv]
    simp only
    split
    · rw [viewers_leaveHome]
      exact hmod
    · exact hmod

/-- **Closing a viewer that is attached nowhere changes no stream.** -/
theorem registry_closeViewer {r : Relay} {id : ViewerId} (hn : r.NamesViewers)
    (h : r.registry.Unwatched id) : (r.closeViewer id).registry = r.registry := by
  cases hv : r.viewers.find? id with
  | none => rw [closeViewer, hv]
  | some v =>
    rw [closeViewer, hv]
    simp only
    split
    · unfold leaveHome
      split
      · show r.registry.update _ _ = r.registry
        refine Registry.update_of_fixed fun s hs => ?_
        rw [hn id v hv]
        exact Stream.detach_of_not_mem (h _ s hs)
      · rfl
    · rfl

theorem NamesViewers.closeViewer {r : Relay} (hn : r.NamesViewers) (id : ViewerId) :
    (r.closeViewer id).NamesViewers := by
  intro j v hv
  rw [find?_viewers_closeViewer] at hv
  split at hv
  · obtain ⟨u, hu, rfl⟩ := Option.map_eq_some_iff.mp hv
    exact hn j u hu
  · exact hn j v hv

theorem find?_viewers_foldl_closeViewer (ids : List ViewerId) (r : Relay) (j : ViewerId) :
    (ids.foldl closeViewer r).viewers.find? j
      = if j ∈ ids then (r.viewers.find? j).map Viewer.closed else r.viewers.find? j := by
  induction ids generalizing r with
  | nil => rw [if_neg List.not_mem_nil]; rfl
  | cons id rest ih =>
    rw [List.foldl_cons, ih, find?_viewers_closeViewer]
    by_cases hj : j = id
    · subst hj
      rw [if_pos rfl, if_pos List.mem_cons_self, Option.map_map]
      split
      · rfl
      · rfl
    · rw [if_neg hj]
      simp only [List.mem_cons, hj, false_or]

theorem registry_foldl_closeViewer (ids : List ViewerId) {r : Relay} (hn : r.NamesViewers)
    (h : ∀ id ∈ ids, r.registry.Unwatched id) :
    (ids.foldl closeViewer r).registry = r.registry := by
  induction ids generalizing r with
  | nil => rfl
  | cons id rest ih =>
    have hid := registry_closeViewer hn (h id List.mem_cons_self)
    rw [List.foldl_cons, ih (hn.closeViewer id), hid]
    intro j hj
    rw [hid]
    exact h j (List.mem_cons_of_mem id hj)

/-! ### Teardown -/

/-- Teardown of a stream that nobody holds does nothing. -/
theorem teardown_of_free {r : Relay} {sid : StreamId} {s : Stream}
    (hs : r.registry.stream? sid = some s) (hp : s.hasPublisher = false) : r.teardown sid = r := by
  rw [teardown, hs]
  simp only [onRegistry, Registry.release, Registry.beginRelease_of_free hs hp]

theorem teardown_of_none {r : Relay} {sid : StreamId} (hs : r.registry.stream? sid = none) :
    r.teardown sid = r := by
  rw [teardown, hs]

/-- The registry once a held stream is released and all its viewers are taken out. -/
def withoutStream (r : Relay) (sid : StreamId) (s : Stream) : Registry :=
  ((r.registry.put sid s.released).forget sid).put sid s.retired

/-- The relay just before it closes the viewers of a stream that it takes off the air. -/
def drained (r : Relay) (sid : StreamId) (s : Stream) : Relay :=
  { (r.closeReleased ⟨s.connection, s.isLive⟩).clearLastMatched s.key with
    registry := r.withoutStream sid s }

@[simp] theorem viewers_drained (r : Relay) (sid : StreamId) (s : Stream) :
    (r.drained sid s).viewers = r.viewers := viewers_closeReleased ..

@[simp] theorem registry_drainViewers (r : Relay) (sid : StreamId) :
    (r.drainViewers sid).2.registry = (r.registry.act sid Stream.drain).2 := by
  simp only [drainViewers, onRegistry]
  split <;> rename_i h <;> exact congrArg (fun p => p.2.registry) h.symm

theorem closeReleased_withRegistry (r : Relay) (g : Registry) (released : Released) :
    ({ r with registry := g } : Relay).closeReleased released
      = { r.closeReleased released with registry := g } := by
  unfold closeReleased
  split <;> rfl

/-- **Teardown of a held stream**, as the closing of its viewers in the relay that no longer
has it. -/
theorem teardown_of_held {r : Relay} {sid : StreamId} {s : Stream}
    (hs : r.registry.stream? sid = some s) (hp : s.hasPublisher = true) :
    r.teardown sid
      = if s.isLive then
          (s.viewers.foldl closeViewer (r.drained sid s)).notify (.disconnected s.key)
        else s.viewers.foldl closeViewer (r.drained sid s) := by
  have hrel : r.registry.release sid
      = (some ⟨s.connection, s.isLive⟩, (r.registry.put sid s.released).forget sid) := by
    rw [Registry.release, Registry.beginRelease_of_held hs hp]
  have hkept : ((r.registry.put sid s.released).forget sid).stream? sid = some s.released := by
    rw [Registry.stream?_forget, Registry.stream?_put_of_some hs, if_pos rfl]
  have hdrain := Registry.act_of_some hkept Stream.drain
  rw [teardown, hs]
  simp only [onRegistry, hrel, finishTeardown, drainViewers, closeReleased_withRegistry,
    clearLastMatched, hdrain]
  rfl

theorem NamesViewers.drained {r : Relay} (hn : r.NamesViewers) (sid : StreamId) (s : Stream) :
    (r.drained sid s).NamesViewers := by
  intro j v hv
  rw [viewers_drained] at hv
  exact hn j v hv

theorem stream?_withoutStream {r : Relay} {sid : StreamId} {s : Stream}
    (hs : r.registry.stream? sid = some s) (j : StreamId) :
    (r.withoutStream sid s).stream? j = if j = sid then some s.retired else r.registry.stream? j := by
  have hkept : ((r.registry.put sid s.released).forget sid).stream? sid = some s.released := by
    rw [Registry.stream?_forget, Registry.stream?_put_of_some hs, if_pos rfl]
  rw [withoutStream, Registry.stream?_put_of_some hkept]
  split
  · rfl
  · rename_i hj
    rw [Registry.stream?_forget, Registry.stream?_put_of_some hs, if_neg hj]

theorem find?_withoutStream {r : Relay} {sid : StreamId} {s : Stream}
    (hs : r.registry.stream? sid = some s) (k : String) :
    (r.withoutStream sid s).find? k
      = if k = s.key ∧ r.registry.find? k = some sid then none else r.registry.find? k := by
  have hput : (r.registry.put sid s.released).stream? sid = some s.released := by
    rw [Registry.stream?_put_of_some hs, if_pos rfl]
  rw [withoutStream, Registry.find?_put, Registry.find?_forget hput]
  rfl

/-- Teardown of a held stream closes its viewers and no other. -/
theorem viewers_teardown {r : Relay} {sid : StreamId} {s : Stream}
    (hs : r.registry.stream? sid = some s) (hp : s.hasPublisher = true) (j : ViewerId) :
    (r.teardown sid).viewers.find? j
      = if j ∈ s.viewers then (r.viewers.find? j).map Viewer.closed else r.viewers.find? j := by
  rw [teardown_of_held hs hp, ← viewers_drained r sid s, ← find?_viewers_foldl_closeViewer]
  split <;> rfl

/-- Teardown of a held stream leaves the other streams alone, if none of its viewers is
attached to one of them. -/
theorem registry_teardown {r : Relay} (hn : r.NamesViewers) {sid : StreamId} {s : Stream}
    (hs : r.registry.stream? sid = some s) (hp : s.hasPublisher = true)
    (hone : ∀ j t, j ≠ sid → r.registry.stream? j = some t → ∀ id ∈ s.viewers, id ∉ t.viewers) :
    (r.teardown sid).registry = r.withoutStream sid s := by
  have hunwatched : ∀ id ∈ s.viewers, (r.drained sid s).registry.Unwatched id := by
    intro id hid j t ht
    have hview := stream?_withoutStream hs j
    rw [show (r.withoutStream sid s).stream? j = some t from ht] at hview
    split at hview
    · rw [Option.some.inj hview, Stream.viewers_retired]
      exact List.not_mem_nil
    · rename_i hj
      exact hone j t hj hview.symm id hid
  have hfold := registry_foldl_closeViewer s.viewers (hn.drained sid s) hunwatched
  rw [teardown_of_held hs hp]
  split
  · exact hfold
  · exact hfold

end Relay

end Simulcast
