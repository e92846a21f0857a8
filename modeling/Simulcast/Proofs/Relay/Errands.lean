import Simulcast.Proofs.Relay.Crowd
/-!
# What one call does to a crowd

The facts about one step of a `Relay.Errand`, on which all that follows about runs of many
calls rests.  What a step can do is said once for all steps (`Relay.Errand.passes_step`).

A closed viewer stays closed, also when its negotiation succeeds later (`Relay.Keeps`).  So
for a viewer to be closed in the end it is enough that somebody is there to close it: the
viewer is in the table, or some call has it in hand (`Relay.Errand.Tends`).
-/

namespace Simulcast

namespace Viewer

def Gone (v : Viewer) : Prop := v.phase = .closed ∧ v.connection = none

theorem gone_closed (v : Viewer) : v.closed.Gone := ⟨rfl, rfl⟩

theorem Gone.activate {v : Viewer} (h : v.Gone) : v.activate.Gone := by
  refine ⟨?_, h.2⟩
  show v.phase.activate = .closed
  rw [h.1]
  rfl

end Viewer

namespace Registry

theorem isLive_eq_hold? (g : Registry) (sid : StreamId) :
    g.isLive sid = ((g.hold? sid).map fun h => decide (h.1 = .connected)).getD false := by
  rw [isLive, hold?, Option.map_map]
  rfl

theorem isLive_of_hold? {g g' : Registry} {sid : StreamId} (h : g'.hold? sid = g.hold? sid) :
    g'.isLive sid = g.isLive sid := by
  rw [isLive_eq_hold?, isLive_eq_hold?, h]

theorem table_of_stream? {g g' : Registry} {sid : StreamId} (h : g'.stream? sid = g.stream? sid) :
    g'.table sid = g.table sid := by
  rw [table, table, h]

theorem table_of_some {g : Registry} {sid : StreamId} {s : Stream} (h : g.stream? sid = some s) :
    g.table sid = s.viewers := by
  rw [table, h]
  rfl

theorem table_update_detach {g : Registry} {sid : StreamId} {id : ViewerId} :
    (g.update sid fun s => (s.detach id).2).table sid = (g.table sid).filter (· ≠ id) := by
  rw [table, stream?_update, if_pos rfl, table]
  cases g.stream? sid with
  | none => rfl
  | some s => rfl

theorem hold?_update (g : Registry) (j : StreamId) {change : Stream → Stream}
    (h : ∀ s, (change s).hold = s.hold) (sid : StreamId) :
    (g.update j change).hold? sid = g.hold? sid := g.hold?_act j h sid

end Registry

namespace Relay

/-! ### Viewers that are gone stay gone -/

/-- The named viewers keep their names, and those that are gone stay gone. -/
def Keeps (ids : List ViewerId) (r q : Relay) : Prop :=
  ∀ id ∈ ids, ∀ v, r.viewers.find? id = some v →
    ∃ w, q.viewers.find? id = some w ∧ w.id = v.id ∧ (v.Gone → w.Gone)

variable {ids : List ViewerId}

theorem Keeps.of_viewers {r q : Relay} (h : q.viewers = r.viewers) : Keeps ids r q :=
  fun id _ v hv => ⟨v, by rw [h, hv], rfl, fun hg => hg⟩

theorem keeps_updateViewer (r : Relay) (j : ViewerId) {change : Viewer → Viewer}
    (hid : ∀ v, (change v).id = v.id) (hgone : ∀ v : Viewer, v.Gone → (change v).Gone) :
    Keeps ids r (r.updateViewer j change) := by
  intro id _ v hv
  rw [viewers_updateViewer, Table.find?_modify, hv]
  split
  · exact ⟨change v, rfl, hid v, hgone v⟩
  · exact ⟨v, rfl, rfl, fun hg => hg⟩

theorem keeps_closeViewer (r : Relay) (j : ViewerId) : Keeps ids r (r.closeViewer j) := by
  intro id _ v hv
  rw [find?_viewers_closeViewer, hv]
  split
  · exact ⟨v.closed, rfl, rfl, fun _ => v.gone_closed⟩
  · exact ⟨v, rfl, rfl, fun hg => hg⟩

def Left (r : Relay) (id : ViewerId) : Prop := ∃ v, r.viewers.find? id = some v ∧ v.Gone

theorem Left.keeps {r q : Relay} {id : ViewerId} (h : r.Left id) (hk : Keeps ids r q)
    (hid : id ∈ ids) : q.Left id := by
  obtain ⟨v, hv, hg⟩ := h
  obtain ⟨w, hw, -, hgone⟩ := hk id hid v hv
  exact ⟨w, hw, hgone hg⟩

theorem left_closeViewer {r : Relay} {id : ViewerId} {v : Viewer}
    (hv : r.viewers.find? id = some v) : (r.closeViewer id).Left id :=
  ⟨v.closed, by rw [find?_viewers_closeViewer, if_pos rfl, hv]; rfl, v.gone_closed⟩

/-- Closing a viewer takes at most the viewer itself out of a table. -/
theorem table_closeViewer {r : Relay} {id : ViewerId} {v : Viewer}
    (hv : r.viewers.find? id = some v) (hid : v.id = id) (sid : StreamId) :
    ∃ p, (r.closeViewer id).registry.table sid = (r.registry.table sid).filter p ∧
      ∀ j, j ≠ id → p j = true := by
  have hsame : ∀ g : Registry, g.table sid = (r.registry.table sid) →
      ∃ p, g.table sid = (r.registry.table sid).filter p ∧ ∀ j, j ≠ id → p j = true :=
    fun g hg => ⟨fun _ => true, hg.trans (List.filter_eq_self.mpr fun _ _ => rfl).symm,
      fun _ _ => rfl⟩
  unfold closeViewer
  rw [hv]
  simp only
  split
  · unfold leaveHome
    split
    · rename_i home hhome
      show ∃ p, (r.registry.update home fun s => (s.detach v.id).2).table sid = _ ∧ _
      by_cases hh : sid = home
      · subst hh
        refine ⟨fun j => decide (j ≠ v.id), Registry.table_update_detach, fun j hj => ?_⟩
        rw [hid]
        simpa using hj
      · exact hsame _ (Registry.table_of_stream? (by rw [Registry.stream?_update, if_neg hh]))
    · exact hsame _ rfl
  · exact hsame _ rfl

theorem drainViewers_fst (r : Relay) (sid : StreamId) :
    (r.drainViewers sid).1 = r.registry.table sid := by
  rw [drainViewers, onRegistry, Registry.table]
  cases hs : r.registry.stream? sid with
  | none => rw [Registry.act_of_none hs]; rfl
  | some s => rw [Registry.act_of_some hs]; rfl

theorem table_drainViewers (r : Relay) (sid : StreamId) :
    (r.drainViewers sid).2.registry.table sid = [] := by
  rw [registry_drainViewers, Registry.table, Registry.stream?_act, if_pos rfl]
  cases r.registry.stream? sid with
  | none => rfl
  | some s => rfl

theorem viewers_drainViewers (r : Relay) (sid : StreamId) :
    (r.drainViewers sid).2.viewers = r.viewers := by
  simp only [drainViewers, onRegistry]
  split <;> rename_i h <;> exact congrArg (fun p => p.2.viewers) h.symm

theorem table_beginRelease (g : Registry) (j sid : StreamId) :
    (g.beginRelease j).2.table sid = g.table sid := by
  obtain ⟨he, -⟩ | ⟨s, hs, -, he⟩ := g.beginRelease_cases j <;> rw [he]
  rw [Registry.table, Registry.stream?_put_of_some hs, Registry.table]
  split
  · rename_i hj
    rw [hj, hs]
    rfl
  · rfl

theorem relay_step_release (r : Relay) (sid : StreamId) (reply : Reply) :
    (Stage.step r (.release sid reply)).relay
      = { r with registry := (r.registry.beginRelease sid).2 } := by
  cases hs : r.registry.stream? sid with
  | none => simp only [Stage.step, hs, Registry.beginRelease_of_none hs]
  | some s =>
    obtain ⟨he, -⟩ | ⟨s, -, -, he⟩ := r.registry.beginRelease_cases sid
    · simp only [Stage.step, hs, onRegistry, he]
    · simp only [Stage.step, hs, onRegistry, he]

/-! ### What a step can do -/

namespace Stage

/-- The call tears down the stream `sid`. -/
def OfStream (sid : StreamId) : Stage → Prop
  | release j _ => j = sid
  | forget e | hangUp e | clear e | drain e => e.stream = sid
  | dismiss _ _ | report _ | finished _ => True
  | _ => False

/-- The phase is changed and the table still to be emptied. -/
def BeforeDrain : Stage → Prop
  | forget _ | hangUp _ | clear _ | drain _ => True
  | _ => False

end Stage

namespace Errand

/-- The call sees to it that the viewer is closed in the end. -/
def Tends (id : ViewerId) : Errand → Prop
  | lock guest | check guest | seat guest _ | remove guest _ => guest.id = id
  | close j _ => j = id
  | teardown (.dismiss _ ids) => id ∈ ids
  | _ => False

/-- The viewer that the call brings and that was not answered yet. -/
def unseated? : Errand → Option ViewerId
  | connect _ id => some id
  | lock guest | check guest | seat guest _ => some guest.id
  | _ => none

/-- The viewers that the call speaks of were made. -/
def Names (made : List ViewerId) : Errand → Prop
  | lock guest | check guest | seat guest _ | negotiate guest | activate guest _
  | remove guest _ => guest.id ∈ made
  | close id _ => id ∈ made
  | teardown (.dismiss _ ids) => ∀ id ∈ ids, id ∈ made
  | _ => True

/-- Whoever the call closes is away, and whoever it speaks of beside was answered. -/
def Speaks (answered away : ViewerId → Prop) : Errand → Prop
  | negotiate guest | activate guest _ | remove guest _ => answered guest.id
  | close id _ => away id
  | teardown (.dismiss _ ids) => ∀ id ∈ ids, away id
  | _ => True

def Drains : Errand → Prop
  | teardown stage => stage.BeforeDrain
  | _ => False

/-- **What a step can do.**  The viewers in the table and those that the call speaks of have the
names `made`. -/
structure Passes (sid : StreamId) (made : List ViewerId) (r : Relay) (e : Errand)
    (turn : Turn) : Prop where
  hold? : (r.registry.hold? sid).isSome = true → (turn.relay.registry.hold? sid).isSome = true
  live : turn.relay.registry.isLive sid = true → r.registry.isLive sid = true
  table : (turn.admitted = [] ∧
      ∃ p, turn.relay.registry.table sid = (r.registry.table sid).filter p) ∨
    ∃ guest, e = .seat guest true ∧ turn.admitted = [guest.id] ∧
      turn.relay.registry.table sid = r.registry.table sid ++ [guest.id]
  keeps : Keeps made r turn.relay
  named : ∀ id ∈ turn.made, ∃ v, turn.relay.viewers.find? id = some v ∧ v.id = id
  names : turn.errand.Names (made ++ turn.made)
  /-- Who is made, was to be closed by this call or was in the table, is gone or still to be
  closed. -/
  tends : ∀ id ∈ made ++ turn.made, id ∈ turn.made ∨ e.Tends id ∨ id ∈ r.registry.table sid →
    turn.relay.Left id ∨ turn.errand.Tends id ∨ id ∈ turn.relay.registry.table sid
  teardown : ∀ stage, turn.errand = .teardown stage →
    stage.OfStream sid ∧ turn.relay.registry.isLive sid = false
  shut : turn.relay.registry.isLive sid = false →
    (r.registry.isLive sid = false ∧ (e.Drains → turn.errand.Drains) ∨ turn.errand.Drains ∨
      turn.relay.registry.table sid = [] ∧ e.needsTable = true) ∧
    ∀ guest, turn.errand ≠ .seat guest true

section

variable {sid : StreamId} {made refused : List ViewerId} {r q : Relay} {e e' : Errand}

theorem passes_quiet
    (hold? : (r.registry.hold? sid).isSome = true → (q.registry.hold? sid).isSome = true)
    (live : q.registry.isLive sid = true → r.registry.isLive sid = true)
    (table : ∃ p, q.registry.table sid = (r.registry.table sid).filter p)
    (keeps : Keeps made r q) (names : e'.Names made)
    (tends : ∀ id ∈ made, e.Tends id ∨ id ∈ r.registry.table sid →
      q.Left id ∨ e'.Tends id ∨ id ∈ q.registry.table sid)
    (teardown : ∀ stage, e' = .teardown stage → stage.OfStream sid ∧ q.registry.isLive sid = false)
    (shut : q.registry.isLive sid = false →
      (r.registry.isLive sid = false ∧ (e.Drains → e'.Drains) ∨ e'.Drains ∨
        q.registry.table sid = [] ∧ e.needsTable = true) ∧ ∀ guest, e' ≠ .seat guest true) :
    Passes sid made r e { errand := e', relay := q, refused } where
  hold? := hold?
  live := live
  table := .inl ⟨rfl, table⟩
  keeps := keeps
  named _ hid := absurd hid List.not_mem_nil
  names := by
    rw [List.append_nil]
    exact names
  tends id hid h := by
    rw [List.append_nil] at hid
    exact tends id hid (h.resolve_left List.not_mem_nil)
  teardown := teardown
  shut := shut

/-- A step that leaves the stream and the viewers alone. -/
theorem passes_still (hstream : q.registry.stream? sid = r.registry.stream? sid)
    (hviewers : q.viewers = r.viewers) (names : e'.Names made)
    (tends : ∀ id, e.Tends id → e'.Tends id)
    (teardown : ∀ stage, e' = .teardown stage →
      stage.OfStream sid ∧ r.registry.isLive sid = false)
    (drains : e.Drains → e'.Drains)
    (seat : r.registry.isLive sid = false → ∀ guest, e' ≠ .seat guest true) :
    Passes sid made r e { errand := e', relay := q, refused } := by
  have hlive : q.registry.isLive sid = r.registry.isLive sid :=
    Registry.isLive_of_hold? (Registry.hold?_eq_of_stream? hstream)
  have htable := Registry.table_of_stream? hstream
  refine passes_quiet (fun h => ?_) (fun h => hlive ▸ h) ⟨fun _ => true, ?_⟩
    (.of_viewers hviewers) names (fun id _ h => ?_) (fun stage h => ?_) fun h => ?_
  · rw [Registry.hold?_eq_of_stream? hstream]
    exact h
  · rw [htable]
    exact (List.filter_eq_self.mpr fun _ _ => rfl).symm
  · exact .inr (h.imp (tends id) fun h => htable ▸ h)
  · rw [hlive]
    exact teardown stage h
  · rw [hlive] at h
    exact ⟨.inl ⟨h, drains⟩, seat h⟩

theorem passes_close {id : ViewerId} (hv : ∃ v, r.viewers.find? id = some v ∧ v.id = id)
    (names : e'.Names made) (tends : ∀ j, e.Tends j → j = id ∨ e'.Tends j)
    (teardown : ∀ stage, e' = .teardown stage →
      stage.OfStream sid ∧ r.registry.isLive sid = false)
    (drains : ¬ e.Drains) (seat : ∀ guest, e' ≠ .seat guest true) :
    Passes sid made r e { errand := e', relay := r.closeViewer id } := by
  obtain ⟨v, hv, hid⟩ := hv
  obtain ⟨p, htable, hp⟩ := table_closeViewer hv hid sid
  have hhold := (r.beside_closeViewer id).hold? sid
  have hlive := Registry.isLive_of_hold? hhold
  refine passes_quiet (fun h => by rw [hhold]; exact h) (fun h => hlive ▸ h) ⟨p, htable⟩
    (r.keeps_closeViewer id) names (fun j _ h => ?_) (fun stage h => ?_)
    fun h => ⟨.inl ⟨hlive ▸ h, fun hd => absurd hd drains⟩, seat⟩
  · by_cases hj : j = id
    · rw [hj]
      exact .inl (left_closeViewer hv)
    · refine .inr (h.imp (fun h => (tends j h).resolve_left hj) fun h => ?_)
      rw [htable]
      exact List.mem_filter.mpr ⟨h, hp j hj⟩
  · rw [hlive]
    exact teardown stage h

theorem passes_detach {id : ViewerId} {reply : Reply} (hid : id ∈ made)
    (tends : ∀ j, e.Tends j → j = id) (drains : ¬ e.Drains) :
    Passes sid made r e
      { errand := .close id reply, relay := r.updateStream sid fun s => (s.detach id).2 } := by
  have hhold : (r.updateStream sid fun s => (s.detach id).2).registry.hold? sid
      = r.registry.hold? sid := r.registry.hold?_update sid (fun _ => by rfl) sid
  have hlive := Registry.isLive_of_hold? hhold
  refine passes_quiet (fun h => by rw [hhold]; exact h) (fun h => hlive ▸ h)
    ⟨_, Registry.table_update_detach⟩ (.of_viewers rfl) hid (fun j _ h => ?_)
    (fun stage h => absurd h (by simp))
    fun h => ⟨.inl ⟨hlive ▸ h, fun hd => absurd hd drains⟩, fun guest => by simp⟩
  by_cases hj : j = id
  · exact .inr (.inl hj.symm)
  · refine .inr (.inr ?_)
    rw [registry_updateStream, Registry.table_update_detach]
    exact List.mem_filter.mpr ⟨h.resolve_left fun h => hj (tends j h), by simpa using hj⟩

theorem not_isLive_of_hold? {g : Registry}
    (h : ∀ p c, g.hold? sid = some (p, c) → p.holdsStream = false) : g.isLive sid = false := by
  rw [Registry.isLive_eq_hold?]
  cases hg : g.hold? sid with
  | none => rfl
  | some hold =>
    obtain ⟨p, c⟩ := hold
    have hp := h p c hg
    cases p with
    | connected => exact absurd hp (by decide)
    | _ => rfl

/-- The phase changes, and the table is still to be emptied. -/
theorem passes_release (reply : Reply) :
    Passes sid made r (.teardown (.release sid reply))
      { errand := .teardown (Stage.step r (.release sid reply)).stage
        relay := (Stage.step r (.release sid reply)).relay } := by
  obtain ⟨he, hfree⟩ | ⟨p, c, ending, g, -, -, hstage, hsid, -, hrelay, hg⟩ :=
    r.beginRelease_hold? sid reply
  · have hdown := not_isLive_of_hold? hfree
    rw [he]
    refine passes_still rfl rfl trivial (fun _ h => h.elim) (fun stage h => ?_) (fun h => h.elim)
      fun _ _ => by simp
    obtain rfl := Errand.teardown.inj h
    exact ⟨trivial, hdown⟩
  · have hnew : g.hold? sid = some (.disconnected, none) := (hg sid).trans (if_pos rfl)
    have hdown : g.isLive sid = false := by
      rw [Registry.isLive_eq_hold?, hnew]
      rfl
    have htable : g.table sid = r.registry.table sid := by
      have hsame := r.relay_step_release sid reply
      rw [hrelay] at hsame
      obtain rfl : g = (r.registry.beginRelease sid).2 := congrArg Relay.registry hsame
      exact table_beginRelease ..
    rw [hrelay, hstage]
    refine passes_quiet (fun _ => by rw [hnew]; rfl)
      (fun h => absurd (hdown.symm.trans h) (by simp)) ⟨fun _ => true, ?_⟩ (.of_viewers rfl)
      trivial (fun id _ h => ?_) (fun stage h => ?_)
      fun _ => ⟨.inr (.inl trivial), fun _ => by simp⟩
    · exact htable.trans (List.filter_eq_self.mpr fun _ _ => rfl).symm
    · refine .inr (.inr ?_)
      show id ∈ g.table sid
      rw [htable]
      exact h.resolve_left fun h => h.elim
    · obtain rfl := Errand.teardown.inj h
      exact ⟨hsid, hdown⟩

/-- **The table is emptied**, and everybody who was in it will be closed. -/
theorem passes_drain {ending : Ending} (hsid : ending.stream = sid)
    (htable : ∀ id ∈ r.registry.table sid, id ∈ made) (hdown : r.registry.isLive sid = false) :
    Passes sid made r (.teardown (.drain ending))
      { errand := .teardown (.dismiss ending (r.drainViewers ending.stream).1)
        relay := (r.drainViewers ending.stream).2 } := by
  subst hsid
  have hhold := (r.beside_drainViewers ending.stream).hold? ending.stream
  have hlive := Registry.isLive_of_hold? hhold
  rw [drainViewers_fst]
  refine passes_quiet (fun h => by rw [hhold]; exact h) (fun h => hlive ▸ h) ⟨fun _ => false, ?_⟩
    (.of_viewers (viewers_drainViewers ..)) htable (fun id _ h => ?_) (fun stage h => ?_)
    fun _ => ⟨.inr (.inr ⟨table_drainViewers .., rfl⟩), fun _ => by simp⟩
  · rw [table_drainViewers]
    exact (List.filter_eq_nil_iff.mpr fun _ _ => by simp).symm
  · exact .inr (.inl (h.resolve_left fun h => h.elim))
  · obtain rfl := Errand.teardown.inj h
    exact ⟨trivial, hlive.trans hdown⟩

/-- **A viewer is made**, and the call that makes it sees to it. -/
theorem passes_addViewer {offer : String} {id : ViewerId} (hnew : id ∉ made) (pool : ConnectionPool)
    (key : String) (codec : Codec) (c : ConnectionId) :
    Passes sid made r (.connect offer id)
      { errand := .lock ⟨id, offer, codec, c⟩
        relay := ({ r with connections := pool } : Relay).addViewer id key codec c
        made := [id] } where
  hold? h := h
  live h := h
  table := .inl ⟨rfl, fun _ => true, (List.filter_eq_self.mpr fun _ _ => rfl).symm⟩
  keeps j hj v hv := by
    refine ⟨v, ?_, rfl, fun hg => hg⟩
    show (r.viewers.insert id _).find? j = some v
    rw [Table.find?_insert, if_neg, hv]
    rintro rfl
    exact hnew hj
  named j hj := by
    obtain rfl := List.mem_singleton.mp hj
    refine ⟨{ id := j, streamKey := key, videoCodec := codec, connection := some c }, ?_, rfl⟩
    show (r.viewers.insert j _).find? j = _
    rw [Table.find?_insert, if_pos rfl]
  names := List.mem_append_right _ List.mem_cons_self
  tends j _ h := by
    refine .inr (h.imp (fun h => (List.mem_singleton.mp h).symm) fun h => ?_)
    exact h.resolve_left fun h => h.elim
  teardown _ h := absurd h (by simp)
  shut h := ⟨.inl ⟨h, fun h => h.elim⟩, fun _ => by simp⟩

/-- **A viewer is admitted**, and now it is in the table. -/
theorem passes_enlist {guest : Guest} (hid : guest.id ∈ made)
    (hhold : (r.registry.hold? sid).isSome) (hout : guest.id ∉ r.registry.table sid)
    (key : String) :
    Passes sid made r (.seat guest true) ((Errand.seat guest true).step sid key r) := by
  have hsame : ((Errand.seat guest true).step sid key r).relay.registry.hold? sid
      = r.registry.hold? sid := r.registry.hold?_update sid (fun _ => by rfl) sid
  have hlive := Registry.isLive_of_hold? hsame
  have htable : ((Errand.seat guest true).step sid key r).relay.registry.table sid
      = r.registry.table sid ++ [guest.id] := by
    obtain ⟨hold, hh⟩ := Option.isSome_iff_exists.mp hhold
    obtain ⟨s, hs, -⟩ := Option.map_eq_some_iff.mp hh
    rw [Registry.table_of_some hs] at hout ⊢
    show (r.registry.update sid (·.enlist guest.id)).table sid = _
    rw [Registry.table, Registry.stream?_update, if_pos rfl, hs]
    show (s.enlist guest.id).viewers = _
    rw [Stream.enlist, if_neg hout]
  refine ⟨fun h => by rw [hsame]; exact h, fun h => hlive ▸ h, .inr ⟨guest, rfl, rfl, htable⟩,
    keeps_updateViewer (r.updateStream sid (·.enlist guest.id)) guest.id (fun _ => rfl)
      fun _ hg => hg,
    fun _ h => absurd h List.not_mem_nil, List.mem_append_left _ hid, fun id _ h => ?_,
    fun _ h => absurd h (by simp [step]),
    fun h => ⟨.inl ⟨hlive ▸ h, fun h => h.elim⟩, fun _ => by simp [step]⟩⟩
  refine .inr (.inr ?_)
  rw [htable]
  rcases h with h | h | h
  · exact absurd h List.not_mem_nil
  · have h : guest.id = id := h
    exact h ▸ List.mem_append_right _ List.mem_cons_self
  · exact List.mem_append_left _ h

theorem passes_teardown {stage : Stage} (hof : stage.OfStream sid)
    (hdown : r.registry.isLive sid = true → ∃ reply, stage = .release sid reply)
    (hnames : (teardown stage).Names made) (htable : ∀ id ∈ r.registry.table sid, id ∈ made)
    (hnamed : ∀ id ∈ made, ∃ v, r.viewers.find? id = some v ∧ v.id = id) :
    Passes sid made r (.teardown stage)
      { errand := .teardown (stage.step r).stage, relay := (stage.step r).relay } := by
  have hoff : (∀ reply, stage ≠ .release sid reply) → r.registry.isLive sid = false := by
    intro hno
    cases hl : r.registry.isLive sid with
    | false => rfl
    | true =>
      obtain ⟨reply, he⟩ := hdown hl
      exact absurd he (hno reply)
  have hstill : ∀ {q : Relay} {next : Stage}, (∀ reply, stage ≠ .release sid reply) →
      q.registry.stream? sid = r.registry.stream? sid → q.viewers = r.viewers →
      (teardown next).Names made → (∀ id, (teardown stage).Tends id → (teardown next).Tends id) →
      next.OfStream sid → (stage.BeforeDrain → next.BeforeDrain) →
      Passes sid made r (.teardown stage) { errand := .teardown next, relay := q } := by
    intro q next hno hstream hviewers names tends hnext hdrains
    refine passes_still hstream hviewers names tends (fun other h => ?_) hdrains
      fun _ _ => by simp
    obtain rfl := Errand.teardown.inj h
    exact ⟨hnext, hoff hno⟩
  cases stage with
  | release j reply =>
    obtain rfl : j = sid := hof
    exact passes_release reply
  | forget ending =>
    exact hstill (by simp) (Registry.stream?_forget ..) rfl trivial (fun _ h => h.elim) hof id
  | hangUp ending =>
    refine hstill (by simp) ?_ (viewers_closeReleased ..) trivial (fun _ h => h.elim) hof id
    exact congrArg (·.stream? sid) (registry_closeReleased ..)
  | clear ending => exact hstill (by simp) rfl rfl trivial (fun _ h => h.elim) hof id
  | drain ending => exact passes_drain hof htable (hoff (by simp))
  | dismiss ending ids =>
    cases ids with
    | nil =>
      exact hstill (by simp) rfl rfl trivial (fun _ h => absurd h List.not_mem_nil) trivial
        fun h => h.elim
    | cons id rest =>
      refine passes_close (hnamed id (hnames id List.mem_cons_self))
        (fun j hj => hnames j (List.mem_cons_of_mem id hj)) (fun j h => List.mem_cons.mp h)
        (fun other h => ?_) (fun h => h.elim) fun _ => by simp
      obtain rfl := Errand.teardown.inj h
      exact ⟨trivial, hoff (by simp)⟩
  | report ending =>
    simp only [Stage.step]
    split
    · exact hstill (by simp) rfl rfl trivial (fun _ h => h.elim) trivial fun h => h.elim
    · exact hstill (by simp) rfl rfl trivial (fun _ h => h.elim) trivial fun h => h.elim
  | finished reply =>
    exact hstill (by simp) rfl rfl trivial (fun _ h => h.elim) trivial fun h => h.elim
  | _ => exact hof.elim

/-- **All that a step can do.** -/
theorem passes_step (key : String) (hhold : (r.registry.hold? sid).isSome) (hnames : e.Names made)
    (htable : ∀ id ∈ r.registry.table sid, id ∈ made)
    (hnamed : ∀ id ∈ made, ∃ v, r.viewers.find? id = some v ∧ v.id = id)
    (hnew : ∀ offer id, e = .connect offer id → id ∉ made)
    (hout : ∀ id, e.unseated? = some id → id ∉ r.registry.table sid)
    (hteardown : ∀ stage, e = .teardown stage → stage.OfStream sid ∧
      (r.registry.isLive sid = true → ∃ reply, stage = .release sid reply)) :
    Passes sid made r e (e.step sid key r) := by
  cases e with
  | connect offer id =>
    obtain ⟨fault, he⟩ | he := r.openConnection_cases
    · simp only [step, he]
      exact passes_still rfl rfl trivial (fun _ h => h.elim) (fun _ h => absurd h (by simp))
        (fun h => h.elim) fun _ _ => by simp
    · simp only [step, he]
      exact passes_addViewer (hnew offer id rfl) ..
  | lock guest =>
    exact passes_still rfl rfl hnames (fun _ h => h) (fun _ h => absurd h (by simp))
      (fun h => h.elim) fun _ _ => by simp
  | check guest =>
    refine passes_still rfl rfl hnames (fun _ h => h) (fun _ h => absurd h (by simp))
      (fun h => h.elim) fun h _ => ?_
    simp [h]
  | seat guest live =>
    cases live with
    | true => exact passes_enlist hnames hhold (hout guest.id rfl) key
    | false =>
      exact passes_still rfl rfl hnames (fun _ h => h) (fun _ h => absurd h (by simp))
        (fun h => h.elim) fun _ _ => by simp
  | negotiate guest =>
    simp only [step]
    split
    · exact passes_still rfl rfl hnames (fun _ h => h.elim) (fun _ h => absurd h (by simp))
        (fun h => h.elim) fun _ _ => by simp
    · exact passes_still rfl rfl hnames (fun _ h => h.elim) (fun _ h => absurd h (by simp))
        (fun h => h.elim) fun _ _ => by simp
  | activate guest answer =>
    exact passes_quiet (fun h => h) (fun h => h)
      ⟨_, (List.filter_eq_self.mpr fun _ _ => rfl).symm⟩
      (r.keeps_updateViewer guest.id (fun _ => rfl) fun _ h => h.activate) trivial
      (fun _ _ h => .inr (h.imp (fun h => h.elim) fun h => h)) (fun _ h => absurd h (by simp))
      fun h => ⟨.inl ⟨h, fun h => h.elim⟩, fun _ => by simp⟩
  | remove guest fault => exact passes_detach hnames (fun j h => h.symm) fun h => h.elim
  | close id reply =>
    exact passes_close (hnamed id hnames) trivial (fun j h => .inl h.symm)
      (fun _ h => absurd h (by simp)) (fun h => h.elim) fun _ => by simp
  | leave id =>
    simp only [step]
    split
    · rename_i hid
      exact passes_detach (htable id hid) (fun j h => h.elim) fun h => h.elim
    · exact passes_still rfl rfl trivial (fun _ h => h.elim) (fun _ h => absurd h (by simp))
        (fun h => h.elim) fun _ _ => by simp
  | teardown stage =>
    obtain ⟨hof, hdown⟩ := hteardown stage rfl
    exact passes_teardown hof hdown hnames htable hnamed
  | finished reply =>
    exact passes_still rfl rfl trivial (fun _ h => h.elim) (fun _ h => absurd h (by simp))
      (fun h => h.elim) fun _ _ => by simp

end

/-- A viewer that is brought by a call after its step was brought by it before. -/
theorem unseated?_step (sid : StreamId) (key : String) (r : Relay) (e : Errand) {id : ViewerId}
    (h : (e.step sid key r).errand.unseated? = some id) : e.unseated? = some id := by
  cases e with
  | connect offer j =>
    obtain ⟨fault, he⟩ | he := r.openConnection_cases <;> simp only [step, he] at h
    · exact absurd h (by simp [unseated?])
    · exact h
  | lock guest => exact h
  | check guest => exact h
  | seat guest live => cases live <;> exact absurd h (by simp [step, unseated?])
  | negotiate guest =>
    simp only [step] at h
    split at h <;> exact absurd h (by simp [unseated?])
  | leave j =>
    simp only [step] at h
    split at h <;> exact absurd h (by simp [unseated?])
  | _ => exact absurd h (by simp [step, unseated?])

theorem step_ne_connect (sid : StreamId) (key : String) (r : Relay) (e : Errand) (offer : String)
    (id : ViewerId) : (e.step sid key r).errand ≠ .connect offer id := by
  intro h
  have hu : e.unseated? = some id := unseated?_step sid key r e (by rw [h]; rfl)
  cases e with
  | connect offer' j =>
    obtain ⟨fault, he⟩ | he := r.openConnection_cases <;> simp only [step, he] at h <;>
      exact absurd h (by simp)
  | seat guest live => cases live <;> exact absurd h (by simp [step])
  | lock | check => exact absurd h (by simp [step])
  | _ => exact absurd hu (by simp [unseated?])

theorem made_step (sid : StreamId) (key : String) (r : Relay) (e : Errand) {id : ViewerId}
    (h : id ∈ (e.step sid key r).made) : ∃ offer, e = .connect offer id := by
  cases e with
  | connect offer j =>
    obtain ⟨fault, he⟩ | he := r.openConnection_cases <;> simp only [step, he] at h
    · exact absurd h List.not_mem_nil
    · exact ⟨offer, by rw [List.mem_singleton.mp h]⟩
  | seat guest live => cases live <;> exact absurd h List.not_mem_nil
  | negotiate guest => simp only [step] at h; split at h <;> exact absurd h List.not_mem_nil
  | leave j => simp only [step] at h; split at h <;> exact absurd h List.not_mem_nil
  | _ => exact absurd h List.not_mem_nil

/-- A viewer is answered once, by the call that brings it. -/
theorem answers_step (sid : StreamId) (key : String) (r : Relay) (e : Errand) {id : ViewerId}
    (h : id ∈ (e.step sid key r).admitted ∨ id ∈ (e.step sid key r).refused) :
    (∃ guest live, e = .seat guest live ∧ guest.id = id) ∧
      (e.step sid key r).errand.unseated? = none := by
  have hnone : ∀ {P : Prop}, id ∈ ([] : List ViewerId) ∨ id ∈ ([] : List ViewerId) → P :=
    fun h => h.elim (fun h => absurd h List.not_mem_nil) fun h => absurd h List.not_mem_nil
  cases e with
  | connect offer j =>
    obtain ⟨fault, he⟩ | he := r.openConnection_cases <;> simp only [step, he] at h <;>
      exact hnone h
  | seat guest live =>
    cases live with
    | true =>
      have hid := h.resolve_right List.not_mem_nil
      exact ⟨⟨guest, true, rfl, (List.mem_singleton.mp hid).symm⟩, rfl⟩
    | false =>
      have hid := h.resolve_left List.not_mem_nil
      exact ⟨⟨guest, false, rfl, (List.mem_singleton.mp hid).symm⟩, rfl⟩
  | negotiate guest => simp only [step] at h; split at h <;> exact hnone h
  | leave j => simp only [step] at h; split at h <;> exact hnone h
  | _ => exact hnone h

theorem not_admitted_of_refused (sid : StreamId) (key : String) (r : Relay) (e : Errand)
    {id : ViewerId} (h : id ∈ (e.step sid key r).refused) : id ∉ (e.step sid key r).admitted := by
  obtain ⟨⟨guest, live, rfl, rfl⟩, -⟩ := answers_step sid key r e (.inr h)
  cases live with
  | true => exact absurd h List.not_mem_nil
  | false => exact List.not_mem_nil

theorem isFinished_cases {e : Errand} (h : e.isFinished = true) :
    (∃ reply, e = .finished reply) ∨ ∃ reply, e = .teardown (.finished reply) := by
  cases e with
  | finished reply => exact .inl ⟨reply, rfl⟩
  | teardown stage =>
    cases stage with
    | finished reply => exact .inr ⟨reply, rfl⟩
    | _ => exact absurd h (by simp [isFinished, Stage.isFinished])
  | _ => exact absurd h (by simp [isFinished])

theorem Speaks.mono {answered away answered' away' : ViewerId → Prop} {e : Errand}
    (h : e.Speaks answered away) (hanswered : ∀ id, answered id → answered' id)
    (haway : ∀ id, away id → away' id) : e.Speaks answered' away' := by
  cases e with
  | teardown stage =>
    cases stage with
    | dismiss ending ids => exact fun id hid => haway id (h id hid)
    | _ => trivial
  | negotiate | activate | remove => exact hanswered _ h
  | close => exact haway _ h
  | _ => trivial

theorem Names.mono {made made' : List ViewerId} {e : Errand} (h : e.Names made)
    (hsub : ∀ id ∈ made, id ∈ made') : e.Names made' := by
  cases e with
  | teardown stage =>
    cases stage with
    | dismiss ending ids => exact fun id hid => hsub id (h id hid)
    | _ => trivial
  | lock | check | seat | negotiate | activate | remove | close => exact hsub _ h
  | connect | leave | finished => trivial

end Errand

end Relay

end Simulcast
