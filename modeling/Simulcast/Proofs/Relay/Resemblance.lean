import Simulcast.Proofs.Relay.Accounts
/-!
# Shares that are alike

Two shares are alike if they differ in nothing but names, peer connections and times
(`Share.AlikeUnder`).  The names of viewers are translated by a permutation.  Stream objects
and feeds are named by the relay, so the ones of two relays are tied in pairs (`Relay.Ties`),
in the order in which they came; where one relay gets a new one, the other does too.

Changes that are alike keep shares alike.  A feed that ends takes its tie with it, and for
that no keyframe loop may wait under its name any more; so the shares also say that a waiting
loop belongs to a feed of the same stream (`Share.AlikeUnder.waiting`).
-/

namespace Simulcast

/-! ### Lists of ties -/

/-- The names under which something is found, in order. -/
structure Lists {α : Type} (names : List Nat) (look : Nat → Option α) : Prop where
  increasing : names.Pairwise (· < ·)
  mem_iff : ∀ a, a ∈ names ↔ ∃ x, look a = some x

section

variable {α β : Type} {names names' : List Nat} {look : Nat → Option α} {look' : Nat → Option β}

theorem Lists.of_same (h : Lists names look)
    (hl : ∀ a, (look' a).isSome = (look a).isSome) : Lists names look' := by
  refine ⟨h.increasing, fun a => ?_⟩
  rw [h.mem_iff, ← Option.isSome_iff_exists, ← Option.isSome_iff_exists, hl]

theorem Lists.eq (h : Lists names look) (h' : Lists names' look) : names = names' :=
  h.increasing.eq_of_mem_iff h'.increasing fun a => (h.mem_iff a).trans (h'.mem_iff a).symm

theorem Lists.append (h : Lists names look) {a : Nat} {x : α} (ha : ∀ b ∈ names, b < a) :
    Lists (names ++ [a]) fun j => if j = a then some x else look j := by
  constructor
  · rw [List.pairwise_append]
    refine ⟨h.increasing, List.pairwise_singleton .., fun b hb c hc => ?_⟩
    rw [List.mem_singleton.mp hc]
    exact ha b hb
  · intro b
    rw [List.mem_append, List.mem_singleton, h.mem_iff]
    by_cases hb : b = a
    · simp [hb]
    · simp [hb]

theorem Lists.remove (h : Lists names look) (a : Nat) :
    Lists (names.filter (· ≠ a)) fun j => if j = a then none else look j := by
  refine ⟨h.increasing.filter _, fun b => ?_⟩
  rw [List.mem_filter, h.mem_iff]
  by_cases hb : b = a
  · simp [hb]
  · simp [hb]

/-- Names that increase on both sides are tied one to one. -/
theorem fst_eq_iff_snd_eq {ties : List (Nat × Nat)} (h : Lists (ties.map Prod.fst) look)
    (h' : Lists (ties.map Prod.snd) look') {p p' : Nat × Nat} (hp : p ∈ ties) (hp' : p' ∈ ties) :
    p.1 = p'.1 ↔ p.2 = p'.2 := by
  have hfst := h.increasing.imp Nat.ne_of_lt
  have hsnd := h'.increasing.imp Nat.ne_of_lt
  constructor
  · intro he
    rw [List.inj_on_of_nodup_map hfst hp hp' he]
  · intro he
    rw [List.inj_on_of_nodup_map hsnd hp hp' he]

/-- What stands at one place on both sides is tied. -/
theorem mem_ties_of_getElem? {ties : List (Nat × Nat)} {i a b : Nat}
    (ha : (ties.map Prod.fst)[i]? = some a) (hb : (ties.map Prod.snd)[i]? = some b) :
    (a, b) ∈ ties := by
  rw [List.getElem?_map] at ha hb
  obtain ⟨p, hp, rfl⟩ := Option.map_eq_some_iff.mp ha
  obtain ⟨p', hp', rfl⟩ := Option.map_eq_some_iff.mp hb
  obtain rfl := Option.some.inj (hp.symm.trans hp')
  exact List.mem_of_getElem? hp

end

/-- What holds of the members on one side may be used on every pair. -/
theorem forall₂_imp_of_mem {α β : Type} {R S : α → β → Prop} {l : List α} {l' : List β}
    (h : List.Forall₂ R l l') (hm : ∀ a ∈ l, ∀ b, R a b → S a b) : List.Forall₂ S l l' := by
  induction h with
  | nil => exact .nil
  | cons hab _ ih =>
    exact .cons (hm _ List.mem_cons_self _ hab) (ih fun a ha => hm a (List.mem_cons_of_mem _ ha))

/-! ### Viewers -/

/-- A viewer without its name, its connection and the name of its stream. -/
def Viewer.face (v : Viewer) : Viewer := { v with id := "", connection := none, home := none }

namespace Viewer

theorem face_told (v : Viewer) (c : Call) : (v.told c).face = v.face.told c := by
  cases c with
  | select layer => rfl
  | send o =>
    have hsame : v.face.accepts o.layer = v.accepts o.layer := rfl
    cases ha : v.accepts o.layer with
    | true =>
      rw [told, told, send_of_accepts ha, send_of_accepts (hsame.trans ha)]
      rfl
    | false =>
      rw [told, told, send_of_not_accepts ha, send_of_not_accepts (hsame.trans ha)]
      rfl

theorem face_closed (v : Viewer) : v.closed.face = v.face.closed := rfl

end Viewer

/-! ### Keyframe requests -/

/-- A loop of the same kind, under a name that is tied to the other's. -/
def KeyframeLoop.Tied (feeds : List (LoopId × LoopId)) (a b : KeyframeLoop) : Prop :=
  (a.id, b.id) ∈ feeds ∧ b = { a with id := b.id }

structure KeyframeQueue.AlikeUnder (feeds : List (LoopId × LoopId)) (q q' : KeyframeQueue) :
    Prop where
  capacity : q'.capacity = q.capacity
  pending : q'.pending = q.pending
  waiting : List.Forall₂ (KeyframeLoop.Tied feeds) q.waiting q'.waiting

namespace KeyframeQueue

variable {feeds feeds' : List (LoopId × LoopId)} {q q' : KeyframeQueue}

theorem AlikeUnder.imp (h : q.AlikeUnder feeds q')
    (hm : ∀ l ∈ q.waiting, ∀ p ∈ feeds, p.1 = l.id → p ∈ feeds') : q.AlikeUnder feeds' q' :=
  ⟨h.capacity, h.pending, forall₂_imp_of_mem h.waiting fun l hl _ ht =>
    ⟨hm l hl _ ht.1 rfl, ht.2⟩⟩

theorem AlikeUnder.request (h : q.AlikeUnder feeds q') :
    q.request.2.AlikeUnder feeds q'.request.2 := by
  have hroom : q'.hasRoom = q.hasRoom := by rw [hasRoom, hasRoom, h.capacity, h.pending]
  unfold KeyframeQueue.request
  rw [hroom]
  split
  · exact ⟨h.capacity, congrArg (· + 1) h.pending, h.waiting⟩
  · exact h

theorem AlikeUnder.join (h : q.AlikeUnder feeds q') {a b : KeyframeLoop} (hab : a.Tied feeds b) :
    (q.join a).AlikeUnder feeds (q'.join b) :=
  ⟨h.capacity, h.pending, List.rel_append h.waiting (.cons hab .nil)⟩

theorem AlikeUnder.leave (h : q.AlikeUnder feeds q') {p : LoopId × LoopId}
    (hone : ∀ p' ∈ feeds, p'.1 = p.1 ↔ p'.2 = p.2) :
    (q.leave p.1).AlikeUnder feeds (q'.leave p.2) := by
  refine ⟨h.capacity, h.pending, ?_⟩
  refine List.rel_filter (fun a b hab => ?_) h.waiting
  simpa using not_congr (hone _ hab.1)

/-- One request more is served in both, or in neither. -/
theorem AlikeUnder.serveOne? (h : q.AlikeUnder feeds q') :
    q.serveOne? = none ∧ q'.serveOne? = none ∨
      ∃ a p a' p', q.serveOne? = some (a, p) ∧ q'.serveOne? = some (a', p') ∧
        p.AlikeUnder feeds p' := by
  obtain ⟨capacity, pending, waiting⟩ := q
  obtain ⟨capacity', pending', waiting'⟩ := q'
  obtain ⟨hc, hp, hw⟩ := h
  simp only at hc hp hw
  subst hc hp
  cases pending' with
  | zero => exact .inl ⟨rfl, rfl⟩
  | succ n =>
    cases hw with
    | nil => exact .inl ⟨rfl, rfl⟩
    | cons hab hrest =>
      rename_i a b rest rest'
      refine .inr ⟨_, _, _, _, rfl, rfl, rfl, rfl, ?_⟩
      have hcan : b.canSend b.attempts = a.canSend a.attempts := by rw [hab.2]
      show List.Forall₂ _ (if a.canSend a.attempts then _ else _)
        (if b.canSend b.attempts then _ else _)
      rw [hcan]
      split
      · refine List.rel_append hrest (.cons ⟨hab.1, ?_⟩ .nil)
        rw [hab.2]
      · exact hrest

theorem AlikeUnder.serveUpTo (n : Nat) (h : q.AlikeUnder feeds q') :
    (serveUpTo n q).2.AlikeUnder feeds (serveUpTo n q').2 := by
  induction n generalizing q q' with
  | zero => exact h
  | succ n ih =>
    obtain ⟨hq, hq'⟩ | ⟨a, p, a', p', hq, hq', hp⟩ := h.serveOne?
    · simp only [KeyframeQueue.serveUpTo, hq, hq']
      exact h
    · simp only [KeyframeQueue.serveUpTo, hq, hq']
      exact ih hp

theorem AlikeUnder.serve (h : q.AlikeUnder feeds q') : q.serve.2.AlikeUnder feeds q'.serve.2 := by
  unfold KeyframeQueue.serve
  rw [h.pending]
  exact h.serveUpTo q.pending

/-- Serving requests brings no loop in. -/
theorem mem_waiting_serve {q : KeyframeQueue} {l : KeyframeLoop} (h : l ∈ q.serve.2.waiting) :
    ∃ l' ∈ q.waiting, l'.id = l.id := by
  have hserve : ∀ (n : Nat) (q : KeyframeQueue), l ∈ (KeyframeQueue.serveUpTo n q).2.waiting →
      ∃ l' ∈ q.waiting, l'.id = l.id := by
    intro n
    induction n with
    | zero => exact fun q h => ⟨l, h, rfl⟩
    | succ n ih =>
      intro q h
      obtain ⟨capacity, pending, waiting⟩ := q
      cases pending with
      | zero => exact ⟨l, h, rfl⟩
      | succ m =>
        cases waiting with
        | nil => exact ⟨l, h, rfl⟩
        | cons a rest =>
          obtain ⟨l', hl', hid⟩ := ih _ h
          have hl'' : l' ∈ if a.canSend a.attempts
              then rest ++ [{ a with attempts := a.attempts + 1 }] else rest := hl'
          split at hl''
          · rcases List.mem_append.mp hl'' with hm | hm
            · exact ⟨l', List.mem_cons_of_mem _ hm, hid⟩
            · rw [List.mem_singleton.mp hm] at hid
              exact ⟨a, List.mem_cons_self, hid⟩
          · exact ⟨l', List.mem_cons_of_mem _ hl'', hid⟩
  exact hserve _ q h

end KeyframeQueue

/-! ### Streams -/

/-- The counters of a layer without the time of its first packet. -/
def LayerCounters.timeless (c : LayerCounters) : LayerCounters := { c with since := 0 }

/-- Two streams of one kind, with other names for viewers and feeds. -/
structure Stream.AlikeUnder (ρ : ViewerId ≃ ViewerId) (feeds : List (LoopId × LoopId))
    (s t : Stream) : Prop where
  phase : t.phase = s.phase
  layers : t.layers = s.layers
  counters : ∀ layer, (t.counters.find? layer).map LayerCounters.timeless
    = (s.counters.find? layer).map LayerCounters.timeless
  broadcaster : t.broadcaster = s.broadcaster
  videoCodec : t.videoCodec = s.videoCodec
  viewers : t.viewers = s.viewers.map ρ
  keyframes : s.keyframes.AlikeUnder feeds t.keyframes

namespace Stream

variable {ρ : ViewerId ≃ ViewerId} {feeds feeds' : List (LoopId × LoopId)} {s t : Stream}

theorem AlikeUnder.imp (h : s.AlikeUnder ρ feeds t)
    (hm : ∀ l ∈ s.keyframes.waiting, ∀ p ∈ feeds, p.1 = l.id → p ∈ feeds') :
    s.AlikeUnder ρ feeds' t :=
  { h with keyframes := h.keyframes.imp hm }

theorem AlikeUnder.mem_viewers (h : s.AlikeUnder ρ feeds t) (id : ViewerId) :
    ρ id ∈ t.viewers ↔ id ∈ s.viewers := by
  rw [h.viewers, List.mem_map_of_injective ρ.injective]

theorem AlikeUnder.isLive (h : s.AlikeUnder ρ feeds t) : t.isLive = s.isLive := by
  rw [Stream.isLive, Stream.isLive, h.phase]

theorem AlikeUnder.requestKeyframe (h : s.AlikeUnder ρ feeds t) :
    s.requestKeyframe.2.AlikeUnder ρ feeds t.requestKeyframe.2 :=
  { h with keyframes := h.keyframes.request }

theorem AlikeUnder.serveKeyframes (h : s.AlikeUnder ρ feeds t) :
    ({ s with keyframes := s.keyframes.serve.2 } : Stream).AlikeUnder ρ feeds
      { t with keyframes := t.keyframes.serve.2 } :=
  { h with keyframes := h.keyframes.serve }

theorem AlikeUnder.retired (h : s.AlikeUnder ρ feeds t) : s.retired.AlikeUnder ρ feeds t.retired :=
  { h with phase := rfl, viewers := rfl }

theorem AlikeUnder.attach (h : s.AlikeUnder ρ feeds t) (id : ViewerId) :
    (s.attach id).2.AlikeUnder ρ feeds (t.attach (ρ id)).2 := by
  rw [attach_eq, attach_eq, h.isLive]
  split
  · refine { h with viewers := ?_ }
    show (if ρ id ∈ t.viewers then t.viewers else t.viewers ++ [ρ id])
      = (if id ∈ s.viewers then s.viewers else s.viewers ++ [id]).map ρ
    simp only [h.mem_viewers]
    split
    · exact h.viewers
    · rw [List.map_append, h.viewers]
      rfl
  · exact h

theorem AlikeUnder.observeTrack (h : s.AlikeUnder ρ feeds t) (kind : MediaKind) (codec : Codec) :
    (s.observeTrack kind codec).2.AlikeUnder ρ feeds (t.observeTrack kind codec).2 ∧
      (t.observeTrack kind codec).1 = (s.observeTrack kind codec).1 := by
  unfold Stream.observeTrack
  rw [h.broadcaster, h.videoCodec]
  exact ⟨{ h with broadcaster := rfl, videoCodec := rfl }, rfl⟩

theorem noteRead_leaves (s : Stream) (f : Feed) (p : Packet) (now : Millis) :
    (s.noteRead f p now).keyframes = s.keyframes ∧
      (s.noteRead f p now).broadcaster = s.broadcaster ∧
      (s.noteRead f p now).videoCodec = s.videoCodec := by
  unfold Stream.noteRead addLayer
  split
  · split <;> exact ⟨rfl, rfl, rfl⟩
  · exact ⟨rfl, rfl, rfl⟩

/-- A packet leaves the same behind, whenever it is read. -/
theorem AlikeUnder.noteRead (h : s.AlikeUnder ρ feeds t) {f g : Feed}
    (hfg : g = { f with stream := g.stream }) (p : Packet) (now now' : Millis) :
    (s.noteRead f p now).AlikeUnder ρ feeds (t.noteRead g p now') := by
  obtain ⟨hs, hbs, hvs⟩ := s.noteRead_leaves f p now
  obtain ⟨ht, hbt, hvt⟩ := t.noteRead_leaves g p now'
  have hlayer : g.layer = f.layer := by rw [hfg]
  have hlast : g.lastTimestamp = f.lastTimestamp := by rw [hfg]
  have hphase := (s.sameHold_noteRead f p now).phase
  have hphase' := (t.sameHold_noteRead g p now').phase
  refine ⟨?_, ?_, fun layer => ?_, ?_, ?_, ?_, ?_⟩
  · rw [hphase, hphase', h.phase]
  · rw [layers_noteRead, layers_noteRead, h.layers, hlayer, hlast]
  · rw [counters_noteRead, counters_noteRead, Table.find?_insert, Table.find?_insert, hlayer]
    split
    · have hcount := h.counters f.layer
      cases hc : s.counters.find? f.layer with
      | none =>
        rw [hc, Option.map_none, Option.map_eq_none_iff] at hcount
        rw [hcount]
        rfl
      | some c =>
        rw [hc, Option.map_some] at hcount
        obtain ⟨c', hc', he⟩ := Option.map_eq_some_iff.mp hcount
        rw [hc']
        exact congrArg (fun c => some (c.record p.payload.length.toUInt64)) he
    · exact h.counters layer
  · rw [hbs, hbt, h.broadcaster]
  · rw [hvs, hvt, h.videoCodec]
  · rw [viewers_noteRead, viewers_noteRead, h.viewers]
  · rw [hs, ht]
    exact h.keyframes

theorem alikeUnder_create (key : String) (queueCapacity : Nat) (now now' : Millis) :
    (create key queueCapacity now).AlikeUnder ρ feeds (create key queueCapacity now') :=
  ⟨rfl, rfl, fun _ => rfl, rfl, rfl, rfl, rfl, rfl, .nil⟩

end Stream

namespace Relay

/-- The streams and feeds of one key in two relays, in pairs. -/
structure Ties where
  streams : List (StreamId × StreamId)
  feeds : List (LoopId × LoopId)

end Relay

/-! ### Shares -/

/-- Two shares that differ in names, connections and times only. -/
structure Share.AlikeUnder (ρ : ViewerId ≃ ViewerId) (ties : Relay.Ties) (u w : Share) : Prop where
  key : w.key = u.key
  settings : w.settings = u.settings
  /-- Attempts come to the same, whatever the connections that are made for them. -/
  negotiate : ∀ side c c' offer, w.negotiate ⟨side, c', offer⟩ = u.negotiate ⟨side, c, offer⟩
  validator : w.validator = u.validator
  queueCapacity : w.queueCapacity = u.queueCapacity
  notices : w.notices = u.notices
  onAir : u.onAir = none ∧ w.onAir = none ∨
    ∃ p ∈ ties.streams, u.onAir = some p.1 ∧ w.onAir = some p.2
  streamNames : Lists (ties.streams.map Prod.fst) u.streams ∧
    Lists (ties.streams.map Prod.snd) w.streams
  feedNames : Lists (ties.feeds.map Prod.fst) u.feeds ∧ Lists (ties.feeds.map Prod.snd) w.feeds
  streams : ∀ p ∈ ties.streams, ∃ s t, u.streams p.1 = some s ∧ w.streams p.2 = some t ∧
    s.AlikeUnder ρ ties.feeds t
  feeds : ∀ p ∈ ties.feeds, ∃ f g, u.feeds p.1 = some f ∧ w.feeds p.2 = some g ∧
    (f.stream, g.stream) ∈ ties.streams ∧ g = { f with stream := g.stream }
  waiting : ∀ sid s, u.streams sid = some s → ∀ l ∈ s.keyframes.waiting,
    ∃ f, u.feeds l.id = some f ∧ f.stream = sid
  viewers : ∀ id, (w.viewers (ρ id)).map Viewer.face = (u.viewers id).map Viewer.face

namespace Share

open Relay (Ties)

variable {ρ : ViewerId ≃ ViewerId} {ties : Ties} {u w : Share}

theorem AlikeUnder.one_one (h : u.AlikeUnder ρ ties w) {p p' : StreamId × StreamId}
    (hp : p ∈ ties.streams) (hp' : p' ∈ ties.streams) : p.1 = p'.1 ↔ p.2 = p'.2 :=
  fst_eq_iff_snd_eq h.streamNames.1 h.streamNames.2 hp hp'

/-- **Changes that are alike keep shares alike.** -/
theorem AlikeUnder.change (h : u.AlikeUnder ρ ties w) {p : StreamId × StreamId}
    (hp : p ∈ ties.streams) {f g : Stream → Stream}
    (hfg : ∀ s t, u.streams p.1 = some s → w.streams p.2 = some t → s.AlikeUnder ρ ties.feeds t →
      (f s).AlikeUnder ρ ties.feeds (g t))
    (hw : ∀ s, u.streams p.1 = some s → ∀ l ∈ (f s).keyframes.waiting,
      ∃ f, u.feeds l.id = some f ∧ f.stream = p.1) :
    (u.change p.1 f).AlikeUnder ρ ties (w.change p.2 g) := by
  have hsame : ∀ (u : Share) (a : StreamId) (f : Stream → Stream) (j : StreamId),
      ((u.change a f).streams j).isSome = (u.streams j).isSome := by
    intro u a f j
    show (if j = a then (u.streams j).map f else u.streams j).isSome = _
    split
    · exact Option.isSome_map ..
    · rfl
  refine { h with
    streamNames := ⟨h.streamNames.1.of_same (hsame u p.1 f), h.streamNames.2.of_same (hsame w p.2 g)⟩
    streams := ?_, waiting := ?_ }
  · intro p' hp'
    obtain ⟨s, t, hs, ht, hst⟩ := h.streams p' hp'
    have hiff := h.one_one hp' hp
    show ∃ s t, (if p'.1 = p.1 then _ else _) = _ ∧ (if p'.2 = p.2 then _ else _) = _ ∧ _
    by_cases he : p'.1 = p.1
    · have he' := hiff.mp he
      rw [if_pos he, if_pos he', hs, ht]
      rw [he] at hs
      rw [he'] at ht
      exact ⟨f s, g t, rfl, rfl, hfg s t hs ht hst⟩
    · rw [if_neg he, if_neg fun c => he (hiff.mpr c)]
      exact ⟨s, t, hs, ht, hst⟩
  · intro sid s hs
    have hs' : (if sid = p.1 then (u.streams sid).map f else u.streams sid) = some s := hs
    split at hs'
    · rename_i he
      obtain ⟨s', hs'', rfl⟩ := Option.map_eq_some_iff.mp hs'
      rw [he] at hs'' ⊢
      exact hw s' hs''
    · exact h.waiting sid s hs'

theorem AlikeUnder.alter (h : u.AlikeUnder ρ ties w) (ids : List ViewerId) {f g : Viewer → Viewer}
    (hfg : ∀ v v', v'.face = v.face → (g v').face = (f v).face) :
    (u.alter ids f).AlikeUnder ρ ties (w.alter (ids.map ρ) g) := by
  refine { h with viewers := fun id => ?_ }
  have hid := h.viewers id
  show (if ρ id ∈ ids.map ρ then (w.viewers (ρ id)).map g else w.viewers (ρ id)).map _
    = (if id ∈ ids then (u.viewers id).map f else u.viewers id).map _
  simp only [List.mem_map_of_injective ρ.injective]
  split
  · cases hv : u.viewers id with
    | none =>
      rw [hv, Option.map_none, Option.map_eq_none_iff] at hid
      rw [hid]
      rfl
    | some v =>
      rw [hv, Option.map_some] at hid
      obtain ⟨v', hv', he⟩ := Option.map_eq_some_iff.mp hid
      rw [hv']
      exact congrArg some (hfg v v' he)
  · exact hid

theorem AlikeUnder.addViewer (h : u.AlikeUnder ρ ties w) (id : ViewerId) {v v' : Viewer}
    (hv : v'.face = v.face) : (u.addViewer id v).AlikeUnder ρ ties (w.addViewer (ρ id) v') := by
  refine { h with viewers := fun j => ?_ }
  show (if ρ j = ρ id then some v' else w.viewers (ρ j)).map _
    = (if j = id then some v else u.viewers j).map _
  simp only [ρ.injective.eq_iff]
  split
  · exact congrArg some hv
  · exact h.viewers j

theorem AlikeUnder.announce_none (h : u.AlikeUnder ρ ties w) (n : Notice) :
    (u.announce none n).AlikeUnder ρ ties (w.announce none n) :=
  { h with onAir := .inl ⟨rfl, rfl⟩, notices := congrArg (· ++ [n]) h.notices }

theorem AlikeUnder.announce_some (h : u.AlikeUnder ρ ties w) {p : StreamId × StreamId}
    (hp : p ∈ ties.streams) (n : Notice) :
    (u.announce (some p.1) n).AlikeUnder ρ ties (w.announce (some p.2) n) :=
  { h with onAir := .inr ⟨p, hp, rfl, rfl⟩, notices := congrArg (· ++ [n]) h.notices }

/-- **Both get a new stream**, under names that are new to them. -/
theorem AlikeUnder.addStream (h : u.AlikeUnder ρ ties w) {a b : StreamId} {s t : Stream}
    (ha : ∀ j x, u.streams j = some x → j < a) (hb : ∀ j x, w.streams j = some x → j < b)
    (hst : s.AlikeUnder ρ ties.feeds t) (hw : s.keyframes.waiting = []) :
    (u.addStream a s).AlikeUnder ρ { ties with streams := ties.streams ++ [(a, b)] }
      (w.addStream b t) := by
  have hfst : ∀ j ∈ ties.streams.map Prod.fst, j < a := by
    intro j hj
    obtain ⟨x, hx⟩ := (h.streamNames.1.mem_iff j).mp hj
    exact ha j x hx
  have hsnd : ∀ j ∈ ties.streams.map Prod.snd, j < b := by
    intro j hj
    obtain ⟨x, hx⟩ := (h.streamNames.2.mem_iff j).mp hj
    exact hb j x hx
  refine { h with onAir := ?_, streamNames := ?_, streams := ?_, feeds := ?_, waiting := ?_ }
  · refine h.onAir.imp_right ?_
    rintro ⟨p, hp, hair⟩
    exact ⟨p, List.mem_append_left _ hp, hair⟩
  · rw [List.map_append, List.map_append]
    exact ⟨h.streamNames.1.append hfst, h.streamNames.2.append hsnd⟩
  · intro p hp
    show ∃ s' t', (if p.1 = a then some s else u.streams p.1) = some s' ∧
      (if p.2 = b then some t else w.streams p.2) = some t' ∧ _
    rcases List.mem_append.mp hp with hp | hp
    · rw [if_neg (Nat.ne_of_lt (hfst _ (List.mem_map_of_mem hp))),
        if_neg (Nat.ne_of_lt (hsnd _ (List.mem_map_of_mem hp)))]
      exact h.streams p hp
    · rw [List.mem_singleton.mp hp, if_pos rfl, if_pos rfl]
      exact ⟨s, t, rfl, rfl, hst⟩
  · intro p hp
    obtain ⟨f, g, hf, hg, hfg, he⟩ := h.feeds p hp
    exact ⟨f, g, hf, hg, List.mem_append_left _ hfg, he⟩
  · intro sid x hx
    have hx' : (if sid = a then some s else u.streams sid) = some x := hx
    split at hx'
    · rw [← Option.some.inj hx', hw]
      exact fun l hl => absurd hl List.not_mem_nil
    · exact h.waiting sid x hx'

/-! ### Feeds come, read and end -/

theorem AlikeUnder.one_one_feeds (h : u.AlikeUnder ρ ties w) {p p' : LoopId × LoopId}
    (hp : p ∈ ties.feeds) (hp' : p' ∈ ties.feeds) : p.1 = p'.1 ↔ p.2 = p'.2 :=
  fst_eq_iff_snd_eq h.feedNames.1 h.feedNames.2 hp hp'

/-- Both get a new feed, under names that are new to them. -/
theorem AlikeUnder.addFeed (h : u.AlikeUnder ρ ties w) {a b : LoopId} {f g : Feed}
    (ha : ∀ j x, u.feeds j = some x → j < a) (hb : ∀ j x, w.feeds j = some x → j < b)
    (hfg : (f.stream, g.stream) ∈ ties.streams) (he : g = { f with stream := g.stream }) :
    (u.setFeed a (some f)).AlikeUnder ρ { ties with feeds := ties.feeds ++ [(a, b)] }
      (w.setFeed b (some g)) := by
  have hfst : ∀ j ∈ ties.feeds.map Prod.fst, j < a := by
    intro j hj
    obtain ⟨x, hx⟩ := (h.feedNames.1.mem_iff j).mp hj
    exact ha j x hx
  have hsnd : ∀ j ∈ ties.feeds.map Prod.snd, j < b := by
    intro j hj
    obtain ⟨x, hx⟩ := (h.feedNames.2.mem_iff j).mp hj
    exact hb j x hx
  refine { h with feedNames := ?_, streams := ?_, feeds := ?_, waiting := ?_ }
  · rw [List.map_append, List.map_append]
    exact ⟨h.feedNames.1.append hfst, h.feedNames.2.append hsnd⟩
  · intro p hp
    obtain ⟨s, t, hs, ht, hst⟩ := h.streams p hp
    exact ⟨s, t, hs, ht, hst.imp fun _ _ p' hp' _ => List.mem_append_left _ hp'⟩
  · intro p hp
    show ∃ f' g', (if p.1 = a then some f else u.feeds p.1) = some f' ∧
      (if p.2 = b then some g else w.feeds p.2) = some g' ∧ _
    rcases List.mem_append.mp hp with hp | hp
    · rw [if_neg (Nat.ne_of_lt (hfst _ (List.mem_map_of_mem hp))),
        if_neg (Nat.ne_of_lt (hsnd _ (List.mem_map_of_mem hp)))]
      exact h.feeds p hp
    · rw [List.mem_singleton.mp hp, if_pos rfl, if_pos rfl]
      exact ⟨f, g, rfl, rfl, hfg, he⟩
  · intro sid s hs l hl
    obtain ⟨x, hx, hxs⟩ := h.waiting sid s hs l hl
    refine ⟨x, ?_, hxs⟩
    show (if l.id = a then some f else u.feeds l.id) = some x
    rw [if_neg (Nat.ne_of_lt (ha _ x hx)), hx]

/-- Tied feeds go on. -/
theorem AlikeUnder.setFeed (h : u.AlikeUnder ρ ties w) {p : LoopId × LoopId}
    (hp : p ∈ ties.feeds) {f g f' g' : Feed} (hf : u.feeds p.1 = some f) (hg : w.feeds p.2 = some g)
    (hf' : f'.stream = f.stream) (hg' : g'.stream = g.stream)
    (he : g' = { f' with stream := g'.stream }) :
    (u.setFeed p.1 (some f')).AlikeUnder ρ ties (w.setFeed p.2 (some g')) := by
  have hsame : ∀ (u : Share) (a : LoopId) (x y : Feed), u.feeds a = some x → ∀ j,
      ((u.setFeed a (some y)).feeds j).isSome = (u.feeds j).isSome := by
    intro u a x y hx j
    show (if j = a then some y else u.feeds j).isSome = _
    split
    · rename_i hj
      rw [hj, hx]
      rfl
    · rfl
  refine { h with
    feedNames := ⟨h.feedNames.1.of_same (hsame u p.1 f f' hf),
      h.feedNames.2.of_same (hsame w p.2 g g' hg)⟩
    feeds := ?_, waiting := ?_ }
  · intro p' hp'
    obtain ⟨x, y, hx, hy, hxy, hexy⟩ := h.feeds p' hp'
    have hiff := h.one_one_feeds hp' hp
    show ∃ x' y', (if p'.1 = p.1 then some f' else u.feeds p'.1) = some x' ∧
      (if p'.2 = p.2 then some g' else w.feeds p'.2) = some y' ∧ _
    by_cases hpp : p'.1 = p.1
    · rw [if_pos hpp, if_pos (hiff.mp hpp)]
      rw [hpp, hf] at hx
      rw [hiff.mp hpp, hg] at hy
      obtain rfl := Option.some.inj hx
      obtain rfl := Option.some.inj hy
      exact ⟨f', g', rfl, rfl, by rw [hf', hg']; exact hxy, he⟩
    · rw [if_neg hpp, if_neg fun c => hpp (hiff.mpr c)]
      exact ⟨x, y, hx, hy, hxy, hexy⟩
  · intro sid s hs l hl
    obtain ⟨x, hx, hxs⟩ := h.waiting sid s hs l hl
    show ∃ y, (if l.id = p.1 then some f' else u.feeds l.id) = some y ∧ _
    split
    · rename_i hlp
      rw [hlp, hf] at hx
      obtain rfl := Option.some.inj hx
      exact ⟨f', rfl, hf'.trans hxs⟩
    · exact ⟨x, hx, hxs⟩

/-- Tied feeds end, once no keyframe loop waits under the name of the one. -/
theorem AlikeUnder.dropFeed (h : u.AlikeUnder ρ ties w) {p : LoopId × LoopId}
    (hp : p ∈ ties.feeds)
    (hgone : ∀ sid s, u.streams sid = some s → ∀ l ∈ s.keyframes.waiting, l.id ≠ p.1) :
    (u.setFeed p.1 none).AlikeUnder ρ
      { ties with feeds := ties.feeds.filter fun p' => p'.1 ≠ p.1 } (w.setFeed p.2 none) := by
  have hfst : (ties.feeds.filter fun p' => p'.1 ≠ p.1).map Prod.fst
      = (ties.feeds.map Prod.fst).filter (· ≠ p.1) := by
    rw [List.filter_map]
    rfl
  have hsnd : (ties.feeds.filter fun p' => p'.1 ≠ p.1).map Prod.snd
      = (ties.feeds.map Prod.snd).filter (· ≠ p.2) := by
    rw [List.filter_map]
    congr 1
    refine List.filter_congr fun p' hp' => ?_
    exact decide_eq_decide.mpr (not_congr (h.one_one_feeds hp' hp))
  refine { h with feedNames := ?_, streams := ?_, feeds := ?_, waiting := ?_ }
  · show Lists ((ties.feeds.filter fun p' => p'.1 ≠ p.1).map Prod.fst) _ ∧
      Lists ((ties.feeds.filter fun p' => p'.1 ≠ p.1).map Prod.snd) _
    rw [hfst, hsnd]
    exact ⟨h.feedNames.1.remove p.1, h.feedNames.2.remove p.2⟩
  · intro p' hp'
    obtain ⟨s, t, hs, ht, hst⟩ := h.streams p' hp'
    refine ⟨s, t, hs, ht, hst.imp fun l hl p'' hp'' hid => ?_⟩
    refine List.mem_filter.mpr ⟨hp'', ?_⟩
    rw [hid]
    simpa using hgone p'.1 s hs l hl
  · intro p' hp'
    obtain ⟨hp', hne⟩ := List.mem_filter.mp hp'
    have hne' : p'.1 ≠ p.1 := by simpa using hne
    show ∃ x y, (if p'.1 = p.1 then none else u.feeds p'.1) = some x ∧
      (if p'.2 = p.2 then none else w.feeds p'.2) = some y ∧ _
    rw [if_neg hne', if_neg fun c => hne' ((h.one_one_feeds hp' hp).mpr c)]
    exact h.feeds p' hp'
  · intro sid s hs l hl
    obtain ⟨x, hx, hxs⟩ := h.waiting sid s hs l hl
    refine ⟨x, ?_, hxs⟩
    show (if l.id = p.1 then none else u.feeds l.id) = some x
    rw [if_neg (hgone sid s hs l hl), hx]

/-! ### Everything at once -/

theorem AlikeUnder.changeAll (h : u.AlikeUnder ρ ties w) {f : Stream → Stream}
    (hf : ∀ s t : Stream, s.AlikeUnder ρ ties.feeds t → (f s).AlikeUnder ρ ties.feeds (f t))
    (hw : ∀ s, ∀ l ∈ (f s).keyframes.waiting, ∃ l' ∈ s.keyframes.waiting, l'.id = l.id) :
    (u.changeAll f).AlikeUnder ρ ties (w.changeAll f) := by
  refine { h with
    streamNames := ⟨h.streamNames.1.of_same fun _ => Option.isSome_map ..,
      h.streamNames.2.of_same fun _ => Option.isSome_map ..⟩
    streams := ?_, waiting := ?_ }
  · intro p hp
    obtain ⟨s, t, hs, ht, hst⟩ := h.streams p hp
    exact ⟨f s, f t, congrArg (Option.map f) hs, congrArg (Option.map f) ht, hf s t hst⟩
  · intro sid s hs l hl
    obtain ⟨s', hs', rfl⟩ := Option.map_eq_some_iff.mp hs
    obtain ⟨l', hl', hid⟩ := hw s' l hl
    obtain ⟨x, hx, hxs⟩ := h.waiting sid s' hs' l' hl'
    exact ⟨x, hid ▸ hx, hxs⟩

/-- **What is on air in both is taken off the air in both.** -/
theorem AlikeUnder.finish (h : u.AlikeUnder ρ ties w) :
    u.finish.AlikeUnder ρ ties w.finish := by
  obtain ⟨hu, hw⟩ | ⟨p, hp, hu, hw⟩ := h.onAir
  · rw [Share.finish, Share.finish, hu, hw]
    exact h
  · obtain ⟨s, t, hs, ht, hst⟩ := h.streams p hp
    have haudience : w.audience p.2 = (u.audience p.1).map ρ := by
      rw [audience, audience, hs, ht]
      exact hst.viewers
    rw [Share.finish, Share.finish, hu, hw]
    show (u.retire p.1).AlikeUnder ρ ties (w.retire p.2)
    rw [Share.retire, Share.retire, if_pos hu, if_pos hw, haudience, h.key]
    have halter := h.alter (u.audience p.1) (f := Viewer.closed) (g := Viewer.closed) fun v v' hv => by
      rw [Viewer.face_closed, Viewer.face_closed, hv]
    refine (halter.change hp (fun _ _ _ _ h => h.retired) ?_).announce_none _
    exact fun s hs l hl => halter.waiting p.1 s hs l hl

end Share

end Simulcast
