import Simulcast.Proofs.Relay.Rounds
/-!
# A viewer does not notice the others

Of what goes on around a stream, one viewer has to do with the packets that are read and with
what is done to itself (`Relay.glimpse?`).  Two relays are alike for the viewer if they agree
on its own state and on what the packets leave behind in the stream (`Relay.AlikeFor`); who
else is attached, what the others have selected, what their sinks answer and in which order a
packet goes round is left open.

The proof goes through a replay: a run leaves the viewer where the run of its glimpses alone
leaves it (`Relay.AlikeFor.replay`).  A happening that gives no glimpse keeps the two runs
alike by itself (`Relay.AlikeFor.unseen`), and one that gives a glimpse keeps them alike if
both go through it (`Relay.AlikeFor.seen`).  Two runs with the same glimpses have the same
replay: that is `Relay.indifferent_to_others`.
-/

namespace Simulcast

namespace Relay

/-! ### Answers -/

/-- What the caller is told. -/
inductive Answer where
  | sent (result : Except TransportFault Bool)
  | attached (done : Bool)
  | detached (found : Bool)

/-- What the viewers' sinks let the feed know on a packet's way round, visit by visit. -/
def offerAnswers (f : Feed) (p : Packet) :
    Table ViewerId Viewer → List ViewerId → List (ViewerId × Answer)
  | _, [] => []
  | vs, id :: rest =>
    let told := (vs.find? id).map fun v => (v.send p f.layer (f.delta p.timestamp) f.av1).1
    (told.map fun result => (id, .sent result)).toList
      ++ offerAnswers f p (offerAll f p vs [id]) rest

/-- All that is answered to a happening, and about whom. -/
def answers (r : Relay) (sid : StreamId) : Happening → List (ViewerId × Answer)
  | .read x =>
    match r.feedOf sid x.loop with
    | some f => offerAnswers f x.packet r.viewers (x.tour.visit (r.registry.table sid))
    | none => []
  | .select _ _ => []
  | .attach id =>
    ((r.registry.act sid (·.attach id)).1.map fun done => (id, .attached done)).toList
  | .detach id =>
    ((r.registry.act sid (·.detach id)).1.map fun found => (id, .detached found)).toList

/-- What is answered about one viewer. -/
def answersTo (r : Relay) (sid : StreamId) (id : ViewerId) (h : Happening) : List Answer :=
  ((r.answers sid h).filter fun a => a.1 = id).map Prod.snd

def allAnswersTo (sid : StreamId) (id : ViewerId) : Relay → List Happening → List Answer
  | _, [] => []
  | r, h :: hs => r.answersTo sid id h ++ allAnswersTo sid id (r.meet sid h) hs

/-- **The answer of a viewer's own sink** is all that is heard of it on a packet's way round. -/
theorem offerAnswers_of_nodup (f : Feed) (p : Packet) {ids : List ViewerId} (h : ids.Nodup)
    (vs : Table ViewerId Viewer) (id : ViewerId) :
    ((offerAnswers f p vs ids).filter fun a => a.1 = id).map Prod.snd
      = if id ∈ ids then
          ((vs.find? id).map fun v =>
            Answer.sent (v.send p f.layer (f.delta p.timestamp) f.av1).1).toList
        else [] := by
  induction ids generalizing vs with
  | nil => rw [if_neg List.not_mem_nil]; rfl
  | cons j rest ih =>
    obtain ⟨hj, hrest⟩ := List.nodup_cons.mp h
    rw [offerAnswers, List.filter_append, List.map_append, ih hrest,
      find?_offerAll_of_nodup f p (List.nodup_singleton j)]
    by_cases hid : id = j
    · subst hid
      rw [if_neg hj, List.append_nil, if_pos List.mem_cons_self]
      cases vs.find? id with
      | none => rfl
      | some v => simp
    · have hother : ((((vs.find? j).map fun v => (v.send p f.layer (f.delta p.timestamp) f.av1).1).map
          fun result => (j, Answer.sent result)).toList.filter fun a => a.1 = id) = [] := by
        cases vs.find? j with
        | none => rfl
        | some v => simpa using Ne.symm hid
      rw [hother, List.map_nil, List.nil_append]
      simp only [List.mem_cons, List.not_mem_nil, or_false, hid, false_or, if_false]

/-! ### Glimpses -/

/-- What one viewer sees of a happening. -/
inductive Glimpse where
  | read (loop : LoopId) (p : Packet)
  | select (layer : String)
  | attach
  | detach
  deriving DecidableEq

def glimpse? (id : ViewerId) : Happening → Option Glimpse
  | .read x => some (.read x.loop x.packet)
  | .select j layer => if j = id then some (.select layer) else none
  | .attach j => if j = id then some .attach else none
  | .detach j => if j = id then some .detach else none

def glimpses (id : ViewerId) (hs : List Happening) : List Glimpse := hs.filterMap (glimpse? id)

/-- What the viewer saw, happening again. -/
def Glimpse.again (id : ViewerId) : Glimpse → Happening
  | .read loop p => .read ⟨loop, p, .inOrder⟩
  | .select layer => .select id layer
  | .attach => .attach id
  | .detach => .detach id

theorem Glimpse.glimpse?_again (id : ViewerId) (g : Glimpse) :
    glimpse? id (g.again id) = some g := by
  cases g <;> simp [again, glimpse?]

end Relay

/-! ### Streams and relays that are alike for a viewer -/

/-- Two streams that differ at most in who else is attached, and in what a viewer does not
see. -/
structure Stream.AlikeFor (id : ViewerId) (s t : Stream) : Prop where
  layers : t.layers = s.layers
  counters : t.counters = s.counters
  isLive : t.isLive = s.isLive
  attached : id ∈ t.viewers ↔ id ∈ s.viewers
  nodup : s.viewers.Nodup ∧ t.viewers.Nodup

namespace Stream

variable {id : ViewerId} {s t u : Stream}

theorem AlikeFor.symm (h : s.AlikeFor id t) : t.AlikeFor id s :=
  ⟨h.layers.symm, h.counters.symm, h.isLive.symm, h.attached.symm, h.nodup.symm⟩

theorem AlikeFor.trans (h : s.AlikeFor id t) (g : t.AlikeFor id u) : s.AlikeFor id u :=
  ⟨g.layers.trans h.layers, g.counters.trans h.counters, g.isLive.trans h.isLive,
    g.attached.trans h.attached, h.nodup.1, g.nodup.2⟩

/-- A packet leaves the same behind in both. -/
theorem AlikeFor.noteRead (h : s.AlikeFor id t) (f : Feed) (p : Packet) (now : Millis) :
    (s.noteRead f p now).AlikeFor id (t.noteRead f p now) where
  layers := by rw [layers_noteRead, layers_noteRead, h.layers]
  counters := by rw [counters_noteRead, counters_noteRead, h.counters]
  isLive := by rw [isLive_noteRead, isLive_noteRead, h.isLive]
  attached := by rw [viewers_noteRead, viewers_noteRead]; exact h.attached
  nodup := by rw [viewers_noteRead, viewers_noteRead]; exact h.nodup

theorem AlikeFor.attach (h : s.AlikeFor id t) :
    (s.attach id).2.AlikeFor id (t.attach id).2 := by
  rw [attach_eq, attach_eq, h.isLive]
  by_cases hl : s.isLive = true
  · rw [if_pos hl, if_pos hl]
    exact ⟨h.layers, h.counters, h.isLive,
      by simp only [mem_viewers_enlist, true_or],
      nodup_viewers_enlist h.nodup.1 id, nodup_viewers_enlist h.nodup.2 id⟩
  · rw [if_neg hl, if_neg hl]
    exact h

theorem AlikeFor.detach (h : s.AlikeFor id t) :
    (s.detach id).2.AlikeFor id (t.detach id).2 :=
  ⟨h.layers, h.counters, h.isLive, by simp [Stream.detach], h.nodup.1.filter _,
    h.nodup.2.filter _⟩

/-- Another viewer comes. -/
theorem AlikeFor.attach_other (h : s.AlikeFor id t) {j : ViewerId} (hj : j ≠ id) :
    (s.attach j).2.AlikeFor id t := by
  rw [attach_eq]
  split
  · refine ⟨h.layers, h.counters, h.isLive, ?_, nodup_viewers_enlist h.nodup.1 j, h.nodup.2⟩
    rw [mem_viewers_enlist, h.attached]
    exact ⟨.inr, fun hm => hm.resolve_left (Ne.symm hj)⟩
  · exact h

/-- Another viewer goes. -/
theorem AlikeFor.detach_other (h : s.AlikeFor id t) {j : ViewerId} (hj : j ≠ id) :
    (s.detach j).2.AlikeFor id t := by
  refine ⟨h.layers, h.counters, h.isLive, ?_, h.nodup.1.filter _, h.nodup.2⟩
  show id ∈ t.viewers ↔ id ∈ s.viewers.filter (· ≠ j)
  rw [h.attached, List.mem_filter]
  exact ⟨fun hm => ⟨hm, by simpa using Ne.symm hj⟩, fun hm => hm.1⟩

end Stream

namespace Relay

/-- Two relays that differ, around one stream, only in what a viewer has nothing to do
with. -/
structure AlikeFor (sid : StreamId) (id : ViewerId) (r q : Relay) : Prop where
  stream : ∃ s t, r.registry.stream? sid = some s ∧ q.registry.stream? sid = some t ∧
    s.AlikeFor id t
  /-- The viewer has the same state, and its sink will answer the same. -/
  viewer : q.viewers.find? id = r.viewers.find? id
  feeds : ∀ loop, q.feedOf sid loop = r.feedOf sid loop
  clock : q.clock = r.clock

variable {sid : StreamId} {id : ViewerId} {r q p : Relay}

theorem AlikeFor.symm (h : AlikeFor sid id r q) : AlikeFor sid id q r := by
  obtain ⟨s, t, hs, ht, hst⟩ := h.stream
  exact ⟨⟨t, s, ht, hs, hst.symm⟩, h.viewer.symm, fun loop => (h.feeds loop).symm, h.clock.symm⟩

theorem AlikeFor.trans (h : AlikeFor sid id r q) (g : AlikeFor sid id q p) :
    AlikeFor sid id r p := by
  obtain ⟨s, t, hs, ht, hst⟩ := h.stream
  obtain ⟨t', u, ht', hu, htu⟩ := g.stream
  obtain rfl := Option.some.inj (ht.symm.trans ht')
  exact ⟨⟨s, u, hs, hu, hst.trans htu⟩, g.viewer.trans h.viewer,
    fun loop => (g.feeds loop).trans (h.feeds loop), g.clock.trans h.clock⟩

theorem AlikeFor.nodup_table (h : AlikeFor sid id r q) :
    (r.registry.table sid).Nodup ∧ (q.registry.table sid).Nodup := by
  obtain ⟨s, t, hs, ht, hst⟩ := h.stream
  rw [Registry.table_of_some hs, Registry.table_of_some ht]
  exact hst.nodup

theorem AlikeFor.mem_table (h : AlikeFor sid id r q) :
    id ∈ q.registry.table sid ↔ id ∈ r.registry.table sid := by
  obtain ⟨s, t, hs, ht, hst⟩ := h.stream
  rw [Registry.table_of_some hs, Registry.table_of_some ht]
  exact hst.attached

/-! ### One happening -/

/-- A step on the stream alone keeps relays alike if it keeps the streams alike. -/
theorem AlikeFor.act (h : AlikeFor sid id r q) {α β : Type} (step : Stream → α × Stream)
    (step' : Stream → β × Stream)
    (hstep : ∀ s t, s.AlikeFor id t → (step s).2.AlikeFor id (step' t).2) :
    AlikeFor sid id { r with registry := (r.registry.act sid step).2 }
      { q with registry := (q.registry.act sid step').2 } := by
  obtain ⟨s, t, hs, ht, hst⟩ := h.stream
  refine ⟨⟨(step s).2, (step' t).2, ?_, ?_, hstep s t hst⟩, h.viewer, h.feeds, h.clock⟩
  · rw [Registry.stream?_act, if_pos rfl, hs, Option.map_some]
  · rw [Registry.stream?_act, if_pos rfl, ht, Option.map_some]

/-- The same step on both streams, and what it answers. -/
theorem AlikeFor.act_same (h : AlikeFor sid id r q) {α : Type} {step : Stream → α × Stream}
    (hstep : ∀ s t, s.AlikeFor id t → (step t).1 = (step s).1) :
    (q.registry.act sid step).1 = (r.registry.act sid step).1 := by
  obtain ⟨s, t, hs, ht, hst⟩ := h.stream
  rw [Registry.act_of_some hs, Registry.act_of_some ht, hstep s t hst]

/-- **What the viewer does not see** leaves the relay alike for it. -/
theorem AlikeFor.unseen (h : AlikeFor sid id r q) {e : Happening} (he : glimpse? id e = none) :
    AlikeFor sid id (r.meet sid e) q ∧ r.answersTo sid id e = [] := by
  cases e with
  | read x => exact absurd he (by simp [glimpse?])
  | select j layer =>
    have hj : id ≠ j := by
      rintro rfl
      simp [glimpse?] at he
    refine ⟨⟨h.stream, ?_, h.feeds, h.clock⟩, rfl⟩
    show _ = (r.viewers.modify j fun v => v.selectLayer layer).find? id
    rw [Table.find?_modify, if_neg hj, h.viewer]
  | attach j =>
    have hj : j ≠ id := by
      rintro rfl
      simp [glimpse?] at he
    refine ⟨?_, ?_⟩
    · have hsame := h.act (·.attach j) (fun t => ((), t)) fun s t hst => hst.attach_other hj
      rwa [show (q.registry.act sid fun t => ((), t)).2 = q.registry from
        Registry.update_of_fixed fun _ _ => rfl] at hsame
    · rw [answersTo, answers]
      cases (r.registry.act sid (·.attach j)).1 with
      | none => rfl
      | some done => simpa using hj
  | detach j =>
    have hj : j ≠ id := by
      rintro rfl
      simp [glimpse?] at he
    refine ⟨?_, ?_⟩
    · have hsame := h.act (fun s => ((), (s.detach j).2)) (fun t => ((), t))
        fun s t hst => hst.detach_other hj
      rwa [show (q.registry.act sid fun t => ((), t)).2 = q.registry from
        Registry.update_of_fixed fun _ _ => rfl] at hsame
    · rw [answersTo, answers]
      cases (r.registry.act sid (·.detach j)).1 with
      | none => rfl
      | some found => simpa using hj

theorem AlikeFor.read (h : AlikeFor sid id r q) {x y : Reading} (hl : y.loop = x.loop)
    (hp : y.packet = x.packet) :
    AlikeFor sid id (r.read sid x) (q.read sid y) ∧
      q.answersTo sid id (.read y) = r.answersTo sid id (.read x) := by
  obtain ⟨hr, hq⟩ := h.nodup_table
  have hfeed := h.feeds x.loop
  constructor
  · refine ⟨?_, ?_, ?_, ?_⟩
    · obtain ⟨s, t, hs, ht, hst⟩ := h.stream
      cases hf : r.feedOf sid x.loop with
      | none =>
        rw [hf, ← hl] at hfeed
        rw [read_of_none hf, read_of_none hfeed]
        exact h.stream
      | some f =>
        rw [hf, ← hl] at hfeed
        rw [stream?_read hf, stream?_read hfeed, hs, ht, hp, h.clock]
        exact ⟨_, _, rfl, rfl, hst.noteRead f x.packet r.clock⟩
    · rw [find?_viewers_read hr, find?_viewers_read hq, h.viewer]
      simp only [call?, offer?, h.mem_table, h.feeds, hl, hp]
    · intro loop
      rw [feedOf_read, feedOf_read, h.feeds, hl, hp]
    · exact (clock_meet q sid (.read y)).trans (h.clock.trans (clock_meet r sid (.read x)).symm)
  · rw [answersTo, answersTo, answers, answers, hl, hfeed, hp]
    cases r.feedOf sid x.loop with
    | none => rfl
    | some f =>
      simp only
      rw [offerAnswers_of_nodup f x.packet (y.tour.nodup_visit hq),
        offerAnswers_of_nodup f x.packet (x.tour.nodup_visit hr)]
      simp only [Tour.mem_visit, h.mem_table, h.viewer]

/-- **What the viewer sees** leaves the relays alike if it happens in both, and it is answered
the same. -/
theorem AlikeFor.seen (h : AlikeFor sid id r q) {e e' : Happening} {g : Glimpse}
    (he : glimpse? id e = some g) (he' : glimpse? id e' = some g) :
    AlikeFor sid id (r.meet sid e) (q.meet sid e') ∧
      q.answersTo sid id e' = r.answersTo sid id e := by
  cases g with
  | read loop p =>
    cases e <;> simp [glimpse?] at he
    cases e' <;> simp [glimpse?] at he'
    exact h.read (he'.1.trans he.1.symm) (he'.2.trans he.2.symm)
  | select layer =>
    cases e <;> simp [glimpse?] at he
    cases e' <;> simp [glimpse?] at he'
    obtain ⟨rfl, rfl⟩ := he
    obtain ⟨rfl, rfl⟩ := he'
    refine ⟨⟨h.stream, ?_, h.feeds, h.clock⟩, rfl⟩
    show (q.viewers.modify _ _).find? _ = (r.viewers.modify _ _).find? _
    rw [Table.find?_modify, Table.find?_modify, if_pos rfl, if_pos rfl, h.viewer]
  | attach =>
    cases e <;> simp [glimpse?] at he
    cases e' <;> simp [glimpse?] at he'
    subst he he'
    refine ⟨h.act _ _ fun s t hst => hst.attach, ?_⟩
    rw [answersTo, answersTo, answers, answers, h.act_same]
    intro s t hst
    rw [Stream.attach_eq, Stream.attach_eq, hst.isLive]
    split <;> rfl
  | detach =>
    cases e <;> simp [glimpse?] at he
    cases e' <;> simp [glimpse?] at he'
    subst he he'
    refine ⟨h.act _ _ fun s t hst => hst.detach, ?_⟩
    rw [answersTo, answersTo, answers, answers, h.act_same]
    intro s t hst
    show t.viewers.contains _ = s.viewers.contains _
    rw [Bool.eq_iff_iff, List.contains_iff_mem, List.contains_iff_mem]
    exact hst.attached

/-! ### Runs -/

/-- **A run leaves the viewer where its own part of the run leaves it.** -/
theorem AlikeFor.replay (h : AlikeFor sid id r q) (es : List Happening) :
    AlikeFor sid id (r.through sid es) (q.through sid ((glimpses id es).map (·.again id))) ∧
      allAnswersTo sid id q ((glimpses id es).map (·.again id)) = allAnswersTo sid id r es := by
  induction es generalizing r q with
  | nil => exact ⟨h, rfl⟩
  | cons e rest ih =>
    cases hg : glimpse? id e with
    | none =>
      obtain ⟨hsame, hquiet⟩ := h.unseen hg
      rw [glimpses, List.filterMap_cons_none hg, allAnswersTo, hquiet, List.nil_append]
      exact ih hsame
    | some g =>
      obtain ⟨hsame, hanswer⟩ := h.seen hg (g.glimpse?_again id)
      obtain ⟨hrest, hanswers⟩ := ih hsame
      rw [glimpses, List.filterMap_cons_some hg, List.map_cons, allAnswersTo, allAnswersTo,
        hanswer]
      exact ⟨hrest, congrArg _ hanswers⟩

/-- **A viewer does not notice the others.**  In two runs that begin alike for a viewer and
agree on the packets that are read, by which feed, and on what is done to the viewer, its
sink is handed the same packets in the same order and it ends with the same layer, timeline
and counters; it is answered the same; and the stream ends with the same layers and the same
counters.  Who else is attached, selects, comes or goes, what the other sinks answer and in
which order each packet goes round plays no part. -/
theorem indifferent_to_others (h : AlikeFor sid id r q) {es es' : List Happening}
    (hg : glimpses id es = glimpses id es') :
    (q.through sid es').viewers.find? id = (r.through sid es).viewers.find? id ∧
    allAnswersTo sid id q es' = allAnswersTo sid id r es ∧
    ∃ s t, (r.through sid es).registry.stream? sid = some s ∧
      (q.through sid es').registry.stream? sid = some t ∧
      t.layers = s.layers ∧ t.counters = s.counters := by
  obtain ⟨hleft, hleft'⟩ := h.replay es
  obtain ⟨hright, hright'⟩ := (h.symm.trans h).replay es'
  rw [← hg] at hright hright'
  have hboth := hleft.trans hright.symm
  obtain ⟨s, t, hs, ht, hst⟩ := hboth.stream
  exact ⟨hboth.viewer, hright'.symm.trans hleft', s, t, hs, ht, hst.layers, hst.counters⟩

/-- A stream with one feed, watched by `"v"` and some others. -/
def watched (others : List Viewer) : Relay :=
  { start {} fun _ => .error .unauthorized with
    registry.streams := [{
      key := "k"
      keyframes := { capacity := 1 }
      phase := .connected
      viewers := "v" :: others.map Viewer.id }]
    viewers := others.foldl (fun vs v => vs.insert v.id v)
      (Table.empty.insert "v" { id := "v", streamKey := "k" })
    feeds := Table.empty.insert 0 { stream := 0, layer := "q", av1 := false } }

/-- A viewer whose sink is broken. -/
def unlucky : Viewer where
  id := "w"
  streamKey := "k"
  sink := { answer := fun _ => some .noRemoteDescription }

/-- `"v"` is handed both packets, whether it watches alone or a viewer with a broken sink is
visited before it, selects another layer and goes. -/
theorem indifferent_to_unlucky :
    let p : Packet := { timestamp := 1000 }
    let p' : Packet := { timestamp := 4000 }
    let es : List Happening := [.read ⟨0, p, .inOrder⟩, .read ⟨0, p', .inOrder⟩]
    let es' : List Happening :=
      [.read ⟨0, p, .backwards⟩, .select "w" "f", .read ⟨0, p', .inOrder⟩, .detach "w"]
    AlikeFor 0 "v" (watched []) (watched [unlucky]) ∧ glimpses "v" es = glimpses "v" es' ∧
      (((watched [unlucky]).through 0 es').viewers.find? "v").map (fun v => v.sink.handed.length)
        = some 2 := by
  have halike : AlikeFor 0 "v" (watched []) (watched [unlucky]) :=
    ⟨⟨_, _, rfl, rfl, rfl, rfl, rfl, by decide, by decide, by decide⟩, by rfl, fun _ => rfl, rfl⟩
  refine ⟨halike, rfl, ?_⟩
  rw [(indifferent_to_others halike rfl).1]
  rfl

end Relay

end Simulcast
