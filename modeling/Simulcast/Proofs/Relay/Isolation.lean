import Simulcast.Proofs.Relay.Abreast
/-!
# Keys are isolated

Two histories with the same account of a key may differ in all that is done to other keys,
and in the time that passes.  The key does not notice: `Relay.isolated_of_same_account`.

The two histories need not go in step.  What does not concern the key is passed over on
either side, since it is not heard and leaves the share as it is; the first concern of the
one history is then met with the first concern of the other (`Relay.Footing.first_concern`),
and the relays stay abreast.
-/

namespace Simulcast

/-- Each session description has a fixed outcome on each side, whichever attempt it is. -/
def FixedOutcomes (negotiate : Attempt → Except RelayError Agreement) : Prop :=
  ∀ side c c' offer, negotiate ⟨side, c', offer⟩ = negotiate ⟨side, c, offer⟩

/-- The same broadcast, with other names for its viewers. -/
structure Stream.SameShow (ρ : ViewerId ≃ ViewerId) (s t : Stream) : Prop where
  phase : t.phase = s.phase
  layers : t.layers = s.layers
  /-- The counters of every layer, apart from the time of its first packet. -/
  counters : ∀ layer, (t.counters.find? layer).map LayerCounters.timeless
    = (s.counters.find? layer).map LayerCounters.timeless
  broadcaster : t.broadcaster = s.broadcaster
  videoCodec : t.videoCodec = s.videoCodec
  pending : t.keyframes.pending = s.keyframes.pending
  viewers : t.viewers = s.viewers.map ρ

theorem Stream.AlikeUnder.sameShow {ρ : ViewerId ≃ ViewerId} {feeds : List (LoopId × LoopId)}
    {s t : Stream} (h : s.AlikeUnder ρ feeds t) : s.SameShow ρ t :=
  ⟨h.phase, h.layers, h.counters, h.broadcaster, h.videoCodec, h.keyframes.pending, h.viewers⟩

namespace Relay

variable {ids ids' : List ViewerId} {r q : Relay} {k : String} {ρ : ViewerId ≃ ViewerId}
  {ties : Ties}

/-- Two relays that are the same to a key, with other names for its viewers. -/
structure SameTo (ρ : ViewerId ≃ ViewerId) (k : String) (r q : Relay) : Prop where
  /-- The stream under the key is there in both or in neither. -/
  stream : Option.Rel (Stream.SameShow ρ) (r.stream? k) (q.stream? k)
  /-- Every viewer ever made for the key is where it is in the other, with all that its sink
  was handed. -/
  viewers : ∀ id, (q.ownViewer k (ρ id)).map Viewer.face = (r.ownViewer k id).map Viewer.face
  notices : q.notices.filter (fun n => n.key = k) = r.notices.filter fun n => n.key = k

theorem sameTo_of_alike (h : (r.share k).AlikeUnder ρ ties (q.share k)) : SameTo ρ k r q := by
  refine ⟨?_, h.viewers, h.notices⟩
  obtain ⟨hr, hq⟩ | ⟨p, hp, hr, hq⟩ := h.onAir
  · rw [stream?, stream?, show r.registry.find? k = none from hr,
      show q.registry.find? k = none from hq]
    exact .none
  · obtain ⟨s, t, hs, ht, hst⟩ := h.streams p hp
    rw [stream?, stream?, show r.registry.find? k = some p.1 from hr,
      show q.registry.find? k = some p.2 from hq, Option.bind_some, Option.bind_some,
      (ownStream_eq_some.mp hs).1, (ownStream_eq_some.mp ht).1]
    exact .some hst.sameShow

/-! ### What is heard of an operation -/

theorem Footing.heard_of_unconcerned (h : Footing ids r) {op : Operation}
    (hnew : ∀ id ∈ newViewer? op, id ∉ ids) (hc : r.concern? k op = none) :
    r.heard k op = [] := by
  rw [heard, h.share_of_unconcerned hnew hc, hc, List.drop_length]
  rfl

/-- What is heard is the reply and the new notices, and both are the same. -/
theorem Agree.heard {op op' : Operation} {c : Concern} (h : Agree ρ k r q op op')
    (hbefore : (r.share k).AlikeUnder ρ ties (q.share k)) (hc : r.concern? k op = some c)
    (hc' : q.concern? k op' = some (c.rename ρ)) : q.heard k op' = r.heard k op := by
  obtain ⟨⟨ties', hafter⟩, hout⟩ := h
  rw [Relay.heard, Relay.heard, hc, hc', Option.bind_some, Option.bind_some, hout, hafter.notices,
    hbefore.notices]

/-! ### Histories that can follow -/

/-- A history that can follow: the names that it hands in are new, and every track belongs
to a stream object. -/
structure Sensible (ids : List ViewerId) (r : Relay) (ops : List Operation) : Prop where
  nodup : (newViewers ops).Nodup
  fresh : ∀ id ∈ newViewers ops, id ∉ ids
  possible : AllPossible r ops

section

variable {op : Operation} {ops ops' : List Operation}

theorem Sensible.head (h : Sensible ids r (op :: ops)) : ∀ id ∈ newViewer? op, id ∉ ids := by
  obtain ⟨hnodup, hfresh, -⟩ := h
  rw [newViewers_cons] at hnodup hfresh
  exact fun id hid => (new_of_append hnodup hfresh).1 id (Option.mem_toList.mpr hid)

theorem Sensible.tail (h : Sensible ids r (op :: ops)) :
    Sensible ((newViewer? op).toList ++ ids) (r.perform op) ops := by
  obtain ⟨hnodup, hfresh, hpossible⟩ := h
  rw [newViewers_cons] at hnodup hfresh
  obtain ⟨-, hrest, hnext⟩ := new_of_append hnodup hfresh
  exact ⟨hrest, hnext, hpossible.2⟩

theorem Footing.step (h : Footing ids r) (hs : Sensible ids r (op :: ops)) :
    Footing ((newViewer? op).toList ++ ids) (r.perform op) := h.perform hs.head hs.possible.1

/-- A history without concerns is not heard and changes nothing for the key. -/
theorem Footing.unheard (h : Footing ids r) (hs : Sensible ids r ops)
    (hc : account k r ops = []) : allHeard k r ops = [] ∧ (r.after ops).share k = r.share k := by
  induction ops generalizing r ids with
  | nil => exact ⟨rfl, rfl⟩
  | cons op rest ih =>
    obtain ⟨hop, hrest⟩ := List.append_eq_nil_iff.mp hc
    have hnone : r.concern? k op = none := Option.toList_eq_nil_iff.mp hop
    obtain ⟨hheard, hshare⟩ := ih (h.step hs) hs.tail hrest
    refine ⟨?_, hshare.trans (h.share_of_unconcerned hs.head hnone)⟩
    rw [allHeard, h.heard_of_unconcerned hs.head hnone, hheard]
    rfl

/-- **Up to its first concern, a key notices nothing of a history.** -/
theorem Footing.first_concern (h : Footing ids r) (hs : Sensible ids r ops) {c : Concern}
    {cs : List Concern} (hc : account k r ops = c :: cs) :
    ∃ named p op rest, Footing named p ∧ Sensible named p (op :: rest) ∧ p.share k = r.share k ∧
      p.concern? k op = some c ∧ account k (p.perform op) rest = cs ∧
      allHeard k r ops = p.heard k op ++ allHeard k (p.perform op) rest ∧
      r.after ops = (p.perform op).after rest := by
  induction ops generalizing r ids with
  | nil => exact absurd hc nofun
  | cons op rest ih =>
    rw [account] at hc
    cases hop : r.concern? k op with
    | some c' =>
      rw [hop] at hc
      obtain ⟨rfl, rfl⟩ := List.cons.inj hc
      exact ⟨ids, r, op, rest, h, hs, rfl, hop, rfl, rfl, rfl⟩
    | none =>
      rw [hop] at hc
      obtain ⟨named, p, op', rest', hp, hs', hshare, hc', hrest, hheard, hafter⟩ :=
        ih (h.step hs) hs.tail hc
      refine ⟨named, p, op', rest', hp, hs', ?_, hc', hrest, ?_, hafter⟩
      · exact hshare.trans (h.share_of_unconcerned hs.head hop)
      · rw [allHeard, h.heard_of_unconcerned hs.head hop, ← hheard]
        rfl

/-! ### Two histories -/

/-- **Concern for concern, two relays stay abreast.** -/
theorem Abreast.run {cs : List Concern} (h : Abreast ρ ties k ids ids' r q)
    (hs : Sensible ids r ops) (hs' : Sensible ids' q ops') (hc : account k r ops = cs)
    (hc' : account k q ops' = cs.map (Concern.rename ρ)) :
    allHeard k q ops' = allHeard k r ops ∧
      ∃ ties, ((r.after ops).share k).AlikeUnder ρ ties ((q.after ops').share k) := by
  induction cs generalizing r q ids ids' ties ops ops' with
  | nil =>
    obtain ⟨hheard, hshare⟩ := h.left.unheard hs hc
    obtain ⟨hheard', hshare'⟩ := h.right.unheard hs' hc'
    refine ⟨hheard'.trans hheard.symm, ties, ?_⟩
    rw [hshare, hshare']
    exact h.alike
  | cons c cs ih =>
    obtain ⟨named, p, op, rest, hp, hsp, hshare, hop, hrest, hheard, hafter⟩ :=
      h.left.first_concern hs hc
    obtain ⟨named', p', op', rest', hp', hsp', hshare', hop', hrest', hheard', hafter'⟩ :=
      h.right.first_concern hs' hc'
    have hmet : Abreast ρ ties k named named' p p' := ⟨hp, hp', by rw [hshare, hshare']; exact h.alike⟩
    have hagree := hmet.agree_of_concerned hop hop' hsp.head hsp'.head
    have hsame := hagree.heard hmet.alike hop hop'
    obtain ⟨⟨ties', halike⟩, -⟩ := hagree
    obtain ⟨hnext, halike'⟩ :=
      ih ⟨hp.step hsp, hp'.step hsp', halike⟩ hsp.tail hsp'.tail hrest hrest'
    rw [hheard, hheard', hafter, hafter', hsame, hnext]
    exact ⟨rfl, halike'⟩

end

theorem footing_start (settings : Settings) (negotiate : Attempt → Except RelayError Agreement) :
    Footing [] (start settings negotiate) :=
  ⟨settled_empty settings.queueCapacity, fun _ _ h => absurd h nofun⟩

theorem abreast_start (ρ : ViewerId ≃ ViewerId) (k : String) (settings : Settings)
    {negotiate : Attempt → Except RelayError Agreement} (hfixed : FixedOutcomes negotiate) :
    Abreast ρ ⟨[], []⟩ k [] [] (start settings negotiate) (start settings negotiate) := by
  have hnone : ∀ {α : Type}, Lists [] fun _ : Nat => (none : Option α) := fun {α} =>
    ⟨.nil, fun a => ⟨fun h => absurd h List.not_mem_nil, fun ⟨_, h⟩ => absurd h nofun⟩⟩
  refine ⟨footing_start settings negotiate, footing_start settings negotiate, ?_⟩
  exact {
    key := rfl
    settings := rfl
    negotiate := hfixed
    validator := rfl
    queueCapacity := rfl
    notices := rfl
    onAir := .inl ⟨rfl, rfl⟩
    streamNames := ⟨hnone, hnone⟩
    feedNames := ⟨hnone, hnone⟩
    streams := fun _ h => absurd h List.not_mem_nil
    feeds := fun _ h => absurd h List.not_mem_nil
    waiting := fun _ _ h => absurd h nofun
    viewers := fun _ => rfl }

/-- **Keys are isolated.**  Two histories that hold the same operations concerning a key, in
the same order and with the same operations on everything among them, but anything else
concerning other keys, are the same to the key: the replies to what concerns it and the
notices about it come in the same order, its stream ends the same, and so does every viewer
that was made for it, with the packets that it was handed.  Viewers may have other names, and
so do stream objects, feeds and connections; so a session description has to come to the same
on every connection. -/
theorem isolated_of_same_account (settings : Settings)
    {negotiate : Attempt → Except RelayError Agreement} (hfixed : FixedOutcomes negotiate)
    (k : String) (ρ : ViewerId ≃ ViewerId) {ops ops' : List Operation}
    (hnodup : (newViewers ops).Nodup) (hnodup' : (newViewers ops').Nodup)
    (hpossible : AllPossible (start settings negotiate) ops)
    (hpossible' : AllPossible (start settings negotiate) ops')
    (hsame : account k (start settings negotiate) ops'
      = (account k (start settings negotiate) ops).map (Concern.rename ρ)) :
    allHeard k (start settings negotiate) ops' = allHeard k (start settings negotiate) ops ∧
      SameTo ρ k ((start settings negotiate).after ops) ((start settings negotiate).after ops') := by
  obtain ⟨hheard, ties, halike⟩ := (abreast_start ρ k settings hfixed).run
    ⟨hnodup, fun _ _ => List.not_mem_nil, hpossible⟩
    ⟨hnodup', fun _ _ => List.not_mem_nil, hpossible'⟩ rfl hsame
  exact ⟨hheard, sameTo_of_alike halike⟩

/-! ### A broadcast in company -/

/-- A relay for two broadcasters whose session descriptions are always answered. -/
def roomy : Relay := start { streamKeys := ["k", "other"] } fun _ => .ok { answer := "answer" }

/-- A broadcast with one viewer. -/
def alone : List Operation :=
  [.ingest "offer" "k" none, .createSession "offer" "k" "v",
    .openFeed 0 "q" 1 "video/h264" fun _ => true, .feedPacket 0 { timestamp := 1000 },
    .setLayer "v" "q", .feedPacket 0 { timestamp := 4000 }]

/-- The same while another broadcast comes and goes, which has a viewer of the same name. -/
def inCompany : List Operation :=
  [.ingest "offer" "other" none, .openFeed 0 "f" 2 "video/av1" fun _ => false,
    .ingest "offer" "k" none, .createSession "offer" "other" "v", .createSession "offer" "k" "w",
    .openFeed 1 "q" 1 "video/h264" fun _ => true, .feedPacket 0 { timestamp := 7 },
    .feedPacket 1 { timestamp := 1000 }, .tick 20, .setLayer "v" "f", .setLayer "w" "q",
    .disconnect "other", .feedPacket 1 { timestamp := 4000 }]

/-- In company the broadcast is what it is alone, and its viewer is handed both packets. -/
theorem isolated_of_company :
    FixedOutcomes roomy.negotiate ∧ (newViewers alone).Nodup ∧ (newViewers inCompany).Nodup ∧
      AllPossible roomy alone ∧ AllPossible roomy inCompany ∧
      account "k" roomy inCompany
        = (account "k" roomy alone).map (Concern.rename (Equiv.swap "v" "w")) ∧
      allHeard "k" roomy inCompany = allHeard "k" roomy alone ∧
      SameTo (Equiv.swap "v" "w") "k" (roomy.after alone) (roomy.after inCompany) ∧
      ((roomy.after inCompany).viewers.find? "w").map (fun v => v.sink.handed.length) = some 2 := by
  have hfixed : FixedOutcomes roomy.negotiate := fun _ _ _ _ => rfl
  have hnodup : (newViewers alone).Nodup := by decide
  have hnodup' : (newViewers inCompany).Nodup := by decide
  have hpossible : AllPossible roomy alone :=
    ⟨trivial, trivial, Option.isSome_iff_exists.mp (by decide), trivial, trivial, trivial, trivial⟩
  have hpossible' : AllPossible roomy inCompany :=
    ⟨trivial, Option.isSome_iff_exists.mp (by decide), trivial, trivial, trivial,
      Option.isSome_iff_exists.mp (by decide), trivial, trivial, trivial, trivial, trivial, trivial,
      trivial, trivial⟩
  have hsame : account "k" roomy inCompany
      = (account "k" roomy alone).map (Concern.rename (Equiv.swap "v" "w")) := by rfl
  obtain ⟨hheard, hsameTo⟩ := isolated_of_same_account _ hfixed "k" (Equiv.swap "v" "w") hnodup
    hnodup' hpossible hpossible' hsame
  exact ⟨hfixed, hnodup, hnodup', hpossible, hpossible', hsame, hheard, hsameTo, by decide⟩

end Relay

end Simulcast
