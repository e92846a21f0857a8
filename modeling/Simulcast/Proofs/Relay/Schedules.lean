import Simulcast.Proofs.Relay.Rounds
/-!
# Feeds of different layers may read in any order

Several feeds read at once.  Which of them reads next is up to the scheduler; what each of
them reads is not.  Two schedules are told apart by nothing but the order of readings of
different feeds, that is, every feed reads the same packets in both (`Relay.packetsOf`).

If the feeds have different layers, then for each layer both schedules offer the same packets
in the same order (`Relay.filter_offered_of_same`), since a layer carries what its feed reads.
A viewer with a layer in force takes the packets of its layer and only counts the others
(`Viewer.after_sends`), and to count them their number is enough.  The counters of a layer
are told by the packets of the layer, and the known layers by which feeds read at all.
-/

namespace Simulcast

namespace Viewer

/-! ### A viewer that counts what it drops -/

/-- The viewer after some more packets were dropped. -/
def overlook (v : Viewer) (n : Nat) : Viewer :=
  { v with counters := { v.counters with filtered := v.counters.filtered + .ofNat n } }

theorem overlook_zero (v : Viewer) : v.overlook 0 = v := by
  show { v with counters := { v.counters with filtered := v.counters.filtered + 0 } } = v
  rw [UInt64.add_zero]

theorem overlook_overlook (v : Viewer) (m n : Nat) :
    (v.overlook m).overlook n = v.overlook (m + n) := by
  unfold overlook
  simp only [UInt64.ofNat_add, UInt64.add_assoc]

/-- What was dropped before makes no difference to a packet. -/
theorem told_send_overlook (v : Viewer) (n : Nat) (o : Offer) :
    (v.overlook n).told (.send o) = (v.told (.send o)).overlook n := by
  have hsame : (v.overlook n).accepts o.layer = v.accepts o.layer := rfl
  cases ha : v.accepts o.layer with
  | true =>
    rw [told, told, send_of_accepts (hsame.trans ha), send_of_accepts ha]
    rfl
  | false =>
    have hswap : v.counters.filtered + .ofNat n + 1 = v.counters.filtered + 1 + .ofNat n := by
      rw [UInt64.add_assoc, UInt64.add_comm (.ofNat n), UInt64.add_assoc]
    rw [told, told, send_of_not_accepts (hsame.trans ha), send_of_not_accepts ha]
    simp only [overlook, hswap]

theorem after_sends_overlook (v : Viewer) (n : Nat) (os : List Offer) :
    (v.overlook n).after (os.map .send) = (v.after (os.map .send)).overlook n := by
  induction os generalizing v with
  | nil => rfl
  | cons o rest ih =>
    show ((v.overlook n).told (.send o)).after _ = ((v.told (.send o)).after _).overlook n
    rw [told_send_overlook, ih]

/-- **A viewer takes the packets of its layer and counts the others.** -/
theorem after_sends {v : Viewer} {layer : String} (h : v.layer = some layer) (os : List Offer) :
    v.after (os.map .send)
      = (v.after ((os.filter fun o => o.layer = layer).map .send)).overlook
          (os.countP fun o => o.layer ≠ layer) := by
  induction os generalizing v with
  | nil => exact (overlook_zero v).symm
  | cons o rest ih =>
    show (v.told (.send o)).after _ = _
    by_cases hl : o.layer = layer
    · have ha : v.accepts o.layer = true := by simp [accepts, h, hl]
      have hnext : (v.told (.send o)).layer = some layer := by
        rw [told, send_of_accepts ha, ← hl]
      rw [ih hnext, List.filter_cons_of_pos (by simpa using hl),
        List.countP_cons_of_neg (by simpa using hl)]
      rfl
    · have ha : v.accepts o.layer = false := by simp [accepts, h, Ne.symm hl]
      have hnext : v.told (.send o) = v.overlook 1 := by
        rw [told, send_of_not_accepts ha]
        rfl
      rw [hnext, after_sends_overlook, ih h, overlook_overlook,
        List.filter_cons_of_neg (by simpa using hl),
        List.countP_cons_of_pos (by simpa using hl)]

end Viewer

/-! ### The counters of a layer -/

/-- The counters of a layer after some of its packets. -/
def LayerCounters.afterAll (layer : String) (now : Millis) (c : Option LayerCounters)
    (ps : List Packet) : Option LayerCounters :=
  ps.foldl (fun c p => some ((c.getD { layer, since := now }).record p.payload.length.toUInt64)) c

namespace Relay

variable {r : Relay} {sid : StreamId} {xs ys : List Reading}

/-! ### Runs of readings -/

/-- Some readings, one after another. -/
def readAll (r : Relay) (sid : StreamId) (xs : List Reading) : Relay := r.through sid (xs.map .read)

theorem readAll_cons (r : Relay) (sid : StreamId) (x : Reading) (xs : List Reading) :
    r.readAll sid (x :: xs) = (r.read sid x).readAll sid xs := rfl

/-- What is offered in a run of readings. -/
def offeredBy (r : Relay) (sid : StreamId) (xs : List Reading) : List Viewer.Offer :=
  offered sid r (xs.map .read)

theorem offeredBy_cons (r : Relay) (sid : StreamId) (x : Reading) (xs : List Reading) :
    r.offeredBy sid (x :: xs)
      = (r.offer? sid (.read x)).toList ++ (r.read sid x).offeredBy sid xs := rfl

/-- While feeds only read, an attached viewer is offered everything, and any other nothing. -/
theorem calls_reads (r : Relay) (sid : StreamId) (id : ViewerId) (xs : List Reading) :
    calls sid id r (xs.map .read)
      = if id ∈ r.registry.table sid then (r.offeredBy sid xs).map .send else [] := by
  induction xs generalizing r with
  | nil => exact (ite_self _).symm
  | cons x rest ih =>
    have hrest := ih (r.read sid x)
    rw [table_read] at hrest
    show (r.call? sid id (.read x)).toList ++ calls sid id (r.read sid x) _ = _
    rw [hrest, call?, offeredBy_cons, List.map_append]
    by_cases hid : id ∈ r.registry.table sid
    · simp only [if_pos hid]
      cases r.offer? sid (.read x) <;> rfl
    · simp only [if_neg hid]
      rfl

/-- As many packets are offered as are read by feeds of the stream. -/
theorem length_offeredBy (r : Relay) (sid : StreamId) (xs : List Reading) :
    (r.offeredBy sid xs).length
      = (xs.map Reading.loop).countP fun loop => (r.feedOf sid loop).isSome := by
  induction xs generalizing r with
  | nil => rfl
  | cons x rest ih =>
    have hfeeds : ∀ loop, ((r.read sid x).feedOf sid loop).isSome = (r.feedOf sid loop).isSome := by
      intro loop
      rw [feedOf_read]
      split
      · exact Option.isSome_map ..
      · rfl
    rw [offeredBy_cons, List.length_append, ih, List.map_cons, List.countP_cons]
    simp only [hfeeds, offer?]
    cases r.feedOf sid x.loop with
    | none => simp
    | some f => simp [Nat.add_comm]

theorem mem_offeredBy_layer {o : Viewer.Offer} (h : o ∈ r.offeredBy sid xs) :
    ∃ x ∈ xs, (r.feedOf sid x.loop).map Feed.layer = some o.layer := by
  induction xs generalizing r with
  | nil => exact absurd h List.not_mem_nil
  | cons x rest ih =>
    rw [offeredBy_cons] at h
    rcases List.mem_append.mp h with h | h
    · refine ⟨x, List.mem_cons_self, ?_⟩
      obtain ⟨f, hf, rfl⟩ := Option.map_eq_some_iff.mp (Option.mem_toList.mp h)
      rw [hf]
      rfl
    · obtain ⟨y, hy, hl⟩ := ih h
      refine ⟨y, List.mem_cons_of_mem x hy, ?_⟩
      rw [← hl]
      exact (feedOf_meet_layer r sid (.read x) y.loop).symm

/-! ### Two schedules -/

/-- The feeds that read are of different layers. -/
def Distinct (r : Relay) (sid : StreamId) (xs : List Reading) : Prop :=
  ∀ x ∈ xs, ∀ f, r.feedOf sid x.loop = some f → r.Sole sid x.loop f.layer xs

/-- Every feed reads the same packets in both schedules. -/
def SamePackets (xs ys : List Reading) : Prop := ∀ loop, packetsOf loop xs = packetsOf loop ys

theorem packetsOf_ne_nil_iff (loop : LoopId) (xs : List Reading) :
    packetsOf loop xs ≠ [] ↔ ∃ x ∈ xs, x.loop = loop := by
  simp [packetsOf]

theorem SamePackets.exists_loop (h : SamePackets xs ys) {y : Reading} (hy : y ∈ ys) :
    ∃ x ∈ xs, x.loop = y.loop := by
  rw [← packetsOf_ne_nil_iff, h, packetsOf_ne_nil_iff]
  exact ⟨y, hy, rfl⟩

theorem SamePackets.symm (h : SamePackets xs ys) : SamePackets ys xs := fun loop => (h loop).symm

/-- Every feed reads as often in the one as in the other. -/
theorem SamePackets.perm_loops (h : SamePackets xs ys) :
    (xs.map Reading.loop).Perm (ys.map Reading.loop) := by
  rw [List.perm_iff_count]
  intro loop
  have hcount : ∀ zs : List Reading, (zs.map Reading.loop).count loop = (packetsOf loop zs).length := by
    intro zs
    rw [packetsOf, List.length_map, List.count, List.countP_map, List.countP_eq_length_filter]
    rfl
  rw [hcount, hcount, h]

theorem Distinct.of_same (hd : r.Distinct sid xs) (h : SamePackets xs ys) : r.Distinct sid ys := by
  intro y hy f hf z hz hl
  obtain ⟨x, hx, hxy⟩ := h.exists_loop hy
  obtain ⟨w, hw, hwz⟩ := h.exists_loop hz
  rw [← hxy] at hf ⊢
  rw [← hwz] at hl ⊢
  exact hd x hx f hf w hw hl

theorem filter_offeredBy {x : Reading} {f : Feed} (hd : r.Distinct sid xs) (hx : x ∈ xs)
    (hf : r.feedOf sid x.loop = some f) :
    (r.offeredBy sid xs).filter (fun o => o.layer = f.layer)
      = f.offers (packetsOf x.loop xs) := by
  have hreadings : readings (xs.map .read) = xs := by
    rw [readings, List.filterMap_map]
    exact List.filterMap_some
  have hsole := hd x hx f hf
  rw [← hreadings] at hsole
  have hlayer := filter_offered_of_sole hf hsole
  rwa [hreadings] at hlayer

/-- **On each layer the same is offered in both schedules.** -/
theorem filter_offered_of_same (hd : r.Distinct sid xs) (h : SamePackets xs ys) (layer : String) :
    (r.offeredBy sid ys).filter (fun o => o.layer = layer)
      = (r.offeredBy sid xs).filter (fun o => o.layer = layer) := by
  by_cases hread : ∃ x ∈ xs, (r.feedOf sid x.loop).map Feed.layer = some layer
  · obtain ⟨x, hx, hl⟩ := hread
    obtain ⟨f, hf, rfl⟩ := Option.map_eq_some_iff.mp hl
    obtain ⟨y, hy, hxy⟩ := h.symm.exists_loop hx
    rw [filter_offeredBy hd hx hf, h, ← hxy]
    rw [← hxy] at hf
    exact filter_offeredBy (hd.of_same h) hy hf
  · have hnone : ∀ zs : List Reading, SamePackets zs xs →
        (r.offeredBy sid zs).filter (fun o => o.layer = layer) = [] := by
      intro zs hzs
      rw [List.filter_eq_nil_iff]
      intro o ho hl
      obtain ⟨z, hz, hzl⟩ := mem_offeredBy_layer ho
      obtain ⟨x, hx, hxz⟩ := hzs.symm.exists_loop hz
      rw [of_decide_eq_true hl] at hzl
      rw [← hxz] at hzl
      exact hread ⟨x, hx, hzl⟩
    rw [hnone ys h.symm, hnone xs fun _ => rfl]

/-- On each layer, as many packets of other layers pass by. -/
theorem countP_offered_of_same (hd : r.Distinct sid xs) (h : SamePackets xs ys) (layer : String) :
    (r.offeredBy sid ys).countP (fun o => o.layer ≠ layer)
      = (r.offeredBy sid xs).countP (fun o => o.layer ≠ layer) := by
  have hlength : (r.offeredBy sid ys).length = (r.offeredBy sid xs).length := by
    rw [length_offeredBy, length_offeredBy]
    exact h.symm.perm_loops.countP_eq _
  have hlayer := congrArg List.length (filter_offered_of_same hd h layer)
  rw [← List.countP_eq_length_filter, ← List.countP_eq_length_filter] at hlayer
  have hsplit : ∀ os : List Viewer.Offer,
      os.length = os.countP (fun o => o.layer = layer) + os.countP (fun o => o.layer ≠ layer) := by
    intro os
    have htotal := List.length_eq_countP_add_countP (fun o : Viewer.Offer => decide (o.layer = layer))
      (l := os)
    simpa only [decide_eq_true_eq] using htotal
  have hys := hsplit (r.offeredBy sid ys)
  have hxs := hsplit (r.offeredBy sid xs)
  omega

/-! ### What a run of readings leaves behind in the stream -/

/-- The counters of a layer are told by the packets that are offered on it. -/
theorem counters_readAll {s : Stream} (hs : r.registry.stream? sid = some s)
    (xs : List Reading) :
    ∃ t, (r.readAll sid xs).registry.stream? sid = some t ∧ ∀ layer,
      t.counters.find? layer = LayerCounters.afterAll layer r.clock (s.counters.find? layer)
        (((r.offeredBy sid xs).filter fun o => o.layer = layer).map (·.packet)) := by
  induction xs generalizing r s with
  | nil => exact ⟨s, hs, fun _ => rfl⟩
  | cons x rest ih =>
    rw [readAll_cons, offeredBy_cons]
    cases hf : r.feedOf sid x.loop with
    | none =>
      rw [read_of_none hf, offer?, hf]
      exact ih hs
    | some f =>
      have hnext := stream?_read hf
      rw [hs, Option.map_some] at hnext
      obtain ⟨t, ht, hcounters⟩ := ih hnext
      refine ⟨t, ht, fun layer => (hcounters layer).trans ?_⟩
      have hclock : (r.read sid x).clock = r.clock := clock_meet r sid (.read x)
      rw [hclock, Stream.counters_noteRead, Table.find?_insert, offer?, hf]
      by_cases hl : layer = f.layer
      · subst hl
        simp [Feed.offer, LayerCounters.afterAll]
      · simp [Feed.offer, hl, Ne.symm hl]

/-- A feed of a layer reads its first packet. -/
def Reveals (r : Relay) (sid : StreamId) (xs : List Reading) (layer : String) : Prop :=
  ∃ loop f, r.feedOf sid loop = some f ∧ f.lastTimestamp = none ∧ f.layer = layer ∧
    packetsOf loop xs ≠ []

theorem reveals_cons_of_none {x : Reading} (hf : r.feedOf sid x.loop = none) (xs : List Reading)
    (layer : String) : r.Reveals sid (x :: xs) layer ↔ r.Reveals sid xs layer := by
  refine exists_congr fun loop => exists_congr fun f => and_congr_right fun hl => ?_
  have hne : x.loop ≠ loop := by
    rintro rfl
    rw [hf] at hl
    exact absurd hl (by simp)
  rw [packetsOf_cons, if_neg hne]

theorem reveals_cons_of_some {x : Reading} {f : Feed} (hf : r.feedOf sid x.loop = some f)
    (xs : List Reading) (layer : String) :
    r.Reveals sid (x :: xs) layer
      ↔ (f.lastTimestamp = none ∧ f.layer = layer) ∨ (r.read sid x).Reveals sid xs layer := by
  constructor
  · rintro ⟨loop, g, hg, hunread, hl, hp⟩
    by_cases hloop : loop = x.loop
    · subst hloop
      obtain rfl := Option.some.inj (hf.symm.trans hg)
      exact .inl ⟨hunread, hl⟩
    · rw [packetsOf_cons, if_neg (Ne.symm hloop)] at hp
      exact .inr ⟨loop, g, by rw [feedOf_read, if_neg hloop, hg], hunread, hl, hp⟩
  · rintro (⟨hunread, hl⟩ | ⟨loop, g, hg, hunread, hl, hp⟩)
    · exact ⟨x.loop, f, hf, hunread, hl, by simp [packetsOf_cons]⟩
    · have hloop : loop ≠ x.loop := by
        rintro rfl
        rw [feedOf_read, if_pos rfl, hf] at hg
        obtain rfl := Option.some.inj hg
        exact absurd hunread (by simp [Feed.read])
      rw [feedOf_read, if_neg hloop] at hg
      exact ⟨loop, g, hg, hunread, hl, by rwa [packetsOf_cons, if_neg (Ne.symm hloop)]⟩

theorem SamePackets.reveals_iff (h : SamePackets xs ys) (layer : String) :
    r.Reveals sid ys layer ↔ r.Reveals sid xs layer := by
  unfold Reveals
  simp only [h _]

/-- A layer is known if it was before, or if a feed reveals it. -/
theorem mem_layers_readAll {s t : Stream} (hs : r.registry.stream? sid = some s)
    (ht : (r.readAll sid xs).registry.stream? sid = some t) (layer : String) :
    layer ∈ t.layers ↔ layer ∈ s.layers ∨ r.Reveals sid xs layer := by
  induction xs generalizing r s with
  | nil =>
    obtain rfl := Option.some.inj (hs.symm.trans ht)
    simp [Reveals, packetsOf]
  | cons x rest ih =>
    rw [readAll_cons] at ht
    cases hf : r.feedOf sid x.loop with
    | none =>
      rw [read_of_none hf] at ht
      rw [ih hs ht, reveals_cons_of_none hf]
    | some f =>
      have hnext := stream?_read hf
      rw [hs, Option.map_some] at hnext
      rw [ih hnext ht, Stream.mem_layers_noteRead, reveals_cons_of_some hf, or_assoc]

/-! ### The law -/

/-- **The schedule of the feeds makes no difference.**  Feeds of different layers read the
same packets in two schedules, and whatever the orders in which the packets go round, a viewer
with a layer in force ends up the same: its sink was handed the same packets in the same
order, and layer, timeline and counters are the same.  The stream ends with the same counters
for every layer and knows the same layers. -/
theorem same_of_same_packets {s : Stream} (hs : r.registry.stream? sid = some s)
    (hn : s.viewers.Nodup) (hd : r.Distinct sid xs) (h : SamePackets xs ys) :
    (∀ id v, r.viewers.find? id = some v → v.layer ≠ none →
      (r.readAll sid ys).viewers.find? id = (r.readAll sid xs).viewers.find? id) ∧
    ∃ t u, (r.readAll sid xs).registry.stream? sid = some t ∧
      (r.readAll sid ys).registry.stream? sid = some u ∧
      (∀ layer, u.counters.find? layer = t.counters.find? layer) ∧
      ∀ layer, layer ∈ u.layers ↔ layer ∈ t.layers := by
  constructor
  · intro id v hv hlayer
    obtain ⟨layer, hl⟩ := Option.ne_none_iff_exists'.mp hlayer
    have htable : (r.registry.table sid).Nodup := by rwa [Registry.table_of_some hs]
    rw [readAll, readAll, find?_viewers_through htable, find?_viewers_through htable, hv,
      calls_reads, calls_reads]
    split
    · simp only [Option.map_some]
      rw [Viewer.after_sends hl (r.offeredBy sid ys), Viewer.after_sends hl (r.offeredBy sid xs),
        filter_offered_of_same hd h, countP_offered_of_same hd h]
    · rfl
  · obtain ⟨t, ht, hleft⟩ := counters_readAll hs xs
    obtain ⟨u, hu, hright⟩ := counters_readAll hs ys
    refine ⟨t, u, ht, hu, ?_, ?_⟩
    · intro layer
      rw [hleft, hright, filter_offered_of_same hd h]
    · intro layer
      rw [mem_layers_readAll hs hu, mem_layers_readAll hs ht, h.reveals_iff]

/-- Two feeds take turns, or the one reads after the other. -/
theorem same_of_taking_turns :
    let x : Reading := ⟨0, { timestamp := 1000 }, .inOrder⟩
    let x' : Reading := ⟨0, { timestamp := 4000 }, .inOrder⟩
    let y : Reading := ⟨1, { timestamp := 500 }, .inOrder⟩
    let r := twofold.updateViewer "v" fun v => v.selectLayer "q"
    r.Distinct 0 [x, y, x'] ∧ SamePackets [x, y, x'] [y, x, x'] ∧
      ((r.readAll 0 [y, x, x']).viewers.find? "v").map (fun v => v.sink.handed)
        = some [{ sequenceNumber := 1, timestamp := 50000 },
            { sequenceNumber := 2, timestamp := 53000 }] := by
  intro x x' y r
  have hd : r.Distinct 0 [x, y, x'] := by
    intro z hz f hf w hw hl
    fin_cases hz <;> cases hf <;> fin_cases hw <;> first | rfl | exact absurd hl (by decide)
  have h : SamePackets [x, y, x'] [y, x, x'] := by
    intro loop
    simp only [packetsOf_cons]
    by_cases h0 : (0 : Nat) = loop
    · subst h0
      rfl
    · simp [x, x', h0]
  have hs : r.registry.stream? 0 = some {
      key := "k"
      keyframes := { capacity := 1 }
      phase := .connected
      viewers := ["v"] } := rfl
  refine ⟨hd, h, ?_⟩
  rw [(same_of_same_packets hs (by decide) hd h).1 "v" _ rfl (by decide)]
  decide

end Relay

end Simulcast
