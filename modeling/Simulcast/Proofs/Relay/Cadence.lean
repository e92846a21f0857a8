import Simulcast.Proofs.Relay.Rounds
/-!
# Distances in time are passed on

A feed knows the distance of a packet from the one it read before, and a viewer adds up the
distances of the packets that it takes.  As long as a viewer takes all that one feed reads and
nothing else, the sum telescopes: the packet `p` goes out at `t + (p - b)`, where `b` is the
packet before the first one and `t` is where the viewer's timeline stood
(`Viewer.getElem?_carried`).

Such a period is given by two conditions.  Of the feeds of the layer only one reads
(`Relay.Sole`), and whenever any feed reads, the viewer is attached and has the layer in force
(`Relay.Tuned`).  `Relay.cadence_of_tuned` is the main statement.  It is about any period after
any history, so the viewer may come late, may have watched other layers before, and may not
have been sent the packets that its feed read before the period.
-/

namespace Simulcast

/-! ### One feed and one viewer -/

namespace Viewer

/-- The packets that a sink is handed for some offers that are all taken. -/
def carried (t : Timeline) : List Offer → List Packet
  | [] => []
  | o :: os => outbound (t.advance o.delta) o.packet o.av1 :: carried (t.advance o.delta) os

/-- The packet that a call offers. -/
def Call.offer? : Call → Option Offer
  | .select _ => none
  | .send o => some o

/-- At every packet, a layer is in force. -/
def StaysOn (layer : String) : Viewer → List Call → Prop
  | _, [] => True
  | v, c :: cs => (∀ o ∈ c.offer?, v.layer.getD o.layer = layer) ∧ StaysOn layer (v.told c) cs

/-- **While a layer is in force its packets are handed over**, and no others. -/
theorem handed_of_staysOn {layer : String} {v : Viewer} {cs : List Call}
    (h : v.StaysOn layer cs) :
    (v.after cs).sink.handed = v.sink.handed
      ++ carried v.timeline ((cs.filterMap Call.offer?).filter fun o => o.layer = layer) := by
  induction cs generalizing v with
  | nil => exact (List.append_nil _).symm
  | cons c rest ih =>
    obtain ⟨hnow, hrest⟩ := h
    have hlater := ih hrest
    cases c with
    | select l => exact hlater
    | send o =>
      have hforce := hnow o rfl
      show ((v.told (.send o)).after rest).sink.handed = _
      have hoffers : (Call.send o :: rest).filterMap Call.offer?
          = o :: rest.filterMap Call.offer? := rfl
      rw [hlater, hoffers]
      by_cases hl : o.layer = layer
      · have ha : v.accepts o.layer = true := by
          rw [accepts]
          cases hv : v.layer with
          | none => rfl
          | some current =>
            rw [hv] at hforce
            simpa using hforce.trans hl.symm
        rw [told, send_of_accepts ha, List.filter_cons_of_pos (by simpa using hl), carried]
        simp
      · have ha : v.accepts o.layer = false := by
          rw [accepts]
          cases hv : v.layer with
          | none =>
            rw [hv] at hforce
            exact absurd hforce hl
          | some current =>
            rw [hv] at hforce
            simpa using fun he : current = o.layer => hl (he.symm.trans hforce)
        rw [told, send_of_not_accepts ha, List.filter_cons_of_neg (by simpa using hl)]

/-- Where the distances of a feed are counted from: the packet that it read last, or the
first one to come. -/
def origin (f : Feed) (ps : List Packet) : UInt32 :=
  f.lastTimestamp.getD ((ps.head?.map Packet.timestamp).getD 0)

/-- **The distances telescope.** -/
theorem getElem?_carried (f : Feed) (t : Timeline) (ps : List Packet) (i : Nat) :
    (carried t (f.offers ps))[i]? = (ps[i]?).map fun p =>
      outbound ⟨t.sequenceNumber + .ofNat (i + 1), t.timestamp + (p.timestamp - origin f ps)⟩ p
        f.av1 := by
  induction ps generalizing f t i with
  | nil => rfl
  | cons p rest ih =>
    have hdelta : f.delta p.timestamp = p.timestamp - origin f (p :: rest) := by
      unfold Feed.delta origin
      cases f.lastTimestamp with
      | none => simp
      | some b => rfl
    cases i with
    | zero =>
      simp only [Feed.offers, carried, List.getElem?_cons_zero, Option.map_some, Feed.offer,
        Timeline.advance, hdelta]
      rfl
    | succ i =>
      have hnext := ih (f.read p) (t.advance (f.delta p.timestamp)) i
      simp only [Feed.offers, carried, List.getElem?_cons_succ]
      refine Eq.trans hnext ?_
      congr 1
      funext q
      have hseq : (t.advance (f.delta p.timestamp)).sequenceNumber + .ofNat (i + 1)
          = t.sequenceNumber + .ofNat (i + 1 + 1) := by
        rw [UInt16.ofNat_add (i + 1) 1]
        show t.sequenceNumber + 1 + _ = _
        rw [UInt16.add_assoc, UInt16.add_comm 1]
        rfl
      have horigin : origin (f.read p) rest = p.timestamp := rfl
      have htime : (t.advance (f.delta p.timestamp)).timestamp
            + (q.timestamp - origin (f.read p) rest)
          = t.timestamp + (q.timestamp - origin f (p :: rest)) := by
        rw [horigin]
        show t.timestamp + f.delta p.timestamp + (q.timestamp - p.timestamp) = _
        rw [hdelta]
        generalize origin f (p :: rest) = b
        grind
      rw [hseq, htime]
      rfl

theorem length_carried (f : Feed) (t : Timeline) (ps : List Packet) :
    (carried t (f.offers ps)).length = ps.length := by
  induction ps generalizing f t with
  | nil => rfl
  | cons p rest ih => exact congrArg (· + 1) (ih (f.read p) _)

/-- **The timeline stands at the last packet that was handed over**, or at its start. -/
theorem Fresh.timestamp_after {v : Viewer} (h : v.Fresh) (calls : List Call) :
    (v.after calls).timeline.timestamp
      = ((v.after calls).sink.handed.getLast?.map Packet.timestamp).getD 50000 := by
  have hf := h.follows_after calls
  rw [hf.timestamp, List.getLast?_eq_getElem?, hf.size]
  cases hn : (accepted calls).length with
  | zero =>
    have hnone : (v.after calls).sink.handed[0 - 1]? = none := by
      rw [List.getElem?_eq_none]
      rw [hf.size, hn]
    rw [hnone, List.length_eq_zero_iff.mp hn]
    rfl
  | succ n =>
    have hlt : n < (accepted calls).length := by omega
    have hlast := hf.handed n _ (List.getElem?_eq_getElem hlt)
    rw [List.take_of_length_le (by omega)] at hlast
    rw [Nat.add_sub_cancel, hlast]
    rfl

end Viewer

namespace Relay

variable {r : Relay} {sid : StreamId} {id : ViewerId} {loop : LoopId} {layer : String}

/-! ### Periods -/

/-- Whenever a packet is read, the viewer is attached and has a layer in force. -/
def Tuned (sid : StreamId) (id : ViewerId) (layer : String) : Relay → List Happening → Prop
  | _, [] => True
  | r, e :: es =>
    (∀ o ∈ r.offer? sid e, id ∈ r.registry.table sid ∧
      ∀ v, r.viewers.find? id = some v → v.layer.getD o.layer = layer) ∧
    Tuned sid id layer (r.meet sid e) es

/-- A viewer that is tuned in is offered all that is offered to anybody. -/
theorem Tuned.calls {v : Viewer} {es : List Happening} (h : Tuned sid id layer r es)
    (hn : (r.registry.table sid).Nodup) (hv : r.viewers.find? id = some v) :
    v.StaysOn layer (calls sid id r es) ∧
      (calls sid id r es).filterMap Viewer.Call.offer? = offered sid r es := by
  induction es generalizing r v with
  | nil => exact ⟨trivial, rfl⟩
  | cons e rest ih =>
    obtain ⟨hnow, hlater⟩ := h
    have hstep : (r.meet sid e).viewers.find? id = some (v.after (r.call? sid id e).toList) := by
      rw [find?_viewers_meet hn, hv]
      rfl
    obtain ⟨hstay, hoffered⟩ := ih hlater (nodup_table_meet hn e) hstep
    have hcall : ∀ o, r.offer? sid e = some o → r.call? sid id e = some (.send o) := by
      intro o ho
      cases e with
      | read x => rw [call?, if_pos (hnow o ho).1, ho, Option.map_some]
      | select j l => exact absurd ho (by simp [offer?])
      | attach j => exact absurd ho (by simp [offer?])
      | detach j => exact absurd ho (by simp [offer?])
    have hquiet : r.offer? sid e = none → ∀ c, r.call? sid id e = some c → c.offer? = none := by
      intro ho c hc
      cases e with
      | read x =>
        rw [call?, ho, Option.map_none, ite_self] at hc
        exact absurd hc (by simp)
      | select j l =>
        simp only [call?, Option.ite_none_right_eq_some, Option.some.injEq] at hc
        rw [← hc.2]
        rfl
      | attach j => exact absurd hc (by simp [call?])
      | detach j => exact absurd hc (by simp [call?])
    rw [Relay.calls, List.filterMap_append, hoffered, offered]
    cases ho : r.offer? sid e with
    | some o =>
      rw [hcall o ho] at hstay ⊢
      refine ⟨⟨?_, hstay⟩, rfl⟩
      intro o' ho'
      obtain rfl := Option.some.inj ho'
      exact (hnow o ho).2 v hv
    | none =>
      cases hc : r.call? sid id e with
      | none =>
        rw [hc] at hstay
        exact ⟨hstay, rfl⟩
      | some c =>
        have hsilent := hquiet ho c hc
        rw [hc] at hstay
        refine ⟨⟨?_, hstay⟩, ?_⟩
        · intro o ho'
          rw [hsilent] at ho'
          exact absurd ho' (by simp)
        · rw [Option.toList_some, List.filterMap_cons_none hsilent]
          rfl

/-- A feed stands where its last packet left it. -/
theorem feedOf_through {f : Feed} (hf : r.feedOf sid loop = some f) (es : List Happening) :
    (r.through sid es).feedOf sid loop = some { f with
      lastTimestamp :=
        ((packetsOf loop (readings es)).getLast?.map Packet.timestamp).or f.lastTimestamp } := by
  induction es using List.reverseRecOn with
  | nil => exact hf
  | append_singleton es e ih =>
    have hstep : r.through sid (es ++ [e]) = (r.through sid es).meet sid e := by
      rw [through_append]
      rfl
    rw [hstep]
    cases e with
    | read x =>
      have hreadings : packetsOf loop (readings (es ++ [.read x]))
          = packetsOf loop (readings es) ++ if x.loop = loop then [x.packet] else [] := by
        simp only [readings, List.filterMap_append, packetsOf, List.filter_append, List.map_append]
        by_cases hl : x.loop = loop <;> simp [reading?, hl]
      show ((r.through sid es).read sid x).feedOf sid loop = _
      rw [feedOf_read, ih, hreadings]
      by_cases hl : x.loop = loop
      · rw [if_pos hl.symm, if_pos hl]
        simp [Feed.read]
      · rw [if_neg (Ne.symm hl), if_neg hl, List.append_nil]
    | select j l =>
      rw [show readings (es ++ [.select j l]) = readings es by simp [readings, reading?]]
      exact ih
    | attach j =>
      rw [show readings (es ++ [.attach j]) = readings es by simp [readings, reading?]]
      exact ih
    | detach j =>
      rw [show readings (es ++ [.detach j]) = readings es by simp [readings, reading?]]
      exact ih

theorem Sole.through {xs : List Reading} (h : r.Sole sid loop layer xs) (es : List Happening) :
    (r.through sid es).Sole sid loop layer xs := by
  induction es generalizing r with
  | nil => exact h
  | cons e rest ih => exact ih (h.meet e)

theorem nodup_table_through (hn : (r.registry.table sid).Nodup) (es : List Happening) :
    ((r.through sid es).registry.table sid).Nodup := by
  induction es generalizing r with
  | nil => exact hn
  | cons e rest ih => exact ih (nodup_table_meet hn e)

/-! ### The law -/

/-- How packets go out that are read one after another.  `before` is the timestamp that went
out last, and `last` the one that was read last. -/
structure Cadence (before : UInt32) (last : Option UInt32) (av1 : Bool)
    (read handed : List Packet) : Prop where
  /-- Every packet goes out. -/
  length : handed.length = read.length
  /-- Only its place is changed, and of AV1 no header extension is left. -/
  content : ∀ (i : Nat) (p o : Packet), read[i]? = some p → handed[i]? = some o →
    o = { p with
      sequenceNumber := o.sequenceNumber
      timestamp := o.timestamp
      hasExtensions := if av1 then false else p.hasExtensions
      extensionProfile := if av1 then 0 else p.extensionProfile
      extensions := if av1 then [] else p.extensions }
  consecutive : ∀ (i : Nat) (o o' : Packet), handed[i]? = some o → handed[i + 1]? = some o' →
    o'.sequenceNumber = o.sequenceNumber + 1
  distance : ∀ (i j : Nat) (p q o o' : Packet), read[i]? = some p → read[j]? = some q →
    handed[i]? = some o → handed[j]? = some o' → o'.timestamp - o.timestamp = q.timestamp - p.timestamp
  /-- The first packet is as far from the one that went out before as its feed reports. -/
  first : ∀ (p o : Packet), read[0]? = some p → handed[0]? = some o →
    o.timestamp = before + (last.map fun t => p.timestamp - t).getD 0

/-- What is carried keeps the cadence of the feed. -/
theorem cadence_carried (f : Feed) (t : Timeline) (ps : List Packet) :
    Cadence t.timestamp f.lastTimestamp f.av1 ps (Viewer.carried t (f.offers ps)) := by
  have hout : ∀ i o, (Viewer.carried t (f.offers ps))[i]? = some o → ∃ p, ps[i]? = some p ∧
      o = Viewer.outbound ⟨t.sequenceNumber + .ofNat (i + 1),
        t.timestamp + (p.timestamp - Viewer.origin f ps)⟩ p f.av1 := by
    intro i o ho
    rw [Viewer.getElem?_carried] at ho
    obtain ⟨p, hp, rfl⟩ := Option.map_eq_some_iff.mp ho
    exact ⟨p, hp, rfl⟩
  -- the place of a packet is the same with and without extensions
  have hplace : ∀ (t : Timeline) (p : Packet), (Viewer.outbound t p f.av1).sequenceNumber
      = t.sequenceNumber ∧ (Viewer.outbound t p f.av1).timestamp = t.timestamp := by
    intro t p
    unfold Viewer.outbound
    cases f.av1 <;> exact ⟨rfl, rfl⟩
  refine ⟨Viewer.length_carried f t ps, ?_, ?_, ?_, ?_⟩
  · intro i p o hp ho
    obtain ⟨p', hp', rfl⟩ := hout i o ho
    obtain rfl := Option.some.inj (hp.symm.trans hp')
    unfold Viewer.outbound
    cases f.av1 <;> rfl
  · intro i o o' ho ho'
    obtain ⟨p, -, rfl⟩ := hout i o ho
    obtain ⟨p', -, rfl⟩ := hout (i + 1) o' ho'
    rw [(hplace _ p).1, (hplace _ p').1, UInt16.ofNat_add (i + 1) 1]
    exact (UInt16.add_assoc ..).symm
  · intro i j p q o o' hp hq ho ho'
    obtain ⟨p', hp', rfl⟩ := hout i o ho
    obtain ⟨q', hq', rfl⟩ := hout j o' ho'
    obtain rfl := Option.some.inj (hp.symm.trans hp')
    obtain rfl := Option.some.inj (hq.symm.trans hq')
    rw [(hplace _ p).2, (hplace _ q).2]
    show t.timestamp + (q.timestamp - _) - (t.timestamp + (p.timestamp - _)) = _
    generalize Viewer.origin f ps = b
    grind
  · intro p o hp ho
    obtain ⟨p', hp', rfl⟩ := hout 0 o ho
    obtain rfl := Option.some.inj (hp.symm.trans hp')
    rw [(hplace _ p).2]
    have hhead : ps.head? = some p := by rw [List.head?_eq_getElem?, hp]
    unfold Viewer.origin
    rw [hhead]
    cases f.lastTimestamp with
    | none => simp
    | some b => rfl

/-- **A viewer is handed what its feed reads, at the feed's own distances.**  Feeds and viewer
start afresh; after any history comes a period in which the viewer stays attached with a layer
in force and only one feed of that layer reads.  All that this feed reads in the period is
handed over, in order, with consecutive sequence numbers and at the distances in time that the
packets have at the source.  The first one continues from what the viewer was handed before, by
its distance from the packet that the feed read before, whoever was sent that one. -/
theorem cadence_of_tuned {f : Feed} {v : Viewer} (hn : (r.registry.table sid).Nodup)
    (hf : r.feedOf sid loop = some f) (hunread : f.lastTimestamp = none)
    (hv : r.viewers.find? id = some v) (hfresh : v.Fresh) (history period : List Happening)
    (hsole : r.Sole sid loop f.layer (readings period))
    (htuned : Tuned sid id f.layer (r.through sid history) period) :
    ∃ u w handed, (r.through sid history).viewers.find? id = some u ∧
      (r.through sid (history ++ period)).viewers.find? id = some w ∧
      w.sink.handed = u.sink.handed ++ handed ∧
      Cadence ((u.sink.handed.getLast?.map Packet.timestamp).getD 50000)
        ((packetsOf loop (readings history)).getLast?.map Packet.timestamp) f.av1
        (packetsOf loop (readings period)) handed := by
  have hfeed := feedOf_through hf history
  rw [hunread, Option.or_none] at hfeed
  have hu : (r.through sid history).viewers.find? id
      = some (v.after (calls sid id r history)) := by
    rw [find?_viewers_through hn, hv]
    rfl
  have hn' := nodup_table_through hn history
  obtain ⟨hstay, hoffered⟩ := htuned.calls hn' hu
  have hhanded := Viewer.handed_of_staysOn hstay
  have hlayer := filter_offered_of_sole hfeed (hsole.through history)
  rw [hoffered, hlayer] at hhanded
  refine ⟨_, _, _, hu, ?_, hhanded, ?_⟩
  · rw [through_append, find?_viewers_through hn', hu]
    rfl
  · rw [← hfresh.timestamp_after]
    let g : Feed := { f with
      lastTimestamp := (packetsOf loop (readings history)).getLast?.map Packet.timestamp }
    exact cadence_carried g (v.after (calls sid id r history)).timeline
      (packetsOf loop (readings period))

/-- The viewer starts on one layer and goes over to the other.  It goes on by the 100 since
the packet of the other layer that it was not sent. -/
theorem cadence_of_switching :
    let history : List Happening :=
      [.read ⟨0, { timestamp := 1000 }, .inOrder⟩, .read ⟨1, { timestamp := 500 }, .inOrder⟩]
    let period : List Happening :=
      [.select "v" "h", .read ⟨1, { timestamp := 600 }, .inOrder⟩,
        .read ⟨0, { timestamp := 4000 }, .inOrder⟩, .read ⟨1, { timestamp := 900 }, .inOrder⟩]
    twofold.Sole 0 1 "h" (readings period) ∧ Tuned 0 "v" "h" (twofold.through 0 history) period ∧
      ∃ w, (twofold.through 0 (history ++ period)).viewers.find? "v" = some w ∧
        w.sink.handed.map Packet.timestamp = [50000, 50100, 50400] := by
  intro history period
  have hsole : twofold.Sole 0 1 "h" (readings period) := by
    intro x hx
    fin_cases hx <;> decide
  have htuned : Tuned 0 "v" "h" (twofold.through 0 history) period := by
    refine ⟨nofun, ⟨?_, ⟨?_, ⟨?_, trivial⟩⟩⟩⟩
    all_goals
      intro o _
      refine ⟨by decide, fun v hv => ?_⟩
      cases hv
      rfl
  refine ⟨hsole, htuned, ?_⟩
  have hn : (twofold.registry.table 0).Nodup := by decide
  have hf : twofold.feedOf 0 1 = some { stream := 0, layer := "h", av1 := true } := rfl
  have hv : twofold.viewers.find? "v" = some { id := "v", streamKey := "k" } := rfl
  obtain ⟨u, w, handed, hu, hw, hhanded, hcadence⟩ :=
    cadence_of_tuned hn hf rfl hv ⟨rfl, rfl, rfl, rfl⟩ history period hsole htuned
  cases hu
  refine ⟨w, hw, ?_⟩
  have hlength : handed.length = 2 := hcadence.length
  obtain ⟨o, o', rfl⟩ := List.length_eq_two.mp hlength
  have hfirst : o.timestamp = 50100 := hcadence.first _ o rfl rfl
  have hdistance : o'.timestamp - o.timestamp = 300 := hcadence.distance 0 1 _ _ o o' rfl rfl rfl rfl
  have hsecond : o'.timestamp = 50400 := by
    rw [← UInt32.sub_add_cancel o'.timestamp o.timestamp, hdistance, hfirst]
    rfl
  rw [hhanded, List.map_append, List.map_cons, List.map_singleton, hfirst, hsecond]
  rfl

end Relay

end Simulcast
