import Simulcast.Proofs.Statistics.Bitrates
import Simulcast.Proofs.Stream.Tally
/-!
# Streams as recordings

Bitrates were judged by recordings, and a stream keeps none.  But the counters that it keeps are
settled by the packets that were counted and by the time of the first one (`Counts.unique`), so
each report of a stream is a report of recordings, made of just those packets
(`Reports.showing`).

Such a report is also timely once each layer has been heard of for a second: the age of a layer
begins with its first packet, which is counted after the stream was made (`Heard.timely`).  So
what is shown of recordings holds of all that streams report, and `bitrates_add_up` says both.
-/

namespace Simulcast

namespace Stream

/-! ### The packets behind the counters -/

/-- The packets of one layer among those that were counted, as a recording. -/
def recordingOf (packets : List (String × Nat)) (c : LayerCounters) : Recording :=
  ⟨c.layer, c.since, (sizesOf c.layer packets).map Nat.toUInt64⟩

theorem counts_counters (layer : String) (since : Millis) (sizes : List Nat) :
    Counts layer sizes (Recording.counters ⟨layer, since, sizes.map Nat.toUInt64⟩) := by
  induction sizes using List.reverseRecOn with
  | nil => exact ⟨rfl, rfl, rfl⟩
  | append_singleton sizes size ih =>
    have hlast : Recording.counters ⟨layer, since, (sizes ++ [size]).map Nat.toUInt64⟩
        = (Recording.counters ⟨layer, since, sizes.map Nat.toUInt64⟩).record size.toUInt64 := by
      rw [Recording.counters, List.map_append, List.foldl_append]
      rfl
    rw [hlast]
    exact ih.record size

/-- Packets and the time of the first one settle the counters of a layer. -/
theorem Counts.unique {layer : String} {sizes : List Nat} {c d : LayerCounters}
    (hc : Counts layer sizes c) (hd : Counts layer sizes d) (h : c.since = d.since) : c = d := by
  cases c
  cases d
  rw [LayerCounters.mk.injEq]
  exact ⟨hc.layer.trans hd.layer.symm, hc.packets.trans hd.packets.symm,
    hc.bytes.trans hd.bytes.symm, h⟩

theorem counters_recordingOf {packets : List (String × Nat)} {c : LayerCounters}
    (h : Counts c.layer (sizesOf c.layer packets) c) : (recordingOf packets c).counters = c :=
  (counts_counters c.layer c.since _).unique h (Recording.since_foldl_record ..)

/-- **Every report of a stream shows recordings**: of each layer the packets that were counted,
and no others. -/
theorem Reports.showing {s : Stream} {packets : List (String × Nat)} {report : StreamReport}
    (h : Reports s packets report) (hsizes : ∀ p ∈ packets, p.2 < 2 ^ 64) :
    report.showing (report.layers.map (recordingOf packets)) = report
      ∧ bytesOf (report.layers.map (recordingOf packets)) = (packets.map Prod.snd).sum := by
  constructor
  · have hlayers : (report.layers.map (recordingOf packets)).map Recording.counters
        = report.layers := by
      rw [List.map_map]
      exact (List.map_congr_left fun c hc => counters_recordingOf (h.counts c hc)).trans
        (List.map_id _)
    rw [StreamReport.showing, hlayers]
  · have hsum : ∀ layer, exactSum ((sizesOf layer packets).map Nat.toUInt64)
        = (sizesOf layer packets).sum := by
      intro layer
      refine exactSum_toUInt64 fun n hn => ?_
      obtain ⟨p, hp, rfl⟩ := List.mem_map.mp hn
      exact hsizes p (List.mem_of_mem_filter hp)
    have hall : ∀ p ∈ packets, p.1 ∈ report.layers.map LayerCounters.layer :=
      fun p hp => (h.named p.1).mpr (List.mem_map_of_mem hp)
    rw [← sum_sizesOf h.once hall, bytesOf, List.map_map, List.map_map]
    exact congrArg List.sum (List.map_congr_left fun c _ => hsum c.layer)

/-! ### Ages -/

theorem createdAt_noted (s : Stream) (notes : List Note) :
    (s.noted notes).createdAt = s.createdAt := by
  induction notes generalizing s with
  | nil => rfl
  | cons x rest ih =>
    refine (ih (s.note x)).trans ?_
    cases x with
    | discover layer =>
      show (s.addLayer layer).2.createdAt = s.createdAt
      unfold addLayer
      split <;> rfl
    | count layer size now => rfl

/-- Each layer was heard of at least a second ago, and not before the stream was made. -/
def Heard (start now : Millis) (notes : List Note) : Prop :=
  ∀ layer first, firstCounted? layer notes = some first → start ≤ first ∧ first + 1000 ≤ now

theorem heard_iff {start now : Millis} {notes : List Note} :
    Heard start now notes ↔ ∀ layer ∈ (counted notes).map Prod.fst,
      ∀ first ∈ firstCounted? layer notes, start ≤ first ∧ first + 1000 ≤ now := by
  refine ⟨fun h layer _ first hfirst => h layer first hfirst, fun h layer first hfirst => ?_⟩
  refine h layer (Decidable.byContradiction fun hnone => ?_) first hfirst
  rw [firstCounted?_of_not_mem hnone] at hfirst
  cases hfirst

instance (start now : Millis) (notes : List Note) : Decidable (Heard start now notes) :=
  decidable_of_iff _ heard_iff.symm

/-- **No layer is older than its stream**, and each is a second old at least. -/
theorem Heard.timely {key : String} {queueCapacity : Nat} {start now : Millis} {notes : List Note}
    (h : Heard start now notes) (hlong : now - start < 2 ^ 64 * 1000) :
    let report := ((create key queueCapacity start).noted notes).report now
    Timely (report.layers.map (recordingOf (counted notes))) report := by
  intro report
  have hempty : Tells [] (create key queueCapacity start).books := tells_empty
  have huptime : report.uptime = now - start := congrArg (now - ·) (createdAt_noted ..)
  have hlayers : ∀ c ∈ report.layers, start ≤ c.since ∧ c.since + 1000 ≤ now
      ∧ (recordingOf (counted notes) c).age report.now = (now - c.since) / 1000 := by
    intro c hc
    have htells := hempty.noted notes
    obtain ⟨hstart, hsecond⟩ := h _ _ (htells.since _ _ (htells.find?_of_mem_report hc))
    refine ⟨hstart, hsecond, Millis.toNat_seconds ?_⟩
    exact Nat.lt_of_le_of_lt (Nat.sub_le_sub_left hstart now) hlong
  constructor
  · intro r hr
    obtain ⟨c, hc, rfl⟩ := List.mem_map.mp hr
    obtain ⟨-, hsecond, hage⟩ := hlayers c hc
    rw [hage]
    exact Nat.div_pos (Nat.le_sub_of_add_le' hsecond) (by decide)
  · intro r hr
    obtain ⟨c, hc, rfl⟩ := List.mem_map.mp hr
    obtain ⟨hstart, -, hage⟩ := hlayers c hc
    rw [hage, Millis.toNat_seconds (huptime ▸ hlong), huptime]
    exact Nat.div_le_div_right (Nat.sub_le_sub_left hstart now)

/-! ### Bitrates -/

/-- **The bitrates that a stream reports add up** as soon as each layer has been heard of for a
second, and as long as the bits that were counted on all layers fit into 64 bits. -/
theorem addsUp_report (key : String) (queueCapacity : Nat) {start now : Millis} {notes : List Note}
    (hheard : Heard start now notes) (hlong : now - start < 2 ^ 64 * 1000)
    (hfits : 8 * ((counted notes).map Prod.snd).sum < 2 ^ 64) :
    let report := ((create key queueCapacity start).noted notes).report now
    let recordings := report.layers.map (recordingOf (counted notes))
    report.showing recordings = report
      ∧ bytesOf recordings = ((counted notes).map Prod.snd).sum ∧ AddsUp recordings report := by
  intro report recordings
  have hempty : Tells [] (create key queueCapacity start).books := tells_empty
  have hreports : Reports _ (counted notes) report := (hempty.noted notes).reports (.refl _) now
  have hsizes : ∀ p ∈ counted notes, p.2 < 2 ^ 64 := by
    intro p hp
    have hle : p.2 ≤ ((counted notes).map Prod.snd).sum :=
      List.le_sum_of_mem (List.mem_map_of_mem hp)
    omega
  obtain ⟨hshowing, hbytes⟩ := hreports.showing hsizes
  exact ⟨hshowing, hbytes, addsUp_of_fits (hheard.timely hlong) (hbytes ▸ hfits)⟩

end Stream

/-- **Bitrates are exact and add up** as long as eight times the bytes of all layers together fit
into 64 bits, and this is just as long as nothing overflows on the way to them.  What is
calculated on the way has the values of the definitions, and nothing is divided by zero.  Before
the first second is over there is nothing to calculate, and a bitrate is zero.  All reports of a
stream show recordings, so their bitrates add up as well. -/
theorem bitrates_add_up :
    (∀ (recordings : List Recording) (report : StreamReport),
      (Timely recordings report → packetCount recordings < 2 ^ 64 →
        ((Calculation.bitrates recordings report).Avoids Calculation.Step.Overflows
            ↔ 8 * bytesOf recordings < 2 ^ 64)
          ∧ (8 * bytesOf recordings < 2 ^ 64 → AddsUp recordings report))
        ∧ (Calculation.bitrates recordings report).value
            = (recordings.map fun r => r.counters.bitrate report.now,
                (report.showing recordings).bitrate)
        ∧ (Calculation.bitrates recordings report).Avoids Calculation.Step.DividesByZero
        ∧ ∀ (bytes : UInt64) (elapsed : Millis), elapsed < 1000 →
            bitrate bytes elapsed = 0 ∧ (Calculation.bitrate bytes elapsed).steps = [])
      ∧ ∀ key queueCapacity start now notes, Stream.Heard start now notes →
          now - start < 2 ^ 64 * 1000 → 8 * ((Stream.counted notes).map Prod.snd).sum < 2 ^ 64 →
          let report := ((Stream.create key queueCapacity start).noted notes).report now
          let recordings := report.layers.map (Stream.recordingOf (Stream.counted notes))
          report.showing recordings = report
            ∧ bytesOf recordings = ((Stream.counted notes).map Prod.snd).sum
            ∧ AddsUp recordings report := by
  refine ⟨fun recordings report => ?_, fun key queueCapacity start now notes hheard hlong hfits =>
    Stream.addsUp_report key queueCapacity hheard hlong hfits⟩
  refine ⟨fun h hcount => ⟨Calculation.bitrates_avoids_overflow h hcount, addsUp_of_fits h⟩,
    Calculation.value_bitrates recordings report,
    Calculation.bitrates_avoids_divisionByZero recordings report, fun bytes elapsed h => ?_⟩
  have hnothing := Calculation.bitrate_of_lt_second bytes h
  refine ⟨?_, congrArg Calculation.steps hnothing⟩
  rw [← Calculation.value_bitrate, hnothing]
  rfl

/-- Just below the limit: the bytes are one less than `2 ^ 61`, once as recordings and once as what
a stream counted in ten seconds. -/
theorem bitrates_add_up_nearLimit :
    let recordings : List Recording :=
      [⟨"q", 7000, [1152921504606846976, 5]⟩, ⟨"h", 9500, [1152921504606846970]⟩]
    let report : StreamReport :=
      { key := "k", phase := .connected, now := 12000, uptime := 10000, viewers := 1, layers := [] }
    let notes : List Stream.Note :=
      [.discover "q", .count "q" 1152921504606846976 7000, .count "q" 5 8000,
        .discover "h", .count "h" 1152921504606846970 9500]
    let told := ((Stream.create "k" 1 2000).noted notes).report 12000
    (Timely recordings report ∧ packetCount recordings < 2 ^ 64
      ∧ 8 * bytesOf recordings = 2 ^ 64 - 8
      ∧ (Calculation.bitrates recordings report).Avoids Calculation.Step.Overflows
      ∧ AddsUp recordings report
      ∧ (report.showing recordings).bitrate = 1844674407370955160)
    ∧ Stream.Heard 2000 12000 notes
      ∧ AddsUp (told.layers.map (Stream.recordingOf (Stream.counted notes))) told
      ∧ told.bitrate = 1844674407370955160 := by
  intro recordings report notes told
  constructor
  · have htimely : Timely recordings report := ⟨by decide, by decide⟩
    have hcount : packetCount recordings < 2 ^ 64 := by decide
    have hbytes : 8 * bytesOf recordings = 2 ^ 64 - 8 := by decide
    have hfits : 8 * bytesOf recordings < 2 ^ 64 := by omega
    have hadds := (bitrates_add_up.1 recordings report).1 htimely hcount
    exact ⟨htimely, hcount, hbytes, hadds.1.mpr hfits, hadds.2 hfits, by decide⟩
  · have hheard : Stream.Heard 2000 12000 notes := by decide
    obtain ⟨hshowing, hbytes, hadds⟩ :=
      bitrates_add_up.2 "k" 1 2000 12000 notes hheard (by decide) (by decide)
    have hrate := hadds.stream
    rw [hshowing, hbytes] at hrate
    exact ⟨hheard, hadds, UInt64.toNat_inj.mp (hrate.trans (by decide))⟩

/-- At the limit the product for the stream overflows. -/
example : ¬ (Calculation.bitrates [⟨"q", 0, [2305843009213693951, 1]⟩]
    { key := "k", phase := .connected, now := 1000, uptime := 1000, viewers := 0,
      layers := [] }).Avoids Calculation.Step.Overflows := by decide

end Simulcast
