import Mathlib.Algebra.BigOperators.Ring.List
import Mathlib.Algebra.Order.BigOperators.Group.List
import Mathlib.Algebra.Order.Group.Nat
import Mathlib.Data.Nat.ModEq
import Simulcast.Proofs.Statistics.Calculation
import Simulcast.Statistics
/-!
# Bitrates

Counters and bitrates are 64 bits wide, and a bitrate multiplies by eight before it divides.  So
all of them are exact as long as eight times the bytes of all layers together fit into 64 bits,
and from there on something overflows.

What is calculated for a report is written down in one `Calculation`, from the first packet of
the first layer to the bitrate of the stream, with the values that the definitions give
(`Calculation.value_bitrates`).  It falls into pieces (`Calculation.avoids_bitrates`), and apart
from numbers of packets the largest number in them is the last product, the bits of the whole
stream: if it fits, all others do (`Calculation.bitrates_avoids_overflow`).

That the bitrates add up is a matter of rounding.  A layer is no older than its stream, so its
bitrate is no less than over the stream's time, and in a sum under a division each addend but one
loses less than one (`div_sum_le`).
-/

namespace Simulcast

/-! ### Rounding -/

/-- Division of a sum loses no more than division of the addends. -/
theorem sum_div_le (u : Nat) (xs : List Nat) : (xs.map (· / u)).sum ≤ xs.sum / u := by
  induction xs with
  | nil => exact Nat.zero_le _
  | cons x xs ih =>
    calc x / u + (xs.map (· / u)).sum
        ≤ x / u + xs.sum / u := Nat.add_le_add_left ih _
      _ ≤ (x + xs.sum) / u := Nat.div_add_div_le_add_div ..

/-- Each addend but one loses less than one under a division of its own. -/
theorem div_sum_le (u : Nat) (xs : List Nat) :
    xs.sum / u ≤ (xs.map (· / u)).sum + (xs.length - 1) := by
  induction xs with
  | nil => simp
  | cons x xs ih =>
    cases xs with
    | nil => simp
    | cons y ys =>
      calc (x + (y :: ys).sum) / u
          ≤ x / u + (y :: ys).sum / u + 1 := Nat.add_div_le_div_add_div_add_one ..
        _ ≤ x / u + (((y :: ys).map (· / u)).sum + ((y :: ys).length - 1)) + 1 := by omega
        _ = ((x :: y :: ys).map (· / u)).sum + ((x :: y :: ys).length - 1) := by
          simp only [List.map_cons, List.sum_cons, List.length_cons]
          omega

/-! ### The calculations of counters and bitrates -/

namespace Calculation

def record (c : LayerCounters) (size : UInt64) : Calculation LayerCounters := do
  let packets ← take (.add c.packets 1)
  let bytes ← take (.add c.bytes size)
  return { c with packets, bytes }

def bitrate (bytes : UInt64) (elapsed : Millis) : Calculation UInt64 :=
  if elapsed.seconds = 0 then pure 0
  else do
    let bits ← take (.mul bytes 8)
    take (.div bits elapsed.seconds)

def streamBitrate (report : StreamReport) : Calculation UInt64 := do
  let bytes ← sum 0 (report.layers.map LayerCounters.bytes)
  bitrate bytes report.uptime

theorem value_record (c : LayerCounters) (size : UInt64) :
    (record c size).value = c.record size := rfl

theorem value_bitrate (bytes : UInt64) (elapsed : Millis) :
    (bitrate bytes elapsed).value = Simulcast.bitrate bytes elapsed := by
  unfold bitrate Simulcast.bitrate
  split <;> rfl

theorem value_sum_bytes (report : StreamReport) :
    (sum 0 (report.layers.map LayerCounters.bytes)).value = report.totalBytes := value_sum ..

theorem value_streamBitrate (report : StreamReport) :
    (streamBitrate report).value = report.bitrate := by
  show (bitrate (sum 0 _).value report.uptime).value = _
  rw [value_sum_bytes, value_bitrate]
  rfl

variable {P : Step → Prop}

theorem avoids_record (c : LayerCounters) (size : UInt64) :
    (record c size).Avoids P ↔ ¬ P (.add c.packets 1) ∧ ¬ P (.add c.bytes size) := by
  simp only [record, avoids_bind, avoids_take, avoids_pure, and_true]

theorem avoids_bitrate (bytes : UInt64) (elapsed : Millis) :
    (bitrate bytes elapsed).Avoids P ↔ elapsed.seconds = 0
      ∨ ¬ P (.mul bytes 8) ∧ ¬ P (.div (bytes * 8) elapsed.seconds) := by
  unfold bitrate
  split
  · rename_i hzero
    exact iff_of_true (avoids_pure 0) (.inl hzero)
  · rename_i hpositive
    rw [avoids_bind, avoids_take, avoids_take, or_iff_right hpositive]
    rfl

theorem bitrate_avoids_overflow (bytes : UInt64) (elapsed : Millis) :
    (bitrate bytes elapsed).Avoids Step.Overflows
      ↔ elapsed.seconds = 0 ∨ 8 * bytes.toNat < 2 ^ 64 := by
  have height : (8 : UInt64).toNat = 8 := rfl
  rw [avoids_bitrate, Step.Overflows, Step.Overflows, height, Nat.not_le, Nat.mul_comm,
    and_iff_left not_false]

/-- **Nothing is divided by zero.** -/
theorem bitrate_avoids_divisionByZero (bytes : UInt64) (elapsed : Millis) :
    (bitrate bytes elapsed).Avoids Step.DividesByZero :=
  (avoids_bitrate ..).mpr ((em _).imp_right fun hpositive => ⟨id, hpositive⟩)

end Calculation

theorem Millis.toNat_seconds {t : Millis} (h : t < 2 ^ 64 * 1000) :
    t.seconds.toNat = t / 1000 :=
  UInt64.toNat_ofNat_of_lt' (Nat.div_lt_of_lt_mul (Nat.mul_comm .. ▸ h))

/-- A bitrate whose product fits is rounded down.  Before the first second is over it is zero. -/
theorem toNat_bitrate {bytes : UInt64} (h : 8 * bytes.toNat < 2 ^ 64) (elapsed : Millis) :
    (bitrate bytes elapsed).toNat = 8 * bytes.toNat / elapsed.seconds.toNat := by
  have hbits : (bytes * 8).toNat = 8 * bytes.toNat := by
    rw [UInt64.toNat_mul, Nat.mul_comm]
    exact Nat.mod_eq_of_lt h
  unfold bitrate
  split
  · rename_i hzero
    rw [hzero]
    exact (Nat.div_zero _).symm
  · rw [UInt64.toNat_div, hbits]

/-! ### Recordings -/

/-- What was recorded on one layer. -/
structure Recording where
  layer : String
  /-- When the first packet arrived. -/
  since : Millis
  /-- The sizes of the packets, in order. -/
  sizes : List UInt64
  deriving DecidableEq, Repr

namespace Recording

/-- Counters of the layer before its first packet is counted. -/
def blank (r : Recording) : LayerCounters := { layer := r.layer, since := r.since }

def counters (r : Recording) : LayerCounters := r.sizes.foldl LayerCounters.record r.blank

/-- The layer's age in whole seconds. -/
def age (r : Recording) (now : Millis) : Nat := (Millis.seconds (now - r.since)).toNat

theorem bytes_foldl_record (c : LayerCounters) (sizes : List UInt64) :
    (sizes.foldl LayerCounters.record c).bytes = sizes.foldl (· + ·) c.bytes := by
  induction sizes generalizing c with
  | nil => rfl
  | cons size sizes ih => exact ih (c.record size)

theorem since_foldl_record (c : LayerCounters) (sizes : List UInt64) :
    (sizes.foldl LayerCounters.record c).since = c.since := by
  induction sizes generalizing c with
  | nil => rfl
  | cons size sizes ih => exact ih (c.record size)

variable {r : Recording}

theorem toNat_bytes_counters (h : exactSum r.sizes < 2 ^ 64) :
    r.counters.bytes.toNat = exactSum r.sizes := by
  have hblank : r.blank.bytes.toNat = 0 := rfl
  rw [counters, bytes_foldl_record, toNat_foldl_add (by omega), hblank, Nat.zero_add]

theorem toNat_bitrate_counters (h : 8 * exactSum r.sizes < 2 ^ 64) (now : Millis) :
    (r.counters.bitrate now).toNat = 8 * exactSum r.sizes / r.age now := by
  have hbytes := toNat_bytes_counters (show exactSum r.sizes < 2 ^ 64 by omega)
  have hsince : r.counters.since = r.since := since_foldl_record ..
  rw [LayerCounters.bitrate, toNat_bitrate (hbytes ▸ h), hbytes, hsince, age]

end Recording

/-- The bytes of all layers together. -/
def bytesOf (recordings : List Recording) : Nat := (recordings.map fun r => exactSum r.sizes).sum

/-- The number of packets on all layers. -/
def packetCount (recordings : List Recording) : Nat := (recordings.map fun r => r.sizes.length).sum

/-- The report with the counters of some recordings. -/
def StreamReport.showing (report : StreamReport) (recordings : List Recording) : StreamReport :=
  { report with layers := recordings.map Recording.counters }

theorem exactSum_le_bytesOf {recordings : List Recording} {r : Recording} (h : r ∈ recordings) :
    exactSum r.sizes ≤ bytesOf recordings :=
  List.le_sum_of_mem (List.mem_map_of_mem h)

theorem length_le_packetCount {recordings : List Recording} {r : Recording} (h : r ∈ recordings) :
    r.sizes.length ≤ packetCount recordings :=
  List.le_sum_of_mem (List.mem_map.mpr ⟨r, h, rfl⟩)

theorem exactSum_bytes_counters {recordings : List Recording}
    (h : ∀ r ∈ recordings, exactSum r.sizes < 2 ^ 64) :
    exactSum ((recordings.map Recording.counters).map LayerCounters.bytes)
      = bytesOf recordings := by
  rw [exactSum, List.map_map, List.map_map]
  exact congrArg List.sum (List.map_congr_left fun r hr => Recording.toNat_bytes_counters (h r hr))

theorem toNat_totalBytes_showing (report : StreamReport) {recordings : List Recording}
    (h : bytesOf recordings < 2 ^ 64) :
    (report.showing recordings).totalBytes.toNat = bytesOf recordings := by
  have hsum := exactSum_bytes_counters fun r hr =>
    Nat.lt_of_le_of_lt (exactSum_le_bytesOf hr) h
  have hfirst : (0 : UInt64).toNat = 0 := rfl
  show (((recordings.map Recording.counters).map LayerCounters.bytes).foldl (· + ·) 0).toNat = _
  rw [toNat_foldl_add (by omega), hsum, hfirst, Nat.zero_add]

/-- Layers that are one second old at least and no older than their stream. -/
structure Timely (recordings : List Recording) (report : StreamReport) : Prop where
  oneSecond : ∀ r ∈ recordings, 1 ≤ r.age report.now
  noOlder : ∀ r ∈ recordings, r.age report.now ≤ report.uptime.seconds.toNat

/-- **Bitrates that add up.** -/
structure AddsUp (recordings : List Recording) (report : StreamReport) : Prop where
  layers : ∀ r ∈ recordings,
    (r.counters.bitrate report.now).toNat = 8 * exactSum r.sizes / r.age report.now
  stream : (report.showing recordings).bitrate.toNat
    = 8 * bytesOf recordings / report.uptime.seconds.toNat
  /-- The stream's bitrate is at most the sum of the layers' bitrates, and one for each layer
  but one. -/
  atMost : (report.showing recordings).bitrate.toNat
    ≤ (recordings.map fun r => (r.counters.bitrate report.now).toNat).sum
      + (recordings.length - 1)
  /-- It is at least that sum if all layers are as old as the stream. -/
  atLeast : (∀ r ∈ recordings, r.age report.now = report.uptime.seconds.toNat) →
    (recordings.map fun r => (r.counters.bitrate report.now).toNat).sum
      ≤ (report.showing recordings).bitrate.toNat

variable {recordings : List Recording} {report : StreamReport}

theorem addsUp_of_fits (h : Timely recordings report) (hfits : 8 * bytesOf recordings < 2 ^ 64) :
    AddsUp recordings report := by
  have hlayers : ∀ r ∈ recordings,
      (r.counters.bitrate report.now).toNat = 8 * exactSum r.sizes / r.age report.now := by
    intro r hr
    have hle := exactSum_le_bytesOf hr
    exact Recording.toNat_bitrate_counters (by omega) report.now
  have htotal := toNat_totalBytes_showing report (show bytesOf recordings < 2 ^ 64 by omega)
  have hstream : (report.showing recordings).bitrate.toNat
      = 8 * bytesOf recordings / report.uptime.seconds.toNat := by
    rw [StreamReport.bitrate, toNat_bitrate (htotal ▸ hfits), htotal]
    rfl
  -- the parts as they are over the time of the stream
  have hparts : 8 * bytesOf recordings = (recordings.map fun r => 8 * exactSum r.sizes).sum :=
    (List.sum_map_mul_left ..).symm
  refine ⟨hlayers, hstream, ?_, fun hsame => ?_⟩
  · have hround := div_sum_le report.uptime.seconds.toNat
      (recordings.map fun r => 8 * exactSum r.sizes)
    rw [List.map_map, List.length_map, ← hparts, ← hstream] at hround
    refine Nat.le_trans hround (Nat.add_le_add_right (List.sum_le_sum fun r hr => ?_) _)
    rw [hlayers r hr]
    exact Nat.div_le_div_left (h.noOlder r hr) (h.oneSecond r hr)
  · have hround := sum_div_le report.uptime.seconds.toNat
      (recordings.map fun r => 8 * exactSum r.sizes)
    rw [List.map_map, ← hparts, ← hstream] at hround
    refine Nat.le_trans (List.sum_le_sum fun r hr => ?_) hround
    rw [hlayers r hr, hsame r hr]
    exact Nat.le_refl _

/-! ### What overflows -/

namespace Calculation

def counters (r : Recording) : Calculation LayerCounters := r.sizes.foldlM record r.blank

/-- **All that is calculated for a report**: each packet is counted, and then come the bitrates
of the layers and that of the stream. -/
def bitrates (recordings : List Recording) (report : StreamReport) :
    Calculation (List UInt64 × UInt64) := do
  let layers ← each counters recordings
  let rates ← each (fun c => bitrate c.bytes (report.now - c.since)) layers
  let rate ← streamBitrate { report with layers }
  return (rates, rate)

theorem value_counters (r : Recording) : (counters r).value = r.counters := value_foldlM ..

theorem value_each_counters (recordings : List Recording) :
    (each counters recordings).value = recordings.map Recording.counters :=
  List.map_congr_left fun r _ => value_counters r

/-- **The values are those of the definitions.** -/
theorem value_bitrates (recordings : List Recording) (report : StreamReport) :
    (bitrates recordings report).value
      = (recordings.map fun r => r.counters.bitrate report.now,
          (report.showing recordings).bitrate) := by
  show ((each _ (each counters recordings).value).value,
    (streamBitrate { report with layers := (each counters recordings).value }).value) = _
  rw [value_each_counters, value_streamBitrate]
  refine congrArg (·, _) ?_
  show ((recordings.map Recording.counters).map fun c => (bitrate c.bytes _).value) = _
  rw [List.map_map]
  exact List.map_congr_left fun r _ => value_bitrate ..

/-- **Counting packets** is two sums that go on side by side. -/
theorem avoids_foldlM_record (c : LayerCounters) (sizes : List UInt64) :
    (sizes.foldlM record c).Avoids P
      ↔ (sum c.packets (sizes.map fun _ => 1)).Avoids P ∧ (sum c.bytes sizes).Avoids P := by
  induction sizes generalizing c with
  | nil => exact iff_of_true (avoids_pure c) ⟨avoids_pure _, avoids_pure _⟩
  | cons size sizes ih =>
    rw [List.foldlM_cons, avoids_bind, avoids_record, value_record, ih, List.map_cons,
      avoids_sum_cons, avoids_sum_cons]
    exact and_and_and_comm

theorem counters_avoids_overflow (r : Recording) :
    (counters r).Avoids Step.Overflows
      ↔ r.sizes.length < 2 ^ 64 ∧ exactSum r.sizes < 2 ^ 64 := by
  have hblank : r.blank.packets.toNat = 0 ∧ r.blank.bytes.toNat = 0 := ⟨rfl, rfl⟩
  have hones : exactSum (r.sizes.map fun _ => 1) = r.sizes.length := by
    rw [exactSum, List.map_map]
    show (r.sizes.map fun _ => 1).sum = _
    rw [List.map_const', List.sum_replicate_nat, Nat.mul_one]
  rw [counters, avoids_foldlM_record, avoids_sum, avoids_sum, hblank.1, hblank.2, hones,
    Nat.zero_add, Nat.zero_add]

theorem streamBitrate_avoids_overflow (report : StreamReport) :
    (streamBitrate report).Avoids Step.Overflows
      ↔ exactSum (report.layers.map LayerCounters.bytes) < 2 ^ 64
        ∧ (report.uptime.seconds = 0 ∨ 8 * report.totalBytes.toNat < 2 ^ 64) := by
  have hfirst : (0 : UInt64).toNat = 0 := rfl
  rw [streamBitrate, avoids_bind, avoids_sum, value_sum_bytes, bitrate_avoids_overflow, hfirst,
    Nat.zero_add]

/-- The pieces of all that is calculated for a report. -/
theorem avoids_bitrates :
    (bitrates recordings report).Avoids P
      ↔ (∀ r ∈ recordings, (counters r).Avoids P)
        ∧ (∀ r ∈ recordings,
            (bitrate r.counters.bytes (report.now - r.counters.since)).Avoids P)
        ∧ (streamBitrate (report.showing recordings)).Avoids P := by
  rw [bitrates, avoids_bind, avoids_bind, avoids_bind, value_each_counters, avoids_each,
    avoids_each, List.forall_mem_map]
  exact and_congr_right' (and_congr_right' (and_iff_left (avoids_pure _)))

/-- **Nothing overflows** iff eight times all bytes together fit: numbers of packets apart, every
other sum and product is no more than that product. -/
theorem bitrates_avoids_overflow (h : Timely recordings report)
    (hcount : packetCount recordings < 2 ^ 64) :
    (bitrates recordings report).Avoids Step.Overflows ↔ 8 * bytesOf recordings < 2 ^ 64 := by
  rw [avoids_bitrates]
  constructor
  · rintro ⟨hcounters, -, hstream⟩
    have hbytes : ∀ r ∈ recordings, exactSum r.sizes < 2 ^ 64 :=
      fun r hr => ((counters_avoids_overflow r).mp (hcounters r hr)).2
    obtain ⟨hsum, hproduct⟩ := (streamBitrate_avoids_overflow _).mp hstream
    have hfits : bytesOf recordings < 2 ^ 64 := exactSum_bytes_counters hbytes ▸ hsum
    rcases hproduct with hzero | hproduct
    · -- a stream that is younger than one second has no layer
      have hnone : recordings = [] := by
        refine List.eq_nil_iff_forall_not_mem.mpr fun r hr => ?_
        have hlow := h.oneSecond r hr
        have hhigh := h.noOlder r hr
        have huptime : report.uptime.seconds.toNat = 0 := congrArg UInt64.toNat hzero
        omega
      rw [hnone]
      decide
    · rwa [toNat_totalBytes_showing report hfits] at hproduct
  · intro hfits
    have hall : bytesOf recordings < 2 ^ 64 := by omega
    have hbytes : ∀ r ∈ recordings, exactSum r.sizes < 2 ^ 64 :=
      fun r hr => Nat.lt_of_le_of_lt (exactSum_le_bytesOf hr) hall
    refine ⟨fun r hr => (counters_avoids_overflow r).mpr ⟨?_, hbytes r hr⟩,
      fun r hr => (bitrate_avoids_overflow ..).mpr (.inr ?_),
      (streamBitrate_avoids_overflow _).mpr
        ⟨(exactSum_bytes_counters hbytes).symm ▸ hall, .inr ?_⟩⟩
    · exact Nat.lt_of_le_of_lt (length_le_packetCount hr) hcount
    · rw [Recording.toNat_bytes_counters (hbytes r hr)]
      have hle := exactSum_le_bytesOf hr
      omega
    · rwa [toNat_totalBytes_showing report hall]

theorem bitrates_avoids_divisionByZero (recordings : List Recording) (report : StreamReport) :
    (bitrates recordings report).Avoids Step.DividesByZero := by
  rw [avoids_bitrates]
  refine ⟨fun r _ => ?_, fun r _ => bitrate_avoids_divisionByZero _ _, ?_⟩
  · exact (avoids_foldlM_record ..).mpr
      ⟨sum_avoids_divisionByZero _ _, sum_avoids_divisionByZero _ _⟩
  · exact (avoids_bind _ _).mpr
      ⟨sum_avoids_divisionByZero _ _, bitrate_avoids_divisionByZero _ _⟩

/-- Before the first second is over nothing is calculated. -/
theorem bitrate_of_lt_second (bytes : UInt64) {elapsed : Millis} (h : elapsed < 1000) :
    bitrate bytes elapsed = pure 0 := by
  have hzero : elapsed.seconds = 0 := by
    rw [Millis.seconds, Nat.div_eq_of_lt h]
    rfl
  rw [bitrate, if_pos hzero]

end Calculation

end Simulcast
