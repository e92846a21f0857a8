import Mathlib.Algebra.BigOperators.Group.List.Basic
import Mathlib.Algebra.GroupWithZero.Nat
import Mathlib.Data.List.Induction
import Mathlib.Data.List.Nodup
import Simulcast.Stream
/-!
# Layers and their counters

A stream keeps two books on its layers: the list of the known ones, which only grows, and the
counters by layer.  A `Stream.Note` is an entry into one of them, and `Stream.Tells` is what
stands in the books after some entries: the layers in order of their first entry, numbers and
sums, and when the first packet of a layer was counted.  Each entry keeps it so
(`Stream.Tells.note`).

A report joins the books.  It takes the counters in whatever order they come and sorts them by
their place in the list, where the unknown ones have the last place.  So a report falls in two
parts (`filter_append_filter_of_pairwise`), and the first part is the list itself without the
layers that were not counted (`Stream.known_reportOf`).  `Stream.Reports` puts this together.
-/

namespace Simulcast

/-! ### First occurrences -/

theorem eraseDups_concat (l : List String) (a : String) :
    (l ++ [a]).eraseDups = if a ∈ l then l.eraseDups else l.eraseDups ++ [a] := by
  rw [List.eraseDups_append]
  by_cases h : a ∈ l
  · simp [h, List.removeAll]
  · simp [h, List.removeAll, List.eraseDups_cons]

theorem nodup_eraseDups (l : List String) : l.eraseDups.Nodup := by
  induction l using List.reverseRecOn with
  | nil => exact List.nodup_nil
  | append_singleton l a ih =>
    rw [eraseDups_concat]
    split
    · exact ih
    · rename_i h
      rw [List.nodup_append]
      refine ⟨ih, List.nodup_singleton a, fun b hb c hc he => h ?_⟩
      rw [← List.mem_singleton.mp hc, ← he]
      exact List.mem_eraseDups.mp hb

/-! ### Lists in order of rank -/

/-- A list that is sorted by rank falls in two parts at every rank. -/
theorem filter_append_filter_of_pairwise {α : Type} {rank : α → Nat} {l : List α}
    (h : l.Pairwise fun a b => rank a ≤ rank b) (n : Nat) :
    l.filter (fun a => decide (rank a < n)) ++ l.filter (fun a => !decide (rank a < n)) = l := by
  induction l with
  | nil => rfl
  | cons a rest ih =>
    obtain ⟨ha, hrest⟩ := List.pairwise_cons.mp h
    by_cases hlt : rank a < n
    · simpa [List.filter_cons, hlt] using ih hrest
    · have hnone : ∀ b ∈ a :: rest, ¬ rank b < n := by
        intro b hb
        rcases List.mem_cons.mp hb with rfl | hb
        · exact hlt
        · exact fun hb' => hlt (Nat.lt_of_le_of_lt (ha b hb) hb')
      have hleft : (a :: rest).filter (fun b => decide (rank b < n)) = [] :=
        List.filter_eq_nil_iff.mpr fun b hb => by simpa using hnone b hb
      have hright : (a :: rest).filter (fun b => !decide (rank b < n)) = a :: rest :=
        List.filter_eq_self.mpr fun b hb => by simpa using hnone b hb
      rw [hleft, hright, List.nil_append]

theorem pairwise_idxOf {l : List String} (h : l.Nodup) :
    l.Pairwise fun a b => l.idxOf a ≤ l.idxOf b := by
  rw [List.pairwise_iff_getElem]
  intro i j hi hj hij
  rw [h.idxOf_getElem, h.idxOf_getElem]
  exact Nat.le_of_lt hij

/-- Two lists of some of the same places in order are the same list. -/
theorem eq_of_pairwise_idxOf {l xs ys : List String}
    (hx : xs.Pairwise fun a b => l.idxOf a ≤ l.idxOf b)
    (hy : ys.Pairwise fun a b => l.idxOf a ≤ l.idxOf b) (hxn : xs.Nodup) (hyn : ys.Nodup)
    (hmem : ∀ a, a ∈ xs ↔ a ∈ ys) (hxl : ∀ a ∈ xs, a ∈ l) : xs = ys := by
  refine List.Perm.eq_of_pairwise (fun a b ha hb hab hba => ?_) hx hy
    ((List.perm_ext_iff_of_nodup hxn hyn).mpr hmem)
  exact (List.idxOf_inj (hxl a ha)).mp (Nat.le_antisymm hab hba)

namespace Stream

/-! ### Entries -/

/-- An entry into one of the books of a stream. -/
inductive Note where
  | discover (layer : String)
  | count (layer : String) (size : Nat) (now : Millis)

def note (s : Stream) : Note → Stream
  | .discover layer => (s.addLayer layer).2
  | .count layer size now => s.recordPacket layer size.toUInt64 now

/-- The stream after some entries, oldest first. -/
def noted (s : Stream) (notes : List Note) : Stream := notes.foldl note s

def Note.discovered? : Note → Option String
  | .discover layer => some layer
  | _ => none

def Note.counted? : Note → Option (String × Nat)
  | .count layer size _ => some (layer, size)
  | _ => none

def discovered (notes : List Note) : List String := notes.filterMap Note.discovered?

/-- The packets that were counted, as their layers and sizes. -/
def counted (notes : List Note) : List (String × Nat) := notes.filterMap Note.counted?

/-- When a note counts a packet of a layer, if it does. -/
def Note.countedAt? (layer : String) : Note → Option Millis
  | .count l _ now => if l = layer then some now else none
  | .discover _ => none

/-- When the first packet of a layer was counted. -/
def firstCounted? (layer : String) (notes : List Note) : Option Millis :=
  notes.findSome? (Note.countedAt? layer)

/-- The sizes of the packets of one layer. -/
def sizesOf (layer : String) (packets : List (String × Nat)) : List Nat :=
  (packets.filter (·.1 = layer)).map Prod.snd

theorem noted_append (s : Stream) (notes more : List Note) :
    s.noted (notes ++ more) = (s.noted notes).noted more :=
  List.foldl_append

theorem firstCounted?_concat (layer : String) (notes : List Note) (x : Note) :
    firstCounted? layer (notes ++ [x]) = (firstCounted? layer notes).or (x.countedAt? layer) := by
  rw [firstCounted?, List.findSome?_append, firstCounted?]
  cases h : x.countedAt? layer <;> simp [h]

theorem firstCounted?_of_not_mem {layer : String} {notes : List Note}
    (h : layer ∉ (counted notes).map Prod.fst) : firstCounted? layer notes = none := by
  rw [firstCounted?, List.findSome?_eq_none_iff]
  intro x hx
  cases x with
  | discover l => rfl
  | count l size now =>
    refine if_neg ?_
    rintro rfl
    have hcounted : (l, size) ∈ counted notes := List.mem_filterMap.mpr ⟨_, hx, rfl⟩
    exact h (List.mem_map_of_mem hcounted)

theorem sizesOf_concat (layer : String) (packets : List (String × Nat)) (p : String × Nat) :
    sizesOf layer (packets ++ [p])
      = if p.1 = layer then sizesOf layer packets ++ [p.2] else sizesOf layer packets := by
  by_cases h : p.1 = layer <;> simp [sizesOf, h]

theorem sizesOf_of_not_mem {layer : String} {packets : List (String × Nat)}
    (h : layer ∉ packets.map Prod.fst) : sizesOf layer packets = [] := by
  rw [sizesOf, List.map_eq_nil_iff, List.filter_eq_nil_iff]
  intro p hp he
  exact h (of_decide_eq_true he ▸ List.mem_map_of_mem hp)

theorem layers_addLayer (s : Stream) (layer : String) :
    (s.addLayer layer).2.layers = if layer ∈ s.layers then s.layers else s.layers ++ [layer] := by
  by_cases h : layer ∈ s.layers <;> simp [addLayer, hasLayer, h]

theorem counters_addLayer (s : Stream) (layer : String) :
    (s.addLayer layer).2.counters = s.counters := by
  unfold addLayer
  split <;> rfl

/-- The list only grows, and only at its end. -/
theorem layers_prefix_noted (s : Stream) (more : List Note) :
    s.layers <+: (s.noted more).layers := by
  induction more using List.reverseRecOn with
  | nil => exact List.prefix_refl _
  | append_singleton more x ih =>
    rw [noted_append]
    refine ih.trans ?_
    cases x with
    | discover layer =>
      show (s.noted more).layers <+: ((s.noted more).addLayer layer).2.layers
      rw [layers_addLayer]
      split
      · exact List.prefix_refl _
      · exact List.prefix_append ..
    | count layer size now => exact List.prefix_refl _

/-! ### What stands in the books -/

/-- **The counters of a layer** once some of its packets were counted.  Counters are 64 bits
wide: below that bound they are the number of packets and the sum of their sizes. -/
structure Counts (layer : String) (sizes : List Nat) (c : LayerCounters) : Prop where
  layer : c.layer = layer
  packets : c.packets = .ofNat sizes.length
  bytes : c.bytes = .ofNat sizes.sum

theorem Counts.record {layer : String} {sizes : List Nat} {c : LayerCounters}
    (h : Counts layer sizes c) (size : Nat) :
    Counts layer (sizes ++ [size]) (c.record size.toUInt64) where
  layer := h.layer
  packets := by
    show c.packets + 1 = _
    rw [h.packets, List.length_append, UInt64.ofNat_add]
    rfl
  bytes := by
    show c.bytes + size.toUInt64 = _
    rw [h.bytes, List.sum_append, List.sum_singleton, UInt64.ofNat_add]

/-- The two books of a stream. -/
structure Books where
  layers : List String := []
  counters : Table String LayerCounters := .empty

def books (s : Stream) : Books := ⟨s.layers, s.counters⟩

/-- **What entries leave in the books**: the layers in order of their first entry, and numbers
and sums for the layers of which a packet was counted, with the time of the first one. -/
structure Tells (notes : List Note) (b : Books) : Prop where
  layers : b.layers = (discovered notes).eraseDups
  known : ∀ layer, (b.counters.find? layer).isSome = true ↔ layer ∈ (counted notes).map Prod.fst
  counts : ∀ layer c, b.counters.find? layer = some c →
    Counts layer (sizesOf layer (counted notes)) c
  since : ∀ layer c, b.counters.find? layer = some c → firstCounted? layer notes = some c.since

variable {s : Stream} {notes : List Note}

theorem tells_empty : Tells [] {} where
  layers := rfl
  known layer := by simp [counted]
  counts layer c hc := absurd hc (by simp)
  since layer c hc := absurd hc (by simp)

theorem Tells.addLayer (h : Tells notes s.books) (layer : String) :
    Tells (notes ++ [.discover layer]) (s.addLayer layer).2.books := by
  have hcounted : counted (notes ++ [.discover layer]) = counted notes := by
    simp [counted, Note.counted?]
  have hdiscovered : discovered (notes ++ [.discover layer]) = discovered notes ++ [layer] := by
    simp [discovered, Note.discovered?]
  have hcounters : (s.addLayer layer).2.counters = s.counters := s.counters_addLayer layer
  have hlayers : s.layers = (discovered notes).eraseDups := h.layers
  refine ⟨?_, ?_, ?_, ?_⟩
  · show (s.addLayer layer).2.layers = _
    rw [layers_addLayer, hdiscovered, eraseDups_concat, hlayers]
    simp only [List.mem_eraseDups]
  · show ∀ l, ((s.addLayer layer).2.counters.find? l).isSome = true ↔ _
    rw [hcounted, hcounters]
    exact h.known
  · show ∀ l c, (s.addLayer layer).2.counters.find? l = some c → _
    rw [hcounted, hcounters]
    exact h.counts
  · show ∀ l c, (s.addLayer layer).2.counters.find? l = some c → _
    rw [hcounters]
    intro l c hc
    rw [firstCounted?_concat, h.since l c hc]
    rfl

/-- Nothing was counted of a layer that has no counters. -/
theorem Tells.not_mem_counted (h : Tells notes s.books) {layer : String}
    (hf : s.counters.find? layer = none) : layer ∉ (counted notes).map Prod.fst := by
  intro hmem
  have hsome : (s.counters.find? layer).isSome = true := (h.known layer).mpr hmem
  rw [hf] at hsome
  exact absurd hsome (by decide)

theorem Tells.recordPacket (h : Tells notes s.books) (layer : String) (size : Nat)
    (now : Millis) :
    Tells (notes ++ [.count layer size now]) (s.recordPacket layer size.toUInt64 now).books := by
  have hcounted : counted (notes ++ [.count layer size now])
      = counted notes ++ [(layer, size)] := by
    simp [counted, Note.counted?]
  have hdiscovered : discovered (notes ++ [.count layer size now]) = discovered notes := by
    simp [discovered, Note.discovered?]
  have hfind : ∀ l, (s.recordPacket layer size.toUInt64 now).counters.find? l
      = if l = layer then some (((s.counters.find? layer).getD { layer, since := now }).record
          size.toUInt64) else s.counters.find? l :=
    fun l => Table.find?_insert ..
  refine ⟨?_, fun l => ?_, fun l c hc => ?_, fun l c hc => ?_⟩
  · rw [hdiscovered]
    exact h.layers
  · show ((s.recordPacket layer size.toUInt64 now).counters.find? l).isSome = true ↔ _
    rw [hfind, hcounted, List.map_append, List.map_singleton, List.mem_append,
      List.mem_singleton]
    by_cases hl : l = layer
    · simp [hl]
    · simp only [hl, or_false]
      exact h.known l
  · rw [hcounted, sizesOf_concat]
    have hc : (s.recordPacket layer size.toUInt64 now).counters.find? l = some c := hc
    rw [hfind] at hc
    by_cases hl : l = layer
    · subst hl
      rw [if_pos rfl] at hc ⊢
      obtain rfl := Option.some.inj hc
      refine Counts.record ?_ size
      cases hf : s.counters.find? l with
      | some c => exact h.counts l c hf
      | none =>
        rw [sizesOf_of_not_mem (h.not_mem_counted hf)]
        exact ⟨rfl, rfl, rfl⟩
    · rw [if_neg hl] at hc
      rw [if_neg (Ne.symm hl)]
      exact h.counts l c hc
  · have hc : (s.recordPacket layer size.toUInt64 now).counters.find? l = some c := hc
    rw [hfind] at hc
    rw [firstCounted?_concat]
    by_cases hl : l = layer
    · subst hl
      rw [if_pos rfl] at hc
      obtain rfl := Option.some.inj hc
      cases hf : s.counters.find? l with
      | some c =>
        rw [h.since l c hf]
        rfl
      | none =>
        -- the first packet of its layer
        rw [firstCounted?_of_not_mem (h.not_mem_counted hf)]
        exact if_pos rfl
    · rw [if_neg hl] at hc
      rw [h.since l c hc]
      rfl

/-- **One entry more.** -/
theorem Tells.note (h : Tells notes s.books) (x : Note) :
    Tells (notes ++ [x]) (s.note x).books := by
  cases x with
  | discover layer => exact h.addLayer layer
  | count layer size now => exact h.recordPacket layer size now

theorem Tells.noted (h : Tells notes s.books) (more : List Note) :
    Tells (notes ++ more) (s.noted more).books := by
  induction more generalizing notes s with
  | nil =>
    rw [List.append_nil]
    exact h
  | cons x rest ih =>
    have hrest := ih (h.note x)
    rw [List.append_assoc] at hrest
    exact hrest

/-- Every counter is kept under its own layer. -/
theorem Tells.map_layer_values (h : Tells notes s.books) :
    s.counters.values.map LayerCounters.layer = s.counters.keys := by
  rw [Table.values, Table.keys, List.map_map]
  refine List.map_congr_left fun e he => ?_
  exact (h.counts e.1 e.2 ((s.counters.mem_entries_iff e.1 e.2).mp he)).layer

/-- The counters of a report are those that are kept. -/
theorem Tells.find?_of_mem_report (h : Tells notes s.books) {now : Millis} {c : LayerCounters}
    (hc : c ∈ (s.report now).layers) : s.counters.find? c.layer = some c := by
  have hvalue : c ∈ s.counters.values := (List.mergeSort_perm ..).mem_iff.mp hc
  obtain ⟨e, he, rfl⟩ := List.mem_map.mp hvalue
  have hfind := (s.counters.mem_entries_iff e.1 e.2).mp he
  rw [(h.counts e.1 e.2 hfind).layer]
  exact hfind

/-! ### Reports -/

/-- The names of a report. -/
theorem perm_map_layer_reportOf (s : Stream) (counters : List LayerCounters) (now : Millis) :
    ((s.reportOf counters now).layers.map LayerCounters.layer).Perm
      (counters.map LayerCounters.layer) :=
  (List.mergeSort_perm ..).map _

theorem pairwise_rank_reportOf (s : Stream) (counters : List LayerCounters) (now : Millis) :
    (s.reportOf counters now).layers.Pairwise
      fun a b => s.layers.idxOf a.layer ≤ s.layers.idxOf b.layer := by
  have htrans : ∀ a b c : LayerCounters, decide (s.rank a.layer ≤ s.rank b.layer) = true →
      decide (s.rank b.layer ≤ s.rank c.layer) = true →
      decide (s.rank a.layer ≤ s.rank c.layer) = true := fun a b c hab hbc =>
    decide_eq_true (Nat.le_trans (of_decide_eq_true hab) (of_decide_eq_true hbc))
  have htotal : ∀ a b : LayerCounters, (decide (s.rank a.layer ≤ s.rank b.layer) ||
      decide (s.rank b.layer ≤ s.rank a.layer)) = true := fun a b => by
    simpa using Nat.le_total (s.rank a.layer) (s.rank b.layer)
  exact (List.pairwise_mergeSort htrans htotal counters).imp of_decide_eq_true

/-- **A report names the known layers first**, in order of the list, and the others after
them. -/
theorem known_reportOf {counters : List LayerCounters} (hl : s.layers.Nodup)
    (hn : (counters.map LayerCounters.layer).Nodup) (now : Millis) :
    ∃ others, (s.reportOf counters now).layers.map LayerCounters.layer
        = s.layers.filter (fun layer => decide (layer ∈ counters.map LayerCounters.layer))
          ++ others ∧
      ∀ layer ∈ others, layer ∉ s.layers := by
  have hperm := s.perm_map_layer_reportOf counters now
  have hsorted : ((s.reportOf counters now).layers.map LayerCounters.layer).Pairwise
      fun a b => s.layers.idxOf a ≤ s.layers.idxOf b :=
    List.pairwise_map.mpr (s.pairwise_rank_reportOf counters now)
  generalize (s.reportOf counters now).layers.map LayerCounters.layer = names at hperm hsorted
  have hsplit := filter_append_filter_of_pairwise hsorted s.layers.length
  have hknown : ∀ layer, decide (s.layers.idxOf layer < s.layers.length) = true
      ↔ layer ∈ s.layers := fun layer => by rw [decide_eq_true_iff, List.idxOf_lt_length_iff]
  refine ⟨names.filter (fun a => !decide (s.layers.idxOf a < s.layers.length)), ?_,
    fun layer hlayer hmem => ?_⟩
  · refine hsplit.symm.trans (congrArg (· ++ _) ?_)
    refine eq_of_pairwise_idxOf (hsorted.filter _) ((pairwise_idxOf hl).filter _)
      ((hperm.nodup_iff.mpr hn).filter _) (hl.filter _) (fun layer => ?_) fun layer hlayer => ?_
    · rw [List.mem_filter, List.mem_filter, hknown, decide_eq_true_iff, hperm.mem_iff, and_comm]
    · exact (hknown layer).mp (List.mem_filter.mp hlayer).2
  · have hlast := (List.mem_filter.mp hlayer).2
    rw [(hknown layer).mpr hmem] at hlast
    exact absurd hlast (by decide)

/-- The sum over some layers is the sum of all, if each packet is of one of them. -/
theorem sum_sizesOf {names : List String} (hn : names.Nodup) {packets : List (String × Nat)}
    (hall : ∀ p ∈ packets, p.1 ∈ names) :
    (names.map fun layer => (sizesOf layer packets).sum).sum = (packets.map Prod.snd).sum := by
  induction packets using List.reverseRecOn with
  | nil => simp [sizesOf]
  | append_singleton packets p ih =>
    have hp : p.1 ∈ names := hall p (by simp)
    have hone : (names.map fun layer => if p.1 = layer then p.2 else 0).sum = p.2 := by
      rw [List.sum_map_eq_nsmul_single p.1 _ fun layer hne _ => if_neg (Ne.symm hne), if_pos rfl,
        List.count_eq_one_of_mem hn hp, one_nsmul]
    have hmore : ∀ layer, (sizesOf layer (packets ++ [p])).sum
        = (sizesOf layer packets).sum + if p.1 = layer then p.2 else 0 := by
      intro layer
      rw [sizesOf_concat]
      split <;> simp
    simp only [hmore]
    rw [List.sum_map_add, ih fun q hq => hall q (List.mem_append_left _ hq), hone, List.map_append,
      List.sum_append]
    simp

theorem foldl_add_bytes {layers : List LayerCounters} {f : LayerCounters → Nat}
    (h : ∀ c ∈ layers, c.bytes = .ofNat (f c)) (total : Nat) :
    (layers.map LayerCounters.bytes).foldl (· + ·) (UInt64.ofNat total)
      = .ofNat (total + (layers.map f).sum) := by
  induction layers generalizing total with
  | nil => rfl
  | cons c rest ih =>
    rw [List.map_cons, List.foldl_cons, h c List.mem_cons_self, ← UInt64.ofNat_add,
      ih (fun d hd => h d (List.mem_cons_of_mem _ hd)), List.map_cons, List.sum_cons,
      Nat.add_assoc]

/-- **What a report says** after some packets were counted. -/
structure Reports (s : Stream) (packets : List (String × Nat)) (report : StreamReport) : Prop where
  /-- Each layer is named once, -/
  once : (report.layers.map LayerCounters.layer).Nodup
  /-- and it is named if a packet of it was counted. -/
  named : ∀ layer, layer ∈ report.layers.map LayerCounters.layer ↔ layer ∈ packets.map Prod.fst
  /-- The known layers come first, in order of the list. -/
  inOrder : ∃ others, report.layers.map LayerCounters.layer
      = s.layers.filter (fun layer => decide (layer ∈ packets.map Prod.fst)) ++ others ∧
    ∀ layer ∈ others, layer ∉ s.layers
  counts : ∀ c ∈ report.layers, Counts c.layer (sizesOf c.layer packets) c
  total : report.totalBytes = .ofNat (packets.map Prod.snd).sum
  /-- As long as all bytes together fit into 64 bits the counters of bytes are exact. -/
  exact : (packets.map Prod.snd).sum < 2 ^ 64 →
    report.totalBytes.toNat = (packets.map Prod.snd).sum ∧
      ∀ c ∈ report.layers, c.bytes.toNat = (sizesOf c.layer packets).sum

theorem sum_sizesOf_le (layer : String) (packets : List (String × Nat)) :
    (sizesOf layer packets).sum ≤ (packets.map Prod.snd).sum := by
  induction packets with
  | nil => exact Nat.le_refl 0
  | cons p rest ih =>
    by_cases hp : p.1 = layer
    · simpa [sizesOf, hp] using ih
    · simpa [sizesOf, hp] using Nat.le_trans ih (Nat.le_add_left _ p.2)

/-- **A report joins the books**, in whatever order the counters come. -/
theorem Tells.reports (h : Tells notes s.books) {counters : List LayerCounters}
    (hperm : counters.Perm s.counters.values) (now : Millis) :
    Reports s (counted notes) (s.reportOf counters now) := by
  have hnames : (counters.map LayerCounters.layer).Perm s.counters.keys :=
    h.map_layer_values ▸ hperm.map _
  have hmem : ∀ layer, layer ∈ counters.map LayerCounters.layer
      ↔ layer ∈ (counted notes).map Prod.fst := fun layer => by
    rw [hnames.mem_iff, Table.mem_keys_iff]
    exact h.known layer
  have hnodup : (counters.map LayerCounters.layer).Nodup :=
    hnames.nodup_iff.mpr (Table.nodup_keys _)
  have hreport := s.perm_map_layer_reportOf counters now
  have hcounts : ∀ c ∈ (s.reportOf counters now).layers,
      Counts c.layer (sizesOf c.layer (counted notes)) c := by
    intro c hc
    have hvalue : c ∈ s.counters.values :=
      hperm.mem_iff.mp ((List.mergeSort_perm ..).mem_iff.mp hc)
    obtain ⟨e, he, rfl⟩ := List.mem_map.mp hvalue
    have hcount := h.counts e.1 e.2 ((s.counters.mem_entries_iff e.1 e.2).mp he)
    rw [hcount.layer]
    exact hcount
  have htotal : (s.reportOf counters now).totalBytes
      = .ofNat ((counted notes).map Prod.snd).sum := by
    have hall : ∀ p ∈ counted notes, p.1 ∈ (s.reportOf counters now).layers.map
        LayerCounters.layer :=
      fun p hp => hreport.mem_iff.mpr ((hmem p.1).mpr (List.mem_map_of_mem hp))
    have hsum := sum_sizesOf (hreport.nodup_iff.mpr hnodup) hall
    rw [List.map_map] at hsum
    have hfold := foldl_add_bytes (fun c hc => (hcounts c hc).bytes) 0
    rw [Nat.zero_add] at hfold
    exact hfold.trans (congrArg UInt64.ofNat hsum)
  refine ⟨hreport.nodup_iff.mpr hnodup, fun layer => ?_, ?_, hcounts, htotal, fun hlt =>
    ⟨?_, fun c hc => ?_⟩⟩
  · rw [hreport.mem_iff, hmem]
  · have hlayers : s.layers = (discovered notes).eraseDups := h.layers
    have hlist : s.layers.Nodup := hlayers ▸ nodup_eraseDups _
    obtain ⟨others, heq, hothers⟩ := known_reportOf hlist hnodup now
    simp only [hmem] at heq
    exact ⟨others, heq, hothers⟩
  · rw [htotal, UInt64.toNat_ofNat_of_lt' hlt]
  · have hfits := Nat.lt_of_le_of_lt (sum_sizesOf_le c.layer _) hlt
    rw [(hcounts c hc).bytes, UInt64.toNat_ofNat_of_lt' hfits]

/-- If a packet was counted of every known layer and of no other, a report names the layers of
the list. -/
theorem Reports.names_eq {packets : List (String × Nat)} {report : StreamReport}
    (h : Reports s packets report) (hl : s.layers = (packets.map Prod.fst).eraseDups) :
    report.layers.map LayerCounters.layer = s.layers := by
  have hmem : ∀ layer, layer ∈ s.layers ↔ layer ∈ packets.map Prod.fst :=
    fun layer => by rw [hl, List.mem_eraseDups]
  obtain ⟨others, heq, hothers⟩ := h.inOrder
  have hall : s.layers.filter (fun layer => decide (layer ∈ packets.map Prod.fst)) = s.layers :=
    List.filter_eq_self.mpr fun layer hlayer => decide_eq_true ((hmem layer).mp hlayer)
  have hnone : others = [] := by
    refine List.eq_nil_iff_forall_not_mem.mpr fun layer hlayer => hothers layer hlayer ?_
    rw [hmem, ← h.named, heq]
    exact List.mem_append_right _ hlayer
  rw [heq, hall, hnone, List.append_nil]

/-- **The order in which the counters come makes no difference** if all their layers are
known. -/
theorem reportOf_eq_report {counters : List LayerCounters}
    (hperm : counters.Perm s.counters.values)
    (hn : (s.counters.values.map LayerCounters.layer).Nodup)
    (hk : ∀ c ∈ s.counters.values, c.layer ∈ s.layers) (now : Millis) :
    s.reportOf counters now = s.report now := by
  have hmem : ∀ {counters' : List LayerCounters}, counters'.Perm s.counters.values →
      ∀ c ∈ (s.reportOf counters' now).layers, c ∈ s.counters.values :=
    fun h c hc => h.mem_iff.mp ((List.mergeSort_perm ..).mem_iff.mp hc)
  have hlayers : (s.reportOf counters now).layers = (s.report now).layers := by
    refine List.Perm.eq_of_pairwise (fun a b ha hb hab hba => ?_)
      (s.pairwise_rank_reportOf counters now) (s.pairwise_rank_reportOf s.counters.values now)
      ((List.mergeSort_perm ..).trans (hperm.trans (List.mergeSort_perm ..).symm))
    have ha := hmem hperm a ha
    have hb := hmem (.refl _) b hb
    exact List.inj_on_of_nodup_map hn ha hb
      ((List.idxOf_inj (hk a ha)).mp (Nat.le_antisymm hab hba))
  exact congrArg (fun layers => { s.report now with layers }) hlayers

end Stream

end Simulcast
