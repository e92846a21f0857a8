import Mathlib.Data.List.Chain
import Mathlib.Data.List.Induction
import Simulcast.Proofs.Log
import Simulcast.Proofs.Registry.Views
/-!
# Tenures of a stream

A stream is claimed and released again and again, and between a claim that is granted and the
release that ends it lies a tenure.  Everybody may ask at any time: broadcasters claim the
stream, attach their connections and put it on air, and any number of callers release it, with
no regard to each other.  `Stream.Touch` is one such question together with its answer.

All answers follow from what happened since the last turn.  `Stream.tenure?` reads the open
tenure off a log, and `Stream.Due` is the answer that it leaves.  The state of a stream is what
its log says (`Stream.Matches`), so every answer is the due one (`Stream.Matches.ask`), and
every run keeps to it (`Stream.Matches.asked`).

What callers see of this is `Stream.WellHeld`: turns alternate, a tenure goes on air once at
most, its release hands out the connection that was attached last, and of all the callers that
release a stream for one claim exactly one is answered.  `Stream.wellHeld_of_regular` derives it
from due answers alone.
-/

namespace Simulcast

namespace Stream

/-! ### Questions and answers -/

/-- What can be asked of the hold on a stream. -/
inductive Ask where
  | claim
  | attach (c : ConnectionId)
  | mark (remote : Option SocketAddress)
  | release (caller : Nat)

/-- A question about the hold on a stream, with its answer. -/
inductive Touch where
  | claim (granted : Bool)
  | attach (c : ConnectionId)
  | mark (connected : Bool)
  | release (caller : Nat) (answer : Option Released)
  deriving DecidableEq

/-- What a stream answers. -/
def ask (s : Stream) : Ask → Touch × Stream
  | .claim =>
    match s.claim? with
    | some s => (.claim true, s)
    | none => (.claim false, s)
  | .attach c => (.attach c, s.attachConnection c)
  | .mark remote => (.mark (s.markConnected remote).1, (s.markConnected remote).2)
  | .release caller =>
    match s.release? with
    | some (released, s) => (.release caller (some released), s)
    | none => (.release caller none, s)

/-- All that was asked of a stream one after another, with the answers. -/
def asked (s : Stream) : List Ask → List Touch × Stream
  | [] => ([], s)
  | a :: rest => ((s.ask a).1 :: ((s.ask a).2.asked rest).1, ((s.ask a).2.asked rest).2)

namespace Touch

/-- A claim that was granted is a turn, and so is a release that took effect. -/
def turn? : Touch → Option Bool
  | .claim true => some true
  | .release _ (some _) => some false
  | _ => none

def attached? : Touch → Option ConnectionId
  | .attach c => some c
  | _ => none

/-- The connection that a release hands out. -/
def handedOut? : Touch → Option ConnectionId
  | .release _ (some released) => released.connection
  | _ => none

theorem turn?_eq_some_true {x : Touch} : x.turn? = some true ↔ x = .claim true := by
  cases x with
  | claim granted => cases granted <;> simp [turn?]
  | attach c => simp [turn?]
  | mark connected => simp [turn?]
  | release caller answer => cases answer <;> simp [turn?]

theorem turn?_eq_some_false {x : Touch} :
    x.turn? = some false ↔ ∃ caller released, x = .release caller (some released) := by
  cases x with
  | claim granted => cases granted <;> simp [turn?]
  | attach c => simp [turn?]
  | mark connected => simp [turn?]
  | release caller answer => cases answer <;> simp [turn?]

theorem handedOut?_of_turn? {x : Touch} (h : x.turn? = none) : x.handedOut? = none := by
  cases x with
  | claim granted => rfl
  | attach c => rfl
  | mark connected => rfl
  | release caller answer =>
    cases answer with
    | none => rfl
    | some released => exact absurd h (by simp [turn?])

end Touch

theorem filterMap_concat {α β : Type} (f : α → Option β) (l : List α) (x : α) :
    (l ++ [x]).filterMap f = l.filterMap f ++ (f x).toList := by
  rw [List.filterMap_append]
  cases hx : f x <;> simp [hx]

/-- The connection that was attached last. -/
def lastAttached (tenure : List Touch) : Option ConnectionId :=
  (tenure.filterMap Touch.attached?).getLast?

theorem lastAttached_of_attached (tenure : List Touch) {x : Touch} {c : ConnectionId}
    (h : x.attached? = some c) : lastAttached (tenure ++ [x]) = some c := by
  simp [lastAttached, h]

theorem lastAttached_of_other (tenure : List Touch) {x : Touch} (h : x.attached? = none) :
    lastAttached (tenure ++ [x]) = lastAttached tenure := by
  simp [lastAttached, h]

/-! ### The open tenure -/

/-- The open tenure after one touch more. -/
def proceed (tenure : Option (List Touch)) (x : Touch) : Option (List Touch) :=
  match x.turn? with
  | some true => some []
  | some false => none
  | none => tenure.map (· ++ [x])

/-- **What happened since the last claim that was granted**, if no release ended it. -/
def tenure? (log : List Touch) : Option (List Touch) := log.foldl proceed none

theorem tenure?_concat (log : List Touch) (x : Touch) :
    tenure? (log ++ [x]) = proceed (tenure? log) x := by
  rw [tenure?, List.foldl_append]
  rfl

theorem tenure?_of_quiet (log : List Touch) {x : Touch} (h : x.turn? = none) :
    tenure? (log ++ [x]) = (tenure? log).map (· ++ [x]) := by
  rw [tenure?_concat, proceed, h]

/-- An open tenure lies behind the claim that opened it, and holds no turn. -/
theorem exists_claim_of_tenure? {log tenure : List Touch} (h : tenure? log = some tenure) :
    ∃ before, log = before ++ .claim true :: tenure ∧ ∀ x ∈ tenure, x.turn? = none := by
  induction log using List.reverseRecOn generalizing tenure with
  | nil => exact absurd h (by simp [tenure?])
  | append_singleton log x ih =>
    rw [tenure?_concat, proceed] at h
    split at h
    · rename_i hx
      obtain rfl := Option.some.inj h
      obtain rfl := Touch.turn?_eq_some_true.mp hx
      exact ⟨log, rfl, by simp⟩
    · exact absurd h (by simp)
    · rename_i hx
      obtain ⟨t, ht, rfl⟩ := Option.map_eq_some_iff.mp h
      obtain ⟨before, rfl, hquiet⟩ := ih ht
      refine ⟨before, by simp, fun y hy => ?_⟩
      rcases List.mem_append.mp hy with hy | hy
      · exact hquiet y hy
      · rw [List.mem_singleton.mp hy, hx]

/-! ### Due answers -/

/-- **The answer that is due** after a log. -/
def Due (log : List Touch) : Touch → Prop
  | .claim granted => granted = (tenure? log).isNone
  | .attach _ => True
  | .mark connected => connected = true ↔ ∃ tenure, tenure? log = some tenure ∧ .mark true ∉ tenure
  | .release _ answer =>
    answer = (tenure? log).map fun tenure => ⟨lastAttached tenure, decide (.mark true ∈ tenure)⟩

theorem Due.isSome_of_claim {log : List Touch} {x : Touch} (h : Due log x)
    (hx : x = .claim true) : (tenure? log).isSome = false := by
  rw [hx] at h
  rw [← Option.not_isNone, ← show true = (tenure? log).isNone from h]
  rfl

theorem Due.isSome_of_release {log : List Touch} {x : Touch} (h : Due log x)
    (hx : x.turn? = some false) : (tenure? log).isSome = true := by
  obtain ⟨caller, released, rfl⟩ := Touch.turn?_eq_some_false.mp hx
  cases ht : tenure? log with
  | none => rw [Due, ht] at h; exact absurd h (by simp)
  | some tenure => rfl

/-- Every answer of a log was due. -/
def Regular (log : List Touch) : Prop :=
  ∀ before x after, log = before ++ x :: after → Due before x

theorem regular_nil : Regular [] := throughout_nil Due

theorem Regular.concat {log : List Touch} {x : Touch} (h : Regular log) (hx : Due log x) :
    Regular (log ++ [x]) :=
  throughout_concat_iff.mpr ⟨h, hx⟩

theorem Regular.of_append {log more : List Touch} (h : Regular (log ++ more)) : Regular log :=
  fun before x after he => h before x (after ++ more) (by simp [he])

theorem Regular.due {log : List Touch} {x : Touch} (h : Regular (log ++ [x])) : Due log x :=
  h log x [] rfl

/-- **The hold on a stream is what its log says.** -/
def Matches (log : List Touch) (s : Stream) : Prop :=
  match tenure? log with
  | none => s.hasPublisher = false
  | some tenure =>
    s.phase = (if .mark true ∈ tenure then .connected else .negotiating) ∧
      s.connection = lastAttached tenure

theorem matches_nil {s : Stream} (h : s.hasPublisher = false) : Matches [] s := h

section

variable {log tenure : List Touch} {s : Stream}

theorem matches_of_none (h : tenure? log = none) : Matches log s ↔ s.hasPublisher = false := by
  rw [Matches, h]

theorem matches_of_some (h : tenure? log = some tenure) :
    Matches log s ↔ s.phase = (if .mark true ∈ tenure then .connected else .negotiating) ∧
      s.connection = lastAttached tenure := by
  rw [Matches, h]

theorem Matches.hasPublisher (h : Matches log s) : s.hasPublisher = (tenure? log).isSome := by
  cases ht : tenure? log with
  | none => exact (matches_of_none ht).mp h
  | some tenure =>
    obtain ⟨hp, -⟩ := (matches_of_some ht).mp h
    rw [Stream.hasPublisher, hp]
    split <;> rfl

/-- In an open tenure the stream is on air once it was marked so. -/
theorem Matches.isLive (h : Matches log s) (ht : tenure? log = some tenure) :
    s.isLive = decide (.mark true ∈ tenure) := by
  obtain ⟨hp, -⟩ := (matches_of_some ht).mp h
  rw [Stream.isLive, hp]
  by_cases hm : Touch.mark true ∈ tenure <;> simp [hm]

theorem Matches.claim (h : Matches log s) :
    Due log (s.ask .claim).1 ∧ Matches (log ++ [(s.ask .claim).1]) (s.ask .claim).2 := by
  cases ht : tenure? log with
  | none =>
    have hask : s.ask .claim = (.claim true, s.claimed) := by
      simp only [ask, claim?_of_free ((matches_of_none ht).mp h)]
    have hnext : tenure? (log ++ [.claim true]) = some [] := by rw [tenure?_concat]; rfl
    rw [hask, matches_of_some hnext]
    exact ⟨by rw [Due, ht]; rfl, rfl, rfl⟩
  | some tenure =>
    have hheld := h.hasPublisher
    rw [ht] at hheld
    have hask : s.ask .claim = (.claim false, s) := by simp only [ask, claim?_of_held hheld]
    have hnext := tenure?_of_quiet log (show (Touch.claim false).turn? = none from rfl)
    rw [ht] at hnext
    rw [hask, matches_of_some hnext, lastAttached_of_other _ rfl]
    refine ⟨by rw [Due, ht]; rfl, ?_⟩
    simpa using (matches_of_some ht).mp h

theorem Matches.attach (h : Matches log s) (c : ConnectionId) :
    Matches (log ++ [.attach c]) (s.attachConnection c) := by
  have hnext := tenure?_of_quiet log (show (Touch.attach c).turn? = none from rfl)
  cases ht : tenure? log with
  | none =>
    rw [ht] at hnext
    have hfree : s.hasPublisher = false := (matches_of_none ht).mp h
    exact (matches_of_none hnext).mpr hfree
  | some tenure =>
    rw [ht] at hnext
    rw [matches_of_some hnext, lastAttached_of_attached _ rfl]
    refine ⟨?_, rfl⟩
    show s.phase = _
    simpa using ((matches_of_some ht).mp h).1

theorem Matches.mark (h : Matches log s) (remote : Option SocketAddress) :
    Due log (s.ask (.mark remote)).1 ∧
      Matches (log ++ [(s.ask (.mark remote)).1]) (s.ask (.mark remote)).2 := by
  have hnext := tenure?_of_quiet log
    (show (Touch.mark (s.markConnected remote).1).turn? = none from rfl)
  show Due log (.mark (s.markConnected remote).1) ∧
    Matches (log ++ [.mark (s.markConnected remote).1]) (s.markConnected remote).2
  cases ht : tenure? log with
  | none =>
    have hfree := (matches_of_none ht).mp h
    have hphase : s.phase ≠ .negotiating := by
      intro hp
      rw [Stream.hasPublisher, hp] at hfree
      exact absurd hfree (by decide)
    rw [ht] at hnext
    rw [matches_of_none hnext, hasPublisher_markConnected, Due, ht]
    refine ⟨?_, hfree⟩
    simp [Stream.markConnected, hphase]
  | some tenure =>
    obtain ⟨hp, hc⟩ := (matches_of_some ht).mp h
    rw [ht] at hnext
    rw [matches_of_some hnext, lastAttached_of_other _ rfl, Due, ht]
    by_cases hm : Touch.mark true ∈ tenure
    · rw [if_pos hm] at hp
      simp [Stream.markConnected, hp, hm, hc]
    · rw [if_neg hm] at hp
      simp [Stream.markConnected, hp, hm, hc]

theorem Matches.release (h : Matches log s) (caller : Nat) :
    Due log (s.ask (.release caller)).1 ∧
      Matches (log ++ [(s.ask (.release caller)).1]) (s.ask (.release caller)).2 := by
  cases ht : tenure? log with
  | none =>
    have hfree := (matches_of_none ht).mp h
    have hask : s.ask (.release caller) = (.release caller none, s) := by
      simp only [ask, release?_of_free hfree]
    have hnext := tenure?_of_quiet log (show (Touch.release caller none).turn? = none from rfl)
    rw [ht] at hnext
    rw [hask, matches_of_none hnext]
    exact ⟨by rw [Due, ht]; rfl, hfree⟩
  | some tenure =>
    have hheld := h.hasPublisher
    rw [ht] at hheld
    have hask : s.ask (.release caller)
        = (.release caller (some ⟨s.connection, s.isLive⟩), s.released) := by
      simp only [ask, release?_of_held hheld]
    have hnext : tenure? (log ++ [.release caller (some ⟨s.connection, s.isLive⟩)]) = none := by
      rw [tenure?_concat]
      rfl
    rw [hask, matches_of_none hnext, Due, ht, h.isLive ht, ((matches_of_some ht).mp h).2]
    exact ⟨rfl, rfl⟩

/-- **Every answer is due**, and the hold stays what the log says. -/
theorem Matches.ask (h : Matches log s) (a : Ask) :
    Due log (s.ask a).1 ∧ Matches (log ++ [(s.ask a).1]) (s.ask a).2 := by
  cases a with
  | claim => exact h.claim
  | attach c => exact ⟨trivial, h.attach c⟩
  | mark remote => exact h.mark remote
  | release caller => exact h.release caller

/-- **Every run of questions keeps a log regular.** -/
theorem Matches.asked (h : Matches log s) (hr : Regular log) (asks : List Ask) :
    Regular (log ++ (s.asked asks).1) ∧ Matches (log ++ (s.asked asks).1) (s.asked asks).2 := by
  induction asks generalizing log s with
  | nil =>
    rw [Stream.asked, List.append_nil]
    exact ⟨hr, h⟩
  | cons a rest ih =>
    obtain ⟨hdue, hnext⟩ := h.ask a
    have hrest := ih hnext (hr.concat hdue)
    rw [List.append_assoc, List.singleton_append] at hrest
    exact hrest

end

/-! ### What callers see -/

/-- **What a log looks like** if every answer was due. -/
structure WellHeld (log : List Touch) : Prop where
  /-- Turns alternate, and the first is a claim. -/
  alternate : (log.filterMap Touch.turn?).IsChain (· ≠ ·) ∧
    ∀ first ∈ (log.filterMap Touch.turn?).head?, first = true
  /-- Until its release a tenure goes on air once at most. -/
  markedOnce : ∀ before tenure after, log = before ++ .claim true :: tenure ++ after →
    (∀ x ∈ tenure, x.turn? ≠ some false) → tenure.count (.mark true) ≤ 1
  /-- A stream goes on air within a tenure only. -/
  markedWithin : ∀ before after, log = before ++ .mark true :: after →
    ∃ earlier tenure, before = earlier ++ .claim true :: tenure ∧ ∀ x ∈ tenure, x.turn? = none
  /-- The release of a tenure hands out the connection that was attached last, and says
  whether the tenure went on air. -/
  handsOut : ∀ before tenure caller released after,
    log = before ++ .claim true :: tenure ++ .release caller (some released) :: after →
    (∀ x ∈ tenure, x.turn? ≠ some false) →
    released.connection = lastAttached tenure ∧
      (released.wasConnected = true ↔ .mark true ∈ tenure)
  /-- No attached connection is handed out twice. -/
  handedOnce : (log.filterMap Touch.handedOut?).Sublist (log.filterMap Touch.attached?)
  /-- **Of all that release the stream for one claim, exactly the first is answered.** -/
  oneAnswered : ∀ before span after, log = before ++ .claim true :: span ++ after →
    .claim true ∉ span → (∃ caller answer, .release caller answer ∈ span) →
    ∃ tenure caller released late,
      span = tenure ++ .release caller (some released) :: late ∧
      released.connection = lastAttached tenure ∧
      (released.wasConnected = true ↔ .mark true ∈ span) ∧
      (∀ other answer, .release other answer ∉ tenure) ∧
      ∀ other answer, .release other answer ∈ late → answer = none

section

variable {log before tenure : List Touch}

/-- As long as nobody released it, a tenure is open; meanwhile no other claim is granted. -/
theorem Regular.tenure?_eq (h : Regular (before ++ .claim true :: tenure))
    (hno : ∀ x ∈ tenure, x.turn? ≠ some false) :
    tenure? (before ++ .claim true :: tenure) = some tenure ∧ ∀ x ∈ tenure, x.turn? = none := by
  induction tenure using List.reverseRecOn with
  | nil =>
    rw [tenure?_concat]
    exact ⟨rfl, by simp⟩
  | append_singleton tenure x ih =>
    rw [← List.cons_append, ← List.append_assoc] at h ⊢
    obtain ⟨hopen, hquiet⟩ := ih h.of_append fun y hy => hno y (List.mem_append_left _ hy)
    have hx : x.turn? = none := by
      cases ht : x.turn? with
      | none => rfl
      | some first =>
        cases first with
        | false => exact absurd ht (hno x (by simp))
        | true =>
          -- the tenure is open, so this claim was refused
          have hdue := h.due
          rw [Touch.turn?_eq_some_true.mp ht, Due, hopen] at hdue
          exact absurd hdue (by simp)
    rw [tenure?_of_quiet _ hx, hopen]
    refine ⟨rfl, fun y hy => ?_⟩
    rcases List.mem_append.mp hy with hy | hy
    · exact hquiet y hy
    · rw [List.mem_singleton.mp hy, hx]

theorem Regular.count_mark_le (h : Regular (before ++ .claim true :: tenure))
    (hno : ∀ x ∈ tenure, x.turn? ≠ some false) : tenure.count (.mark true) ≤ 1 := by
  induction tenure using List.reverseRecOn with
  | nil => simp
  | append_singleton tenure x ih =>
    rw [← List.cons_append, ← List.append_assoc] at h
    have hno' := fun y hy => hno y (List.mem_append_left _ hy)
    by_cases hx : x = .mark true
    · obtain ⟨hopen, -⟩ := h.of_append.tenure?_eq hno'
      have hdue := h.due
      rw [hx] at hdue
      obtain ⟨t, ht, hfirst⟩ := hdue.mp rfl
      obtain rfl := Option.some.inj (hopen.symm.trans ht)
      rw [List.count_append, List.count_eq_zero_of_not_mem hfirst, hx]
      simp
    · rw [List.count_append, List.count_eq_zero_of_not_mem (l := [x])]
      · exact ih h.of_append hno'
      · rw [List.mem_singleton]
        exact Ne.symm hx

theorem Regular.handsOut {caller : Nat} {answer : Option Released}
    (h : Regular (before ++ .claim true :: tenure ++ [.release caller answer]))
    (hno : ∀ x ∈ tenure, x.turn? ≠ some false) :
    answer = some ⟨lastAttached tenure, decide (.mark true ∈ tenure)⟩ := by
  have hdue := h.due
  rw [Due, (h.of_append.tenure?_eq hno).1] at hdue
  exact hdue

/-- Turns alternate; the last one is a claim as long as a tenure is open. -/
theorem Regular.alternate (h : Regular log) :
    (log.filterMap Touch.turn?).IsChain (· ≠ ·) ∧
      (∀ first ∈ (log.filterMap Touch.turn?).head?, first = true) ∧
      ((tenure? log).isSome = true ↔ (log.filterMap Touch.turn?).getLast? = some true) := by
  induction log using List.reverseRecOn with
  | nil => simp [tenure?]
  | append_singleton log x ih =>
    obtain ⟨hchain, hfirst, hlast⟩ := ih h.of_append
    rw [tenure?_concat, filterMap_concat, proceed]
    cases hx : x.turn? with
    | none =>
      rw [Option.toList_none, List.append_nil]
      exact ⟨hchain, hfirst, by simpa using hlast⟩
    | some turn =>
      have hopen : (tenure? log).isSome = !turn := by
        cases turn with
        | true => exact h.due.isSome_of_claim (Touch.turn?_eq_some_true.mp hx)
        | false => exact h.due.isSome_of_release hx
      refine ⟨List.isChain_append.mpr ⟨hchain, List.isChain_singleton _, ?_⟩, ?_, ?_⟩
      · -- a turn differs from the one before it
        intro last hl first hf
        obtain rfl : turn = first := by simpa using hf
        rintro rfl
        cases last with
        | true => exact absurd (hopen.symm.trans (hlast.mpr hl)) (by decide)
        | false => exact absurd hl (by simp [hlast.mp hopen])
      · intro first hf
        cases hturns : log.filterMap Touch.turn? with
        | cons y rest =>
          rw [hturns] at hf hfirst
          exact hfirst first hf
        | nil =>
          rw [hturns] at hf hlast
          obtain rfl : turn = first := by simpa using hf
          cases turn with
          | true => rfl
          | false => exact absurd (hlast.mp hopen) (by simp)
      · rw [Option.toList_some, List.getLast?_concat]
        cases turn <;> simp

/-- A connection is handed out by the release of the tenure it was attached in, so no
attachment is handed out twice.  What the open tenure may still hand out is counted in. -/
theorem Regular.handed_sublist (h : Regular log) :
    (log.filterMap Touch.handedOut? ++ ((tenure? log).bind lastAttached).toList).Sublist
      (log.filterMap Touch.attached?) := by
  induction log using List.reverseRecOn with
  | nil => simp [tenure?]
  | append_singleton log x ih =>
    have hlog := ih h.of_append
    have hdue := h.due
    have hdrop := (List.sublist_append_left _ _).trans hlog
    rw [tenure?_concat, proceed, filterMap_concat, filterMap_concat]
    cases hx : x.turn? with
    | none =>
      rw [Touch.handedOut?_of_turn? hx, Option.toList_none, List.append_nil]
      cases hc : x.attached? with
      | none =>
        rw [Option.toList_none, List.append_nil]
        cases ht : tenure? log with
        | none =>
          rw [ht] at hlog
          exact hlog
        | some tenure =>
          rw [ht] at hlog
          simpa [lastAttached_of_other tenure hc] using hlog
      | some c =>
        cases ht : tenure? log with
        | none => simpa using hdrop.trans (List.sublist_append_left _ [c])
        | some tenure =>
          simpa [lastAttached_of_attached tenure hc] using hdrop.append (List.Sublist.refl [c])
    | some turn =>
      cases turn with
      | true =>
        rw [Touch.turn?_eq_some_true.mp hx]
        simpa [Touch.handedOut?, Touch.attached?, lastAttached] using hdrop
      | false =>
        obtain ⟨caller, released, rfl⟩ := Touch.turn?_eq_some_false.mp hx
        obtain ⟨tenure, ht⟩ := Option.isSome_iff_exists.mp (hdue.isSome_of_release hx)
        rw [Due, ht] at hdue
        obtain rfl := Option.some.inj hdue
        rw [ht] at hlog
        simpa [Touch.handedOut?, Touch.attached?] using hlog

/-- While nobody holds the stream and no claim is granted, no release is answered and nothing
goes on air. -/
theorem Regular.quiet_of_closed {late : List Touch} (h : Regular (log ++ late))
    (hclosed : tenure? log = none) (hno : .claim true ∉ late) :
    tenure? (log ++ late) = none ∧ .mark true ∉ late ∧
      ∀ caller answer, .release caller answer ∈ late → answer = none := by
  induction late using List.reverseRecOn with
  | nil => simp [hclosed]
  | append_singleton late x ih =>
    rw [← List.append_assoc] at h ⊢
    obtain ⟨hnone, hmark, hrelease⟩ :=
      ih h.of_append fun hc => hno (List.mem_append_left _ hc)
    have hdue := h.due
    have hturn : x.turn? ≠ some false := fun hx => by
      have hopen := hdue.isSome_of_release hx
      rw [hnone] at hopen
      exact absurd hopen (by decide)
    have hx : x.turn? = none := by
      cases ht : x.turn? with
      | none => rfl
      | some first =>
        cases first with
        | false => exact absurd ht hturn
        | true => exact absurd (List.mem_append_right _
            (List.mem_singleton.mpr (Touch.turn?_eq_some_true.mp ht).symm)) hno
    rw [tenure?_of_quiet _ hx, hnone]
    refine ⟨rfl, fun hm => ?_, fun caller answer ha => ?_⟩
    · rcases List.mem_append.mp hm with hm | hm
      · exact hmark hm
      · rw [← List.mem_singleton.mp hm] at hdue
        obtain ⟨t, ht, -⟩ := hdue.mp rfl
        exact absurd (hnone.symm.trans ht) (by simp)
    · rcases List.mem_append.mp ha with ha | ha
      · exact hrelease caller answer ha
      · cases answer with
        | none => rfl
        | some released =>
          rw [← List.mem_singleton.mp ha] at hx
          exact absurd hx (by simp [Touch.turn?])

/-- Whether a caller asked for a release. -/
def Touch.isRelease : Touch → Bool
  | .release _ _ => true
  | _ => false

theorem Regular.oneAnswered {span : List Touch} (h : Regular (before ++ .claim true :: span))
    (hno : .claim true ∉ span) (hsome : ∃ caller answer, .release caller answer ∈ span) :
    ∃ tenure caller released late,
      span = tenure ++ .release caller (some released) :: late ∧
      released.connection = lastAttached tenure ∧
      (released.wasConnected = true ↔ .mark true ∈ span) ∧
      (∀ other answer, .release other answer ∉ tenure) ∧
      ∀ other answer, .release other answer ∈ late → answer = none := by
  obtain ⟨caller₀, answer₀, hmem⟩ := hsome
  have hfind : (span.find? Touch.isRelease).isSome = true :=
    List.find?_isSome.mpr ⟨_, hmem, rfl⟩
  obtain ⟨x, hx⟩ := Option.isSome_iff_exists.mp hfind
  obtain ⟨hrel, tenure, late, rfl, hnone⟩ := List.find?_eq_some_iff_append.mp hx
  have hquiet : ∀ other answer, .release other answer ∉ tenure := fun other answer hm =>
    absurd (hnone _ hm) (by simp [Touch.isRelease])
  have hnofalse : ∀ y ∈ tenure, y.turn? ≠ some false := by
    intro y hy hturn
    obtain ⟨caller, released, rfl⟩ := Touch.turn?_eq_some_false.mp hturn
    exact hquiet _ _ hy
  cases x with
  | claim granted => exact absurd hrel (by simp [Touch.isRelease])
  | attach c => exact absurd hrel (by simp [Touch.isRelease])
  | mark connected => exact absurd hrel (by simp [Touch.isRelease])
  | release caller answer =>
    have hsplit : before ++ .claim true :: (tenure ++ .release caller answer :: late)
        = (before ++ .claim true :: tenure ++ [.release caller answer]) ++ late := by simp
    rw [hsplit] at h
    have hanswer := h.of_append.handsOut hnofalse
    have hclosed :
        tenure? (before ++ .claim true :: tenure ++ [.release caller answer]) = none := by
      rw [tenure?_concat, hanswer]
      rfl
    obtain ⟨-, hmark, hlate⟩ := h.quiet_of_closed hclosed fun hc =>
      hno (List.mem_append_right _ (List.mem_cons_of_mem _ hc))
    refine ⟨tenure, caller, _, late, by rw [hanswer], rfl, ?_, hquiet, hlate⟩
    simp [hmark]

/-- **Due answers make a log well held.** -/
theorem wellHeld_of_regular (h : Regular log) : WellHeld log where
  alternate := ⟨h.alternate.1, h.alternate.2.1⟩
  markedOnce := by
    rintro before tenure after rfl hno
    exact h.of_append.count_mark_le hno
  markedWithin := by
    intro before after he
    obtain ⟨tenure, ht, -⟩ := (h before _ after he).mp rfl
    obtain ⟨earlier, hbefore, hquiet⟩ := exists_claim_of_tenure? ht
    exact ⟨earlier, tenure, hbefore, hquiet⟩
  handsOut := by
    rintro before tenure caller released after rfl hno
    have hsplit : before ++ .claim true :: tenure ++ .release caller (some released) :: after
        = (before ++ .claim true :: tenure ++ [.release caller (some released)]) ++ after := by
      simp
    rw [hsplit] at h
    obtain rfl := Option.some.inj (h.of_append.handsOut hno)
    exact ⟨rfl, by simp⟩
  handedOnce := (List.sublist_append_left _ _).trans h.handed_sublist
  oneAnswered := by
    rintro before span after rfl hno hsome
    exact h.of_append.oneAnswered hno hsome

end

end Stream

end Simulcast
