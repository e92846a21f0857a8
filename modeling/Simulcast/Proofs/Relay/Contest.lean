import Simulcast.Proofs.Relay.Board
import Simulcast.Proofs.Relay.Holds
import Simulcast.Proofs.Stream.Tenure
/-!
# Teardowns that race for one stream

Whoever loses a stream tears it down, and many may lose it at once: the broadcaster leaves,
its transport fails, the relay shuts down.  `Relay.Contest` is a relay in which any number of
teardowns of one stream are under way, each at its own stage, while broadcasters claim the
stream, attach connections and go on air.  It keeps book of what the stream was asked, of the
connections that each call hung up and of the notices that each call gave.

A call owes what the stream answered it.  `Relay.Account` says stage by stage how much of that
is paid, and a step keeps accounts (`Relay.Account.step`).  Since the stream answers one call for
each claim (`Stream.WellHeld.oneAnswered`), one call hangs up and tells, and the others pass by:
`Relay.Contest.Fair`.
-/

namespace Simulcast

namespace Stream

/-- The hold is all that a log speaks of. -/
theorem Matches.of_hold {log : List Touch} {s t : Stream} (h : Matches log s)
    (ht : t.hold = s.hold) : Matches log t := by
  obtain ⟨hphase, hconnection⟩ := Prod.mk.inj ht
  cases hopen : tenure? log with
  | none =>
    refine (matches_of_none hopen).mpr ?_
    rw [Stream.hasPublisher, hphase]
    exact (matches_of_none hopen).mp h
  | some tenure =>
    refine (matches_of_some hopen).mpr ?_
    rw [hphase, hconnection]
    exact (matches_of_some hopen).mp h

/-- What a caller was answered. -/
def Touch.answerTo? (i : Nat) : Touch → Option (Option Released)
  | .release caller answer => if caller = i then some answer else none
  | _ => none

/-- All that a caller was answered. -/
def answersTo (i : Nat) (log : List Touch) : List (Option Released) :=
  log.filterMap (Touch.answerTo? i)

theorem mem_answersTo {i : Nat} {log : List Touch} {answer : Option Released} :
    answer ∈ answersTo i log ↔ .release i answer ∈ log := by
  rw [answersTo, List.mem_filterMap]
  constructor
  · rintro ⟨x, hx, ha⟩
    cases x with
    | release caller a =>
      simp only [Touch.answerTo?] at ha
      split at ha
      · rename_i hi
        obtain rfl := Option.some.inj ha
        exact hi ▸ hx
      · exact absurd ha (by simp)
    | claim granted => exact absurd ha (by simp [Touch.answerTo?])
    | attach c => exact absurd ha (by simp [Touch.answerTo?])
    | mark connected => exact absurd ha (by simp [Touch.answerTo?])
  · exact fun h => ⟨_, h, by simp [Touch.answerTo?]⟩

theorem answersTo_append (i : Nat) (log more : List Touch) :
    answersTo i (log ++ more) = answersTo i log ++ answersTo i more :=
  List.filterMap_append ..

theorem key_ask (s : Stream) (a : Ask) : (s.ask a).2.key = s.key := by
  cases a with
  | claim =>
    simp only [ask, claim?]
    split
    · rename_i h
      split at h
      · exact absurd h (by simp)
      · rw [← Option.some.inj h]
    · rfl
  | attach c => rfl
  | mark remote => exact s.key_markConnected remote
  | release caller =>
    cases hp : s.hasPublisher with
    | false => simp only [ask, release?_of_free hp]
    | true => simp only [ask, release?_of_held hp]; rfl

end Stream

namespace Relay

/-! ### What a step does to the book -/

namespace Stage

/-- What the next step asks of a stream. -/
def touch? (i : CallId) (r : Relay) : Stage → Option Stream.Touch
  | .release sid _ => some (.release i (r.registry.beginRelease sid).1)
  | _ => none

/-- A step asks in the name of its own call. -/
theorem answersTo_touch? (stage : Stage) {i j : CallId} (hj : j ≠ i) (r : Relay) :
    Stream.answersTo j (stage.touch? i r).toList = [] := by
  cases stage with
  | release sid reply =>
    simp [touch?, Stream.answersTo, Stream.Touch.answerTo?, Ne.symm hj]
  | _ => rfl

/-- The broadcaster's connection that the next step closes. -/
def hangsUp? : Stage → Option ConnectionId
  | .hangUp e => e.released.connection
  | _ => none

end Stage

/-- The notice that a release makes necessary. -/
def dueNotice (key : String) (released : Released) : List Notice :=
  if released.wasConnected then [.disconnected key] else []

/-- **What a call has done** when it stands at a stage: what the stream answered it, the
connections it hung up, and the notices it gave. -/
inductive Account (sid : StreamId) (key : String) :
    Option Stage → List (Option Released) → List ConnectionId → List Notice → Prop where
  | absent : Account sid key none [] [] []
  | release : Account sid key (some (.release sid none)) [] [] []
  | forget (d : Released) : Account sid key (some (.forget ⟨sid, key, d, none⟩)) [some d] [] []
  | hangUp (d : Released) : Account sid key (some (.hangUp ⟨sid, key, d, none⟩)) [some d] [] []
  | clear (d : Released) :
      Account sid key (some (.clear ⟨sid, key, d, none⟩)) [some d] d.connection.toList []
  | drain (d : Released) :
      Account sid key (some (.drain ⟨sid, key, d, none⟩)) [some d] d.connection.toList []
  | dismiss (d : Released) (ids : List ViewerId) :
      Account sid key (some (.dismiss ⟨sid, key, d, none⟩ ids)) [some d] d.connection.toList []
  | report (d : Released) :
      Account sid key (some (.report ⟨sid, key, d, none⟩)) [some d] d.connection.toList []
  | passed : Account sid key (some (.finished none)) [none] [] []
  | done (d : Released) :
      Account sid key (some (.finished none)) [some d] d.connection.toList (dueNotice key d)

section

variable {r : Relay} {sid : StreamId} {key : String} {s : Stream} {stage : Stage}
  {answers : List (Option Released)} {hung : List ConnectionId} {told : List Notice}

theorem stream?_closeViewer (r : Relay) (id : ViewerId) (hs : r.registry.stream? sid = some s) :
    ∃ t, (r.closeViewer id).registry.stream? sid = some t ∧ t.key = s.key ∧ t.hold = s.hold := by
  have hstanding := made_board (r.closeViewer id) sid
  rw [board_closeViewer, made_board, hs] at hstanding
  obtain ⟨t, ht, hsame⟩ := Option.map_eq_some_iff.mp hstanding.symm
  have hhold := (r.beside_closeViewer id).hold? sid
  rw [Registry.hold?, Registry.hold?, ht, hs] at hhold
  exact ⟨t, ht, (Prod.mk.inj hsame).1, Option.some.inj hhold⟩

/-- A step that asks the stream nothing, hangs nothing up and tells nothing adds nothing. -/
theorem Account.silent {at? : Option Stage} (h : Account sid key at? answers hung told) :
    Account sid key at? (answers ++ []) (hung ++ []) (told ++ []) := by
  rw [List.append_nil, List.append_nil, List.append_nil]
  exact h

/-- **A step of a call keeps its account.** -/
theorem Account.step (h : Account sid key (some stage) answers hung told)
    (hs : r.registry.stream? sid = some s) (hkey : s.key = key) (i : CallId) :
    Account sid key (some (stage.step r).stage)
      (answers ++ Stream.answersTo i (stage.touch? i r).toList) (hung ++ stage.hangsUp?.toList)
      (told ++ ((stage.step r).mark.bind Landmark.notice?).toList) := by
  cases h with
  | release =>
    cases hp : s.hasPublisher with
    | false =>
      have hbegin := Registry.beginRelease_of_free hs hp
      simp only [Stage.step, Stage.touch?, Stage.hangsUp?, hs, onRegistry, hbegin]
      simpa [Stream.answersTo, Stream.Touch.answerTo?] using Account.passed
    | true =>
      have hbegin := Registry.beginRelease_of_held hs hp
      simp only [Stage.step, Stage.touch?, Stage.hangsUp?, hs, onRegistry, hbegin, hkey]
      have hforget : Account sid key _ _ _ _ := .forget ⟨s.connection, s.isLive⟩
      cases hl : s.isLive <;>
        simpa [hl, Stream.answersTo, Stream.Touch.answerTo?, Landmark.notice?] using hforget
  | forget d => exact .hangUp d
  | hangUp d => exact .clear d
  | clear d => exact (Account.drain d).silent
  | drain d => exact (Account.dismiss d _).silent
  | dismiss d ids =>
    cases ids with
    | nil => exact (Account.report d).silent
    | cons id rest => exact (Account.dismiss d rest).silent
  | report d =>
    have hdone : Account sid key _ _ _ _ := .done d
    simp only [Stage.step, Stage.touch?, Stage.hangsUp?]
    cases hw : d.wasConnected <;>
      simpa [dueNotice, hw, Stream.answersTo, Landmark.notice?] using hdone
  | passed => exact .passed
  | done d => exact (Account.done d).silent

/-- **What a step of a call does to its stream**: it asks what the book says and leaves the
hold alone otherwise. -/
theorem Account.asks (h : Account sid key (some stage) answers hung told)
    (hs : r.registry.stream? sid = some s) (hkey : s.key = key) (i : CallId)
    {log : List Stream.Touch} (hmatch : Stream.Matches log s) (hregular : Stream.Regular log) :
    Stream.Regular (log ++ (stage.touch? i r).toList) ∧
      ∃ t, (stage.step r).relay.registry.stream? sid = some t ∧ t.key = key ∧
        Stream.Matches (log ++ (stage.touch? i r).toList) t := by
  have hbeside : ∀ {q : Relay} {t : Stream}, q.registry.stream? sid = some t → t.key = s.key →
      t.hold = s.hold → Stream.Regular (log ++ []) ∧
        ∃ t, q.registry.stream? sid = some t ∧ t.key = key ∧ Stream.Matches (log ++ []) t := by
    intro q t ht hk hhold
    rw [List.append_nil]
    exact ⟨hregular, t, ht, hk.trans hkey, hmatch.of_hold hhold⟩
  cases h with
  | release =>
    obtain ⟨hdue, hnext⟩ := hmatch.release i
    cases hp : s.hasPublisher with
    | false =>
      have hask : s.ask (.release i) = (.release i none, s) := by
        simp only [Stream.ask, Stream.release?_of_free hp]
      rw [hask] at hdue hnext
      simp only [Stage.step, Stage.touch?, hs, onRegistry, Registry.beginRelease_of_free hs hp]
      exact ⟨hregular.concat hdue, s, rfl, hkey, hnext⟩
    | true =>
      have hask : s.ask (.release i)
          = (.release i (some ⟨s.connection, s.isLive⟩), s.released) := by
        simp only [Stream.ask, Stream.release?_of_held hp]
      rw [hask] at hdue hnext
      simp only [Stage.step, Stage.touch?, hs, onRegistry, Registry.beginRelease_of_held hs hp]
      refine ⟨hregular.concat hdue, s.released, ?_, hkey, hnext⟩
      rw [Registry.stream?_put_of_some hs, if_pos rfl]
  | forget d => exact hbeside ((Registry.stream?_forget ..).trans hs) rfl rfl
  | hangUp d =>
    refine hbeside (t := s) ?_ rfl rfl
    simp only [Stage.step, registry_closeReleased, hs]
  | clear d => exact hbeside hs rfl rfl
  | drain d =>
    refine hbeside (t := s.drain.2) ?_ rfl rfl
    simp only [Stage.step, registry_drainViewers, Registry.stream?_act, hs]
    rfl
  | dismiss d ids =>
    cases ids with
    | nil => exact hbeside hs rfl rfl
    | cons id rest =>
      obtain ⟨t, ht, hk, hhold⟩ := stream?_closeViewer r id hs
      exact hbeside ht hk hhold
  | report d =>
    refine hbeside (t := s) ?_ rfl rfl
    simp only [Stage.step]
    split <;> exact hs
  | passed => exact hbeside hs rfl rfl
  | done d => exact hbeside hs rfl rfl

/-- A step of a call closes what the book says, and opens nothing again. -/
theorem Account.closes (h : Account sid key (some stage) answers hung told) (r : Relay) :
    (∀ c ∈ r.connections.closed, c ∈ (stage.step r).relay.connections.closed) ∧
      ∀ c, stage.hangsUp? = some c → c ∈ (stage.step r).relay.connections.closed := by
  have hteardown : stage.IsTeardown := by cases h <;> trivial
  refine ⟨(Stage.teardown_step r hteardown).closed, fun c hc => ?_⟩
  cases h with
  | hangUp d =>
    have hc : d.connection = some c := hc
    show c ∈ (r.closeReleased d).connections.closed
    rw [closeReleased, hc]
    exact (ConnectionPool.mem_closed_close ..).mpr (.inl rfl)
  | _ => exact absurd hc (by simp [Stage.hangsUp?])

/-- At no time does a call do more than it was answered, and it is answered once. -/
theorem Account.paid {at? : Option Stage} (h : Account sid key at? answers hung told) :
    answers.length ≤ 1 ∧ hung <+: answers.flatMap (fun a => (a.bind Released.connection).toList) ∧
      told <+: answers.flatMap (fun a => a.toList.flatMap (dueNotice key)) := by
  cases h <;> simp

/-- A call that is finished did all that it was answered. -/
theorem Account.settled (h : Account sid key (some (.finished none)) answers hung told) :
    ∃ answer, answers = [answer] ∧ hung = (answer.bind Released.connection).toList ∧
      told = answer.toList.flatMap (dueNotice key) := by
  cases h with
  | passed => exact ⟨none, rfl, rfl, rfl⟩
  | done d => exact ⟨some d, rfl, rfl, by simp⟩

/-- Left alone, a call comes to its end. -/
theorem Account.finishes (h : Account sid key (some stage) answers hung told) (r : Relay) :
    ∃ q, Finishes r stage q none := by
  have hreport : ∀ (d : Released) (q : Relay),
      ∃ q', Finishes q (.report ⟨sid, key, d, none⟩) q' none :=
    fun d q => ⟨_, finishes_report ⟨sid, key, d, none⟩ q⟩
  cases h with
  | release => exact ⟨_, finishes_release r sid none⟩
  | forget d =>
    obtain ⟨q, hq, -⟩ := leads_hangUp ⟨sid, key, d, none⟩
      { r with registry := r.registry.forget sid }
    obtain ⟨q', hq'⟩ := hreport d q
    exact ⟨q', .next (hq.finishes hq')⟩
  | hangUp d =>
    obtain ⟨q, hq, -⟩ := leads_hangUp ⟨sid, key, d, none⟩ r
    obtain ⟨q', hq'⟩ := hreport d q
    exact ⟨q', hq.finishes hq'⟩
  | clear d =>
    obtain ⟨q, hq⟩ := leads_drain ⟨sid, key, d, none⟩ (r.clearLastMatched key)
    obtain ⟨q', hq'⟩ := hreport d q
    exact ⟨q', .next (hq.finishes hq')⟩
  | drain d =>
    obtain ⟨q, hq⟩ := leads_drain ⟨sid, key, d, none⟩ r
    obtain ⟨q', hq'⟩ := hreport d q
    exact ⟨q', hq.finishes hq'⟩
  | dismiss d ids =>
    obtain ⟨q', hq'⟩ := hreport d (ids.foldl closeViewer r)
    exact ⟨q', (leads_dismiss _ ids r).finishes hq'⟩
  | report d => exact hreport d r
  | passed => exact ⟨r, .finished r none⟩
  | done d => exact ⟨r, .finished r none⟩

end

/-! ### Contests -/

/-- A relay with the teardowns of one stream that are under way. -/
structure Contest where
  relay : Relay
  sid : StreamId
  calls : List Stage := []
  /-- What the stream was asked, oldest first. -/
  log : List Stream.Touch := []
  /-- The broadcasters' connections that were hung up, and by which call. -/
  hungUp : List (CallId × ConnectionId) := []
  /-- The notices that were given, and by which call. -/
  told : List (CallId × Notice) := []

namespace Contest

inductive Move where
  | claim
  | attach (c : ConnectionId)
  | mark (remote : Option SocketAddress)
  /-- One caller more starts to tear the stream down. -/
  | enter
  | advance (call : CallId)

/-- A broadcaster asks for the stream. -/
def touch (t : Contest) (a : Stream.Ask) : Contest :=
  match t.relay.onRegistry (·.act t.sid (·.ask a)) with
  | (some x, r) => { t with relay := r, log := t.log ++ [x] }
  | (none, r) => { t with relay := r }

def advance (t : Contest) (i : CallId) : Contest :=
  match t.calls[i]? with
  | none => t
  | some stage =>
    { t with
      relay := (stage.step t.relay).relay
      calls := t.calls.set i (stage.step t.relay).stage
      log := t.log ++ (stage.touch? i t.relay).toList
      hungUp := t.hungUp ++ (stage.hangsUp?.map (i, ·)).toList
      told := t.told ++ (((stage.step t.relay).mark.bind Landmark.notice?).map (i, ·)).toList }

def move (t : Contest) : Move → Contest
  | .claim => t.touch .claim
  | .attach c => t.touch (.attach c)
  | .mark remote => t.touch (.mark remote)
  | .enter => { t with calls := t.calls ++ [.release t.sid none] }
  | .advance i => t.advance i

def run (t : Contest) (moves : List Move) : Contest := moves.foldl move t

/-- What one call wrote into a book. -/
def entries {α : Type} (i : CallId) (book : List (CallId × α)) : List α :=
  (book.filter (·.1 = i)).map Prod.snd

def hungUpBy (t : Contest) (i : CallId) : List ConnectionId := entries i t.hungUp

def toldBy (t : Contest) (i : CallId) : List Notice := entries i t.told

theorem entries_append {α : Type} (i j : CallId) (book : List (CallId × α)) (new : Option α) :
    entries j (book ++ (new.map (i, ·)).toList)
      = if j = i then entries j book ++ new.toList else entries j book := by
  rw [entries, List.filter_append, List.map_append]
  cases new with
  | none => simp [entries]
  | some a =>
    by_cases hj : j = i
    · simp [entries, hj]
    · simp [entries, hj, Ne.symm hj]

/-- **The books of a contest are true.** -/
structure Sound (key : String) (before : List Notice) (t : Contest) : Prop where
  stream : ∃ s, t.relay.registry.stream? t.sid = some s ∧ s.key = key ∧ Stream.Matches t.log s
  regular : Stream.Regular t.log
  accounts : ∀ i, Account t.sid key t.calls[i]? (Stream.answersTo i t.log) (t.hungUpBy i)
    (t.toldBy i)
  notices : t.relay.notices = before ++ t.told.map Prod.snd
  closed : ∀ i, ∀ c ∈ t.hungUpBy i, c ∈ t.relay.connections.closed

variable {key : String} {before : List Notice} {t : Contest}

theorem Sound.touch (h : t.Sound key before) {a : Stream.Ask}
    (ha : ∀ s : Stream, ∀ i, Stream.answersTo i [(s.ask a).1] = []) :
    (t.touch a).Sound key before := by
  obtain ⟨s, hs, hkey, hmatch⟩ := h.stream
  obtain ⟨hdue, hnext⟩ := hmatch.ask a
  have htouch : t.touch a = { t with
      relay := { t.relay with registry := t.relay.registry.put t.sid (s.ask a).2 }
      log := t.log ++ [(s.ask a).1] } := by
    simp only [Contest.touch, onRegistry, Registry.act_of_some hs]
  rw [htouch]
  refine ⟨⟨(s.ask a).2, ?_, ?_, hnext⟩, h.regular.concat hdue, fun i => ?_, h.notices, h.closed⟩
  · show (t.relay.registry.put t.sid _).stream? t.sid = _
    rw [Registry.stream?_put_of_some hs, if_pos rfl]
  · exact (s.key_ask a).trans hkey
  · show Account t.sid key t.calls[i]? (Stream.answersTo i (t.log ++ [(s.ask a).1])) _ _
    rw [Stream.answersTo_append, ha, List.append_nil]
    exact h.accounts i

theorem Sound.enter (h : t.Sound key before) :
    ({ t with calls := t.calls ++ [.release t.sid none] } : Contest).Sound key before := by
  refine ⟨h.stream, h.regular, fun i => ?_, h.notices, h.closed⟩
  have hi := h.accounts i
  show Account t.sid key (t.calls ++ [_])[i]? _ (t.hungUpBy i) (t.toldBy i)
  rw [getElem?_concat]
  split
  · rename_i hnew
    rw [List.getElem?_eq_none (Nat.le_of_eq hnew.symm)] at hi
    generalize Stream.answersTo i t.log = answers, t.hungUpBy i = hung, t.toldBy i = told at hi ⊢
    cases hi
    exact .release
  · exact hi

theorem Sound.advance (h : t.Sound key before) (i : CallId) : (t.advance i).Sound key before := by
  cases hc : t.calls[i]? with
  | none =>
    rw [Contest.advance, hc]
    exact h
  | some stage =>
    obtain ⟨s, hs, hkey, hmatch⟩ := h.stream
    have hown := h.accounts i
    rw [hc] at hown
    obtain ⟨hregular, u, hu, hukey, hnext⟩ := hown.asks hs hkey i hmatch h.regular
    obtain ⟨hkept, hclosed⟩ := hown.closes t.relay
    rw [Contest.advance, hc]
    refine ⟨⟨u, hu, hukey, hnext⟩, hregular, fun j => ?_, ?_, fun j c hj => ?_⟩
    · simp only [getElem?_set_of_some hc, Stream.answersTo_append, hungUpBy, toldBy,
        entries_append]
      by_cases hj : j = i
      · subst hj
        simp only [if_pos]
        exact hown.step hs hkey j
      · simp only [if_neg hj, stage.answersTo_touch? hj, List.append_nil]
        exact h.accounts j
    · show (stage.step t.relay).relay.notices = _
      rw [Stage.notices_step, h.notices, List.map_append, List.append_assoc]
      cases (stage.step t.relay).mark.bind Landmark.notice? <;> rfl
    · simp only [hungUpBy, entries_append] at hj
      split at hj
      · rcases List.mem_append.mp hj with hj | hj
        · exact hkept c (h.closed j c hj)
        · exact hclosed c (Option.mem_toList.mp hj)
      · exact hkept c (h.closed j c hj)

theorem Sound.move (h : t.Sound key before) (m : Move) : (t.move m).Sound key before := by
  cases m with
  | claim =>
    refine h.touch fun s i => ?_
    simp only [Stream.ask]
    split <;> rfl
  | attach c => exact h.touch fun s i => rfl
  | mark remote => exact h.touch fun s i => rfl
  | enter => exact h.enter
  | advance i => exact h.advance i

theorem Sound.run (h : t.Sound key before) (moves : List Move) :
    (t.run moves).Sound key before := by
  induction moves generalizing t with
  | nil => exact h
  | cons m rest ih => exact ih (h.move m)

/-! ### One for each claim -/

/-- The steps of one call lead it on in a contest too, if all the others stand still. -/
theorem exists_run_of_leads {r q : Relay} {stage stage' : Stage} {marks : List Landmark}
    (h : Leads r stage marks q stage') {t : Contest} (hr : t.relay = r) {i : CallId}
    (hc : t.calls[i]? = some stage) :
    ∃ n, (t.run (List.replicate n (.advance i))).calls[i]? = some stage' := by
  induction h generalizing t with
  | refl r stage => exact ⟨0, hc⟩
  | @step r q stage stage' marks rest ih =>
    subst hr
    have hnext : t.advance i = { t with
        relay := (stage.step t.relay).relay
        calls := t.calls.set i (stage.step t.relay).stage
        log := t.log ++ (stage.touch? i t.relay).toList
        hungUp := t.hungUp ++ (stage.hangsUp?.map (i, ·)).toList
        told := t.told
          ++ (((stage.step t.relay).mark.bind Landmark.notice?).map (i, ·)).toList } := by
      rw [advance, hc]
    have hc' : (t.advance i).calls[i]? = some (stage.step t.relay).stage := by
      rw [hnext]
      simp only [getElem?_set_of_some hc, if_pos]
    obtain ⟨n, hn⟩ := ih (t := t.advance i) (by rw [hnext]) hc'
    exact ⟨n + 1, hn⟩

/-- **What a contest comes to.** -/
structure Fair (key : String) (before : List Notice) (t : Contest) : Prop where
  wellHeld : Stream.WellHeld t.log
  notices : t.relay.notices = before ++ t.told.map Prod.snd
  closed : ∀ i, ∀ c ∈ t.hungUpBy i, c ∈ t.relay.connections.closed
  /-- The stream answers a call once, and at no time has the call done more than that. -/
  paid : ∀ i, (Stream.answersTo i t.log).length ≤ 1 ∧
    t.hungUpBy i
      <+: (Stream.answersTo i t.log).flatMap (fun a => (a.bind Released.connection).toList) ∧
    t.toldBy i <+: (Stream.answersTo i t.log).flatMap (fun a => a.toList.flatMap (dueNotice key))
  /-- Every call comes to its end. -/
  finishes : ∀ i < t.calls.length,
    ∃ n, (t.run (List.replicate n (.advance i))).calls[i]? = some (.finished none)
  /-- At its end a call has done all that it was answered. -/
  settled : ∀ i, t.calls[i]? = some (.finished none) →
    ∃ answer, Stream.answersTo i t.log = [answer] ∧
      t.hungUpBy i = (answer.bind Released.connection).toList ∧
      t.toldBy i = answer.toList.flatMap (dueNotice key)
  /-- **Of all the calls that release the stream for one claim, the first alone** hangs up the
  connection that was attached last, and tells that the broadcast ended if it was on air. -/
  race : ∀ earlier span later, t.log = earlier ++ .claim true :: span ++ later →
    .claim true ∉ span → (∃ i answer, .release i answer ∈ span) →
    ∃ tenure winner released late,
      span = tenure ++ .release winner (some released) :: late ∧
      (∀ i answer, .release i answer ∉ tenure) ∧
      (∀ i answer, .release i answer ∈ late → t.hungUpBy i = [] ∧ t.toldBy i = []) ∧
      (t.calls[winner]? = some (.finished none) →
        t.hungUpBy winner = (Stream.lastAttached tenure).toList ∧
        t.toldBy winner = if .mark true ∈ span then [.disconnected key] else [])

theorem Sound.race (h : t.Sound key before) {earlier span later : List Stream.Touch}
    (hlog : t.log = earlier ++ .claim true :: span ++ later) (hno : .claim true ∉ span)
    (hsome : ∃ i answer, .release i answer ∈ span) :
    ∃ tenure winner released late,
      span = tenure ++ .release winner (some released) :: late ∧
      (∀ i answer, .release i answer ∉ tenure) ∧
      (∀ i answer, .release i answer ∈ late → t.hungUpBy i = [] ∧ t.toldBy i = []) ∧
      (t.calls[winner]? = some (.finished none) →
        t.hungUpBy winner = (Stream.lastAttached tenure).toList ∧
        t.toldBy winner = if .mark true ∈ span then [.disconnected key] else []) := by
  have hwell := Stream.wellHeld_of_regular h.regular
  obtain ⟨tenure, winner, released, late, rfl, hlast, hair, hfirst, hlate⟩ :=
    hwell.oneAnswered earlier span later hlog hno hsome
  refine ⟨tenure, winner, released, late, rfl, hfirst, fun i answer hi => ?_, fun hdone => ?_⟩
  · -- whoever comes late is told that nobody holds the stream
    obtain rfl := hlate i answer hi
    have hmem : none ∈ Stream.answersTo i t.log :=
      Stream.mem_answersTo.mpr (by rw [hlog]; simp [hi])
    obtain ⟨hone, hhung, htold⟩ := (h.accounts i).paid
    obtain ⟨only, honly⟩ :=
      List.length_eq_one_iff.mp (Nat.le_antisymm hone (List.length_pos_of_mem hmem))
    rw [honly] at hmem hhung htold
    obtain rfl := List.mem_singleton.mp hmem
    exact ⟨List.prefix_nil.mp hhung, List.prefix_nil.mp htold⟩
  · have hown := h.accounts winner
    rw [hdone] at hown
    obtain ⟨answer, hanswers, hhung, htold⟩ := hown.settled
    have hmem : some released ∈ Stream.answersTo winner t.log :=
      Stream.mem_answersTo.mpr (by rw [hlog]; simp)
    rw [hanswers] at hmem
    obtain rfl := List.mem_singleton.mp hmem
    refine ⟨by rw [hhung, ← hlast]; rfl, ?_⟩
    rw [htold, Option.toList_some, List.flatMap_singleton, dueNotice]
    simp only [hair]

theorem Sound.fair (h : t.Sound key before) : t.Fair key before where
  wellHeld := Stream.wellHeld_of_regular h.regular
  notices := h.notices
  closed := h.closed
  paid i := (h.accounts i).paid
  finishes i hi := by
    have hown := h.accounts i
    have hc := List.getElem?_eq_getElem hi
    rw [hc] at hown
    obtain ⟨q, marks, hleads⟩ := hown.finishes t.relay
    exact exists_run_of_leads hleads rfl hc
  settled i hi := by
    have hown := h.accounts i
    rw [hi] at hown
    exact hown.settled
  race _ _ _ := h.race

/-- **A stream is torn down once for each claim**, whoever asks for it and however the calls
interleave. -/
theorem torn_down_once (s : Stream) (hfree : s.hasPublisher = false) :
    (∀ asks, Stream.WellHeld (s.asked asks).1) ∧
      ∀ (r : Relay) (sid : StreamId), r.registry.stream? sid = some s → ∀ moves,
        (Contest.run { relay := r, sid } moves).Fair s.key r.notices := by
  have hnone := Stream.matches_nil hfree
  refine ⟨fun asks => ?_, fun r sid hs moves => ?_⟩
  · exact Stream.wellHeld_of_regular (hnone.asked Stream.regular_nil asks).1
  · have hsound : ({ relay := r, sid } : Contest).Sound s.key r.notices :=
      ⟨⟨s, hs, rfl, hnone⟩, Stream.regular_nil, fun _ => .absent, by simp,
        fun i c hc => absurd hc (by simp [hungUpBy, entries])⟩
    exact (hsound.run moves).fair

/-- Two calls release one broadcast that is on air.  While the faster one is at work the stream
is claimed again, and that negotiation fails. -/
def racing : List Move :=
  [.claim, .attach 0, .mark none, .enter, .enter, .advance 1, .advance 0, .claim, .attach 1] ++
  List.replicate 6 (.advance 1) ++ [.enter] ++ List.replicate 7 (.advance 2)

theorem torn_down_once_racing :
    let s := Stream.create "k" 2 0
    let r := { start {} fun _ => .ok { answer := "answer" } with
      registry := { queueCapacity := 2, streams := [s] } }
    let t := run { relay := r, sid := 0 } racing
    s.hasPublisher = false ∧ r.registry.stream? 0 = some s ∧
      t.calls.map Stage.isFinished = [true, true, true] ∧ t.hungUp = [(1, 0), (2, 1)] ∧
      t.told = [(1, .disconnected "k")] ∧ t.Fair s.key r.notices :=
  ⟨rfl, rfl, by decide, by decide, by decide, (torn_down_once _ rfl).2 _ 0 rfl racing⟩

end Contest

end Relay

end Simulcast
