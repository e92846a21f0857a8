import Simulcast.Proofs.Relay.Views
/-!
# Calls that run side by side

An ingest and a teardown take many steps, and the steps of several calls may come in any
order.  `Relay.Stage` says where a call stands and `Relay.Stage.step` is its next step; a
step is as much as happens at once, under one lock.  A call that runs alone does what the
whole operation does: `Relay.leads_ingest`, `Relay.leads_disconnect` and
`Relay.leads_teardown`.

`Relay.Busy` is a relay with the calls that are under way.  It also keeps book, for the
statements about runs and not for the relay: which call put which stream on air, which
broadcast a teardown ended, and which broadcast a notice was about.  A run
(`Relay.Busy.run`) is a list of moves: calls come in, and calls take their next step.
-/

namespace Simulcast

namespace Relay

/-! ### One call -/

structure Bid where
  offer : String
  key : String
  remote : Option SocketAddress := none
  deriving DecidableEq, Repr

/-- What a call answers; nothing for a teardown. -/
abbrev Reply := Option (Except RelayError String)

/-- A release on its way through the teardown. -/
structure Ending where
  stream : StreamId
  key : String
  released : Released
  /-- What the call answers when the teardown is done. -/
  reply : Reply

/-- Where a call stands; each stage is named for the step to come. -/
inductive Stage where
  | validate (bid : Bid)
  | claim (bid : Bid)
  | connect (bid : Bid) (sid : StreamId)
  | attach (bid : Bid) (sid : StreamId) (c : ConnectionId)
  | negotiate (bid : Bid) (sid : StreamId) (c : ConnectionId)
  | mark (bid : Bid) (sid : StreamId) (answer : String)
  /-- The stream is on air and the outside is not told yet. -/
  | announce (bid : Bid) (answer : String)
  | lookUp (key : String)
  | release (sid : StreamId) (reply : Reply)
  | forget (e : Ending)
  | hangUp (e : Ending)
  | clear (e : Ending)
  | drain (e : Ending)
  /-- The viewers that are left to close. -/
  | dismiss (e : Ending) (ids : List ViewerId)
  /-- All is done and the outside is not told yet. -/
  | report (e : Ending)
  | finished (reply : Reply)

/-- What a step may mean to the outside. -/
inductive Landmark where
  | onAir (sid : StreamId)
  | announced (key : String)
  | offAir (sid : StreamId)
  | reported (key : String)

/-- What the outside is told at a landmark. -/
def Landmark.notice? : Landmark → Option Notice
  | announced key => some (.connected key)
  | reported key => some (.disconnected key)
  | onAir _ | offAir _ => none

/-- What comes of a step. -/
structure Turn where
  stage : Stage
  relay : Relay
  mark : Option Landmark := none

/-- The next step of a call. -/
def Stage.step (r : Relay) : Stage → Turn
  | .validate bid =>
    match r.validate bid.key with
    | (false, r) => { stage := .finished (some (.error .unauthorized)), relay := r }
    | (true, r) => { stage := .claim bid, relay := r }
  | .claim bid =>
    match r.onRegistry (·.claim bid.key r.clock) with
    | (.error e, r) => { stage := .finished (some (.error e)), relay := r }
    | (.ok sid, r) => { stage := .connect bid sid, relay := r }
  | .connect bid sid =>
    match r.openConnection with
    | (.error e, r) => { stage := .release sid (some (.error e)), relay := r }
    | (.ok c, r) => { stage := .attach bid sid c, relay := r }
  | .attach bid sid c =>
    { stage := .negotiate bid sid c, relay := r.updateStream sid (·.attachConnection c) }
  | .negotiate bid sid c =>
    match r.answerOffer ⟨.broadcaster, c, bid.offer⟩ with
    | .error e => { stage := .release sid (some (.error e)), relay := r }
    | .ok agreement => { stage := .mark bid sid agreement.answer, relay := r }
  | .mark bid sid answer =>
    match r.markConnected sid bid.remote with
    | (false, r) => { stage := .finished (some (.error (.streamNotActive bid.key))), relay := r }
    | (true, r) => { stage := .announce bid answer, relay := r, mark := some (.onAir sid) }
  | .announce bid answer =>
    { stage := .finished (some (.ok answer)), relay := r.notify (.connected bid.key),
      mark := some (.announced bid.key) }
  | .lookUp key =>
    match r.registry.find? key with
    | some sid => { stage := .release sid none, relay := r }
    | none => { stage := .finished none, relay := r }
  | .release sid reply =>
    match r.registry.stream? sid with
    | none => { stage := .finished reply, relay := r }
    | some s =>
      match r.onRegistry (·.beginRelease sid) with
      | (none, r) => { stage := .finished reply, relay := r }
      | (some released, r) =>
        { stage := .forget ⟨sid, s.key, released, reply⟩, relay := r,
          mark := if released.wasConnected then some (.offAir sid) else none }
  | .forget e => { stage := .hangUp e, relay := { r with registry := r.registry.forget e.stream } }
  | .hangUp e => { stage := .clear e, relay := r.closeReleased e.released }
  | .clear e => { stage := .drain e, relay := r.clearLastMatched e.key }
  | .drain e =>
    { stage := .dismiss e (r.drainViewers e.stream).1, relay := (r.drainViewers e.stream).2 }
  | .dismiss e (id :: rest) => { stage := .dismiss e rest, relay := r.closeViewer id }
  | .dismiss e [] => { stage := .report e, relay := r }
  | .report e =>
    if e.released.wasConnected then
      { stage := .finished e.reply, relay := r.notify (.disconnected e.key),
        mark := some (.reported e.key) }
    else { stage := .finished e.reply, relay := r }
  | .finished reply => { stage := .finished reply, relay := r }

theorem notices_closeReleased (r : Relay) (released : Released) :
    (r.closeReleased released).notices = r.notices := by
  unfold closeReleased
  split <;> rfl

theorem notices_drainViewers (r : Relay) (sid : StreamId) :
    (r.drainViewers sid).2.notices = r.notices := by
  simp only [drainViewers, onRegistry]
  split <;> rename_i h <;> exact congrArg (fun p => p.2.notices) h.symm

theorem notices_closeViewer (r : Relay) (id : ViewerId) :
    (r.closeViewer id).notices = r.notices := by
  unfold closeViewer leaveHome
  split
  · rfl
  · simp only
    split
    · split <;> rfl
    · rfl

/-- A step tells the outside what its landmark says and nothing else. -/
theorem Stage.notices_step (r : Relay) (stage : Stage) :
    (stage.step r).relay.notices
      = r.notices ++ ((stage.step r).mark.bind Landmark.notice?).toList := by
  have hnone : ∀ notices : List Notice, notices = notices ++ (none : Option Notice).toList :=
    fun notices => (List.append_nil notices).symm
  cases stage with
  | validate bid =>
    have hsame : (r.validate bid.key).2.notices = r.notices := rfl
    simp only [step]
    split <;> rename_i he <;> rw [he] at hsame <;> exact hsame.trans (hnone _)
  | claim bid =>
    have hsame : (r.onRegistry (·.claim bid.key r.clock)).2.notices = r.notices := rfl
    simp only [step]
    split <;> rename_i he <;> rw [he] at hsame <;> exact hsame.trans (hnone _)
  | connect bid sid =>
    obtain ⟨e, he⟩ | he := r.openConnection_cases <;> simp only [step, he] <;> exact hnone _
  | attach bid sid c => exact hnone _
  | negotiate bid sid c => simp only [step]; split <;> exact hnone _
  | mark bid sid answer =>
    obtain he | ⟨s, -, -, he⟩ := r.markConnected_cases sid bid.remote <;>
      simp only [step, he] <;> exact hnone _
  | announce bid answer => rfl
  | lookUp key => simp only [step]; split <;> exact hnone _
  | release sid reply =>
    simp only [step]
    split
    · exact hnone _
    · obtain ⟨he, -⟩ | ⟨s, -, -, he⟩ := r.registry.beginRelease_cases sid <;>
        simp only [onRegistry, he]
      · exact hnone _
      · split <;> exact hnone _
  | forget e => exact hnone _
  | hangUp e => exact (notices_closeReleased ..).trans (hnone _)
  | clear e => exact hnone _
  | drain e => exact (notices_drainViewers ..).trans (hnone _)
  | dismiss e ids =>
    cases ids with
    | nil => exact hnone _
    | cons id rest => exact (notices_closeViewer r id).trans (hnone _)
  | report e =>
    simp only [step]
    split
    · rfl
    · exact hnone _
  | finished reply => exact hnone _

/-! ### A call alone -/

/-- Steps of one call lead from one stage to another, past the given landmarks. -/
inductive Leads : Relay → Stage → List Landmark → Relay → Stage → Prop where
  | refl (r : Relay) (stage : Stage) : Leads r stage [] r stage
  | step {r r' : Relay} {stage stage' : Stage} {marks : List Landmark}
      (rest : Leads (stage.step r).relay (stage.step r).stage marks r' stage') :
      Leads r stage ((stage.step r).mark.toList ++ marks) r' stage'

variable {r r' r'' : Relay} {stage stage' stage'' : Stage} {marks marks' : List Landmark}

theorem Leads.trans (h : Leads r stage marks r' stage') (g : Leads r' stage' marks' r'' stage'') :
    Leads r stage (marks ++ marks') r'' stage'' := by
  induction h with
  | refl => exact g
  | step rest ih =>
    rw [List.append_assoc]
    exact .step (ih g)

/-- A step past no landmark. -/
theorem Leads.quiet (hm : (stage.step r).mark = none)
    (h : Leads (stage.step r).relay (stage.step r).stage marks r' stage') :
    Leads r stage marks r' stage' := by
  have hs := Leads.step h
  rw [hm] at hs
  exact hs

/-- A call that is left alone comes to its end. -/
def Finishes (r : Relay) (stage : Stage) (r' : Relay) (reply : Reply) : Prop :=
  ∃ marks, Leads r stage marks r' (.finished reply)

theorem Finishes.finished (r : Relay) (reply : Reply) : Finishes r (.finished reply) r reply :=
  ⟨[], .refl r _⟩

theorem Finishes.next {reply : Reply}
    (h : Finishes (stage.step r).relay (stage.step r).stage r' reply) :
    Finishes r stage r' reply := by
  obtain ⟨marks, h⟩ := h
  exact ⟨_, .step h⟩

theorem Leads.finishes {reply : Reply} (h : Leads r stage marks r' stage')
    (g : Finishes r' stage' r'' reply) : Finishes r stage r'' reply := by
  obtain ⟨marks', g⟩ := g
  exact ⟨_, h.trans g⟩

theorem leads_dismiss (e : Ending) (ids : List ViewerId) (r : Relay) :
    Leads r (.dismiss e ids) [] (ids.foldl closeViewer r) (.report e) := by
  induction ids generalizing r with
  | nil => exact .quiet rfl (.refl r _)
  | cons id rest ih => exact .quiet rfl (ih (r.closeViewer id))

theorem leads_drain (e : Ending) (r : Relay) :
    ∃ q, Leads r (.drain e) [] q (.report e) := ⟨_, .quiet rfl (leads_dismiss e _ _)⟩

/-- What follows a release, up to the notice. -/
theorem leads_hangUp (e : Ending) (r : Relay) :
    ∃ q, Leads r (.hangUp e) [] q (.report e) ∧
      r.finishTeardown e.stream e.key e.released
        = if e.released.wasConnected then q.notify (.disconnected e.key) else q :=
  ⟨_, .quiet rfl (.quiet rfl (.quiet rfl (leads_dismiss e _ _))), rfl⟩

theorem finishes_report (e : Ending) (r : Relay) :
    Finishes r (.report e)
      (if e.released.wasConnected then r.notify (.disconnected e.key) else r) e.reply := by
  refine .next ?_
  simp only [Stage.step]
  split
  · exact .finished _ _
  · exact .finished _ _

/-- **A teardown alone**, from the release on, does what `Relay.teardown` does. -/
theorem finishes_release (r : Relay) (sid : StreamId) (reply : Reply) :
    Finishes r (.release sid reply) (r.teardown sid) reply := by
  refine .next ?_
  simp only [Stage.step]
  cases hs : r.registry.stream? sid with
  | none =>
    rw [teardown_of_none hs]
    exact .finished _ _
  | some s =>
    cases hp : s.hasPublisher with
    | false =>
      rw [teardown_of_free hs hp]
      simp only [onRegistry, Registry.beginRelease_of_free hs hp]
      exact .finished _ _
    | true =>
      have hb := Registry.beginRelease_of_held hs hp
      obtain ⟨q, hquiet, hfinish⟩ := leads_hangUp ⟨sid, s.key, ⟨s.connection, s.isLive⟩, reply⟩
        { r with registry := (r.registry.put sid s.released).forget sid }
      have htear : r.teardown sid
          = if s.isLive then q.notify (.disconnected s.key) else q := by
        rw [teardown, hs]
        simp only [onRegistry, Registry.release, hb]
        exact hfinish
      rw [htear]
      simp only [onRegistry, hb]
      exact .next (hquiet.finishes (finishes_report _ q))

theorem finishes_lookUp (r : Relay) (key : String) :
    Finishes r (.lookUp key) (r.disconnect key) none := by
  refine .next ?_
  simp only [Stage.step, disconnect]
  cases r.registry.find? key with
  | none => exact .finished _ _
  | some sid => exact finishes_release r sid none

/-- **An ingest alone** does and answers what `Relay.ingest` does. -/
theorem finishes_validate (r : Relay) (bid : Bid) :
    Finishes r (.validate bid) (r.ingest bid.offer bid.key bid.remote).2
      (some (r.ingest bid.offer bid.key bid.remote).1) := by
  unfold ingest
  refine .next ?_
  simp only [Stage.step]
  obtain ⟨known, r⟩ := r.validate bid.key
  cases known with
  | false => exact .finished _ _
  | true =>
    refine .next ?_
    simp only [Stage.step]
    obtain ⟨taken, r⟩ := r.onRegistry (·.claim bid.key r.clock)
    cases taken with
    | error e => exact .finished _ _
    | ok sid =>
      refine .next ?_
      simp only [Stage.step, negotiateIngest]
      obtain ⟨opened, r⟩ := r.openConnection
      cases opened with
      | error e => exact finishes_release r sid _
      | ok c =>
        refine .next (.next ?_)
        simp only [Stage.step]
        have hsame : (r.updateStream sid (·.attachConnection c)).answerOffer
            ⟨.broadcaster, c, bid.offer⟩ = r.answerOffer ⟨.broadcaster, c, bid.offer⟩ := rfl
        rw [hsame]
        cases r.answerOffer ⟨.broadcaster, c, bid.offer⟩ with
        | error e => exact finishes_release _ sid _
        | ok agreement =>
          simp only [Except.map]
          refine .next ?_
          simp only [Stage.step]
          obtain ⟨connected, r⟩ := (r.updateStream sid (·.attachConnection c)).markConnected sid
            bid.remote
          cases connected with
          | false => exact .finished _ _
          | true => exact .next (.finished _ _)

/-! ### Many calls -/

/-- The name of a call: its place among all calls. -/
abbrev CallId := Nat

structure Call where
  stage : Stage
  /-- The ingest whose broadcast this call took off the air. -/
  ended : Option CallId := none

/-- A notice with the ingest whose broadcast it is about; none for a broadcast that was on
air before the first call. -/
structure Told where
  notice : Notice
  broadcast : Option CallId
  deriving DecidableEq

/-- A relay with all calls so far. -/
structure Busy where
  relay : Relay
  calls : List Call := []
  /-- Which call put which stream on air, newest first. -/
  broadcasts : List (StreamId × CallId) := []
  /-- What the outside was told, oldest first. -/
  told : List Told := []

/-- What can be asked of a busy relay. -/
inductive Request where
  | ingest (bid : Bid)
  | disconnect (key : String)
  /-- The transport of a stream failed, or the relay shuts down. -/
  | lose (sid : StreamId)

def Request.firstStage : Request → Stage
  | .ingest bid => .validate bid
  | .disconnect key => .lookUp key
  | .lose sid => .release sid none

inductive Move where
  | enter (request : Request)
  | advance (call : CallId)

namespace Busy

/-- The call that put a stream on air last. -/
def onAir? (b : Busy) (sid : StreamId) : Option CallId := Entries.lookup sid b.broadcasts

def enter (b : Busy) (request : Request) : Busy :=
  { b with calls := b.calls ++ [{ stage := request.firstStage }] }

/-- A call took a step that comes to `turn`. -/
def settle (b : Busy) (id : CallId) (call : Call) (turn : Turn) : Busy :=
  let next := { b with
    relay := turn.relay, calls := b.calls.set id { call with stage := turn.stage } }
  match turn.mark with
  | none => next
  | some (.onAir sid) => { next with broadcasts := (sid, id) :: b.broadcasts }
  | some (.announced key) => { next with told := b.told ++ [⟨.connected key, some id⟩] }
  | some (.offAir sid) =>
    { next with calls := b.calls.set id { stage := turn.stage, ended := b.onAir? sid } }
  | some (.reported key) => { next with told := b.told ++ [⟨.disconnected key, call.ended⟩] }

def advance (b : Busy) (id : CallId) : Busy :=
  match b.calls[id]? with
  | some call => b.settle id call (call.stage.step b.relay)
  | none => b

def move (b : Busy) : Move → Busy
  | .enter request => b.enter request
  | .advance id => b.advance id

def run (b : Busy) (moves : List Move) : Busy := moves.foldl move b

theorem mem_broadcasts_of_onAir? {b : Busy} {sid : StreamId} {i : CallId}
    (h : b.onAir? sid = some i) : (sid, i) ∈ b.broadcasts := by
  rw [onAir?] at h
  generalize b.broadcasts = entries at h ⊢
  induction entries with
  | nil => exact absurd h (by simp [Entries.lookup])
  | cons e rest ih =>
    rw [Entries.lookup] at h
    split at h
    · rename_i he
      obtain rfl := Option.some.inj h
      exact he ▸ List.mem_cons_self
    · exact List.mem_cons_of_mem _ (ih h)

theorem run_append (b : Busy) (ms ns : List Move) : b.run (ms ++ ns) = (b.run ms).run ns :=
  List.foldl_append

theorem advance_of_some {b : Busy} {id : CallId} {call : Call} (h : b.calls[id]? = some call) :
    b.advance id = b.settle id call (call.stage.step b.relay) := by
  rw [advance, h]

/-- The book of a step. -/
theorem told_settle (b : Busy) (id : CallId) (call : Call) (turn : Turn) :
    (b.settle id call turn).told.map Told.notice
        = b.told.map Told.notice ++ (turn.mark.bind Landmark.notice?).toList ∧
      (b.settle id call turn).relay = turn.relay := by
  unfold settle
  cases turn.mark with
  | none => exact ⟨(List.append_nil _).symm, rfl⟩
  | some m =>
    cases m with
    | onAir sid => exact ⟨(List.append_nil _).symm, rfl⟩
    | offAir sid => exact ⟨(List.append_nil _).symm, rfl⟩
    | announced key => exact ⟨List.map_append, rfl⟩
    | reported key => exact ⟨List.map_append, rfl⟩

/-- **The book is true**: what it says the outside was told is what the relay told. -/
theorem notices_run {b : Busy} {before : List Notice}
    (h : b.relay.notices = before ++ b.told.map Told.notice) (moves : List Move) :
    (b.run moves).relay.notices = before ++ (b.run moves).told.map Told.notice := by
  induction moves generalizing b with
  | nil => exact h
  | cons m rest ih =>
    cases m with
    | enter request => exact ih (b := b.enter request) h
    | advance id =>
      refine ih (b := b.advance id) ?_
      cases hc : b.calls[id]? with
      | none =>
        rw [advance, hc]
        exact h
      | some call =>
        obtain ⟨htold, hrelay⟩ := b.told_settle id call (call.stage.step b.relay)
        rw [advance_of_some hc, htold, hrelay, Stage.notices_step, h, List.append_assoc]

/-- A step past no landmark changes the relay and the one call. -/
theorem advance_quiet {b : Busy} {id : CallId} {call : Call} (h : b.calls[id]? = some call)
    (hm : (call.stage.step b.relay).mark = none) :
    b.advance id = { b with
      relay := (call.stage.step b.relay).relay
      calls := b.calls.set id { call with stage := (call.stage.step b.relay).stage } } := by
  rw [advance_of_some h, settle, hm]

theorem calls_enter (b : Busy) (request : Request) (j : CallId) :
    (b.enter request).calls[j]?
      = if j = b.calls.length then some { stage := request.firstStage } else b.calls[j]? :=
  getElem?_concat b.calls _ j

/-- **Steps of one call past no landmark**, while the others stand still. -/
theorem run_of_leads {b : Busy} {id : CallId} {ended : Option CallId}
    (hc : b.calls[id]? = some ⟨stage, ended⟩) (h : Leads b.relay stage [] r' stage') :
    ∃ n, b.run (List.replicate n (.advance id))
      = { b with relay := r', calls := b.calls.set id ⟨stage', ended⟩ } := by
  generalize hr : b.relay = r at h
  generalize hm : ([] : List Landmark) = marks at h
  induction h generalizing b with
  | refl r stage =>
    obtain ⟨hlt, hget⟩ := List.getElem?_eq_some_iff.mp hc
    refine ⟨0, ?_⟩
    rw [← hr, ← hget, List.set_getElem_self]
    rfl
  | @step r r' stage stage' marks rest ih =>
    subst hr
    obtain ⟨hmark, hrest⟩ := List.append_eq_nil_iff.mp hm.symm
    have hnext := advance_quiet hc (Option.toList_eq_nil_iff.mp hmark)
    have hc' : (b.calls.set id ⟨(stage.step b.relay).stage, ended⟩)[id]?
        = some ⟨(stage.step b.relay).stage, ended⟩ := by
      rw [getElem?_set_of_some hc, if_pos rfl]
    obtain ⟨n, hn⟩ := ih (b := b.advance id) (by rw [hnext]; exact hc') (by rw [hnext]) hrest.symm
    refine ⟨n + 1, ?_⟩
    rw [List.replicate_succ]
    show (b.advance id).run _ = _
    rw [hn, hnext]
    simp only [List.set_set]

end Busy

end Relay

end Simulcast
