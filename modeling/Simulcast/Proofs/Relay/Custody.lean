import Simulcast.Proofs.Relay.Holds
/-!
# Who closes the broadcaster's connection

An ingest opens a connection, attaches it to the stream that it claimed, and from then on
whoever releases the stream closes it.  The ingest itself closes nothing: if it fails, it
releases the stream, or somebody else has done so before.

This goes wrong in one place.  The connection is attached without a look at the phase, so
if the stream was released between the claim and the attaching (`Relay.Busy.AttachesLate`)
nobody will release it again.  `Relay.Busy.secured_iff` says that this is the only place:
in every run of one ingest among any number of teardowns, once all calls are over and the
ingest has failed, its connection is closed and no stream off the air has one attached,
exactly if the connection was not attached late.  `Relay.Busy.not_secured_lateIngest` is
the shortest bad run.

The proof follows the connection from hand to hand (`Relay.Busy.Cared`): it is attached to
the stream of an ingest that goes on, or a release took it and is about to close it, or it
is closed.
-/

namespace Simulcast

namespace Relay

namespace Busy

/-! ### Late connections -/

/-- The next move attaches a connection to a stream that is off the air already. -/
def AttachesLate (b : Busy) (m : Move) : Prop :=
  ∃ j bid sid c s, m = .advance j ∧ b.stage? j = some (.attach bid sid c) ∧
    b.relay.registry.stream? sid = some s ∧ s.phase = .disconnected

/-- Somewhere in a run a connection is attached late. -/
def Late (b : Busy) (moves : List Move) : Prop :=
  ∃ before m after, moves = before ++ m :: after ∧ (b.run before).AttachesLate m

theorem late_cons_iff (b : Busy) (m : Move) (moves : List Move) :
    b.Late (m :: moves) ↔ b.AttachesLate m ∨ (b.move m).Late moves := by
  constructor
  · rintro ⟨before, k, after, he, h⟩
    cases before with
    | nil =>
      obtain ⟨rfl, rfl⟩ := List.cons.inj he
      exact .inl h
    | cons k' rest =>
      obtain ⟨rfl, rfl⟩ := List.cons.inj he
      exact .inr ⟨rest, k, after, rfl, h⟩
  · rintro (h | ⟨before, k, after, rfl, h⟩)
    · exact ⟨[], m, moves, rfl, h⟩
    · exact ⟨m :: before, k, after, rfl, h⟩

theorem not_late_nil (b : Busy) : ¬ b.Late [] := by
  rintro ⟨before, m, after, he, -⟩
  exact absurd he (by simp)

/-! ### From hand to hand -/

/-- Somebody answers for a connection while the ingest is at a stage: the stream that the
ingest counts on has it, or a call is about to close it, or it is closed. -/
def Cared (b : Busy) (c : ConnectionId) (stage : Stage) : Prop :=
  (∃ sid p, stage.Tends sid ∧ b.relay.registry.hold? sid = some (p, some c) ∧
    p.holdsStream = true) ∨
  (∃ j other, b.stage? j = some other ∧ other.inHand = some c) ∨
  c ∈ b.relay.connections.closed

/-- The stream of an ingest is negotiated, or somebody has released it. -/
def Bids (b : Busy) (sid : StreamId) : Prop :=
  ∃ p c, b.relay.registry.hold? sid = some (p, c) ∧ (p = .negotiating ∨ p = .disconnected)

/-- What is true while the ingest is at a stage.  Its connection gets the name `n`. -/
def Stands (b : Busy) (n : ConnectionId) : Stage → Prop
  | .validate _ | .claim _ => b.relay.connections.opened = n
  | .connect _ sid => b.relay.connections.opened = n ∧ b.Bids sid
  | .attach _ sid c => b.relay.connections.opened = n + 1 ∧ c = n ∧ b.Bids sid
  | .negotiate bid sid c =>
    b.relay.connections.opened = n + 1 ∧ b.Bids sid ∧ b.Cared n (.negotiate bid sid c)
  | .mark bid sid answer =>
    b.relay.connections.opened = n + 1 ∧ b.Bids sid ∧ b.Cared n (.mark bid sid answer)
  | .announce _ _ | .finished (some (.ok _)) =>
    b.relay.connections.opened = n ∨ b.relay.connections.opened = n + 1
  | stage => b.relay.connections.opened = n ∨
    b.relay.connections.opened = n + 1 ∧ b.Cared n stage

section

variable {b b' : Busy} {n : ConnectionId} {id : CallId} {stage st : Stage}

/-- **A teardown hands a connection on**, or closes it. -/
theorem Cared.teardown (h : b.Cared n st) (hs : b.stage? id = some stage)
    (ht : stage.IsTeardown) : (b.advance id).Cared n st := by
  have hstep := stage.teardown_step b.relay ht
  have hown : (b.advance id).stage? id = some (stage.step b.relay).stage := by
    rw [stage?_advance hs, if_pos rfl]
  unfold Cared
  rw [relay_advance hs]
  rcases h with ⟨sid, p, htends, hhold, hp⟩ | ⟨j, other, hj, hin⟩ | hclosed
  · rcases hstep.hold? with hsame | ⟨sid', p', c', hhold', -, hin, hnew⟩
    · exact .inl ⟨sid, p, htends, by rw [hsame, hhold], hp⟩
    · by_cases he : sid = sid'
      · subst he
        obtain ⟨-, rfl⟩ := Prod.mk.inj (Option.some.inj (hhold'.symm.trans hhold))
        exact .inr (.inl ⟨id, _, hown, hin⟩)
      · exact .inl ⟨sid, p, htends, by rw [hnew, if_neg he, hhold], hp⟩
  · by_cases hid : j = id
    · subst hid
      obtain rfl := Option.some.inj (hs.symm.trans hj)
      exact .inr ((hstep.inHand n hin).imp_left fun hin => ⟨j, _, hown, hin⟩)
    · exact .inr (.inl ⟨j, other, by rw [stage?_advance hs, if_neg hid, hj], hin⟩)
  · exact .inr (.inr (hstep.closed n hclosed))

theorem Bids.teardown {sid : StreamId} (h : b.Bids sid) (hs : b.stage? id = some stage)
    (ht : stage.IsTeardown) : (b.advance id).Bids sid := by
  obtain ⟨p, c, hhold, hp⟩ := h
  unfold Bids
  rw [relay_advance hs]
  rcases (stage.teardown_step b.relay ht).hold? with hsame | ⟨sid', p', c', -, -, -, hnew⟩
  · exact ⟨p, c, by rw [hsame, hhold], hp⟩
  · by_cases he : sid = sid'
    · exact ⟨.disconnected, none, by rw [hnew, if_pos he], .inr rfl⟩
    · exact ⟨p, c, by rw [hnew, if_neg he, hhold], hp⟩

theorem Stands.frame (h : b.Stands n st)
    (hopened : b'.relay.connections.opened = b.relay.connections.opened)
    (hbids : ∀ sid, b.Bids sid → b'.Bids sid) (hcared : b.Cared n st → b'.Cared n st) :
    b'.Stands n st := by
  cases st with
  | validate | claim => exact hopened.trans h
  | connect bid sid => exact ⟨hopened.trans h.1, hbids sid h.2⟩
  | attach bid sid c => exact ⟨hopened.trans h.1, h.2.1, hbids sid h.2.2⟩
  | negotiate bid sid c => exact ⟨hopened.trans h.1, hbids sid h.2.1, hcared h.2.2⟩
  | mark bid sid answer => exact ⟨hopened.trans h.1, hbids sid h.2.1, hcared h.2.2⟩
  | announce => exact h.imp hopened.trans hopened.trans
  | lookUp | release | forget | hangUp | clear | drain | dismiss | report =>
    exact h.imp hopened.trans fun h => ⟨hopened.trans h.1, hcared h.2⟩
  | finished reply =>
    match reply with
    | some (.ok _) => exact h.imp hopened.trans hopened.trans
    | some (.error _) | none =>
      exact h.imp hopened.trans fun h => ⟨hopened.trans h.1, hcared h.2⟩

theorem stands_of_teardown (ht : st.IsTeardown)
    (h : b.relay.connections.opened = n ∨
      b.relay.connections.opened = n + 1 ∧ b.Cared n st) : b.Stands n st := by
  cases st with
  | lookUp | release | forget | hangUp | clear | drain | dismiss | report => exact h
  | finished reply =>
    match reply with
    | some (.ok _) => exact h.imp_right And.left
    | some (.error _) | none => exact h
  | _ => exact ht.elim

/-- The relay while no connection was attached late. -/
structure Kept (b : Busy) (n : ConnectionId) : Prop where
  idle : ∀ sid c, b.relay.registry.hold? sid = some (.disconnected, c) → c = none
  others : ∀ j stage, j ≠ 0 → b.stage? j = some stage → stage.IsTeardown
  stands : ∃ stage, b.stage? 0 = some stage ∧ b.Stands n stage

theorem Kept.idle_teardown (h : b.Kept n) (hs : b.stage? id = some stage)
    (ht : stage.IsTeardown) (sid : StreamId) (c : Option ConnectionId)
    (hhold : (b.advance id).relay.registry.hold? sid = some (.disconnected, c)) : c = none := by
  rw [relay_advance hs] at hhold
  rcases (stage.teardown_step b.relay ht).hold? with hsame | ⟨sid', p', c', -, -, -, hnew⟩
  · exact h.idle sid c (hsame sid ▸ hhold)
  · rw [hnew] at hhold
    split at hhold
    · exact (Prod.mk.inj (Option.some.inj hhold)).2.symm
    · exact h.idle sid c hhold

theorem Kept.other (h : b.Kept n) (hid : id ≠ 0) (hs : b.stage? id = some stage) :
    (b.advance id).Kept n := by
  have ht := h.others id stage hid hs
  have hstep := stage.teardown_step b.relay ht
  refine ⟨h.idle_teardown hs ht, fun j other hj ho => ?_, ?_⟩
  · rw [stage?_advance hs] at ho
    split at ho
    · exact Option.some.inj ho ▸ hstep.next
    · exact h.others j other hj ho
  · obtain ⟨st, hst, hstands⟩ := h.stands
    refine ⟨st, by rw [stage?_advance hs, if_neg (Ne.symm hid), hst], hstands.frame ?_ ?_ ?_⟩
    · rw [relay_advance hs, hstep.opened]
    · exact fun sid hb => hb.teardown hs ht
    · exact fun hc => hc.teardown hs ht

theorem Kept.own (h : b.Kept n) (hs : b.stage? 0 = some st) {turn : Turn}
    (hstep : st.step b.relay = turn)
    (hidle : ∀ sid c, turn.relay.registry.hold? sid = some (.disconnected, c) → c = none)
    (hstands : ∀ b' : Busy, b'.relay = turn.relay → (∀ j, j ≠ 0 → b'.stage? j = b.stage? j) →
      b'.Stands n turn.stage) : (b.advance 0).Kept n := by
  subst hstep
  have hrelay := relay_advance hs
  have hothers : ∀ j, j ≠ 0 → (b.advance 0).stage? j = b.stage? j :=
    fun j hj => by rw [stage?_advance hs, if_neg hj]
  refine ⟨fun sid c hc => hidle sid c (hrelay ▸ hc), fun j other hj ho => ?_,
    _, by rw [stage?_advance hs, if_pos rfl], hstands _ hrelay hothers⟩
  rw [hothers j hj] at ho
  exact h.others j other hj ho

theorem Kept.own_teardown (h : b.Kept n) (hs : b.stage? 0 = some st) (ht : st.IsTeardown)
    (hstands : b.Stands n st) : (b.advance 0).Kept n := by
  have hstep := st.teardown_step b.relay ht
  have hrelay := relay_advance hs
  have hopened : (b.advance 0).relay.connections.opened = b.relay.connections.opened := by
    rw [hrelay, hstep.opened]
  refine ⟨h.idle_teardown hs ht, fun j other hj ho => ?_,
    _, by rw [stage?_advance hs, if_pos rfl], ?_⟩
  · rw [stage?_advance hs, if_neg hj] at ho
    exact h.others j other hj ho
  have hmove : (b.relay.connections.opened = n ∨
      b.relay.connections.opened = n + 1 ∧ b.Cared n st) →
      (b.advance 0).Stands n (st.step b.relay).stage := by
    intro hold
    refine stands_of_teardown hstep.next (hold.imp hopened.trans ?_)
    rintro ⟨ho, hc⟩
    refine ⟨hopened.trans ho, ?_⟩
    -- what the ingest counted on is released now
    rcases hc.teardown hs ht with ⟨sid, p, htends, hhold, hp⟩ | hrest
    · rw [hrelay] at hhold
      rw [hstep.tended sid htends p _ hhold] at hp
      exact absurd hp (by simp)
    · exact .inr hrest
  cases st with
  | lookUp | release | forget | hangUp | clear | drain | dismiss | report => exact hmove hstands
  | finished reply =>
    exact hstands.frame hopened (fun sid hb => hb.teardown hs ht) fun hc => hc.teardown hs ht
  | _ => exact ht.elim

/-- The connection is cared for while the ingest takes a step beside it. -/
theorem Cared.own (h : b.Cared n st) (hs : b.stage? 0 = some st) (hin : st.inHand = none)
    (hb : b.relay.Beside b'.relay) (hothers : ∀ j, j ≠ 0 → b'.stage? j = b.stage? j)
    {st' : Stage} (htends : ∀ sid, st.Tends sid → st'.Tends sid) : b'.Cared n st' := by
  rcases h with ⟨sid, p, ht, hhold, hp⟩ | ⟨j, other, hj, ho⟩ | hclosed
  · exact .inl ⟨sid, p, htends sid ht, by rw [hb.hold?, hhold], hp⟩
  · refine .inr (.inl ⟨j, other, ?_, ho⟩)
    rw [hothers, hj]
    rintro rfl
    obtain rfl := Option.some.inj (hs.symm.trans hj)
    rw [hin] at ho
    exact absurd ho (by simp)
  · exact .inr (.inr (hb.closed n hclosed))

theorem Kept.claim (h : b.Kept n) {bid : Bid} (hs : b.stage? 0 = some (.claim bid))
    (hopened : b.relay.connections.opened = n) : (b.advance 0).Kept n := by
  obtain ⟨e, he⟩ | ⟨sid, g, he, hg⟩ := b.relay.registry.hold?_claim bid.key b.relay.clock
  · refine h.own hs (by simp only [Stage.step, onRegistry, he]; rfl) h.idle fun b' hr _ => ?_
    exact .inl (by rw [hr]; exact hopened)
  · refine h.own hs (by simp only [Stage.step, onRegistry, he]; rfl) ?_ fun b' hr _ => ?_
    · intro j c hc
      have hc : g.hold? j = some (.disconnected, c) := hc
      rw [hg] at hc
      split at hc
      · exact absurd hc (by simp)
      · exact h.idle j c hc
    · refine ⟨by rw [hr]; exact hopened, .negotiating, none, ?_, .inl rfl⟩
      rw [hr]
      exact (hg sid).trans (if_pos rfl)

/-- **The ingest attaches its connection**, and the stream is still held. -/
theorem Kept.attach (h : b.Kept n) {bid : Bid} {sid : StreamId} {c : ConnectionId}
    (hs : b.stage? 0 = some (.attach bid sid c))
    (hstands : b.Stands n (.attach bid sid c)) (hlate : ¬ b.AttachesLate (.advance 0)) :
    (b.advance 0).Kept n := by
  obtain ⟨hopened, rfl, p, d, hhold, hp⟩ := hstands
  obtain rfl : p = .negotiating := by
    refine hp.resolve_right ?_
    rintro rfl
    obtain ⟨s, hstream, hheld⟩ := Option.map_eq_some_iff.mp hhold
    exact hlate ⟨0, bid, sid, c, s, rfl, hs, hstream, congrArg Prod.fst hheld⟩
  have hnew := b.relay.hold?_attachConnection sid c
  rw [hhold] at hnew
  refine h.own hs rfl ?_ fun b' hr _ => ?_
  · intro j d hd
    have hd := (hnew j).symm.trans hd
    split at hd
    · exact absurd hd (by simp)
    · exact h.idle j d hd
  · have hattached : b'.relay.registry.hold? sid = some (.negotiating, some c) := by
      rw [hr]
      exact (hnew sid).trans (if_pos rfl)
    exact ⟨by rw [hr]; exact hopened, ⟨_, _, hattached, .inl rfl⟩,
      .inl ⟨sid, _, rfl, hattached, rfl⟩⟩

/-- **The ingest puts its stream on air**, or finds that it was released. -/
theorem Kept.mark (h : b.Kept n) {bid : Bid} {sid : StreamId} {answer : String}
    (hs : b.stage? 0 = some (.mark bid sid answer))
    (hstands : b.Stands n (.mark bid sid answer)) : (b.advance 0).Kept n := by
  obtain ⟨hopened, ⟨p, d, hhold, hp⟩, hcared⟩ := hstands
  obtain ⟨he, hnot⟩ | ⟨c, g, -, he, hg⟩ := b.relay.markConnected_hold? sid bid.remote
  · refine h.own hs (by simp only [Stage.step, he]; rfl) h.idle fun b' hr hothers => ?_
    refine .inr ⟨by rw [hr]; exact hopened, ?_⟩
    have hb : b.relay.Beside b'.relay := by rw [hr]; exact .refl _
    -- the stream is not negotiated any more, so it is off the air and has no connection
    have hcared : b.Cared n (.finished none) := by
      refine hcared.imp_left ?_
      rintro ⟨j, q, rfl, hj, hq⟩
      obtain ⟨rfl, -⟩ := Prod.mk.inj (Option.some.inj (hhold.symm.trans hj))
      rw [hp.resolve_left (hnot p d hhold)] at hq
      exact absurd hq (by decide)
    rcases hcared with ⟨j, q, ht, -⟩ | ⟨j, other, hj, ho⟩ | hclosed
    · exact ht.elim
    · refine .inr (.inl ⟨j, other, ?_, ho⟩)
      rw [hothers, hj]
      rintro rfl
      obtain rfl := Option.some.inj (hs.symm.trans hj)
      exact absurd ho (by simp [Stage.inHand])
    · exact .inr (.inr (hb.closed n hclosed))
  · refine h.own hs (by simp only [Stage.step, he]; rfl) ?_ fun b' hr _ => ?_
    · intro j d hd
      have hd : g.hold? j = some (.disconnected, d) := hd
      rw [hg] at hd
      split at hd
      · exact absurd hd (by simp)
      · exact h.idle j d hd
    · exact .inr (by rw [hr]; exact hopened)

/-- **The ingest takes a step** that attaches nothing late. -/
theorem Kept.advance_own (h : b.Kept n) (hlate : ¬ b.AttachesLate (.advance 0)) :
    (b.advance 0).Kept n := by
  obtain ⟨st, hs, hstands⟩ := h.stands
  cases st with
  | validate bid =>
    have hrelay : (b.relay.validate bid.key).2.registry = b.relay.registry ∧
        (b.relay.validate bid.key).2.connections = b.relay.connections := ⟨rfl, rfl⟩
    cases hv : b.relay.validate bid.key with
    | mk known q =>
      rw [hv] at hrelay
      have hidle : ∀ sid c, q.registry.hold? sid = some (.disconnected, c) → c = none :=
        fun sid c hc => h.idle sid c (hrelay.1 ▸ hc)
      have hopened : q.connections.opened = n := by rw [hrelay.2]; exact hstands
      cases known with
      | false =>
        refine h.own hs (by simp only [Stage.step, hv]; rfl) hidle fun b' hr _ => ?_
        exact .inl (by rw [hr]; exact hopened)
      | true =>
        refine h.own hs (by simp only [Stage.step, hv]; rfl) hidle fun b' hr _ => ?_
        show b'.relay.connections.opened = n
        rw [hr]
        exact hopened
  | claim bid => exact h.claim hs hstands
  | connect bid sid =>
    obtain ⟨hopened, hbids⟩ := hstands
    obtain ⟨e, he⟩ | he := b.relay.openConnection_cases
    · refine h.own hs (by simp only [Stage.step, he]; rfl) h.idle fun b' hr _ => ?_
      exact .inl (by rw [hr]; exact hopened)
    · refine h.own hs (by simp only [Stage.step, he]; rfl) h.idle fun b' hr _ => ?_
      refine ⟨?_, hopened, ?_⟩
      · rw [hr]
        exact congrArg (· + 1) hopened
      · obtain ⟨p, c, hhold, hp⟩ := hbids
        exact ⟨p, c, by rw [hr]; exact hhold, hp⟩
  | attach bid sid c => exact h.attach hs hstands hlate
  | negotiate bid sid c =>
    obtain ⟨hopened, hbids, hcared⟩ := hstands
    cases ha : b.relay.answerOffer ⟨.broadcaster, c, bid.offer⟩ with
    | error e =>
      refine h.own hs (by simp only [Stage.step, ha]; rfl) h.idle fun b' hr hothers => ?_
      have hb : b.relay.Beside b'.relay := by rw [hr]; exact .refl _
      exact .inr ⟨by rw [hr]; exact hopened, hcared.own hs rfl hb hothers fun _ ht => ht⟩
    | ok agreement =>
      refine h.own hs (by simp only [Stage.step, ha]; rfl) h.idle fun b' hr hothers => ?_
      have hb : b.relay.Beside b'.relay := by rw [hr]; exact .refl _
      refine ⟨by rw [hr]; exact hopened, ?_, hcared.own hs rfl hb hothers fun _ ht => ht⟩
      obtain ⟨p, c, hhold, hp⟩ := hbids
      exact ⟨p, c, by rw [hr]; exact hhold, hp⟩
  | mark bid sid answer => exact h.mark hs hstands
  | announce bid answer =>
    exact h.own hs rfl h.idle fun b' hr _ => by
      show b'.relay.connections.opened = n ∨ b'.relay.connections.opened = n + 1
      rw [hr]
      exact hstands
  | _ => exact h.own_teardown hs trivial hstands

theorem Kept.move (h : b.Kept n) {m : Move} (hone : ∀ bid, m ≠ .enter (.ingest bid))
    (hlate : ¬ b.AttachesLate m) : (b.move m).Kept n := by
  cases m with
  | enter request =>
    refine ⟨h.idle, fun j stage hj hs => ?_, ?_⟩
    · rw [Busy.move, stage?_enter] at hs
      split at hs
      · rw [← Option.some.inj hs]
        cases request with
        | ingest bid => exact absurd rfl (hone bid)
        | disconnect key => trivial
        | lose sid => trivial
      · exact h.others j stage hj hs
    · obtain ⟨st, hs, hstands⟩ := h.stands
      have hold : ∀ j stage, b.stage? j = some stage → (b.enter request).stage? j = some stage := by
        intro j stage hj
        rw [stage?_enter, if_neg (Nat.ne_of_lt (lt_of_stage? hj)), hj]
      refine ⟨st, hold 0 st hs, hstands.frame rfl (fun sid hb => hb) fun hc => ?_⟩
      exact hc.imp_right fun hc =>
        hc.imp_left fun ⟨j, other, hj, ho⟩ => ⟨j, other, hold j other hj, ho⟩
  | advance id =>
    show (b.advance id).Kept n
    by_cases hid : id = 0
    · subst hid
      exact h.advance_own hlate
    · cases hs : b.stage? id with
      | none =>
        rw [advance_of_none hs]
        exact h
      | some stage => exact h.other hid hs

/-! ### A stranded connection -/

/-- A stream off the air has a connection, and nobody is going to claim it. -/
structure Stranded (b : Busy) : Prop where
  lost : ∃ sid c, b.relay.registry.hold? sid = some (.disconnected, some c)
  past : ∀ j stage, b.stage? j = some stage → stage.IsPast

/-- **A connection that was attached late is stranded.** -/
theorem Kept.stranded (h : b.Kept n) {m : Move} (hlate : b.AttachesLate m) :
    (b.move m).Stranded := by
  obtain ⟨j, bid, sid, c, s, rfl, hs, hstream, hphase⟩ := hlate
  -- only the ingest attaches a connection
  obtain rfl : j = 0 := Decidable.byContradiction fun hj => h.others j _ hj hs
  refine ⟨⟨sid, c, ?_⟩, fun j stage hj => ?_⟩
  · show (b.advance 0).relay.registry.hold? sid = _
    rw [relay_advance hs]
    refine (b.relay.hold?_attachConnection sid c sid).trans ?_
    rw [if_pos rfl, Registry.hold?, hstream, ← hphase]
    rfl
  · have hj : (b.advance 0).stage? j = some stage := hj
    rw [stage?_advance hs] at hj
    split at hj
    · rw [← Option.some.inj hj]
      trivial
    · rename_i hid
      exact (h.others j stage hid hj).isPast

theorem Stranded.move (h : b.Stranded) {m : Move} (hone : ∀ bid, m ≠ .enter (.ingest bid)) :
    (b.move m).Stranded := by
  cases m with
  | enter request =>
    refine ⟨h.lost, fun j stage hs => ?_⟩
    rw [Busy.move, stage?_enter] at hs
    split at hs
    · rw [← Option.some.inj hs]
      cases request with
      | ingest bid => exact absurd rfl (hone bid)
      | disconnect key => trivial
      | lose sid => trivial
    · exact h.past j stage hs
  | advance id =>
    show (b.advance id).Stranded
    cases hs : b.stage? id with
    | none =>
      rw [advance_of_none hs]
      exact h
    | some stage =>
      have hpast := h.past id stage hs
      obtain ⟨sid, c, hlost⟩ := h.lost
      refine ⟨⟨sid, c, ?_⟩, fun j other hj => ?_⟩
      · rw [relay_advance hs]
        exact hpast.hold?_step b.relay hlost
      · rw [stage?_advance hs] at hj
        split at hj
        · exact Option.some.inj hj ▸ hpast.next b.relay
        · exact h.past j other hj

theorem Stranded.run (h : b.Stranded) {moves : List Move}
    (hone : ∀ bid, Move.enter (.ingest bid) ∉ moves) : (b.run moves).Stranded := by
  induction moves generalizing b with
  | nil => exact h
  | cons m rest ih =>
    refine ih (h.move fun bid hm => hone bid (hm ▸ List.mem_cons_self)) fun bid hm => ?_
    exact hone bid (List.mem_cons_of_mem m hm)

end

/-- **All that a run can come to**: no connection was attached late, or one was and is
stranded. -/
theorem Kept.run {b : Busy} {n : ConnectionId} (h : b.Kept n) {moves : List Move}
    (hone : ∀ bid, Move.enter (.ingest bid) ∉ moves) :
    ((b.run moves).Kept n ∧ ¬ b.Late moves) ∨ ((b.run moves).Stranded ∧ b.Late moves) := by
  induction moves generalizing b with
  | nil => exact .inl ⟨h, b.not_late_nil⟩
  | cons m rest ih =>
    have hfirst : ∀ bid, m ≠ .enter (.ingest bid) :=
      fun bid hm => hone bid (hm ▸ List.mem_cons_self)
    have hrest : ∀ bid, Move.enter (.ingest bid) ∉ rest :=
      fun bid hm => hone bid (List.mem_cons_of_mem m hm)
    rw [late_cons_iff]
    by_cases hlate : b.AttachesLate m
    · exact .inr ⟨(h.stranded hlate).run hrest, .inl hlate⟩
    · refine (ih (h.move hfirst hlate) hrest).imp ?_ ?_
      · exact fun ⟨hk, hl⟩ => ⟨hk, fun hc => hc.elim hlate hl⟩
      · exact fun ⟨hs, hl⟩ => ⟨hs, .inr hl⟩

/-! ### The law and its limit -/

def ofIngest (r : Relay) (bid : Bid) : Busy := ({ relay := r } : Busy).enter (.ingest bid)

/-- No connection is left: those opened in a run are closed, and no stream off the air has
one attached. -/
structure Secured (b : Busy) (n : ConnectionId) : Prop where
  closed : ∀ c, n ≤ c → c < b.relay.connections.opened → c ∈ b.relay.connections.closed
  idle : ∀ sid s, b.relay.registry.stream? sid = some s → s.phase = .disconnected →
    s.connection = none

theorem kept_ofIngest {r : Relay} (bid : Bid) (hidle : ∀ sid s,
    r.registry.stream? sid = some s → s.phase = .disconnected → s.connection = none) :
    (ofIngest r bid).Kept r.connections.opened := by
  refine ⟨fun sid c hc => ?_, fun j stage hj hs => ?_, .validate bid, rfl, rfl⟩
  · obtain ⟨s, hs, hheld⟩ := Option.map_eq_some_iff.mp hc
    obtain ⟨hphase, rfl⟩ := Prod.mk.inj hheld
    exact hidle sid s hs hphase
  · exact absurd (Nat.lt_one_iff.mp (lt_of_stage? hs)) hj

/-- **A failed ingest leaves no connection exactly if it attached none late.**  This holds of
every run of one ingest among any number of teardowns, once all of them are over. -/
theorem secured_iff (r : Relay) (bid : Bid) (moves : List Move)
    (hidle : ∀ sid s, r.registry.stream? sid = some s → s.phase = .disconnected →
      s.connection = none)
    (hone : ∀ other, Move.enter (.ingest other) ∉ moves)
    (hdone : ∀ call ∈ ((ofIngest r bid).run moves).calls, call.stage.isFinished = true)
    (e : RelayError)
    (hfail : ((ofIngest r bid).run moves).stage? 0 = some (.finished (some (.error e)))) :
    ((ofIngest r bid).run moves).Secured r.connections.opened ↔ ¬ (ofIngest r bid).Late moves := by
  obtain ⟨hkept, hnot⟩ | ⟨hstranded, hlate⟩ := (kept_ofIngest bid hidle).run hone
  · refine ⟨fun _ => hnot, fun _ => ⟨fun c hc hlt => ?_, fun sid s hs hphase => ?_⟩⟩
    · obtain ⟨stage, hs, hstands⟩ := hkept.stands
      obtain rfl := Option.some.inj (hfail.symm.trans hs)
      rcases hstands with hopened | ⟨hopened, hcared⟩
      · exact absurd (hopened ▸ hlt) (Nat.not_lt_of_le hc)
      · obtain rfl : c = r.connections.opened :=
          Nat.le_antisymm (Nat.le_of_lt_succ (Nat.lt_of_lt_of_eq hlt hopened)) hc
        rcases hcared with ⟨sid, p, ht, -⟩ | ⟨j, other, hj, ho⟩ | hclosed
        · exact ht.elim
        · obtain ⟨call, hcall, rfl⟩ := Option.map_eq_some_iff.mp hj
          have hfinished := hdone call (List.mem_of_getElem? hcall)
          rw [Stage.inHand_of_isFinished hfinished] at ho
          exact absurd ho (by simp)
        · exact hclosed
    · exact hkept.idle sid s.connection (by rw [Registry.hold?, hs, ← hphase]; rfl)
  · refine ⟨fun hsecured => absurd hstranded.lost ?_, fun hno => absurd hlate hno⟩
    rintro ⟨sid, c, hlost⟩
    obtain ⟨s, hs, hheld⟩ := Option.map_eq_some_iff.mp hlost
    obtain ⟨hphase, hc⟩ := Prod.mk.inj hheld
    rw [hsecured.idle sid s hs hphase] at hc
    exact absurd hc (by simp)

/-- An offer that is refused; a disconnect has taken the connection before. -/
def refusedIngest : List Move :=
  List.replicate 4 (.advance 0) ++ .enter (.disconnect "k") :: List.replicate 8 (.advance 1) ++
    List.replicate 2 (.advance 0)

/-- In `refusedIngest` the connection is not attached late, and it is closed. -/
theorem secured_iff_refusedIngest :
    let r := start { streamKeys := ["k"] } fun _ => .error .negotiationTimeout
    let b := (ofIngest r { offer := "offer", key := "k" }).run refusedIngest
    (∀ call ∈ b.calls, call.stage.isFinished = true) ∧
      b.stage? 0 = some (.finished (some (.error .negotiationTimeout))) ∧
      b.relay.connections.isOpen 0 = false ∧
      (b.Secured 0 ↔ ¬ (ofIngest r { offer := "offer", key := "k" }).Late refusedIngest) :=
  ⟨by decide, rfl, by decide,
    secured_iff _ _ refusedIngest (fun sid s hs => absurd hs (by simp [start, Registry.stream?]))
      (by simp [refusedIngest]) (by decide) .negotiationTimeout rfl⟩

/-- An ingest claims its stream and opens a connection; before it attaches the connection, a
disconnect runs to its end. -/
def lateIngest : List Move :=
  List.replicate 3 (.advance 0) ++ .enter (.disconnect "k") :: List.replicate 8 (.advance 1) ++
    List.replicate 3 (.advance 0)

/-- **A late connection is never closed**: the ingest failed, all calls are over, and the
stream off the air has the open connection. -/
theorem not_secured_lateIngest :
    let r := start { streamKeys := ["k"] } fun _ => .ok { answer := "answer" }
    let b := (ofIngest r { offer := "offer", key := "k" }).run lateIngest
    (∀ call ∈ b.calls, call.stage.isFinished = true) ∧
      b.stage? 0 = some (.finished (some (.error (.streamNotActive "k")))) ∧
      b.relay.registry.hold? 0 = some (.disconnected, some 0) ∧
      b.relay.connections.isOpen 0 = true ∧ ¬ b.Secured 0 := by
  refine ⟨by decide, rfl, by decide, by decide, fun h => ?_⟩
  exact absurd (h.closed 0 (Nat.le_refl 0) (by decide)) (by decide)

end Busy

end Relay

end Simulcast
