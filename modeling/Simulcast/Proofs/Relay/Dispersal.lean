import Simulcast.Proofs.Relay.Errands
/-!
# No viewer is left behind

A stream is live and nobody watches it.  Any number of viewers come, leave and fail, their
steps and those of a teardown in any order.  Once all calls are over the table is empty, and
every viewer that was told it has a place has left the table once and is closed
(`Relay.Crowd.dispersed_run`).

Whoever asks for a place looks at the phase while it has the lock of the table, and the
teardown needs the lock to empty the table after it changed the phase.  So as long as the
stream is off the air, the table is still to be emptied, or it is empty and nobody is about to
be put into it (`Relay.Crowd.Sound.shut`).  The rest of `Relay.Crowd.Sound` is bookkeeping: no
two calls bring the same viewer, nobody is answered twice, whoever was admitted is in the
table or has left it, and whoever is closed is not in it.
-/

namespace Simulcast

namespace Relay

namespace Crowd

/-! ### What a run keeps -/

def Draining (b : Crowd) : Prop := ∃ (j : CallId) (e : Errand), b.calls[j]? = some e ∧ e.Drains

/-- The viewer is gone, or it is in the table, or some call sees to it. -/
def Cared (sid : StreamId) (b : Crowd) (id : ViewerId) : Prop :=
  b.relay.Left id ∨ (∃ (j : CallId) (e : Errand), b.calls[j]? = some e ∧ e.Tends id) ∨
    id ∈ b.relay.registry.table sid

def Answered (b : Crowd) (id : ViewerId) : Prop := id ∈ b.admitted ∨ id ∈ b.refused

/-- The viewer left the table or never got into it. -/
def Away (b : Crowd) (id : ViewerId) : Prop := id ∈ b.departed ∨ id ∈ b.refused

structure Sound (sid : StreamId) (b : Crowd) : Prop where
  hold? : (b.relay.registry.hold? sid).isSome = true
  named : ∀ id ∈ b.made, ∃ v, b.relay.viewers.find? id = some v ∧ v.id = id
  names : ∀ (j : CallId) (e : Errand), b.calls[j]? = some e → e.Names b.made
  teardowns : ∀ (j : CallId) (stage : Stage), b.calls[j]? = some (.teardown stage) →
    stage.OfStream sid ∧
      (b.relay.registry.isLive sid = true → ∃ reply, stage = .release sid reply)
  alone : ∀ (i j : CallId) (e e' : Errand) (id : ViewerId), b.calls[i]? = some e →
    b.calls[j]? = some e' → e.unseated? = some id → e'.unseated? = some id → i = j
  unanswered : ∀ (j : CallId) (e : Errand) (id : ViewerId), b.calls[j]? = some e →
    e.unseated? = some id → ¬ b.Answered id
  unmade : ∀ (j : CallId) (offer : String) (id : ViewerId),
    b.calls[j]? = some (.connect offer id) → id ∉ b.made
  known : ∀ id, b.Answered id → id ∈ b.made
  once : b.admitted.Nodup
  apart : ∀ id ∈ b.refused, id ∉ b.admitted
  count : ∀ id, b.admitted.count id
    = b.departed.count id + (b.relay.registry.table sid).count id
  spoken : ∀ (j : CallId) (e : Errand), b.calls[j]? = some e → e.Speaks b.Answered b.Away
  cared : ∀ id ∈ b.made, b.Cared sid id
  /-- The table of a stream off the air is still to be emptied, or it is empty and nobody is
  about to be put into it. -/
  shut : b.relay.registry.isLive sid = false →
    b.Draining ∨ b.relay.registry.table sid = [] ∧
      ∀ (j : CallId) (guest : Guest), b.calls[j]? ≠ some (.seat guest true)

section

variable {sid : StreamId} {key : String} {b : Crowd} {j : CallId} {e : Errand}

theorem Sound.answered_of_mem_table (h : b.Sound sid) {id : ViewerId}
    (hid : id ∈ b.relay.registry.table sid) : b.Answered id := by
  refine .inl (List.count_pos_iff.mp ?_)
  rw [h.count id]
  exact Nat.lt_of_lt_of_le (List.count_pos_iff.mpr hid) (Nat.le_add_left ..)

theorem Sound.not_mem_table_of_away (h : b.Sound sid) {id : ViewerId} (hid : b.Away id) :
    id ∉ b.relay.registry.table sid := by
  intro hin
  have hcount := h.count id
  have htable := List.count_pos_iff.mpr hin
  rcases hid with hdeparted | hrefused
  · have hleft := List.count_pos_iff.mpr hdeparted
    have honce := List.nodup_iff_count.mp h.once id
    omega
  · rw [List.count_eq_zero.mpr (h.apart id hrefused)] at hcount
    omega

theorem count_of_filter {l l' : List ViewerId} {p : ViewerId → Bool} (h : l' = l.filter p)
    (id : ViewerId) : l.count id = (l.filter (· ∉ l')).count id + l'.count id := by
  subst h
  cases hp : p id with
  | true =>
    have hkept : (l.filter (· ∉ l.filter p)).count id = 0 := by
      refine List.count_eq_zero.mpr fun hmem => ?_
      obtain ⟨hid, hno⟩ := List.mem_filter.mp hmem
      exact of_decide_eq_true hno (List.mem_filter.mpr ⟨hid, hp⟩)
    rw [hkept, Nat.zero_add, List.count_filter hp]
  | false =>
    have hgone : id ∉ l.filter p := fun hmem => by
      rw [(List.mem_filter.mp hmem).2] at hp
      exact absurd hp (by simp)
    have hleft : decide (id ∉ l.filter p) = true := decide_eq_true hgone
    rw [List.count_eq_zero.mpr hgone, Nat.add_zero,
      List.count_filter (p := fun id => decide (id ∉ l.filter p)) hleft]

theorem getElem?_calls_settle (sid : StreamId) (hj : b.calls[j]? = some e) (turn : Errand.Turn)
    (i : CallId) :
    (b.settle sid j turn).calls[i]? = if i = j then some turn.errand else b.calls[i]? :=
  getElem?_set_of_some hj turn.errand i

/-- A call that has the lock keeps others from it. -/
theorem not_seat_of_not_locked (h : b.locked = false) (i : CallId) (guest : Guest) (live : Bool) :
    b.calls[i]? ≠ some (.seat guest live) := by
  intro hi
  have hall := List.any_eq_false.mp h (.seat guest live) (List.mem_of_getElem? hi)
  exact hall rfl

theorem Sound.alone_settle (h : b.Sound sid) (key : String) (hj : b.calls[j]? = some e)
    (i k : CallId) (f f' : Errand) (id : ViewerId)
    (hi : (b.settle sid j (e.step sid key b.relay)).calls[i]? = some f)
    (hk : (b.settle sid j (e.step sid key b.relay)).calls[k]? = some f')
    (hf : f.unseated? = some id) (hf' : f'.unseated? = some id) : i = k := by
  have hold : ∀ (i : CallId) (f : Errand),
      (b.settle sid j (e.step sid key b.relay)).calls[i]? = some f → f.unseated? = some id →
        ∃ g, b.calls[i]? = some g ∧ g.unseated? = some id := by
    intro i f hi hf
    rw [getElem?_calls_settle sid hj] at hi
    split at hi
    · rename_i hij
      obtain rfl := Option.some.inj hi
      exact ⟨e, hij ▸ hj, Errand.unseated?_step _ _ _ _ hf⟩
    · exact ⟨f, hi, hf⟩
  obtain ⟨g, hg, hgu⟩ := hold i f hi hf
  obtain ⟨g', hg', hgu'⟩ := hold k f' hk hf'
  exact h.alone i k g g' id hg hg' hgu hgu'

variable {turn : Errand.Turn}

/-- Whoever was answered and is not in the table after a step is away. -/
theorem Sound.away_settle (h : b.Sound sid) {id : ViewerId} (hid : b.Answered id)
    (hout : id ∉ turn.relay.registry.table sid) : (b.settle sid j turn).Away id := by
  by_cases hin : id ∈ b.relay.registry.table sid
  · exact .inl (List.mem_append_right _ (List.mem_filter.mpr ⟨hin, decide_eq_true hout⟩))
  · rcases hid with hadmitted | hrefused
    · have hcount := h.count id
      rw [List.count_eq_zero.mpr hin, Nat.add_zero] at hcount
      refine .inl (List.mem_append_left _ (List.count_pos_iff.mp ?_))
      rw [← hcount]
      exact List.count_pos_iff.mpr hadmitted
    · exact .inr (List.mem_append_left _ hrefused)

theorem Away.settle {id : ViewerId} (h : b.Away id) : (b.settle sid j turn).Away id :=
  h.imp (List.mem_append_left _) (List.mem_append_left _)

theorem Answered.settle {id : ViewerId} (h : b.Answered id) :
    (b.settle sid j turn).Answered id :=
  h.imp (List.mem_append_left _) (List.mem_append_left _)

theorem Sound.spoken_settle (h : b.Sound sid) (key : String) (hj : b.calls[j]? = some e) :
    (e.step sid key b.relay).errand.Speaks (b.settle sid j (e.step sid key b.relay)).Answered
      (b.settle sid j (e.step sid key b.relay)).Away := by
  have hspoken : e.Speaks (b.settle sid j (e.step sid key b.relay)).Answered
      (b.settle sid j (e.step sid key b.relay)).Away :=
    (h.spoken j e hj).mono (fun _ => Answered.settle) fun _ => Away.settle
  cases e with
  | connect offer id =>
    obtain ⟨fault, he⟩ | he := b.relay.openConnection_cases <;> simp only [Errand.step, he] <;>
      trivial
  | seat guest live =>
    cases live with
    | true => exact .inl (List.mem_append_right _ List.mem_cons_self)
    | false => exact .inr (List.mem_append_right _ List.mem_cons_self)
  | negotiate guest =>
    have hanswered : b.Answered guest.id := h.spoken j _ hj
    simp only [Errand.step]
    split <;> exact Answered.settle hanswered
  | remove guest fault =>
    refine h.away_settle (h.spoken j _ hj) ?_
    show guest.id ∉ (b.relay.registry.update sid fun s => (s.detach guest.id).2).table sid
    rw [Registry.table_update_detach]
    exact fun hin => by simpa using (List.mem_filter.mp hin).2
  | leave id =>
    simp only [Errand.step]
    split
    · rename_i hid
      refine h.away_settle (h.answered_of_mem_table hid) ?_
      show id ∉ (b.relay.registry.update sid fun s => (s.detach id).2).table sid
      rw [Registry.table_update_detach]
      exact fun hin => by simpa using (List.mem_filter.mp hin).2
    · trivial
  | teardown stage =>
    have hof := (h.teardowns j stage hj).1
    cases stage with
    | release stream reply =>
      obtain ⟨he, -⟩ | ⟨p, c, ending, g, -, -, hstage, -⟩ := b.relay.beginRelease_hold? stream reply
      · simp only [Errand.step, he]
        trivial
      · simp only [Errand.step, hstage]
        trivial
    | drain ending =>
      obtain rfl : ending.stream = sid := hof
      intro id hid
      refine h.away_settle (h.answered_of_mem_table ?_) ?_
      · exact drainViewers_fst .. ▸ hid
      · show id ∉ (b.relay.drainViewers ending.stream).2.registry.table ending.stream
        rw [table_drainViewers]
        exact List.not_mem_nil
    | dismiss ending ids =>
      cases ids with
      | nil => trivial
      | cons id rest => exact fun k hk => hspoken k (List.mem_cons_of_mem id hk)
    | report ending =>
      simp only [Errand.step, Stage.step]
      split <;> trivial
    | forget | hangUp | clear | finished => trivial
    | _ => exact hof.elim
  | lock | check | activate | close | finished => trivial

theorem Sound.count_settle (h : b.Sound sid) (hp : Errand.Passes sid b.made b.relay e turn)
    (id : ViewerId) : (b.settle sid j turn).admitted.count id
      = (b.settle sid j turn).departed.count id
        + ((b.settle sid j turn).relay.registry.table sid).count id := by
  show (b.admitted ++ turn.admitted).count id = (b.departed ++ (b.relay.registry.table sid).filter
    (· ∉ turn.relay.registry.table sid)).count id + (turn.relay.registry.table sid).count id
  rw [List.count_append, List.count_append, h.count id]
  obtain ⟨hnobody, p, htable⟩ | ⟨guest, -, hone, htable⟩ := hp.table
  · rw [hnobody, List.count_nil, count_of_filter htable id]
    omega
  · have hstay : (b.relay.registry.table sid).filter (· ∉ turn.relay.registry.table sid) = [] := by
      rw [htable]
      exact List.filter_eq_nil_iff.mpr fun k hk => by simp [hk]
    rw [hone, hstay, htable, List.count_append, List.count_nil]
    omega

theorem Sound.cared_settle (h : b.Sound sid) (hp : Errand.Passes sid b.made b.relay e turn)
    (hj : b.calls[j]? = some e) {id : ViewerId} (hid : id ∈ (b.settle sid j turn).made) :
    (b.settle sid j turn).Cared sid id := by
  have hown : id ∈ turn.made ∨ e.Tends id ∨ id ∈ b.relay.registry.table sid →
      (b.settle sid j turn).Cared sid id := by
    intro hc
    rcases hp.tends id hid hc with hleft | ht | hin
    · exact .inl hleft
    · exact .inr (.inl ⟨j, turn.errand, by rw [getElem?_calls_settle sid hj, if_pos rfl], ht⟩)
    · exact .inr (.inr hin)
  rcases List.mem_append.mp hid with hm | hm
  · rcases h.cared id hm with hleft | ⟨i, f, hi, ht⟩ | hin
    · exact .inl (hleft.keeps hp.keeps hm)
    · by_cases hij : i = j
      · subst hij
        obtain rfl := Option.some.inj (hj.symm.trans hi)
        exact hown (.inr (.inl ht))
      · exact .inr (.inl ⟨i, f, by rw [getElem?_calls_settle sid hj, if_neg hij, hi], ht⟩)
    · exact hown (.inr (.inr hin))
  · exact hown (.inl hm)

theorem Sound.shut_settle (h : b.Sound sid) (hp : Errand.Passes sid b.made b.relay e turn)
    (hj : b.calls[j]? = some e) (hlock : (e.needsTable && b.locked) = false)
    (hdown : (b.settle sid j turn).relay.registry.isLive sid = false) :
    (b.settle sid j turn).Draining ∨ (b.settle sid j turn).relay.registry.table sid = [] ∧
      ∀ (i : CallId) (guest : Guest),
        (b.settle sid j turn).calls[i]? ≠ some (.seat guest true) := by
  have hcalls := getElem?_calls_settle sid hj turn
  obtain ⟨hcase, hseat⟩ := hp.shut hdown
  have hno : (∀ (i : CallId) (guest : Guest), b.calls[i]? ≠ some (.seat guest true)) →
      ∀ (i : CallId) (guest : Guest),
        (b.settle sid j turn).calls[i]? ≠ some (.seat guest true) := by
    intro hold i guest hi
    rw [hcalls] at hi
    split at hi
    · exact hseat guest (Option.some.inj hi)
    · exact hold i guest hi
  rcases hcase with ⟨hwas, hdrains⟩ | hdrains | ⟨hempty, hneeds⟩
  · rcases h.shut hwas with ⟨i, f, hi, hf⟩ | ⟨hempty, hold⟩
    · by_cases hij : i = j
      · subst hij
        obtain rfl := Option.some.inj (hj.symm.trans hi)
        exact .inl ⟨i, turn.errand, by rw [hcalls, if_pos rfl], hdrains hf⟩
      · exact .inl ⟨i, f, by rw [hcalls, if_neg hij, hi], hf⟩
    · refine .inr ⟨?_, hno hold⟩
      obtain ⟨-, p, htable⟩ | ⟨guest, rfl, -⟩ := hp.table
      · show turn.relay.registry.table sid = []
        rw [htable, hempty]
        rfl
      · exact absurd hj (hold j guest)
  · exact .inl ⟨j, turn.errand, by rw [hcalls, if_pos rfl], hdrains⟩
  · -- the lock was free, so nobody had looked at the phase and not yet got a place
    rw [hneeds, Bool.true_and] at hlock
    exact .inr ⟨hempty, hno fun i guest => not_seat_of_not_locked hlock i guest true⟩

/-- **Every step of a call is sound**, if the call did not have to wait. -/
theorem Sound.step (h : b.Sound sid) (key : String) (hj : b.calls[j]? = some e)
    (hlock : (e.needsTable && b.locked) = false) :
    (b.settle sid j (e.step sid key b.relay)).Sound sid := by
  have hp := Errand.passes_step key h.hold? (h.names j e hj)
    (fun id hid => h.known id (h.answered_of_mem_table hid)) h.named
    (fun offer id he => h.unmade j offer id (he ▸ hj))
    (fun id hid => mt h.answered_of_mem_table (h.unanswered j e id hj hid))
    fun stage he => h.teardowns j stage (he ▸ hj)
  have halone := h.alone_settle key hj
  have hspoken := h.spoken_settle key hj
  have hcalls := getElem?_calls_settle sid hj (e.step sid key b.relay)
  have hunseated := fun id => @Errand.unseated?_step sid key b.relay e id
  have hconnect := Errand.step_ne_connect sid key b.relay e
  have hmade := fun id => @Errand.made_step sid key b.relay e id
  have hanswers := fun id => @Errand.answers_step sid key b.relay e id
  have hapart := fun id => @Errand.not_admitted_of_refused sid key b.relay e id
  generalize e.step sid key b.relay = turn at *
  have hanswered : ∀ id, (b.settle sid j turn).Answered id → b.Answered id ∨
      (∃ guest live, e = .seat guest live ∧ guest.id = id) ∧ turn.errand.unseated? = none := by
    rintro id (hid | hid)
    · exact (List.mem_append.mp hid).imp .inl fun hm => hanswers id (.inl hm)
    · exact (List.mem_append.mp hid).imp .inr fun hm => hanswers id (.inr hm)
  have hfirst : ∀ id, id ∈ turn.admitted ∨ id ∈ turn.refused → ¬ b.Answered id := by
    intro id hid
    obtain ⟨⟨guest, live, rfl, rfl⟩, -⟩ := hanswers id hid
    exact h.unanswered j _ _ hj rfl
  constructor
  · exact hp.hold? h.hold?
  · intro id hid
    rcases List.mem_append.mp hid with hm | hm
    · obtain ⟨v, hv, hn⟩ := h.named id hm
      obtain ⟨w, hw, hwn, -⟩ := hp.keeps id hm v hv
      exact ⟨w, hw, hwn.trans hn⟩
    · exact hp.named id hm
  · intro i f hi
    rw [hcalls] at hi
    split at hi
    · exact Option.some.inj hi ▸ hp.names
    · exact (h.names i f hi).mono fun id hid => List.mem_append_left _ hid
  · intro i stage hi
    rw [hcalls] at hi
    split at hi
    · obtain ⟨hof, hdown⟩ := hp.teardown stage (Option.some.inj hi)
      exact ⟨hof, fun hl => absurd (hdown.symm.trans hl) (by simp)⟩
    · obtain ⟨hof, hdown⟩ := h.teardowns i stage hi
      exact ⟨hof, fun hl => hdown (hp.live hl)⟩
  · exact halone
  · intro i f id hi hf hid
    rw [hcalls] at hi
    rcases hanswered id hid with hold | ⟨⟨guest, live, rfl, rfl⟩, hnone⟩
    · split at hi
      · obtain rfl := Option.some.inj hi
        exact h.unanswered j e id hj (hunseated id hf) hold
      · exact h.unanswered i f id hi hf hold
    · split at hi
      · rw [← Option.some.inj hi, hnone] at hf
        exact absurd hf (by simp)
      · rename_i hij
        exact hij (h.alone i j f _ _ hi hj hf rfl)
  · intro i offer id hi hid
    rw [hcalls] at hi
    split at hi
    · exact hconnect offer id (Option.some.inj hi)
    · rename_i hij
      rcases List.mem_append.mp hid with hm | hm
      · exact h.unmade i offer id hi hm
      · obtain ⟨offer', rfl⟩ := hmade id hm
        exact hij (h.alone i j _ _ id hi hj rfl rfl)
  · intro id hid
    refine List.mem_append_left _ ?_
    rcases hanswered id hid with hold | ⟨⟨guest, live, rfl, rfl⟩, -⟩
    · exact h.known id hold
    · exact h.names j _ hj
  · show (b.admitted ++ turn.admitted).Nodup
    refine List.nodup_append.mpr ⟨h.once, ?_, ?_⟩
    · obtain ⟨hnobody, -⟩ | ⟨guest, -, hone, -⟩ := hp.table
      · rw [hnobody]
        exact List.nodup_nil
      · rw [hone]
        exact List.nodup_cons.mpr ⟨List.not_mem_nil, List.nodup_nil⟩
    · rintro id hid other hother rfl
      exact hfirst id (.inl hother) (.inl hid)
  · intro id hrefused hadmitted
    rcases List.mem_append.mp hrefused with hr | hr <;>
      rcases List.mem_append.mp hadmitted with ha | ha
    · exact h.apart id hr ha
    · exact hfirst id (.inl ha) (.inr hr)
    · exact hfirst id (.inr hr) (.inl ha)
    · exact hapart id hr ha
  · exact h.count_settle hp
  · intro i f hi
    rw [hcalls] at hi
    split at hi
    · exact Option.some.inj hi ▸ hspoken
    · exact (h.spoken i f hi).mono (fun _ => Answered.settle) fun _ => Away.settle
  · exact fun id hid => h.cared_settle hp hj hid
  · exact h.shut_settle hp hj hlock

theorem Sound.advance (h : b.Sound sid) (key : String) (j : CallId) :
    (b.advance sid key j).Sound sid := by
  unfold Crowd.advance
  split
  · rename_i e hj
    split
    · exact h
    · rename_i hlock
      exact h.step key hj (by simpa using hlock)
  · exact h

/-- **Only calls with the lock change the table.** -/
theorem Sound.table_step (h : b.Sound sid) (key : String) (hj : b.calls[j]? = some e)
    (hneeds : e.needsTable = false) (hholds : e.holdsTable = false) :
    (e.step sid key b.relay).relay.registry.table sid = b.relay.registry.table sid := by
  -- the end of a closed viewer's connection finds the viewer gone from the table
  have hclose : ∀ id ∈ b.made, b.Away id →
      (b.relay.closeViewer id).registry.table sid = b.relay.registry.table sid := by
    intro id hid haway
    obtain ⟨v, hv, hn⟩ := h.named id hid
    obtain ⟨p, htable, hp⟩ := table_closeViewer hv hn sid
    rw [htable, List.filter_eq_self]
    rintro k hk
    refine hp k ?_
    rintro rfl
    exact h.not_mem_table_of_away haway hk
  cases e with
  | connect offer id =>
    obtain ⟨fault, he⟩ | he := b.relay.openConnection_cases
    · simp only [Errand.step, he]
    · simp only [Errand.step, he]
      rfl
  | negotiate guest =>
    simp only [Errand.step]
    split <;> rfl
  | close id reply => exact hclose id (h.names j _ hj) (h.spoken j _ hj)
  | teardown stage =>
    have hof := (h.teardowns j stage hj).1
    cases stage with
    | release stream reply =>
      show (Stage.step b.relay (.release stream reply)).relay.registry.table sid = _
      rw [relay_step_release]
      exact table_beginRelease ..
    | forget ending => exact Registry.table_of_stream? (Registry.stream?_forget ..)
    | hangUp ending => exact congrArg (Registry.table · sid) (registry_closeReleased ..)
    | dismiss ending ids =>
      cases ids with
      | nil => rfl
      | cons id rest =>
        exact hclose id (h.names j _ hj id List.mem_cons_self)
          (h.spoken j _ hj id List.mem_cons_self)
    | report ending =>
      simp only [Errand.step, Stage.step]
      split <;> rfl
    | clear | finished => rfl
    | drain => exact absurd hneeds (by simp [Errand.needsTable])
    | _ => exact hof.elim
  | activate | finished => rfl
  | check | seat => exact absurd hholds (by simp [Errand.holdsTable])
  | lock | remove | leave => exact absurd hneeds (by simp [Errand.needsTable])

/-! ### New viewers -/

/-- No viewer has the name, and no call brings one with it. -/
def Fresh (b : Crowd) (id : ViewerId) : Prop :=
  id ∉ b.made ∧ ∀ (j : CallId) (e : Errand), b.calls[j]? = some e → e.unseated? ≠ some id

theorem Fresh.advance {id : ViewerId} (h : b.Fresh id) (sid : StreamId) (key : String)
    (j : CallId) : (b.advance sid key j).Fresh id := by
  unfold Crowd.advance
  split
  · rename_i e hj
    split
    · exact h
    · have hbrought := h.2 j e hj
      refine ⟨fun hid => ?_, fun i f hi hf => ?_⟩
      · rcases List.mem_append.mp hid with hm | hm
        · exact h.1 hm
        · obtain ⟨offer, rfl⟩ := Errand.made_step sid key b.relay e hm
          exact hbrought rfl
      · rw [getElem?_calls_settle sid hj] at hi
        split at hi
        · obtain rfl := Option.some.inj hi
          exact hbrought (Errand.unseated?_step sid key b.relay e hf)
        · exact h.2 i f hi hf
  · exact h

theorem getElem?_calls_enter (b : Crowd) (sid : StreamId) (key : String) (request : Request)
    (i : CallId) : (b.move sid key (.enter request)).calls[i]?
      = if i = b.calls.length then some (request.first sid) else b.calls[i]? :=
  getElem?_concat b.calls _ i

theorem getElem?_calls_enter_of_some {i : CallId} (hi : b.calls[i]? = some e) (sid : StreamId)
    (key : String) (request : Request) :
    (b.move sid key (.enter request)).calls[i]? = some e := by
  rw [getElem?_calls_enter, if_neg, hi]
  exact Nat.ne_of_lt (List.getElem?_eq_some_iff.mp hi).1

theorem Fresh.enter {id : ViewerId} (h : b.Fresh id) (sid : StreamId) (key : String)
    {request : Request} (hother : (request.first sid).unseated? ≠ some id) :
    (b.move sid key (.enter request)).Fresh id := by
  refine ⟨h.1, fun i f hi => ?_⟩
  rw [getElem?_calls_enter] at hi
  split at hi
  · exact Option.some.inj hi ▸ hother
  · exact h.2 i f hi

theorem Sound.enter (h : b.Sound sid) (key : String) {request : Request}
    (hnew : ∀ id, (request.first sid).unseated? = some id → b.Fresh id) :
    (b.move sid key (.enter request)).Sound sid := by
  have hcalls := getElem?_calls_enter b sid key request
  have hold : ∀ (i : CallId) (f : Errand), b.calls[i]? = some f →
      (b.move sid key (.enter request)).calls[i]? = some f :=
    fun i f hi => getElem?_calls_enter_of_some hi sid key request
  refine { h with names := ?_, teardowns := ?_, alone := ?_, unanswered := ?_, unmade := ?_,
                  spoken := ?_, cared := ?_, shut := ?_ }
  · intro i f hi
    rw [hcalls] at hi
    split at hi
    · rw [← Option.some.inj hi]
      cases request <;> trivial
    · exact h.names i f hi
  · intro i stage hi
    rw [hcalls] at hi
    split at hi
    · cases request with
      | teardown =>
        obtain rfl := Errand.teardown.inj (Option.some.inj hi)
        exact ⟨rfl, fun _ => ⟨none, rfl⟩⟩
      | join | leave => exact absurd (Option.some.inj hi) (by simp [Request.first])
    · exact h.teardowns i stage hi
  · intro i k f f' id hi hk hf hf'
    rw [hcalls] at hi hk
    split at hi <;> split at hk
    · rename_i hi' hk'
      rw [hi', hk']
    · exact absurd hf' ((hnew id (Option.some.inj hi ▸ hf)).2 k f' hk)
    · exact absurd hf ((hnew id (Option.some.inj hk ▸ hf')).2 i f hi)
    · exact h.alone i k f f' id hi hk hf hf'
  · intro i f id hi hf
    rw [hcalls] at hi
    split at hi
    · exact fun hk => (hnew id (Option.some.inj hi ▸ hf)).1 (h.known id hk)
    · exact h.unanswered i f id hi hf
  · intro i offer id hi
    rw [hcalls] at hi
    split at hi
    · exact (hnew id (by rw [Option.some.inj hi]; rfl)).1
    · exact h.unmade i offer id hi
  · intro i f hi
    rw [hcalls] at hi
    split at hi
    · rw [← Option.some.inj hi]
      cases request <;> trivial
    · exact h.spoken i f hi
  · intro id hid
    exact (h.cared id hid).imp_right fun hc =>
      hc.imp_left fun ⟨i, f, hi, ht⟩ => ⟨i, f, hold i f hi, ht⟩
  · intro hdown
    refine (h.shut hdown).imp (fun ⟨i, f, hi, hf⟩ => ⟨i, f, hold i f hi, hf⟩) ?_
    rintro ⟨hempty, hno⟩
    refine ⟨hempty, fun i guest hi => ?_⟩
    rw [hcalls] at hi
    split at hi
    · cases request <;> exact absurd (Option.some.inj hi) (by simp [Request.first])
    · exact hno i guest hi

def newcomers (moves : List Move) : List ViewerId := moves.filterMap Move.newcomer?

theorem unseated?_first (sid : StreamId) (request : Request) :
    (request.first sid).unseated? = (Move.enter request).newcomer? := by
  cases request <;> rfl

/-- **Every run is sound**, if it brings in each name once. -/
theorem Sound.run (h : b.Sound sid) (key : String) {moves : List Move}
    (hnodup : (newcomers moves).Nodup) (hnew : ∀ id ∈ newcomers moves, b.Fresh id) :
    (b.run sid key moves).Sound sid := by
  induction moves generalizing b with
  | nil => exact h
  | cons m rest ih =>
    have hrest : (newcomers rest).Nodup := by
      rw [newcomers, List.filterMap_cons] at hnodup
      split at hnodup
      · exact hnodup
      · exact (List.nodup_cons.mp hnodup).2
    have hlater : ∀ id ∈ newcomers rest, id ∈ newcomers (m :: rest) := by
      intro id hid
      rw [newcomers, List.filterMap_cons]
      split
      · exact hid
      · exact List.mem_cons_of_mem _ hid
    cases m with
    | enter request =>
      refine ih (h.enter key fun id hid => hnew id ?_) hrest fun id hid => ?_
      · rw [unseated?_first] at hid
        rw [newcomers, List.filterMap_cons_some hid]
        exact List.mem_cons_self
      · refine (hnew id (hlater id hid)).enter sid key fun hc => ?_
        rw [unseated?_first] at hc
        rw [newcomers, List.filterMap_cons_some hc] at hnodup
        exact (List.nodup_cons.mp hnodup).1 hid
    | advance j =>
      exact ih (h.advance key j) hrest fun id hid => (hnew id (hlater id hid)).advance sid key j

/-! ### Following one call -/

/-- What a call keeps with every step, whoever else is refused meanwhile. -/
structure Lasting (sid : StreamId) (key : String) (P : List ViewerId → Errand → Prop) : Prop where
  more : ∀ {refused e} (others : List ViewerId), P refused e → P (refused ++ others) e
  step : ∀ {refused e} (r : Relay), P refused e →
    P (refused ++ (e.step sid key r).refused) (e.step sid key r).errand

variable {P : List ViewerId → Errand → Prop}

theorem Lasting.advance (h : Lasting sid key P) {i : CallId} (hi : b.calls[i]? = some e)
    (hP : P b.refused e) (j : CallId) :
    ∃ e', (b.advance sid key j).calls[i]? = some e' ∧ P (b.advance sid key j).refused e' := by
  unfold Crowd.advance
  split
  · rename_i f hj
    split
    · exact ⟨e, hi, hP⟩
    · by_cases hij : i = j
      · subst hij
        obtain rfl := Option.some.inj (hi.symm.trans hj)
        exact ⟨_, by rw [getElem?_calls_settle sid hi, if_pos rfl], h.step b.relay hP⟩
      · exact ⟨e, by rw [getElem?_calls_settle sid hj, if_neg hij, hi], h.more _ hP⟩
  · exact ⟨e, hi, hP⟩

theorem Lasting.run (h : Lasting sid key P) {i : CallId} (hi : b.calls[i]? = some e)
    (hP : P b.refused e) (moves : List Move) :
    ∃ e', (b.run sid key moves).calls[i]? = some e' ∧ P (b.run sid key moves).refused e' := by
  induction moves generalizing b e with
  | nil => exact ⟨e, hi, hP⟩
  | cons m rest ih =>
    cases m with
    | enter request => exact ih (getElem?_calls_enter_of_some hi sid key request) hP
    | advance j =>
      obtain ⟨f, hf, hPf⟩ := h.advance hi hP j
      exact ih hf hPf

theorem lasting_teardown (sid : StreamId) (key : String) :
    Lasting sid key fun _ e => ∃ stage, e = .teardown stage where
  more _ h := h
  step _ := by
    rintro ⟨stage, rfl⟩
    exact ⟨_, rfl⟩

/-- The call is on its way to tell its viewer that the stream is off the air. -/
def TurnsAway (key : String) (guest : Guest) (refused : List ViewerId) : Errand → Prop
  | .seat other live => other = guest ∧ live = false
  | .remove other e => other = guest ∧ e = .streamNotActive key ∧ guest.id ∈ refused
  | .close id reply =>
    id = guest.id ∧ reply = some (.error (.streamNotActive key)) ∧ guest.id ∈ refused
  | .finished reply => reply = some (.error (.streamNotActive key)) ∧ guest.id ∈ refused
  | _ => False

theorem lasting_turnsAway (sid : StreamId) (key : String) (guest : Guest) :
    Lasting sid key (TurnsAway key guest) where
  more {refused e} others h := by
    cases e with
    | seat => exact h
    | remove => exact ⟨h.1, h.2.1, List.mem_append_left _ h.2.2⟩
    | close => exact ⟨h.1, h.2.1, List.mem_append_left _ h.2.2⟩
    | finished => exact ⟨h.1, List.mem_append_left _ h.2⟩
    | _ => exact h.elim
  step {refused e} r h := by
    cases e with
    | seat other live =>
      obtain ⟨rfl, rfl⟩ := h
      exact ⟨rfl, rfl, List.mem_append_right _ List.mem_cons_self⟩
    | remove other fault =>
      obtain ⟨rfl, rfl, hin⟩ := h
      exact ⟨rfl, rfl, List.mem_append_left _ hin⟩
    | close id reply => exact ⟨h.2.1, List.mem_append_left _ h.2.2⟩
    | finished reply => exact ⟨h.1, List.mem_append_left _ h.2⟩
    | _ => exact h.elim

/-! ### The end of a run -/

theorem sound_of_empty {r : Relay} {s : Stream} (hs : r.registry.stream? sid = some s)
    (hlive : s.isLive = true) (hempty : s.viewers = []) : ({ relay := r } : Crowd).Sound sid where
  hold? := by
    show (r.registry.hold? sid).isSome = true
    rw [Registry.hold?, hs]
    rfl
  named _ hid := absurd hid List.not_mem_nil
  names _ _ hj := absurd hj (by simp)
  teardowns _ _ hj := absurd hj (by simp)
  alone _ _ _ _ _ hi := absurd hi (by simp)
  unanswered _ _ _ hj := absurd hj (by simp)
  unmade _ _ _ hj := absurd hj (by simp)
  known _ hid := hid.elim (fun h => absurd h List.not_mem_nil) fun h => absurd h List.not_mem_nil
  once := List.nodup_nil
  apart _ hid := absurd hid List.not_mem_nil
  count id := by
    show List.count id [] = List.count id [] + (r.registry.table sid).count id
    rw [Registry.table_of_some hs, hempty]
    rfl
  spoken _ _ hj := absurd hj (by simp)
  cared _ hid := absurd hid List.not_mem_nil
  shut hdown := by
    refine absurd hdown ?_
    show ¬ r.registry.isLive sid = false
    rw [Registry.isLive, hs]
    show ¬ s.isLive = false
    rw [hlive]
    simp

/-- **How a run ends** that took the stream off the air. -/
structure Dispersed (sid : StreamId) (key : String) (b : Crowd) (moves : List Move) : Prop where
  off : (b.run sid key moves).relay.registry.isLive sid = false
  empty : (b.run sid key moves).relay.registry.table sid = []
  known : ∀ id ∈ (b.run sid key moves).admitted, id ∈ (b.run sid key moves).made
  /-- Who got a place has left it once, and nobody else left. -/
  once : ∀ id, (b.run sid key moves).departed.count id
    = if id ∈ (b.run sid key moves).admitted then 1 else 0
  gone : ∀ id ∈ (b.run sid key moves).made, (b.run sid key moves).relay.Left id
  /-- Who looked at the phase when the stream was off the air got no place. -/
  late : ∀ (before after : List Move) (j : CallId) (guest : Guest),
    moves = before ++ .advance j :: after →
    (b.run sid key before).calls[j]? = some (.check guest) →
    (b.run sid key before).relay.registry.isLive sid = false →
      guest.id ∈ (b.run sid key moves).refused ∧ guest.id ∉ (b.run sid key moves).admitted ∧
        (b.run sid key moves).calls[j]? = some (.finished (some (.error (.streamNotActive key))))

theorem run_append (b : Crowd) (sid : StreamId) (key : String) (before after : List Move) :
    b.run sid key (before ++ after) = (b.run sid key before).run sid key after :=
  List.foldl_append

theorem exists_teardown {moves : List Move} (hdown : .enter .teardown ∈ moves) (b : Crowd)
    (sid : StreamId) (key : String) :
    ∃ (j : CallId) (stage : Stage),
      (b.run sid key moves).calls[j]? = some (.teardown stage) := by
  obtain ⟨before, after, rfl⟩ := List.append_of_mem hdown
  have hentered : ((b.run sid key before).move sid key (.enter .teardown)).calls[
      (b.run sid key before).calls.length]? = some (Request.teardown.first sid) := by
    rw [getElem?_calls_enter, if_pos rfl]
  obtain ⟨e, he, stage, rfl⟩ := (lasting_teardown sid key).run hentered ⟨_, rfl⟩ after
  exact ⟨(b.run sid key before).calls.length, stage, by rw [run_append]; exact he⟩

/-- A viewer that finds the stream off the air is told so. -/
theorem turnsAway_of_check {before : List Move} {guest : Guest}
    (hj : (b.run sid key before).calls[j]? = some (.check guest))
    (hoff : (b.run sid key before).relay.registry.isLive sid = false) (after : List Move) :
    ∃ e', (b.run sid key (before ++ .advance j :: after)).calls[j]? = some e' ∧
      TurnsAway key guest (b.run sid key (before ++ .advance j :: after)).refused e' := by
  rw [run_append]
  have hadvance : (b.run sid key before).advance sid key j = (b.run sid key before).settle sid j
      ((Errand.check guest).step sid key (b.run sid key before).relay) := by
    rw [Crowd.advance, hj]
    rfl
  refine (lasting_turnsAway sid key guest).run (e := .seat guest false) ?_ ⟨rfl, rfl⟩ after
  show ((b.run sid key before).advance sid key j).calls[j]? = _
  rw [hadvance, getElem?_calls_settle sid hj, if_pos rfl, Errand.step, hoff]

/-- **No viewer is left behind.**  A stream is live and nobody is in its table.  Viewers with
different names come and leave and its broadcast is torn down, all steps in any order.  Once
all calls are over the table is empty, whoever got a place has left it once, every viewer that
was made is closed and has given up its connection, and whoever looked at the phase too late
was refused. -/
theorem dispersed_run (r : Relay) (sid : StreamId) (key : String) (s : Stream)
    (hs : r.registry.stream? sid = some s) (hlive : s.isLive = true) (hempty : s.viewers = [])
    (moves : List Move) (hnames : (newcomers moves).Nodup) (hdown : .enter .teardown ∈ moves)
    (hdone : ∀ e ∈ (run sid key { relay := r } moves).calls, e.isFinished = true) :
    Dispersed sid key { relay := r } moves := by
  have hfresh : ∀ id ∈ newcomers moves, ({ relay := r } : Crowd).Fresh id :=
    fun id _ => ⟨List.not_mem_nil, fun j e hj => absurd hj (by simp)⟩
  have hsound := (sound_of_empty hs hlive hempty).run key hnames hfresh
  have hover : ∀ (j : CallId) (e : Errand),
      (run sid key { relay := r } moves).calls[j]? = some e →
        (∃ reply, e = .finished reply) ∨ ∃ reply, e = .teardown (.finished reply) :=
    fun j e hj => Errand.isFinished_cases (hdone e (List.mem_of_getElem? hj))
  have hoff : (run sid key { relay := r } moves).relay.registry.isLive sid = false := by
    obtain ⟨j, stage, hj⟩ := exists_teardown hdown { relay := r } sid key
    refine Bool.eq_false_iff.mpr fun hl => ?_
    -- a teardown that is over is not about to change the phase
    obtain ⟨reply, rfl⟩ := (hsound.teardowns j stage hj).2 hl
    obtain ⟨other, he⟩ | ⟨other, he⟩ := hover j _ hj <;> exact absurd he (by simp)
  have htable : (run sid key { relay := r } moves).relay.registry.table sid = [] := by
    refine (hsound.shut hoff).elim (fun hdraining => ?_) And.left
    obtain ⟨j, e, hj, hdrains⟩ := hdraining
    obtain ⟨reply, rfl⟩ | ⟨reply, rfl⟩ := hover j e hj <;> exact hdrains.elim
  refine ⟨hoff, htable, fun id hid => hsound.known id (.inl hid), fun id => ?_, fun id hid => ?_,
    fun before after j guest hmoves hj hlate => ?_⟩
  · have hcount := hsound.count id
    rw [htable, List.count_nil, Nat.add_zero] at hcount
    rw [← hcount, hsound.once.count]
  · rcases hsound.cared id hid with hleft | ⟨j, e, hj, htends⟩ | hin
    · exact hleft
    · obtain ⟨reply, rfl⟩ | ⟨reply, rfl⟩ := hover j e hj <;> exact htends.elim
    · rw [htable] at hin
      exact absurd hin List.not_mem_nil
  · obtain ⟨e, he, haway⟩ := turnsAway_of_check hj hlate after
    rw [← hmoves] at he haway
    obtain ⟨reply, rfl⟩ | ⟨reply, rfl⟩ := hover j e he
    · obtain ⟨rfl, hrefused⟩ := haway
      exact ⟨hrefused, hsound.apart _ hrefused, he⟩
    · exact haway.elim

end

/-- `u` gets its place before the phase changes; `v` has looked at the phase by then and gets
its place afterwards, while the teardown waits for the lock; `w` comes too late.  `u` and `v` are
closed before their negotiation is over. -/
def racing : List Move :=
  [.enter (.join "offer" "u"), .enter (.join "offer" "v"), .enter (.join "offer" "w"),
    .enter .teardown] ++
  List.replicate 5 (.advance 0) ++ List.replicate 3 (.advance 1) ++
  List.replicate 5 (.advance 3) ++ List.replicate 2 (.advance 2) ++ [.advance 1] ++
  List.replicate 3 (.advance 2) ++ List.replicate 3 (.advance 3) ++ [.advance 0] ++
  List.replicate 2 (.advance 1) ++ List.replicate 2 (.advance 2) ++ List.replicate 2 (.advance 3)

theorem dispersed_racing :
    let r := ((start { streamKeys := ["k"] } fun _ => .ok { answer := "answer" }).ingest
      "offer" "k" none).2
    let b := run 0 "k" { relay := r } racing
    (newcomers racing).Nodup ∧ .enter .teardown ∈ racing ∧
      (∀ e ∈ b.calls, e.isFinished = true) ∧ b.admitted = ["u", "v"] ∧ b.refused = ["w"] ∧
      b.departed = ["u", "v"] ∧ Dispersed 0 "k" { relay := r } racing :=
  ⟨by decide, by simp [racing], by decide, by decide, by decide, by decide,
    dispersed_run _ 0 "k" _ rfl (by decide) (by decide) racing (by decide) (by simp [racing])
      (by decide)⟩

end Crowd

end Relay

end Simulcast
