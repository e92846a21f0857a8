import Mathlib.Data.List.Basic
import Simulcast.Proofs.Http.Admission
import Simulcast.Proofs.Log
/-!
# The key that is remembered

Every key that is accepted is remembered, and the end of a broadcast clears its key from
memory.  A wish to stop is a case of both: the key is accepted first and then its broadcast
ends.  If nothing was on air under it there is no end, and the key stays (`Http.Leftover`).

That is the only way for a key to be remembered without a broadcast.  An offer leaves its key
on air or clears it, and no other public event touches the memory, unless it ends the
broadcast of the very key.  `Http.remembers_through` says so in both directions.
-/

namespace Simulcast

/-! ### Memory on the board -/

theorem KeyValidator.lastMatched_clearLastMatched (v : KeyValidator) (key : String) :
    (v.clearLastMatched key).lastMatched
      = if v.lastMatched = some key then none else v.lastMatched := by
  unfold clearLastMatched
  split <;> rfl

namespace Board

variable {b : Board} {key k : String} {sid : StreamId} {phase : IngestPhase}

theorem lastMatched_dismiss (b : Board) (sid : StreamId) (key : String) (phase : IngestPhase) :
    (b.dismiss sid key phase).validator.lastMatched
      = if b.validator.lastMatched = some key then none else b.validator.lastMatched :=
  b.validator.lastMatched_clearLastMatched key

/-- What is remembered after the end of all broadcasts was remembered before, and it was not
on air. -/
theorem Sound.lastMatched_clear (h : b.Sound)
    (hk : b.clear.validator.lastMatched = some key) :
    b.validator.lastMatched = some key ∧ b.index.find? key = none := by
  have hkept : b.clear.validator.lastMatched = some key →
      b.validator.lastMatched = some key ∧ b.clear.index.find? key = b.index.find? key := by
    refine h.clear_of_dismiss
      (P := fun c => c.validator.lastMatched = some key →
        b.validator.lastMatched = some key ∧ c.index.find? key = b.index.find? key)
      (fun hk => ⟨hk, rfl⟩) fun {c k sid} _ hc ih hlast => ?_
    rw [lastMatched_dismiss] at hlast
    split at hlast
    · exact absurd hlast (by simp)
    · rename_i hne
      obtain ⟨hbefore, hfind⟩ := ih hlast
      refine ⟨hbefore, ?_⟩
      rw [find?_dismiss, if_neg, hfind]
      rintro ⟨rfl, -⟩
      exact hne hlast
  obtain ⟨hbefore, hfind⟩ := hkept hk
  exact ⟨hbefore, hfind.symm.trans (h.find?_clear key)⟩

/-- A key that is not on air is still remembered after the end of all broadcasts. -/
theorem Sound.lastMatched_clear_of_free (h : b.Sound) (hk : b.validator.lastMatched = some key)
    (hfree : b.index.find? key = none) : b.clear.validator.lastMatched = some key := by
  have hkept : b.clear.validator.lastMatched = some key ∧ b.clear.index.find? key = none := by
    refine h.clear_of_dismiss
      (P := fun c => c.validator.lastMatched = some key ∧ c.index.find? key = none)
      ⟨hk, hfree⟩ fun {c k sid} _ hc ih => ?_
    have hne : key ≠ k := by
      rintro rfl
      rw [ih.2] at hc
      exact absurd hc (by simp)
    refine ⟨?_, ?_⟩
    · rw [lastMatched_dismiss, if_neg, ih.1]
      rw [ih.1]
      exact fun he => hne (Option.some.inj he)
    · rw [find?_dismiss, if_neg fun he => hne he.1, ih.2]
  exact hkept.1

/-- **After an accepted offer** its key is on air, or nothing is remembered. -/
theorem lastMatched_bid (ha : b.validator.accepts key = true) {answered : Bool}
    (hk : (b.bid key answered).validator.lastMatched = some k) :
    k = key ∧ ((b.bid key answered).index.find? key).isSome = true := by
  rcases b.bid_cases key answered with ⟨hno, -⟩ | ⟨-, ⟨sid, hsid, he⟩ | ⟨-, ⟨-, he⟩ | ⟨-, he⟩⟩⟩
  · rw [ha] at hno
    exact absurd hno (by decide)
  · rw [he] at hk ⊢
    refine ⟨(Option.some.inj hk).symm, ?_⟩
    rw [show (b.remember key).index.find? key = some sid from hsid]
    rfl
  · rw [he] at hk ⊢
    refine ⟨(Option.some.inj hk).symm, ?_⟩
    show ((b.index.insert key b.made.length).find? key).isSome = true
    rw [Table.find?_insert, if_pos rfl]
    rfl
  · rw [he] at hk
    have hcleared : ((b.remember key).abandon key).validator.lastMatched = none :=
      ((b.remember key).validator.lastMatched_clearLastMatched key).trans (if_pos rfl)
    rw [hcleared] at hk
    exact absurd hk (by simp)

/-- **After an accepted wish to stop** its key is remembered if it was not on air. -/
theorem Sound.lastMatched_stop (h : b.Sound) (key : String) :
    ((b.remember key).stop key).validator.lastMatched
      = if (b.index.find? key).isSome then none else some key := by
  have hfind : (b.remember key).index.find? key = b.index.find? key := rfl
  rcases (h.remember key).stop_cases key with ⟨hk, he⟩ | ⟨sid, hk, he⟩
  · rw [hfind] at hk
    rw [he, hk]
    rfl
  · rw [hfind] at hk
    rw [he, hk, lastMatched_dismiss]
    exact if_pos rfl

end Board

namespace Http

open Relay

/-! ### Presented keys -/

/-- Whether an event presents a key that is admitted after the events before it: an offer whose
body can be read, or a wish to stop. -/
def Presents (settings : Settings) (before : List Event) (event : Event) (key : String) : Prop :=
  ∃ req id, event = .request req id ∧
    ((req.Offers key ∧ ∃ text, bodyText req = .ok text) ∨ req.Stops key) ∧
    Admits settings before key

theorem Request.Offers.cue_eq {req : Request} {key text : String} (h : req.Offers key)
    (hbody : bodyText req = .ok text) (r : Relay) :
    cue r req = .offer key (r.verdict text).isOk := by
  simp only [cue, h.target, if_pos h.method, offerCue, hbody, h.key]

/-- An offer that shows on the board has a body that can be read. -/
theorem exists_text_of_cue {r : Relay} {req : Request} {key : String} {answered : Bool}
    (h : cue r req = .offer key answered) : ∃ text, bodyText req = .ok text := by
  unfold cue at h
  split at h
  · split at h
    · unfold offerCue at h
      cases hbody : bodyText req with
      | ok text => exact ⟨text, rfl⟩
      | error response =>
        rw [hbody] at h
        exact Cue.noConfusion h
    · unfold stopCue at h
      split at h
      · split at h <;> exact Cue.noConfusion h
      · exact Cue.noConfusion h
  · exact Cue.noConfusion h

section

variable {settings : Settings} {negotiate : Attempt → Except RelayError Agreement}
  {before : List Event} {event : Event}

/-- **What an admitted key does** to the board. -/
theorem board_of_presents (negotiate : Attempt → Except RelayError Agreement) {key : String}
    (h : Presents settings before event key) :
    (∃ req id, event = .request req id ∧ req.Stops key ∧ Admits settings before key ∧
      (event.occur (through (start settings negotiate) before)).board
        = ((through (start settings negotiate) before).board.remember key).stop key) ∨
    ∃ answered, (through (start settings negotiate) before).board.validator.accepts key = true ∧
      (event.occur (through (start settings negotiate) before)).board
        = (through (start settings negotiate) before).board.bid key answered := by
  obtain ⟨req, id, rfl, hreq, hadmits⟩ := h
  have hsound := sound_through (sound_start settings negotiate) before
  have haccepts : (through (start settings negotiate) before).board.validator.accepts key = true :=
    (accepts_through_iff key).mpr hadmits
  rw [board_occur hsound]
  rcases hreq with ⟨hoffers, text, hbody⟩ | hstops
  · refine .inr ⟨((through (start settings negotiate) before).verdict text).isOk, haccepts, ?_⟩
    rw [show (Event.request req id).cue _ = _ from hoffers.cue_eq hbody _]
    rfl
  · refine .inl ⟨req, id, rfl, hstops, hadmits, ?_⟩
    rw [show (Event.request req id).cue _ = _ from hstops.cue_eq _, Board.follow, if_pos haccepts]

/-- **All that happens to the board** when no admitted key is presented. -/
theorem board_of_not_presents (negotiate : Attempt → Except RelayError Agreement)
    (hevent : event.isPublic = true)
    (h : ∀ key, ¬ Presents settings before event key) :
    (event.occur (through (start settings negotiate) before)).board
        = (through (start settings negotiate) before).board ∨
    (∃ keys, (event.occur (through (start settings negotiate) before)).board
        = (through (start settings negotiate) before).board.follow (.setKeys keys)) ∨
    (event.occur (through (start settings negotiate) before)).board
        = (through (start settings negotiate) before).board.clear := by
  have hsound := sound_through (sound_start settings negotiate) before
  have hrefused : ∀ key, ¬ Admits settings before key →
      ¬ (through (start settings negotiate) before).board.validator.accepts key = true :=
    fun key hno => mt (accepts_through_iff key).mp hno
  rw [board_occur hsound]
  rcases event.public_cases hevent (through (start settings negotiate) before) with
    hidle | ⟨keys, rfl⟩ | rfl | ⟨req, id, rfl, ⟨k, a, hoffer, hoffers⟩ | ⟨k, hhalt, hstops⟩⟩
  · exact .inl (by rw [hidle]; rfl)
  · exact .inr (.inl ⟨keys, rfl⟩)
  · exact .inr (.inr rfl)
  · have hbody := exists_text_of_cue hoffer
    have hno := hrefused k fun hadmits => h k ⟨req, id, rfl, .inl ⟨hoffers, hbody⟩, hadmits⟩
    refine .inl ?_
    rw [hoffer, Board.follow, Board.bid, if_neg hno]
  · have hno := hrefused k fun hadmits => h k ⟨req, id, rfl, .inr hstops, hadmits⟩
    refine .inl ?_
    rw [hhalt, Board.follow, if_neg hno]

end

/-! ### Leftovers -/

/-- The last admitted key was presented by a wish to stop, while nothing was on air under it. -/
def Leftover (settings : Settings) (negotiate : Attempt → Except RelayError Agreement)
    (events : List Event) (key : String) : Prop :=
  ∃ before req id after, events = before ++ .request req id :: after ∧ req.Stops key ∧
    Admits settings before key ∧
    (through (start settings negotiate) before).registry.find? key = none ∧
    ∀ mid event rest, after = mid ++ event :: rest →
      ∀ k, ¬ Presents settings (before ++ .request req id :: mid) event k

section

variable {settings : Settings} {negotiate : Attempt → Except RelayError Agreement}
  {before : List Event} {event : Event} {key : String}

/-- **A leftover is new, or it stays** because no admitted key is presented. -/
theorem leftover_concat_iff :
    Leftover settings negotiate (before ++ [event]) key ↔
      (Leftover settings negotiate before key ∧ ∀ k, ¬ Presents settings before event k) ∨
      ∃ req id, event = .request req id ∧ req.Stops key ∧ Admits settings before key ∧
        (through (start settings negotiate) before).registry.find? key = none := by
  constructor
  · rintro ⟨early, req, id, after, he, hstops, hadmits, hfree, hafter⟩
    -- if nothing came after the wish to stop, it is the new event itself
    rcases concat_eq_split_iff.mp he with ⟨rfl, rfl, rfl⟩ | ⟨mid, rfl, rfl⟩
    · exact .inr ⟨req, id, rfl, hstops, hadmits, hfree⟩
    · refine .inl ⟨⟨early, req, id, mid, rfl, hstops, hadmits, hfree, ?_⟩, hafter mid event [] rfl⟩
      intro m e rest hm
      refine hafter m e (rest ++ [event]) ?_
      rw [hm, List.append_assoc, List.cons_append]
  · rintro (⟨⟨early, req, id, after, rfl, hstops, hadmits, hfree, hafter⟩, hno⟩ |
      ⟨req, id, rfl, hstops, hadmits, hfree⟩)
    · refine ⟨early, req, id, after ++ [event], ?_, hstops, hadmits, hfree, ?_⟩
      · rw [List.append_assoc, List.cons_append]
      · intro mid e rest hm
        rcases concat_eq_split_iff.mp hm with ⟨rfl, rfl, -⟩ | ⟨rest, -, hrest⟩
        · exact hno
        · exact hafter mid e rest hrest
    · refine ⟨before, req, id, [], rfl, hstops, hadmits, hfree, fun mid e rest hm => ?_⟩
      exact absurd hm.symm (by simp)

/-- **A remembered key is on air or left over.** -/
theorem onAir_or_leftover {events : List Event}
    (hpublic : ∀ event ∈ events, event.isPublic = true)
    (hlast : (through (start settings negotiate) events).board.validator.lastMatched = some key) :
    ((through (start settings negotiate) events).board.index.find? key).isSome = true ∨
      Leftover settings negotiate events key := by
  induction events using List.reverseRecOn with
  | nil => exact absurd hlast (by simp [through, start, board, KeyValidator.withTemporaryKey])
  | append_singleton before event ih =>
    have hbefore := ih fun event he => hpublic event (List.mem_append_left _ he)
    have hevent := hpublic event (List.mem_append_right _ List.mem_cons_self)
    have hsound := sound_through (sound_start settings negotiate) before
    rw [through_concat] at hlast ⊢
    rw [leftover_concat_iff]
    by_cases hpresents : ∃ k, Presents settings before event k
    · obtain ⟨k, hk⟩ := hpresents
      rcases board_of_presents negotiate hk with
        ⟨req, id, rfl, hstops, hadmits, he⟩ | ⟨answered, haccepts, he⟩
      · -- the key is forgotten with its broadcast, or there was none and it is left over
        rw [he, hsound.lastMatched_stop] at hlast
        split at hlast
        · exact absurd hlast (by simp)
        · rename_i hfree
          obtain rfl := Option.some.inj hlast
          rw [Bool.not_eq_true, Option.isSome_eq_false_iff, Option.isNone_iff_eq_none] at hfree
          exact .inr (.inr ⟨req, id, rfl, hstops, hadmits, hfree⟩)
      · rw [he] at hlast ⊢
        obtain ⟨rfl, hair⟩ := Board.lastMatched_bid haccepts hlast
        exact .inl hair
    · have hno : ∀ k, ¬ Presents settings before event k := fun k hk => hpresents ⟨k, hk⟩
      rcases board_of_not_presents negotiate hevent hno with he | ⟨keys, he⟩ | he
      · rw [he] at hlast ⊢
        exact (hbefore hlast).imp_right fun hleft => .inl ⟨hleft, hno⟩
      · rw [he] at hlast ⊢
        exact (hbefore hlast).imp_right fun hleft => .inl ⟨hleft, hno⟩
      · rw [he] at hlast
        obtain ⟨hold, hfree⟩ := hsound.lastMatched_clear hlast
        rcases hbefore hold with hair | hleft
        · rw [hfree] at hair
          exact absurd hair Bool.false_ne_true
        · exact .inr (.inl ⟨hleft, hno⟩)

/-- **What is left over is remembered**, and it is not on air. -/
theorem lastMatched_of_leftover {events : List Event}
    (hpublic : ∀ event ∈ events, event.isPublic = true)
    (hleft : Leftover settings negotiate events key) :
    (through (start settings negotiate) events).board.validator.lastMatched = some key ∧
      (through (start settings negotiate) events).board.index.find? key = none := by
  induction events using List.reverseRecOn with
  | nil =>
    obtain ⟨before, req, id, after, he, -⟩ := hleft
    exact absurd he (by simp)
  | append_singleton before event ih =>
    have hevent := hpublic event (List.mem_append_right _ List.mem_cons_self)
    have hsound := sound_through (sound_start settings negotiate) before
    rw [through_concat]
    rcases leftover_concat_iff.mp hleft with ⟨hold, hno⟩ | ⟨req, id, rfl, hstops, hadmits, hfree⟩
    · obtain ⟨hlast, hfree⟩ := ih (fun event he => hpublic event (List.mem_append_left _ he)) hold
      rcases board_of_not_presents negotiate hevent hno with he | ⟨keys, he⟩ | he
      · rw [he]
        exact ⟨hlast, hfree⟩
      · rw [he]
        exact ⟨hlast, hfree⟩
      · rw [he]
        exact ⟨hsound.lastMatched_clear_of_free hlast hfree, hsound.find?_clear key⟩
    · have hboard := (board_occur hsound (.request req id)).trans
        (congrArg _ (hstops.cue_eq (through (start settings negotiate) before)))
      have haccepts :
          (through (start settings negotiate) before).board.validator.accepts key = true :=
        (accepts_through_iff key).mpr hadmits
      have hfree' :
          (through (start settings negotiate) before).board.index.find? key = none := hfree
      rw [hboard, Board.follow, if_pos haccepts]
      refine ⟨?_, ?_⟩
      · rw [hsound.lastMatched_stop, hfree']
        rfl
      · rw [(hsound.remember key).find?_stop, if_pos rfl]

end

/-! ### What is remembered -/

theorem stream?_eq_none_of_sound {r : Relay} (h : r.board.Sound) (key : String) :
    r.stream? key = none ↔ r.registry.find? key = none := by
  rw [Relay.stream?]
  cases hk : r.registry.find? key with
  | none => exact ⟨fun _ => rfl, fun _ => rfl⟩
  | some sid =>
    obtain ⟨s, hs, -⟩ := held_of_sound h hk
    rw [Option.bind_some, hs]
    exact ⟨fun he => absurd he (by simp), fun he => absurd he (by simp)⟩

/-- What a wish to stop leaves remembered. -/
theorem lastMatched_of_stopped {r : Relay} (h : r.board.Sound) {req : Request} {key : String}
    (hstops : req.Stops key) (id : ViewerId) (hstatus : (handle r req id).1.status = 200) :
    (handle r req id).2.validator.lastMatched
      = if (r.registry.find? key).isSome then none else some key := by
  have haccepts : r.board.validator.accepts key = true := hstops.accepts hstatus
  have hboard := board_handle h req id
  rw [hstops.cue_eq, Board.follow, if_pos haccepts] at hboard
  exact (congrArg (fun b => b.validator.lastMatched) hboard).trans (h.lastMatched_stop key)

/-- What the remembered key of a relay says after some events. -/
structure Remembers (settings : Settings) (negotiate : Attempt → Except RelayError Agreement)
    (events : List Event) : Prop where
  /-- A broadcaster holds the stream under the remembered key, or the key is left over. -/
  remembered : ∀ key,
    (through (start settings negotiate) events).validator.lastMatched = some key →
    (∃ s, (through (start settings negotiate) events).stream? key = some s ∧ s.key = key ∧
      s.hasPublisher = true) ∨ Leftover settings negotiate events key
  /-- A key that is left over is remembered, and no stream is registered under it. -/
  leftover : ∀ key, Leftover settings negotiate events key →
    (through (start settings negotiate) events).validator.lastMatched = some key ∧
      (through (start settings negotiate) events).stream? key = none
  /-- A wish to stop that is answered well clears its key if a stream was registered under it;
  otherwise it leaves the key over. -/
  stopped : ∀ (req : Request) (id : ViewerId) (key : String), req.Stops key →
    (handle (through (start settings negotiate) events) req id).1.status = 200 →
    (handle (through (start settings negotiate) events) req id).2.validator.lastMatched
      = if ((through (start settings negotiate) events).stream? key).isSome then none
        else some key

/-- **A relay remembers a key that is on air, or a leftover**, whatever public events it has
seen. -/
theorem remembers_through (settings : Settings) (negotiate : Attempt → Except RelayError Agreement)
    (events : List Event) (hpublic : ∀ event ∈ events, event.isPublic = true) :
    Remembers settings negotiate events := by
  have hsound := sound_through (sound_start settings negotiate) events
  constructor
  · intro key hlast
    refine (onAir_or_leftover hpublic hlast).imp_left fun hair => ?_
    obtain ⟨sid, hsid⟩ := Option.isSome_iff_exists.mp hair
    have hk : (through (start settings negotiate) events).registry.find? key = some sid := hsid
    obtain ⟨s, hs, hkey, hphase⟩ := held_of_sound hsound hk
    refine ⟨s, stream?_of_find? hk hs, hkey, ?_⟩
    rw [Stream.hasPublisher, hphase]
    rfl
  · intro key hleft
    obtain ⟨hlast, hfree⟩ := lastMatched_of_leftover hpublic hleft
    exact ⟨hlast, (stream?_eq_none_of_sound hsound key).mpr hfree⟩
  · intro req id key hstops hstatus
    rw [lastMatched_of_stopped hsound hstops id hstatus]
    have hsome : ((through (start settings negotiate) events).stream? key).isSome
        = ((through (start settings negotiate) events).registry.find? key).isSome := by
      rw [Bool.eq_iff_iff, ← Option.ne_none_iff_isSome, ← Option.ne_none_iff_isSome, ne_eq, ne_eq,
        stream?_eq_none_of_sound hsound]
    rw [hsome]

/-- A wish to stop on a relay without streams is answered well, and its key is remembered
although nothing is on air. -/
theorem remembered_without_stream :
    let r := start { streamKeys := ["k"] } fun _ => .ok { answer := "answer" }
    (withKey .delete "k").Stops "k" ∧ (handle r (withKey .delete "k") "u").1.status = 200 ∧
      (handle r (withKey .delete "k") "u").2.validator.lastMatched = some "k" ∧
      (handle r (withKey .delete "k") "u").2.stream? "k" = none :=
  ⟨⟨rfl, by decide, by decide⟩, by decide, by decide, by decide⟩

/-- Before the last request of `turnover` the key that came last is on air and remembered. -/
theorem remembers_through_turnover :
    let settings : Settings := { streamKeys := ["a"] }
    let negotiate := fun _ => .ok { answer := "answer" }
    (∀ event ∈ turnover.dropLast, event.isPublic = true) ∧
      Remembers settings negotiate turnover.dropLast ∧
      (through (start settings negotiate) turnover.dropLast).validator.lastMatched = some "b" :=
  ⟨by decide, remembers_through _ _ turnover.dropLast (by decide), by decide⟩

end Http

end Simulcast
