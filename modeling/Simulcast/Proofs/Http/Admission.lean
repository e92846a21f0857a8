import Mathlib.Data.List.Induction
import Simulcast.Proofs.Http.Cues
import Simulcast.Proofs.StreamKey.Acceptance
/-!
# Who may put a stream on air, and who may end it

The keys that are admitted after some events can be read off the settings and the lists that
were set since (`Http.Admits`); nothing that broadcasters or viewers do changes them
(`Http.accepts_through_iff`).

On the board, a stream object under a new key is made by an accepted offer alone
(`Board.mem_keys_follow`), and an entry goes with an accepted wish to stop, or with an ending
from inside (`Board.Sound.find?_follow`).  Public events end nothing from inside but by a
shutdown.  So every stream object has an admitted offer in its past, every entry that goes had
an admitted request, and requests without an admitted key come to nothing: `Http.Guarded`.
-/

namespace Simulcast

/-! ### The ring of keys -/

/-- The keys of a validator, without its memory. -/
def KeyValidator.ring (v : KeyValidator) : KeyValidator := { v with lastMatched := none }

theorem KeyValidator.accepts_ring (v : KeyValidator) (key : String) :
    v.ring.accepts key = v.accepts key := rfl

theorem KeyValidator.ring_clearLastMatched (v : KeyValidator) (key : String) :
    (v.clearLastMatched key).ring = v.ring := by
  unfold clearLastMatched
  split <;> rfl

namespace Board

variable {b : Board} {key : String} {sid : StreamId} {cue : Cue}

theorem ring_takeOff (b : Board) (sid : StreamId) :
    (b.takeOff sid).validator.ring = b.validator.ring := by
  unfold takeOff
  split
  · split
    · exact KeyValidator.ring_clearLastMatched ..
    · rfl
  · rfl

theorem ring_stop (b : Board) (key : String) : (b.stop key).validator.ring = b.validator.ring := by
  unfold stop
  split
  · exact ring_takeOff ..
  · rfl

theorem ring_clear (b : Board) : b.clear.validator.ring = b.validator.ring := by
  unfold clear
  generalize b.index.values = sids
  induction sids generalizing b with
  | nil => rfl
  | cons sid rest ih => exact (ih _).trans (b.ring_takeOff sid)

/-- Only a new list changes the ring. -/
theorem ring_follow (b : Board) (h : ∀ keys, cue ≠ .setKeys keys) :
    (b.follow cue).validator.ring = b.validator.ring := by
  cases cue with
  | offer key answered =>
    show (b.bid key answered).validator.ring = _
    rcases b.bid_cases key answered with
      ⟨-, he⟩ | ⟨-, ⟨sid, -, he⟩ | ⟨-, ⟨-, he⟩ | ⟨-, he⟩⟩⟩
    · rw [he]
    · rw [he]; rfl
    · rw [he]; rfl
    · rw [he]; exact KeyValidator.ring_clearLastMatched ..
  | halt key =>
    simp only [follow]
    split
    · exact ring_stop ..
    · rfl
  | stop key => exact b.ring_stop key
  | stopAll => exact b.ring_clear
  | check key =>
    simp only [follow]
    split <;> rfl
  | forget key => exact KeyValidator.ring_clearLastMatched ..
  | setKeys keys => exact absurd rfl (h keys)
  | idle => rfl

/-! ### Keys of stream objects -/

/-- The keys of all stream objects ever made. -/
def keys (b : Board) : List String := b.made.map Prod.fst

theorem keys_takeOff (b : Board) (sid : StreamId) : (b.takeOff sid).keys = b.keys := by
  unfold takeOff
  split
  · rename_i key phase hm
    split
    · show (b.made.set sid (key, .disconnected)).map Prod.fst = b.made.map Prod.fst
      rw [List.map_set]
      refine set_of_getElem?_eq_some ?_
      rw [List.getElem?_map, hm, Option.map_some]
    · rfl
  · rfl

theorem keys_stop (b : Board) (key : String) : (b.stop key).keys = b.keys := by
  unfold stop
  split
  · exact keys_takeOff ..
  · rfl

theorem keys_clear (b : Board) : b.clear.keys = b.keys := by
  unfold clear
  generalize b.index.values = sids
  induction sids generalizing b with
  | nil => rfl
  | cons sid rest ih => exact (ih _).trans (b.keys_takeOff sid)

/-- **A stream object under a key is made by an accepted offer** with that key. -/
theorem mem_keys_follow (h : key ∈ (b.follow cue).keys) :
    key ∈ b.keys ∨ (∃ answered, cue = .offer key answered) ∧ b.validator.accepts key = true := by
  cases cue with
  | offer k answered =>
    have hnew : ∀ phase : IngestPhase,
        (b.bid k answered).keys = (b.made ++ [(k, phase)]).map Prod.fst →
        b.validator.accepts k = true →
        key ∈ b.keys ∨
          (∃ a, Cue.offer k answered = .offer key a) ∧ b.validator.accepts key = true := by
      intro phase he ha
      rw [show (b.follow (.offer k answered)).keys = _ from he, List.map_append,
        List.mem_append] at h
      refine h.imp_right fun hk => ?_
      obtain rfl := List.mem_singleton.mp hk
      exact ⟨⟨answered, rfl⟩, ha⟩
    rcases b.bid_cases k answered with ⟨-, he⟩ | ⟨ha, ⟨sid, -, he⟩ | ⟨-, ⟨-, he⟩ | ⟨-, he⟩⟩⟩
    · exact .inl (he ▸ h : key ∈ b.keys)
    · exact .inl (he ▸ h : key ∈ (b.remember k).keys)
    · exact hnew .connected (congrArg keys he) ha
    · exact hnew .disconnected (congrArg keys he) ha
  | halt k =>
    simp only [follow] at h
    split at h
    · exact .inl (((b.remember k).keys_stop k) ▸ h)
    · exact .inl h
  | stop k => exact .inl (b.keys_stop k ▸ h)
  | stopAll => exact .inl (b.keys_clear ▸ h)
  | check k =>
    simp only [follow] at h
    split at h <;> exact .inl h
  | forget k => exact .inl h
  | setKeys ks => exact .inl h
  | idle => exact .inl h

/-! ### Entries -/

theorem find?_bid_of_some (hk : b.index.find? key = some sid) (k : String) (answered : Bool) :
    (b.bid k answered).index.find? key = some sid := by
  rcases b.bid_cases k answered with ⟨-, he⟩ | ⟨-, ⟨j, -, he⟩ | ⟨hfree, ⟨-, he⟩ | ⟨-, he⟩⟩⟩
  · rw [he, hk]
  · rw [he]; exact hk
  · rw [he]
    show (b.index.insert k _).find? key = _
    rw [Table.find?_insert, if_neg, hk]
    rintro rfl
    rw [hfree] at hk
    exact absurd hk (by simp)
  · rw [he]; exact hk

/-- **An entry goes** with an accepted wish to stop, or with an ending from inside. -/
theorem Sound.find?_follow (h : b.Sound) (hk : b.index.find? key = some sid)
    (hgone : (b.follow cue).index.find? key ≠ some sid) :
    (cue = .halt key ∧ b.validator.accepts key = true) ∨ cue = .stop key ∨ cue = .stopAll := by
  cases cue with
  | offer k answered => exact absurd (find?_bid_of_some hk k answered) hgone
  | halt k =>
    simp only [Board.follow] at hgone
    split at hgone
    · rename_i ha
      rw [(h.remember k).find?_stop] at hgone
      split at hgone
      · rename_i heq
        subst heq
        exact .inl ⟨rfl, ha⟩
      · exact absurd hk hgone
    · exact absurd hk hgone
  | stop k =>
    rw [Board.follow, h.find?_stop] at hgone
    split at hgone
    · rename_i heq
      exact .inr (.inl (congrArg Cue.stop heq.symm))
    · exact absurd hk hgone
  | stopAll => exact .inr (.inr rfl)
  | check k =>
    simp only [Board.follow] at hgone
    split at hgone <;> exact absurd hk hgone
  | forget k => exact absurd hk hgone
  | setKeys ks => exact absurd hk hgone
  | idle => exact absurd hk hgone

end Board

namespace Http

open Relay

/-! ### Admitted keys -/

/-- The configured keys after some events: the last list that was set. -/
def keysInForce (settings : Settings) (events : List Event) : List String :=
  events.foldl
    (fun keys event =>
      match event with
      | .operation (.setKeys new) => new
      | _ => keys)
    settings.streamKeys

/-- Whether a key is admitted after some events: it is the temporary key, or, without a
temporary key that is not empty, one of the keys in force. -/
def Admits (settings : Settings) (events : List Event) (key : String) : Prop :=
  match settings.temporaryKey.filter (· ≠ "") with
  | some temporary => key = temporary
  | none => key ∈ keysInForce settings events

section

variable {settings : Settings} {negotiate : Attempt → Except RelayError Agreement}
  {events : List Event}

/-- An event sets a list of keys, or its cue is another one. -/
theorem Event.cue_ne_setKeys {event : Event} (h : ∀ keys, event ≠ .operation (.setKeys keys))
    (r : Relay) (keys : List String) : event.cue r ≠ .setKeys keys := by
  cases event with
  | operation op =>
    cases op with
    | setKeys ks => exact absurd rfl (h ks)
    | ingest | createSession | setLayer | listLayers | disconnect | shutdown | validate
    | clearLastMatched | observeTrack | openFeed | feedPacket | closeFeed | serveKeyframes
    | scriptSink | tick => exact Cue.noConfusion
  | request req id =>
    rcases cue_cases r req with hc | ⟨key, answered, hc, -⟩ | ⟨key, hc, -⟩ <;>
      exact fun he => Cue.noConfusion (hc.symm.trans he)

theorem ring_through (settings : Settings) (negotiate : Attempt → Except RelayError Agreement)
    (events : List Event) :
    (through (start settings negotiate) events).validator.ring
      = .withTemporaryKey (keysInForce settings events) settings.temporaryKey := by
  induction events using List.reverseRecOn with
  | nil => rfl
  | append_singleton before event ih =>
    have hboard := board_occur (sound_through (sound_start settings negotiate) before) event
    rw [through_concat, keysInForce, List.foldl_append]
    refine (congrArg (fun b => b.validator.ring) hboard).trans ?_
    by_cases hset : ∃ keys, event = .operation (.setKeys keys)
    · obtain ⟨keys, rfl⟩ := hset
      exact congrArg (·.setKeys keys) ih
    · rw [not_exists] at hset
      rw [Board.ring_follow _ (event.cue_ne_setKeys hset _)]
      refine ih.trans (congrArg (KeyValidator.withTemporaryKey · settings.temporaryKey) ?_)
      show keysInForce settings before = _
      rw [List.foldl_cons, List.foldl_nil]
      split
      · rename_i new
        exact absurd rfl (hset new)
      · rfl

/-- **A relay accepts the admitted keys.** -/
theorem accepts_through_iff (key : String) :
    (through (start settings negotiate) events).validator.accepts key = true
      ↔ Admits settings events key := by
  rw [← KeyValidator.accepts_ring, ring_through, KeyValidator.accepts_iff]
  exact Iff.rfl

/-! ### Public histories -/

/-- **A stream object has an admitted offer in its past.** -/
theorem exists_offer_of_made (negotiate : Attempt → Except RelayError Agreement)
    (hpublic : ∀ event ∈ events, event.isPublic = true) {key : String}
    (hkey : key ∈ (through (start settings negotiate) events).board.keys) :
    ∃ before req id rest, events = before ++ .request req id :: rest ∧ req.Offers key ∧
      Admits settings before key := by
  induction events using List.reverseRecOn with
  | nil => exact absurd hkey List.not_mem_nil
  | append_singleton before event ih =>
    have hsound := sound_through (sound_start settings negotiate) before
    rw [through_concat, board_occur hsound] at hkey
    rcases Board.mem_keys_follow hkey with hold | ⟨⟨answered, hcue⟩, haccepts⟩
    · obtain ⟨early, req, id, rest, rfl, hoffers, hadmits⟩ :=
        ih (fun event he => hpublic event (List.mem_append_left _ he)) hold
      refine ⟨early, req, id, rest ++ [event], ?_, hoffers, hadmits⟩
      rw [List.append_assoc, List.cons_append]
    · have hevent := hpublic event (List.mem_append_right _ List.mem_cons_self)
      rcases event.public_cases hevent _ with hidle | ⟨keys, rfl⟩ | rfl |
        ⟨req, id, rfl, ⟨k, a, hoffer, hoffers⟩ | ⟨k, hhalt, -⟩⟩
      · exact Cue.noConfusion (hidle.symm.trans hcue)
      · exact Cue.noConfusion hcue
      · exact Cue.noConfusion hcue
      · obtain ⟨rfl, -⟩ := Cue.offer.inj (hoffer.symm.trans hcue)
        exact ⟨before, req, id, [], rfl, hoffers, accepts_through_iff k |>.mp haccepts⟩
      · exact Cue.noConfusion (hhalt.symm.trans hcue)

/-- **An entry goes** by a shutdown or by an admitted wish to stop. -/
theorem stops_of_gone {event : Event} (hevent : event.isPublic = true) {key : String}
    {sid : StreamId}
    (hk : (through (start settings negotiate) events).registry.find? key = some sid)
    (hgone : (event.occur (through (start settings negotiate) events)).registry.find? key
      ≠ some sid) :
    event = .operation .shutdown ∨
      ∃ req id, event = .request req id ∧ req.Stops key ∧ Admits settings events key := by
  have hsound := sound_through (sound_start settings negotiate) events
  have hgone' : (event.occur (through (start settings negotiate) events)).board.index.find? key
      ≠ some sid := hgone
  rw [board_occur hsound] at hgone'
  have hcue := hsound.find?_follow hk hgone'
  rcases event.public_cases hevent (through (start settings negotiate) events) with
    hidle | ⟨keys, rfl⟩ | rfl | ⟨req, id, rfl, ⟨k, a, hoffer, -⟩ | ⟨k, hhalt, hstops⟩⟩
  · rcases hcue with ⟨hc, -⟩ | hc | hc <;> exact Cue.noConfusion (hidle.symm.trans hc)
  · rcases hcue with ⟨hc, -⟩ | hc | hc <;> exact Cue.noConfusion hc
  · exact .inl rfl
  · rcases hcue with ⟨hc, -⟩ | hc | hc <;> exact Cue.noConfusion (hoffer.symm.trans hc)
  · rcases hcue with ⟨hc, haccepts⟩ | hc | hc
    · obtain rfl := Cue.halt.inj (hhalt.symm.trans hc)
      exact .inr ⟨req, id, rfl, hstops, accepts_through_iff k |>.mp haccepts⟩
    · exact Cue.noConfusion (hhalt.symm.trans hc)
    · exact Cue.noConfusion (hhalt.symm.trans hc)

end

/-! ### Refused broadcasters -/

section

variable {r : Relay} {req : Request}

/-- A header yields a key, or it is told that there is none. -/
theorem bearerKey_cases (headers : List (String × List UInt8)) :
    bearerKey headers = .error .missingAuthorization ∨ ∃ key, bearerKey headers = .ok key := by
  unfold bearerKey nonemptyKey
  split
  · exact .inl rfl
  · exact .inr ⟨_, rfl⟩

theorem whipOffer_of_refused {text : String} (hbody : bodyText req = .ok text)
    (hkey : ∀ key, bearerKey req.headers = .ok key → r.validator.accepts key = false) :
    (whipOffer r req).1.status = 400 ∧ (whipOffer r req).2 = r := by
  unfold whipOffer
  rw [hbody]
  rcases bearerKey_cases req.headers with hnone | ⟨key, hsome⟩
  · rw [hnone]
    exact ⟨rfl, rfl⟩
  · simp only [hsome, ingest_of_not_accepts (hkey key hsome)]
    exact ⟨rfl, trivial⟩

theorem whipDelete_of_refused
    (hkey : ∀ key, bearerKey req.headers = .ok key → r.validator.accepts key = false) :
    (whipDelete r req).1.status = 400 ∧ (whipDelete r req).2 = r := by
  unfold whipDelete
  rcases bearerKey_cases req.headers with hnone | ⟨key, hsome⟩
  · rw [hnone]
    exact ⟨rfl, rfl⟩
  · simp only [hsome, validate_of_not_accepts (hkey key hsome)]
    exact ⟨rfl, trivial⟩

/-- **A broadcaster's request without an accepted key** is refused, and that is all. -/
theorem handle_of_refused (hroute : Route.ofTarget? req.target = some .whip)
    (hmethod : req.method = .post ∨ req.method = .delete) {text : String}
    (hbody : bodyText req = .ok text)
    (hkey : ∀ key, bearerKey req.headers = .ok key → r.validator.accepts key = false)
    (id : ViewerId) : (handle r req id).1.status = 400 ∧ (handle r req id).2 = r := by
  rcases hmethod with hpost | hdelete
  · rw [handle_whip_post hroute hpost]
    exact whipOffer_of_refused hbody hkey
  · rw [handle_whip_delete hroute hdelete]
    exact whipDelete_of_refused hkey

end

/-! ### Guarded streams -/

/-- What can be said of the broadcasts of a relay after some events, of what follows next, and
of what was there before. -/
structure Guarded (settings : Settings) (negotiate : Attempt → Except RelayError Agreement)
    (events : List Event) : Prop where
  /-- A stream object was made for an offer with its key, which was admitted at that time. -/
  made : ∀ sid s, (through (start settings negotiate) events).registry.stream? sid = some s →
    ∃ before req id rest, events = before ++ .request req id :: rest ∧ req.Offers s.key ∧
      Admits settings before s.key
  /-- What is registered under a key is a stream object with that key. -/
  registered : ∀ key sid,
    (through (start settings negotiate) events).registry.find? key = some sid →
    ∃ s, (through (start settings negotiate) events).registry.stream? sid = some s ∧ s.key = key
  /-- Next, an entry can go by a shutdown, or by a wish to stop with its key, if that is
  admitted by now. -/
  ended : ∀ event : Event, event.isPublic = true → ∀ key sid,
    (through (start settings negotiate) events).registry.find? key = some sid →
    (event.occur (through (start settings negotiate) events)).registry.find? key ≠ some sid →
    event = .operation .shutdown ∨
      ∃ req id, event = .request req id ∧ req.Stops key ∧ Admits settings events key
  /-- Next, a broadcaster's request without an admitted key is refused and changes nothing. -/
  refused : ∀ (req : Request) (id : ViewerId) (text : String),
    Route.ofTarget? req.target = some .whip → req.method = .post ∨ req.method = .delete →
    req.body.length ≤ bodyLimit → Utf8.decodeString req.body = .ok text →
    (∀ key, bearerKey req.headers = .ok key → ¬ Admits settings events key) →
    (handle (through (start settings negotiate) events) req id).1.status = 400 ∧
      (handle (through (start settings negotiate) events) req id).2
        = through (start settings negotiate) events

theorem bodyText_of_fits {req : Request} {text : String} (hfits : req.body.length ≤ bodyLimit)
    (htext : Utf8.decodeString req.body = .ok text) : bodyText req = .ok text := by
  simp only [bodyText, bodyBytes, if_neg (Nat.not_lt_of_le hfits), htext]

/-- **Streams are guarded by their keys**, whatever public events a relay has seen. -/
theorem guarded_through (settings : Settings) (negotiate : Attempt → Except RelayError Agreement)
    (events : List Event) (hpublic : ∀ event ∈ events, event.isPublic = true) :
    Guarded settings negotiate events where
  made := by
    intro sid s hs
    refine exists_offer_of_made negotiate hpublic ?_
    have hmade : (s.key, s.phase) ∈ (through (start settings negotiate) events).board.made :=
      List.mem_map.mpr ⟨s, List.mem_of_getElem? hs, rfl⟩
    exact List.mem_map.mpr ⟨(s.key, s.phase), hmade, rfl⟩
  registered := by
    intro key sid hk
    obtain ⟨s, hs, hkey, -⟩ :=
      held_of_sound (sound_through (sound_start settings negotiate) events) hk
    exact ⟨s, hs, hkey⟩
  ended := fun event hevent key sid => stops_of_gone hevent
  refused := by
    intro req id text hroute hmethod hfits htext hkey
    refine handle_of_refused hroute hmethod (bodyText_of_fits hfits htext) (fun key hsome => ?_) id
    rw [← Bool.not_eq_true, accepts_through_iff]
    exact hkey key hsome

/-- While `a` is on air, `b` takes its place among the keys; both are asked to stop. -/
def turnover : List Event := [
  .request (withKey .post "a") "t",
  .operation (.setKeys ["b"]),
  .request (withKey .post "b") "u",
  .request (withKey .delete "a") "v",
  .request (withKey .delete "b") "w"]

/-- After `turnover` only `b` is gone: its broadcaster could still end it. -/
theorem guarded_through_turnover :
    let settings : Settings := { streamKeys := ["a"] }
    let negotiate := fun _ => .ok { answer := "answer" }
    (∀ event ∈ turnover, event.isPublic = true) ∧ Guarded settings negotiate turnover ∧
      (through (start settings negotiate) turnover).registry.find? "a" = some 0 ∧
      (through (start settings negotiate) turnover).registry.find? "b" = none :=
  ⟨by decide, guarded_through _ _ turnover (by decide), by decide, by decide⟩

end Http

end Simulcast
