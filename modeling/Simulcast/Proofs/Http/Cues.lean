import Simulcast.Proofs.Http.Requests
import Simulcast.Proofs.Relay.Board
/-!
# Requests on the board

Two requests show on the board of a relay: a broadcaster's offer (`Request.Offers`) and a
broadcaster's wish to stop (`Request.Stops`), each with the key that its header carries.  All
other requests leave the board alone, whatever they are answered.

`Http.board_handle` gives the cue of a request and `Http.board_occur` that of any event.  A
relay whose broadcasters use nothing but requests sees only public events
(`Event.isPublic`), and `Event.public_cases` lists what those can do.
-/

namespace Simulcast

namespace Http

open Relay

/-! ### Answers -/

theorem Route.options_not_mem (route : Route) : Method.options ∉ route.methods := by
  cases route <;> simp [Route.methods]

/-- A request with one of the methods of an endpoint gets the answer of that endpoint. -/
theorem handle_of_route {req : Request} {route : Route}
    (hroute : Route.ofTarget? req.target = some route) (hmethod : req.method ∈ route.methods)
    (hhead : req.method ≠ .head) (r : Relay) (id : ViewerId) :
    handle r req id
      = ((respond r req route id).1.withHeaders
          (("access-control-expose-headers", "*") :: corsHeaders),
        (respond r req route id).2) := by
  have hoptions : req.method ≠ .options := fun he => route.options_not_mem (he ▸ hmethod)
  simp only [handle, if_neg hoptions, dispatch, hroute, if_pos hmethod, if_neg hhead]

theorem handle_whip_post {req : Request} (hroute : Route.ofTarget? req.target = some .whip)
    (hmethod : req.method = .post) (r : Relay) (id : ViewerId) :
    handle r req id
      = ((whipOffer r req).1.withHeaders (("access-control-expose-headers", "*") :: corsHeaders),
        (whipOffer r req).2) := by
  have hmem : req.method ∈ Route.whip.methods := by
    rw [hmethod]
    exact List.mem_cons_self
  rw [handle_of_route hroute hmem (by rw [hmethod]; decide), respond, if_pos hmethod]

theorem handle_whip_delete {req : Request} (hroute : Route.ofTarget? req.target = some .whip)
    (hmethod : req.method = .delete) (r : Relay) (id : ViewerId) :
    handle r req id
      = ((whipDelete r req).1.withHeaders (("access-control-expose-headers", "*") :: corsHeaders),
        (whipDelete r req).2) := by
  have hmem : req.method ∈ Route.whip.methods := by
    rw [hmethod]
    exact List.mem_cons_of_mem _ List.mem_cons_self
  have hno : ¬ req.method = .post := by
    rw [hmethod]
    decide
  rw [handle_of_route hroute hmem (by rw [hmethod]; decide), respond, if_neg hno]

/-! ### Requests of broadcasters -/

/-- A broadcaster's offer under a key. -/
structure Request.Offers (req : Request) (key : String) : Prop where
  method : req.method = .post
  target : Route.ofTarget? req.target = some .whip
  key : bearerKey req.headers = .ok key

/-- A broadcaster's wish to end the broadcast under a key. -/
structure Request.Stops (req : Request) (key : String) : Prop where
  method : req.method = .delete
  target : Route.ofTarget? req.target = some .whip
  key : bearerKey req.headers = .ok key

/-- A broadcaster's request with a key. -/
def withKey (method : Method) (key : String) : Request where
  method := method
  target := "/whip"
  headers := [("authorization", Utf8.encode ("Bearer " ++ key))]
  body := Utf8.encode "offer"

def offerCue (r : Relay) (req : Request) : Cue :=
  match bodyText req with
  | .error _ => .idle
  | .ok offer =>
    match bearerKey req.headers with
    | .error _ => .idle
    | .ok key => .offer key (r.verdict offer).isOk

def stopCue (req : Request) : Cue :=
  match bearerKey req.headers with
  | .error _ => .idle
  | .ok key => .halt key

/-- The cue that a request gives to the board. -/
def cue (r : Relay) (req : Request) : Cue :=
  match Route.ofTarget? req.target with
  | some .whip =>
    if req.method = .post then offerCue r req
    else if req.method = .delete then stopCue req
    else .idle
  | _ => .idle

theorem Request.Stops.cue_eq {req : Request} {key : String} (h : req.Stops key) (r : Relay) :
    cue r req = .halt key := by
  have hpost : ¬ req.method = .post := by
    rw [h.method]
    decide
  simp only [cue, h.target, if_neg hpost, if_pos h.method, stopCue, h.key]

/-- A wish to stop that is answered well was for an accepted key. -/
theorem Request.Stops.accepts {req : Request} {key : String} (h : req.Stops key) {r : Relay}
    {id : ViewerId} (hstatus : (handle r req id).1.status = 200) :
    r.validator.accepts key = true := by
  rw [← Bool.not_eq_false]
  intro ha
  rw [handle_whip_delete h.target h.method, whipDelete, h.key] at hstatus
  simp only [validate_of_not_accepts ha] at hstatus
  exact absurd hstatus (by decide)

/-- **All the cues of a request**: an offer, a wish to stop, or nothing. -/
theorem cue_cases (r : Relay) (req : Request) :
    cue r req = .idle ∨
    (∃ key answered, cue r req = .offer key answered ∧ req.Offers key) ∨
    ∃ key, cue r req = .halt key ∧ req.Stops key := by
  unfold cue
  split
  · rename_i htarget
    split
    · rename_i hmethod
      unfold offerCue
      split
      · exact .inl rfl
      · split
        · exact .inl rfl
        · rename_i key hkey
          exact .inr (.inl ⟨key, _, rfl, hmethod, htarget, hkey⟩)
    · split
      · rename_i hmethod
        unfold stopCue
        split
        · exact .inl rfl
        · rename_i key hkey
          exact .inr (.inr ⟨key, rfl, hmethod, htarget, hkey⟩)
      · exact .inl rfl
  · exact .inl rfl

/-! ### Requests on the board -/

section

variable {r : Relay}

theorem board_whipOffer (h : r.board.Sound) (req : Request) :
    (whipOffer r req).2.board = r.board.follow (offerCue r req) := by
  unfold whipOffer offerCue
  cases bodyText req with
  | error response => rfl
  | ok offer =>
    cases bearerKey req.headers with
    | error e => rfl
    | ok key =>
      have hboard := (board_ingest h offer key req.peer).2
      simp only
      split
      · rename_i answer q hq
        rw [hq] at hboard
        exact hboard
      · rename_i e q hq
        rw [hq] at hboard
        exact hboard

theorem board_whipDelete (r : Relay) (req : Request) :
    (whipDelete r req).2.board = r.board.follow (stopCue req) := by
  unfold whipDelete stopCue
  cases bearerKey req.headers with
  | error e => rfl
  | ok key =>
    have haccepts : r.board.validator.accepts key = r.validator.accepts key := rfl
    simp only [Board.follow, haccepts]
    cases ha : r.validator.accepts key with
    | false => rw [validate_of_not_accepts ha]; rfl
    | true => rw [validate_of_accepts ha]; exact board_disconnect _ key

theorem board_whepOffer (r : Relay) (req : Request) (id : ViewerId) :
    (whepOffer r req id).2.board = r.board := by
  unfold whepOffer
  split
  · rfl
  · rename_i offer hoffer
    split
    · rfl
    · rename_i key hkey
      have hboard := board_createSession r offer key id
      split
      · rename_i answer q hq
        rw [hq] at hboard
        exact hboard
      · rename_i e q hq
        rw [hq] at hboard
        exact hboard

theorem board_whepSelectLayer (r : Relay) (req : Request) (raw : String) :
    (whepSelectLayer r req raw).2.board = r.board := by
  unfold whepSelectLayer
  split
  · rfl
  · rename_i session hsession
    split
    · rfl
    · split
      · rfl
      · rename_i choice hchoice
        have hboard := board_setLayer r session choice.encodingId
        split
        · rename_i q hq
          rw [hq] at hboard
          exact hboard
        · rename_i e q hq
          rw [hq] at hboard
          exact hboard

/-- **A request does to the board what its cue says.** -/
theorem board_handle (h : r.board.Sound) (req : Request) (id : ViewerId) :
    (handle r req id).2.board = r.board.follow (cue r req) := by
  unfold handle
  split
  · rename_i hmethod
    have hidle : cue r req = .idle := by
      unfold cue
      rw [hmethod]
      split <;> rfl
    rw [hidle]
    rfl
  · show (dispatch r req id).2.board = _
    unfold dispatch cue
    cases hroute : Route.ofTarget? req.target with
    | none => rfl
    | some route =>
      simp only
      split
      · rename_i hmem
        show (respond r req route id).2.board = _
        cases route with
        | whip =>
          simp only [respond]
          split
          · exact board_whipOffer h req
          · rename_i hpost
            have hdelete : req.method = .delete := by
              simpa [Route.methods, hpost] using hmem
            rw [if_pos hdelete]
            exact board_whipDelete r req
        | whep => exact board_whepOffer r req id
        | layers session => rfl
        | layer session => exact board_whepSelectLayer r req session
        | status => rfl
        | streamStatus key => rfl
      · rename_i hmem
        cases route with
        | whip =>
          have hno : req.method ≠ .post ∧ req.method ≠ .delete := by
            simpa [Route.methods] using hmem
          simp only [if_neg hno.1, if_neg hno.2]
          rfl
        | whep => rfl
        | layers session => rfl
        | layer session => rfl
        | status => rfl
        | streamStatus key => rfl

/-! ### Events on the board -/

/-- The cue that an event gives to the board. -/
def Event.cue (r : Relay) : Event → Cue
  | .operation op => r.cue op
  | .request req _ => Http.cue r req

theorem board_occur (h : r.board.Sound) (event : Event) :
    (event.occur r).board = r.board.follow (event.cue r) := by
  cases event with
  | operation op => exact board_perform h op
  | request req id => exact board_handle h req id

theorem through_concat (r : Relay) (events : List Event) (event : Event) :
    through r (events ++ [event]) = event.occur (through r events) := by
  rw [through, List.foldl_append]
  rfl

/-- **All events leave a sound board sound.** -/
theorem sound_through (h : r.board.Sound) (events : List Event) :
    (through r events).board.Sound := by
  induction events generalizing r with
  | nil => exact h
  | cons event rest ih =>
    refine ih ?_
    rw [board_occur h]
    exact h.follow _

end

/-! ### Public events -/

/-- What the operator, the loops and the clock do to a relay. -/
def Event.isPublicOperation : Operation → Bool
  | .setKeys _ | .shutdown | .observeTrack .. | .openFeed .. | .feedPacket .. | .closeFeed _
  | .serveKeyframes | .scriptSink .. | .tick _ => true
  | .ingest .. | .createSession .. | .setLayer .. | .listLayers _ | .disconnect _
  | .validate _ | .clearLastMatched _ => false

/-- Whether an event can happen to a relay whose broadcasters and viewers do nothing but send
requests. -/
def Event.isPublic : Event → Bool
  | .operation op => isPublicOperation op
  | .request _ _ => true

/-- **All that a public event can show** on the board. -/
theorem Event.public_cases {event : Event} (h : event.isPublic = true) (r : Relay) :
    event.cue r = .idle ∨
    (∃ keys, event = .operation (.setKeys keys)) ∨
    event = .operation .shutdown ∨
    ∃ req id, event = .request req id ∧
      ((∃ key answered, event.cue r = .offer key answered ∧ req.Offers key) ∨
        ∃ key, event.cue r = .halt key ∧ req.Stops key) := by
  cases event with
  | operation op =>
    cases op with
    | setKeys keys => exact .inr (.inl ⟨keys, rfl⟩)
    | shutdown => exact .inr (.inr (.inl rfl))
    | ingest | disconnect | validate | clearLastMatched => exact absurd h Bool.false_ne_true
    | createSession | setLayer | listLayers | observeTrack | openFeed | feedPacket | closeFeed
    | serveKeyframes | scriptSink | tick => exact .inl rfl
  | request req id =>
    rcases cue_cases r req with hc | hc
    · exact .inl hc
    · exact .inr (.inr (.inr ⟨req, id, rfl, hc⟩))

end Http

end Simulcast
