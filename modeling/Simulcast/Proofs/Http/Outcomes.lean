import Simulcast.Proofs.Http.Cues
import Simulcast.Proofs.Relay.Continuance
/-!
# Requests as operations

A request changes the relay by one operation or not at all.  Each endpoint is opened once
here, down to that operation, and `Http.handle_cases` puts them together.  The one request
that is made of two operations is a broadcaster's wish to stop, which checks the key and then
ends the broadcast.
-/

namespace Simulcast

namespace Http

open Relay

/-- A wish for a layer that can be read, for a session. -/
structure Request.Chooses (req : Request) (session : ViewerId) (layer : String) : Prop where
  method : req.method = .post
  target : ∃ raw, Route.ofTarget? req.target = some (.layer raw) ∧
    pathParameter "session_id" raw = .ok session
  body : ∃ bytes choice, bodyBytes req = .ok bytes ∧ LayerRequest.decode bytes = .ok choice ∧
    choice.encodingId = layer

/-- The operations that a request can come to by itself. -/
inductive Request.Asks (req : Request) (id : ViewerId) : Operation → Prop where
  | ingest (offer key : String) : req.Asks id (.ingest offer key req.peer)
  | createSession (offer key : String) : req.Asks id (.createSession offer key id)
  | setLayer {session : ViewerId} {layer : String} (h : req.Chooses session layer) :
      req.Asks id (.setLayer session layer)

theorem Request.Asks.not_ends {req : Request} {id : ViewerId} {op : Operation}
    (h : req.Asks id op) (key : String) : ¬ op.Ends key := by
  rintro (rfl | rfl) <;> cases h

theorem Request.Asks.newViewer? {req : Request} {id : ViewerId} {op : Operation}
    (h : req.Asks id op) : ∀ j ∈ newViewer? op, j = id := by
  intro j hj
  cases h with
  | createSession offer key => exact (Option.some.inj hj).symm
  | ingest offer key => exact absurd hj (by simp [Relay.newViewer?])
  | setLayer hchooses => exact absurd hj (by simp [Relay.newViewer?])

section

variable (r : Relay) (req : Request) (id : ViewerId)

theorem whipOffer_cases : (whipOffer r req).2 = r ∨
    ∃ offer key, (whipOffer r req).2 = (r.ingest offer key req.peer).2 := by
  unfold whipOffer
  cases bodyText req with
  | error response => exact .inl rfl
  | ok offer =>
    cases bearerKey req.headers with
    | error e => exact .inl rfl
    | ok key =>
      refine .inr ⟨offer, key, ?_⟩
      simp only
      split <;> rename_i hq <;> rw [hq]

theorem whipDelete_cases : (whipDelete r req).2 = r ∨
    ∃ key, bearerKey req.headers = .ok key ∧ (whipDelete r req).1.status = 200 ∧
      (whipDelete r req).2 = (r.validate key).2.disconnect key := by
  unfold whipDelete
  cases bearerKey req.headers with
  | error e => exact .inl rfl
  | ok key =>
    cases ha : r.validator.accepts key with
    | false => exact .inl (by simp only [validate_of_not_accepts ha])
    | true =>
      refine .inr ⟨key, rfl, ?_, ?_⟩
      · simp only [validate_of_accepts ha]
      · simp only [validate_of_accepts ha]

theorem whepOffer_cases : (whepOffer r req id).2 = r ∨
    ∃ offer key, (whepOffer r req id).2 = (r.createSession offer key id).2 := by
  unfold whepOffer
  cases bodyText req with
  | error response => exact .inl rfl
  | ok offer =>
    cases viewerKey req.headers with
    | error e => exact .inl rfl
    | ok key =>
      refine .inr ⟨offer, key, ?_⟩
      simp only
      split <;> rename_i hq <;> rw [hq]

theorem whepSelectLayer_cases (raw : String) : (whepSelectLayer r req raw).2 = r ∨
    ∃ session bytes choice, pathParameter "session_id" raw = .ok session ∧
      bodyBytes req = .ok bytes ∧ LayerRequest.decode bytes = .ok choice ∧
      (whepSelectLayer r req raw).2 = (r.setLayer session choice.encodingId).2 := by
  unfold whepSelectLayer
  cases pathParameter "session_id" raw with
  | error response => exact .inl rfl
  | ok session =>
    cases bodyBytes req with
    | error response => exact .inl rfl
    | ok bytes =>
      cases hchoice : LayerRequest.decode bytes with
      | error fault =>
        simp only [hchoice]
        exact .inl trivial
      | ok choice =>
        refine .inr ⟨session, bytes, choice, rfl, rfl, hchoice, ?_⟩
        simp only [hchoice]
        split <;> rename_i hq <;> rw [hq]

/-- **All that a request does** is nothing, or the operation that it asks for, which ends no
broadcast, or the end of the broadcast that it was told to stop. -/
theorem handle_cases :
    (handle r req id).2 = r ∨
    (∃ op, req.Asks id op ∧ (handle r req id).2 = r.perform op) ∨
    ∃ key, req.Stops key ∧ (handle r req id).1.status = 200 ∧
      (handle r req id).2 = (r.validate key).2.disconnect key := by
  by_cases hserved : ∃ route, Route.ofTarget? req.target = some route ∧
      req.method ∈ route.methods ∧ req.method ≠ .head
  · obtain ⟨route, hroute, hmem, hhead⟩ := hserved
    rw [handle_of_route hroute hmem hhead]
    cases route with
    | whip =>
      by_cases hpost : req.method = .post
      · rw [respond, if_pos hpost]
        rcases whipOffer_cases r req with he | ⟨offer, key, he⟩
        · exact .inl he
        · exact .inr (.inl ⟨_, .ingest offer key, he⟩)
      · have hdelete : req.method = .delete := by simpa [Route.methods, hpost] using hmem
        rw [respond, if_neg hpost]
        rcases whipDelete_cases r req with he | ⟨key, hkey, hstatus, he⟩
        · exact .inl he
        · exact .inr (.inr ⟨key, ⟨hdelete, hroute, hkey⟩, hstatus, he⟩)
    | whep =>
      rcases whepOffer_cases r req id with he | ⟨offer, key, he⟩
      · exact .inl he
      · exact .inr (.inl ⟨_, .createSession offer key, he⟩)
    | layer raw =>
      have hpost : req.method = .post := by simpa [Route.methods] using hmem
      rcases whepSelectLayer_cases r req raw with
        he | ⟨session, bytes, choice, hraw, hbytes, hchoice, he⟩
      · exact .inl he
      · have hchooses : req.Chooses session choice.encodingId :=
          ⟨hpost, ⟨raw, hroute, hraw⟩, bytes, choice, hbytes, hchoice, rfl⟩
        exact .inr (.inl ⟨_, .setLayer hchooses, he⟩)
    | layers raw => exact .inl rfl
    | status => exact .inl rfl
    | streamStatus raw => exact .inl rfl
  · refine .inl ?_
    unfold handle
    split
    · rfl
    · show (dispatch r req id).2 = r
      unfold dispatch
      cases hroute : Route.ofTarget? req.target with
      | none => rfl
      | some route =>
        simp only
        split
        · rename_i hmem
          -- only a `HEAD` request is left, and it has no endpoint that changes anything
          have hhead : req.method = .head :=
            Decidable.byContradiction fun hno => hserved ⟨route, hroute, hmem, hno⟩
          rw [hhead] at hmem
          cases route with
          | whip => exact absurd hmem (by decide)
          | whep => exact absurd hmem (by decide)
          | layer raw => exact absurd hmem (by simp [Route.methods])
          | layers raw => rfl
          | status => rfl
          | streamStatus raw => rfl
        · rfl

end

end Http

end Simulcast
