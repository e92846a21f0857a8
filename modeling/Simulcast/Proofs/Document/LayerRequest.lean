import Simulcast.Document.LayerRequest
import Simulcast.Proofs.Json.Layout
import Simulcast.Proofs.Json.Records
/-!
# Layer requests, however they are written

A layer request is read member by member, as any object of texts is.  So if a text is the
encoding of an object that has the members of a request and no others, in any order, the request
has just these members (`LayerRequest.decode_of_encodedBy`), and it does not matter how the object
is laid out (`LayerRequest.encodedBy_of_spelledBy`).
-/

namespace Simulcast

namespace LayerRequest

open Json

/-! ### Encodings -/

/-- The texts that encode a request: an object of the media id and the layer's encoding id, in
either order, or of the encoding id alone, which leaves the media id empty. -/
inductive EncodedBy (body : List UInt8) : LayerRequest → Prop where
  | inOrder {mediaId encodingId : String} (h : Json.decode body
      = .ok (.object [("mediaId", .text mediaId), ("encodingId", .text encodingId)])) :
      EncodedBy body ⟨mediaId, encodingId⟩
  | swapped {mediaId encodingId : String} (h : Json.decode body
      = .ok (.object [("encodingId", .text encodingId), ("mediaId", .text mediaId)])) :
      EncodedBy body ⟨mediaId, encodingId⟩
  | alone {encodingId : String} (h : Json.decode body
      = .ok (.object [("encodingId", .text encodingId)])) : EncodedBy body ⟨"", encodingId⟩

theorem decode_of_fills {body : List UInt8} {members : List (String × Value)}
    {request : LayerRequest} (h : Json.decode body = .ok (.object members))
    (hfills : Fills record members {} request) (hnodup : (members.map Prod.fst).Nodup)
    (hlayer : "encodingId" ∈ members.map Prod.fst) : decode body = .ok request := by
  refine readAll_of_takes (takes_record hfills hnodup ?_) h
  simpa [record] using hlayer

/-- **Every encoding of a request is read as that request.** -/
theorem decode_of_encodedBy {body : List UInt8} {request : LayerRequest}
    (h : EncodedBy body request) : decode body = .ok request := by
  cases h with
  | @inOrder mediaId encodingId h =>
    refine decode_of_fills h ?_ (by simp) (by simp)
    refine .cons rfl ((takes_text mediaId).map (mk · "")) ?_
    exact .cons rfl ((takes_text encodingId).map (mk mediaId)) (.nil _)
  | @swapped mediaId encodingId h =>
    refine decode_of_fills h ?_ (by simp) (by simp)
    refine .cons rfl ((takes_text encodingId).map (mk "")) ?_
    exact .cons rfl ((takes_text mediaId).map (mk · encodingId)) (.nil _)
  | @alone encodingId h =>
    refine decode_of_fills h ?_ (by simp) (by simp)
    exact .cons rfl ((takes_text encodingId).map (mk "")) (.nil _)

/-- The ways to write a request: the same objects, laid out and spelled in any way. -/
def SpelledBy (body : List UInt8) (request : LayerRequest) : Prop :=
  SpellsObject body [("mediaId", request.mediaId), ("encodingId", request.encodingId)] ∨
  SpellsObject body [("encodingId", request.encodingId), ("mediaId", request.mediaId)] ∨
  request.mediaId = "" ∧ SpellsObject body [("encodingId", request.encodingId)]

/-- **Every way to write a request is an encoding of it.** -/
theorem encodedBy_of_spelledBy {body : List UInt8} {request : LayerRequest}
    (h : SpelledBy body request) : EncodedBy body request := by
  obtain ⟨mediaId, encodingId⟩ := request
  rcases h with h | h | ⟨hempty, h⟩
  · exact .inOrder (decode_of_spells h)
  · exact .swapped (decode_of_spells h)
  · obtain rfl : mediaId = "" := hempty
    exact .alone (decode_of_spells h)

end LayerRequest

end Simulcast
