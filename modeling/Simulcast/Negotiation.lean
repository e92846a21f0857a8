import Simulcast.Codec
import Simulcast.Connection
/-!
# Negotiation

What answering a session description comes to.  Each attempt has a connection of its
own, so the same description may be answered today and refused tomorrow, and a
broadcaster may be answered what a viewer is not.  The description of the other end may
ask for video, and then it lists the video codecs that it understands.  A viewer is
sent one video track, and the track can only start if its codec is among those; a
description that does not ask for video leaves the track idle.
-/

namespace Simulcast

/-- Who presents a session description. -/
inductive Side where
  | broadcaster
  | viewer
  deriving DecidableEq, Repr, Inhabited

/-- An attempt to come to an agreement. -/
structure Attempt where
  side : Side
  /-- The connection that was made for the attempt. -/
  connection : ConnectionId
  /-- The session description of the other end. -/
  offer : String
  deriving DecidableEq, Repr, Inhabited

/-- What hangs on the session description alone, whoever presents it. -/
instance {α : Type} : Coe (String → α) (Attempt → α) :=
  ⟨fun outcome attempt => outcome attempt.offer⟩

/-- What two ends agreed on. -/
structure Agreement where
  /-- The answer to the session description. -/
  answer : String
  /-- The MIME types of the video codecs that the other end understands; none if it
  does not ask for video. -/
  videoTypes : Option (List String) := none
  deriving DecidableEq, Repr, Inhabited

/-- Whether a codec makes a video track.  Here letter case counts. -/
def Codec.isVideo (c : Codec) : Bool := "video/".toList.isPrefixOf c.mimeType.toList

namespace Agreement

/-- Whether a video track with the given codec can be started, or stays idle. -/
def carries (a : Agreement) (c : Codec) : Bool :=
  match a.videoTypes with
  | some types => !c.isVideo || types.any (sameMimeType c.mimeType)
  | none => true

/-- Without a wish for video no codec is refused. -/
theorem carries_of_videoTypes_eq_none {a : Agreement} (h : a.videoTypes = none) (c : Codec) :
    a.carries c = true := by
  simp [carries, h]

/-- A video codec is refused exactly if it is not among those that are understood. -/
theorem carries_eq_false_iff {a : Agreement} {c : Codec} :
    a.carries c = false ↔
      ∃ types, a.videoTypes = some types ∧ c.isVideo = true ∧
        ∀ t ∈ types, sameMimeType c.mimeType t = false := by
  unfold carries
  cases a.videoTypes with
  | none => simp
  | some types => simp

end Agreement

end Simulcast
