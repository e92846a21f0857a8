/-!
# Codecs and layer tags

A codec is announced by a MIME type such as `video/VP8`.  Its name is what follows
the first slash; a MIME type that gives no name leaves the codec unknown.  A
simulcast layer is tagged with the stream id ("rid") of its inbound track, and a
track without one carries the default layer.
-/

namespace Simulcast

/-- The name of a codec that cannot be told from its MIME type. -/
def unknownCodec : String := "Unknown"

/-- The layer of a track without a stream id. -/
def defaultLayer : String := "default"

/-- A negotiated codec. -/
structure Codec where
  mimeType : String := ""
  clockRate : UInt32 := 0
  channels : UInt16 := 0
  /-- Format parameters, as written in the session description. -/
  parameters : String := ""
  deriving DecidableEq, Repr, Inhabited

/-- The audio codec of the track that all viewers share. -/
def Codec.opus : Codec := { mimeType := "audio/opus" }

/-- The video codec offered to viewers before a video track was seen. -/
def Codec.h264 : Codec := { mimeType := "video/H264" }

/-- The codec name in a MIME type: all that follows the first slash. -/
def codecName (mimeType : String) : String :=
  match mimeType.toList.dropWhile (· ≠ '/') with
  | _ :: c :: rest => String.ofList (c :: rest)
  | _ => unknownCodec

/-- Whether two MIME types are one; letter case does not count. -/
def sameMimeType (a b : String) : Bool :=
  a.toList.map Char.toLower == b.toList.map Char.toLower

/-- Whether a MIME type names AV1. -/
def isAv1 (mimeType : String) : Bool := sameMimeType mimeType "video/AV1"

/-- The layer that an inbound track with the given stream id carries. -/
def layerTag (rid : String) : String :=
  if rid = "" then defaultLayer else rid

/-- The kind of an inbound track. -/
inductive MediaKind where
  | audio
  | video
  | unspecified
  deriving DecidableEq, Repr, Inhabited

end Simulcast
