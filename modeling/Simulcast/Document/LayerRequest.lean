import Simulcast.Json.Reader
/-!
# Layer requests

What a player posts to choose a layer: the layer's encoding id, and the id of the
media, which may be left out.
-/

namespace Simulcast

/-- A player's choice of a layer. -/
structure LayerRequest where
  mediaId : String := ""
  encodingId : String := ""
  deriving DecidableEq, Repr, Inhabited

namespace LayerRequest

/-- How a layer request is read. -/
def record : Json.Record LayerRequest where
  name := "LayerRequest"
  initial := {}
  fields := [
    { name := "mediaId"
      required := false
      read := fun v s =>
        (Json.readText s).map fun (t, rest) => ({ v with mediaId := t }, rest) },
    { name := "encodingId"
      read := fun v s =>
        (Json.readText s).map fun (t, rest) => ({ v with encodingId := t }, rest) }]

/-- Reads a layer request. -/
def decode (input : List UInt8) : Except Json.Fault LayerRequest :=
  Json.readAll (Json.readRecord record) input

end LayerRequest

end Simulcast
