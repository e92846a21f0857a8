import Simulcast.Json.Reader
import Simulcast.Json.Writer
/-!
# Status documents

The list of live streams and the details of one stream, as they are sent to clients
and read back by them.
-/

namespace Simulcast

/-! ### A live stream -/

/-- One entry of the list of live streams. -/
structure StreamStatus where
  streamKey : String := ""
  deriving DecidableEq, Repr, Inhabited

namespace StreamStatus

/-- The entry as a JSON text. -/
def encode (d : StreamStatus) : String := Json.object [("streamKey", Json.quote d.streamKey)]

/-- How an entry is read. -/
def record : Json.Record StreamStatus where
  name := "StreamStatus"
  initial := {}
  fields := [
    { name := "streamKey"
      read := fun v s =>
        (Json.readText s).map fun (t, rest) => ({ v with streamKey := t }, rest) }]

/-- Reads an entry. -/
def decode (input : List UInt8) : Except Json.Fault StreamStatus :=
  Json.readAll (Json.readRecord record) input

end StreamStatus

/-! ### A layer -/

/-- The details of one layer. -/
structure LayerDetail where
  encodingId : String := ""
  packets : UInt64 := 0
  bitrate : UInt64 := 0
  deriving DecidableEq, Repr, Inhabited

namespace LayerDetail

/-- The details as a JSON text. -/
def encode (d : LayerDetail) : String :=
  Json.object [
    ("encodingId", Json.quote d.encodingId),
    ("packets", Json.unsigned d.packets),
    ("bitrate", Json.unsigned d.bitrate)]

/-- How the details are read. -/
def record : Json.Record LayerDetail where
  name := "LayerDetail"
  initial := {}
  fields := [
    { name := "encodingId"
      read := fun v s =>
        (Json.readText s).map fun (t, rest) => ({ v with encodingId := t }, rest) },
    { name := "packets"
      read := fun v s =>
        (Json.readUnsigned "u64" s).map fun (n, rest) => ({ v with packets := n }, rest) },
    { name := "bitrate"
      read := fun v s =>
        (Json.readUnsigned "u64" s).map fun (n, rest) => ({ v with bitrate := n }, rest) }]

end LayerDetail

/-! ### A stream -/

/-- The details of one stream. -/
structure StreamDetail where
  streamKey : String := ""
  viewers : UInt64 := 0
  uptimeSecs : UInt64 := 0
  bitrate : UInt64 := 0
  hasVideo : Bool := false
  videoCodec : String := ""
  layers : List LayerDetail := []
  deriving DecidableEq, Repr, Inhabited

namespace StreamDetail

/-- The details as a JSON text. -/
def encode (d : StreamDetail) : String :=
  Json.object [
    ("streamKey", Json.quote d.streamKey),
    ("viewers", Json.unsigned d.viewers),
    ("uptimeSecs", Json.unsigned d.uptimeSecs),
    ("bitrate", Json.unsigned d.bitrate),
    ("hasVideo", Json.bool d.hasVideo),
    ("videoCodec", Json.quote d.videoCodec),
    ("layers", Json.list (d.layers.map LayerDetail.encode))]

/-- How the details are read. -/
def record : Json.Record StreamDetail where
  name := "StreamDetail"
  initial := {}
  fields := [
    { name := "streamKey"
      read := fun v s =>
        (Json.readText s).map fun (t, rest) => ({ v with streamKey := t }, rest) },
    { name := "viewers"
      read := fun v s =>
        (Json.readUnsigned "usize" s).map fun (n, rest) => ({ v with viewers := n }, rest) },
    { name := "uptimeSecs"
      read := fun v s =>
        (Json.readUnsigned "u64" s).map fun (n, rest) => ({ v with uptimeSecs := n }, rest) },
    { name := "bitrate"
      read := fun v s =>
        (Json.readUnsigned "u64" s).map fun (n, rest) => ({ v with bitrate := n }, rest) },
    { name := "hasVideo"
      read := fun v s => (Json.readBool s).map fun (b, rest) => ({ v with hasVideo := b }, rest) },
    { name := "videoCodec"
      read := fun v s =>
        (Json.readText s).map fun (t, rest) => ({ v with videoCodec := t }, rest) },
    { name := "layers"
      read := fun v s =>
        (Json.readList (Json.readRecord LayerDetail.record) s).map fun (ls, rest) =>
          ({ v with layers := ls }, rest) }]

/-- Reads the details. -/
def decode (input : List UInt8) : Except Json.Fault StreamDetail :=
  Json.readAll (Json.readRecord record) input

end StreamDetail

end Simulcast
