import Simulcast.Document.Status
import Simulcast.Proofs.Json.Numeral
import Simulcast.Proofs.Json.Records
/-!
# Status documents, there and back

A status document is written as an object of its fields, and read from any text that is such an
object.  `StreamDetail.value` is the value in between.  What is written decodes to it
(`StreamDetail.decode_encode`), part by part as the document nests, and the reader takes it for
the document (`StreamDetail.takes_value`).  So every document reads back, however many layers it
has and whatever its texts hold, and two documents are never written alike.
-/

namespace Simulcast

open Json

/-! ### Formats -/

/-- A format of documents that loses nothing: what is written for a document is a JSON text of
its value, and whatever is such a text is read as the document. -/
structure Faithful {α : Type} (encode : α → String) (decode : List UInt8 → Except Fault α)
    (value : α → Value) : Prop where
  written : ∀ d, Json.decode (Utf8.encode (encode d)) = .ok (value d)
  read : ∀ d bytes, Json.decode bytes = .ok (value d) → decode bytes = .ok d
  returns : ∀ d, decode (Utf8.encode (encode d)) = .ok d
  injective : ∀ d e, encode d = encode e → d = e
  /-- To write what was read, and to read that, changes nothing any more. -/
  settles : ∀ bytes text, (decode bytes).map encode = .ok text →
    decode (Utf8.encode text) = decode bytes ∧
      (decode (Utf8.encode text)).map encode = .ok text

theorem faithful_of_takes {α : Type} {encode : α → String} {item : List UInt8 → Read α}
    {value : α → Value} (hwritten : ∀ d, Json.decode (Utf8.encode (encode d)) = .ok (value d))
    (htakes : ∀ d, Takes item (value d) d) : Faithful encode (readAll item) value := by
  have hreturns : ∀ d, readAll item (Utf8.encode (encode d)) = .ok d := fun d =>
    readAll_of_takes (htakes d) (hwritten d)
  refine ⟨hwritten, fun d bytes h => readAll_of_takes (htakes d) h, hreturns, ?_, ?_⟩
  · intro d e hsame
    have hread := hreturns d
    rw [hsame, hreturns e] at hread
    exact (Except.ok.inj hread).symm
  · intro bytes text h
    obtain ⟨d, hd, rfl⟩ := eq_ok_of_map h
    rw [hreturns d, hd]
    exact ⟨rfl, rfl⟩

/-! ### A live stream -/

namespace StreamStatus

/-- The entry as a value. -/
def value (d : StreamStatus) : Value := .object [("streamKey", .text d.streamKey)]

theorem takes_value (d : StreamStatus) : Takes (readRecord record) d.value d := by
  refine takes_record ?_ (by simp) (by simp [record])
  exact .cons rfl ((takes_text d.streamKey).map mk) (.nil _)

theorem reads_encode (d : StreamStatus) (depth : Nat) :
    Reads (readValue (depth + 2)) (Utf8.encode d.encode) d.value :=
  reads_object (.cons ⟨rfl, reads_quote d.streamKey⟩ .nil)

theorem decode_encode (d : StreamStatus) : Json.decode (Utf8.encode d.encode) = .ok d.value := by
  have hdeep : 1 ≤ (Utf8.encode d.encode).length := by
    rw [encode, encode_object]
    exact Nat.succ_le_succ (Nat.zero_le _)
  exact decode_written 1 hdeep d.reads_encode

/-- **The list of the live streams** decodes to its entries, in order. -/
theorem decode_list (ds : List StreamStatus) :
    Json.decode (Utf8.encode (Json.list (ds.map encode))) = .ok (.list (ds.map value)) := by
  have hdeep : 2 ≤ (Utf8.encode (Json.list (ds.map encode))).length := by
    rw [encode_list]
    simp only [List.length_cons, List.length_append]
    omega
  refine decode_written 2 hdeep fun depth => reads_list ?_
  rw [List.forall₂_map_left_iff, List.forall₂_map_right_iff, List.forall₂_same]
  exact fun d _ => d.reads_encode depth

end StreamStatus

/-! ### A layer -/

namespace LayerDetail

/-- The details as a value. -/
def value (d : LayerDetail) : Value :=
  .object [
    ("encodingId", .text d.encodingId),
    ("packets", .number (.unsigned d.packets)),
    ("bitrate", .number (.unsigned d.bitrate))]

theorem takes_value (d : LayerDetail) : Takes (readRecord record) d.value d := by
  refine takes_record ?_ (by simp) (by simp [record])
  refine .cons rfl ((takes_text d.encodingId).map (mk · 0 0)) ?_
  refine .cons rfl ((takes_unsigned "u64" d.packets).map (mk d.encodingId · 0)) ?_
  exact .cons rfl ((takes_unsigned "u64" d.bitrate).map (mk d.encodingId d.packets)) (.nil _)

theorem reads_encode (d : LayerDetail) (depth : Nat) :
    Reads (readValue (depth + 2)) (Utf8.encode d.encode) d.value :=
  reads_object (.cons ⟨rfl, reads_quote d.encodingId⟩
    (.cons ⟨rfl, reads_unsigned d.packets⟩ (.cons ⟨rfl, reads_unsigned d.bitrate⟩ .nil)))

end LayerDetail

/-! ### A stream -/

namespace StreamDetail

/-- The details as a value. -/
def value (d : StreamDetail) : Value :=
  .object [
    ("streamKey", .text d.streamKey),
    ("viewers", .number (.unsigned d.viewers)),
    ("uptimeSecs", .number (.unsigned d.uptimeSecs)),
    ("bitrate", .number (.unsigned d.bitrate)),
    ("hasVideo", .bool d.hasVideo),
    ("videoCodec", .text d.videoCodec),
    ("layers", .list (d.layers.map LayerDetail.value))]

theorem takes_value (d : StreamDetail) : Takes (readRecord record) d.value d := by
  have hlayers : Takes (readList (readRecord LayerDetail.record))
      (.list (d.layers.map LayerDetail.value)) d.layers :=
    takes_list (List.forall₂_map_left_iff.mpr (List.forall₂_same.mpr fun l _ => l.takes_value))
  refine takes_record ?_ (by simp) (by simp [record])
  -- each member fills one more field
  refine .cons rfl ((takes_text d.streamKey).map (mk · 0 0 0 false "" [])) ?_
  refine .cons rfl ((takes_unsigned "usize" d.viewers).map
    (mk d.streamKey · 0 0 false "" [])) ?_
  refine .cons rfl ((takes_unsigned "u64" d.uptimeSecs).map
    (mk d.streamKey d.viewers · 0 false "" [])) ?_
  refine .cons rfl ((takes_unsigned "u64" d.bitrate).map
    (mk d.streamKey d.viewers d.uptimeSecs · false "" [])) ?_
  refine .cons rfl ((takes_bool d.hasVideo).map
    (mk d.streamKey d.viewers d.uptimeSecs d.bitrate · "" [])) ?_
  refine .cons rfl ((takes_text d.videoCodec).map
    (mk d.streamKey d.viewers d.uptimeSecs d.bitrate d.hasVideo · [])) ?_
  exact .cons rfl (hlayers.map
    (mk d.streamKey d.viewers d.uptimeSecs d.bitrate d.hasVideo d.videoCodec)) (.nil _)

theorem reads_encode (d : StreamDetail) (depth : Nat) :
    Reads (readValue (depth + 4)) (Utf8.encode d.encode) d.value := by
  have hlayers : Reads (readValue (depth + 3))
      (Utf8.encode (Json.list (d.layers.map LayerDetail.encode)))
      (.list (d.layers.map LayerDetail.value)) := by
    refine reads_list (List.forall₂_map_left_iff.mpr (List.forall₂_map_right_iff.mpr ?_))
    exact List.forall₂_same.mpr fun l _ => l.reads_encode depth
  refine reads_object (.cons ⟨rfl, reads_quote d.streamKey⟩ ?_)
  refine .cons ⟨rfl, reads_unsigned d.viewers⟩ (.cons ⟨rfl, reads_unsigned d.uptimeSecs⟩ ?_)
  refine .cons ⟨rfl, reads_unsigned d.bitrate⟩ (.cons ⟨rfl, reads_bool d.hasVideo⟩ ?_)
  exact .cons ⟨rfl, reads_quote d.videoCodec⟩ (.cons ⟨rfl, hlayers⟩ .nil)

theorem decode_encode (d : StreamDetail) : Json.decode (Utf8.encode d.encode) = .ok d.value := by
  have hdeep : 3 ≤ (Utf8.encode d.encode).length := by
    rw [encode, encode_object]
    simp [memberBytes]
    omega
  exact decode_written 3 hdeep d.reads_encode

end StreamDetail

/-! ### Both documents -/

/-- **Status documents lose nothing**, whatever their texts and numbers are and however many
layers are listed. -/
theorem statusDocuments_faithful :
    Faithful StreamDetail.encode StreamDetail.decode StreamDetail.value ∧
      Faithful StreamStatus.encode StreamStatus.decode StreamStatus.value :=
  ⟨faithful_of_takes StreamDetail.decode_encode StreamDetail.takes_value,
    faithful_of_takes StreamStatus.decode_encode StreamStatus.takes_value⟩

end Simulcast
