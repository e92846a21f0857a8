import Mathlib.Data.List.Induction
import Simulcast.Stream
/-!
# What is announced, and what viewers get

Two fields of a stream come from the tracks that appear on it.  The codec of a new viewer's
video track is that of the first video track, whatever its MIME type.  The codec that is
announced is the first one of its kind that has a name.  So the two can differ, and
`Stream.viewerCodec_of_announced` says when: if the first video track gave no name and a
later one did.

A track fills the announced name if nothing was announced before (`Stream.heard`), and so
does the next name in a row (`Stream.firstNamed_concat`).  With this `Stream.Announces`, which
ties both fields to the tracks so far, is kept by one track, and by all of them.
-/

namespace Simulcast

namespace Stream

/-- A track as it appears. -/
structure Sighting where
  kind : MediaKind
  codec : Codec

/-- A stream after some tracks appeared, oldest first. -/
def observed (s : Stream) (sightings : List Sighting) : Stream :=
  sightings.foldl (fun s o => (s.observeTrack o.kind o.codec).2) s

/-- The codecs of the tracks of one kind, oldest first. -/
def codecsOf (kind : MediaKind) (sightings : List Sighting) : List Codec :=
  (sightings.filter fun o => o.kind = kind).map (·.codec)

/-- The first in a row of codec names that is one. -/
def firstNamed (names : List String) : String :=
  (names.find? (· ≠ unknownCodec)).getD unknownCodec

/-- The codec name that the tracks of one kind announce. -/
def announced (kind : MediaKind) (sightings : List Sighting) : String :=
  firstNamed ((codecsOf kind sightings).map fun c => codecName c.mimeType)

/-- What is announced when a track appears for which something was announced before. -/
def heard (known mimeType : String) : String :=
  if known = unknownCodec then codecName mimeType else known

theorem observed_concat (s : Stream) (sightings : List Sighting) (o : Sighting) :
    s.observed (sightings ++ [o]) = ((s.observed sightings).observeTrack o.kind o.codec).2 := by
  rw [observed, List.foldl_append]
  rfl

/-! ### Names in a row -/

theorem firstNamed_concat (names : List String) (name : String) :
    firstNamed (names ++ [name])
      = if firstNamed names = unknownCodec then name else firstNamed names := by
  rw [firstNamed, List.find?_append, firstNamed]
  cases hfound : names.find? (· ≠ unknownCodec) with
  | none =>
    by_cases hname : name = unknownCodec
    · simp [hname]
    · simp [hname]
  | some first =>
    have hfirst : first ≠ unknownCodec := by simpa using List.find?_some hfound
    simp [hfirst]

theorem firstNamed_of_head {names : List String} {name : String} (h : names.head? = some name)
    (hname : name ≠ unknownCodec) : firstNamed names = name := by
  obtain ⟨rest, rfl⟩ := List.head?_eq_some_iff.mp h
  rw [firstNamed, List.find?_cons_of_pos (by simpa using hname)]
  rfl

theorem codecsOf_concat (kind : MediaKind) (sightings : List Sighting) (o : Sighting) :
    codecsOf kind (sightings ++ [o])
      = if o.kind = kind then codecsOf kind sightings ++ [o.codec]
        else codecsOf kind sightings := by
  rw [codecsOf, List.filter_append, List.map_append]
  by_cases h : o.kind = kind
  · simp [codecsOf, h]
  · simp [codecsOf, h]

theorem announced_concat (kind : MediaKind) (sightings : List Sighting) (o : Sighting) :
    announced kind (sightings ++ [o])
      = if o.kind = kind then heard (announced kind sightings) o.codec.mimeType
        else announced kind sightings := by
  rw [announced, codecsOf_concat]
  split
  · rw [List.map_append]
    exact firstNamed_concat _ _
  · rfl

/-! ### One track -/

theorem getD_settles (known mimeType : String) :
    (BroadcasterInfo.settles known mimeType).getD known = heard known mimeType := by
  rw [BroadcasterInfo.settles, heard]
  by_cases hknown : known = unknownCodec
  · by_cases hname : codecName mimeType = unknownCodec
    · simp [hknown, hname]
    · simp [hknown, hname]
  · simp [hknown]

/-- A track is heard among those of its kind only. -/
theorem getD_observe (info : BroadcasterInfo) (kind : MediaKind) (mimeType : String) :
    (info.observe kind mimeType).getD info
      = { info with
          audioCodec := if kind = .audio then heard info.audioCodec mimeType else info.audioCodec
          videoCodec :=
            if kind = .video then heard info.videoCodec mimeType else info.videoCodec } := by
  cases kind with
  | audio =>
    rw [BroadcasterInfo.observe, ← getD_settles info.audioCodec]
    cases BroadcasterInfo.settles info.audioCodec mimeType <;> rfl
  | video =>
    rw [BroadcasterInfo.observe, ← getD_settles info.videoCodec]
    cases BroadcasterInfo.settles info.videoCodec mimeType <;> rfl
  | unspecified => rfl

/-- **What one track announces.** -/
theorem broadcaster_observeTrack (s : Stream) (kind : MediaKind) (codec : Codec) :
    (s.observeTrack kind codec).2.broadcaster
      = some { s.broadcaster.getD {} with
          audioCodec :=
            if kind = .audio then heard (s.broadcaster.getD {}).audioCodec codec.mimeType
            else (s.broadcaster.getD {}).audioCodec
          videoCodec :=
            if kind = .video then heard (s.broadcaster.getD {}).videoCodec codec.mimeType
            else (s.broadcaster.getD {}).videoCodec } :=
  congrArg some (getD_observe (s.broadcaster.getD {}) kind codec.mimeType)

/-! ### All tracks -/

/-- The two fields of a stream, tied to the tracks that appeared on it. -/
structure Announces (sightings : List Sighting) (s : Stream) : Prop where
  videoCodec : s.videoCodec = (codecsOf .video sightings).head?
  details : s.broadcaster.getD {}
    = { audioCodec := announced .audio sightings, videoCodec := announced .video sightings }

theorem announces_create (key : String) (queueCapacity : Nat) (now : Millis) :
    Announces [] (create key queueCapacity now) where
  videoCodec := rfl
  details := rfl

theorem Announces.observe {sightings : List Sighting} {s : Stream} (h : Announces sightings s)
    (o : Sighting) : Announces (sightings ++ [o]) (s.observeTrack o.kind o.codec).2 where
  videoCodec := by
    show (if o.kind = .video then s.videoCodec.or (some o.codec) else s.videoCodec) = _
    rw [codecsOf_concat, h.videoCodec]
    split
    · rw [List.head?_append]
      rfl
    · rfl
  details := by
    rw [broadcaster_observeTrack, Option.getD_some, h.details, announced_concat, announced_concat]

theorem announces_observed (key : String) (queueCapacity : Nat) (now : Millis)
    (sightings : List Sighting) :
    Announces sightings ((create key queueCapacity now).observed sightings) := by
  induction sightings using List.reverseRecOn with
  | nil => exact announces_create key queueCapacity now
  | append_singleton sightings o ih =>
    rw [observed_concat]
    exact ih.observe o

/-- **What viewers get when a video codec is announced**: the codec of the first video track.
Its name is the one announced exactly if it has a name; if it has none, the announced name is
that of the first later video track with one. -/
theorem viewerCodec_of_announced {key : String} {queueCapacity : Nat} {now : Millis}
    {sightings : List Sighting} {info : BroadcasterInfo}
    (hinfo : ((create key queueCapacity now).observed sightings).broadcaster = some info)
    (hvideo : info.hasVideo = true) :
    info.videoCodec = announced .video sightings ∧
    ∃ c, (codecsOf .video sightings).head? = some c
      ∧ ((create key queueCapacity now).observed sightings).videoCodec = some c
      ∧ ((create key queueCapacity now).observed sightings).viewerCodec = c
      ∧ (codecName c.mimeType = info.videoCodec ↔ codecName c.mimeType ≠ unknownCodec) := by
  have h := announces_observed key queueCapacity now sightings
  have hannounced : info.videoCodec = announced .video sightings := by
    have hdetails := h.details
    rw [hinfo] at hdetails
    exact congrArg BroadcasterInfo.videoCodec hdetails
  have hknown : info.videoCodec ≠ unknownCodec := by simpa [BroadcasterInfo.hasVideo] using hvideo
  refine ⟨hannounced, ?_⟩
  cases hfirst : (codecsOf .video sightings).head? with
  | none =>
    -- without a video track nothing is announced
    have hnone : codecsOf .video sightings = [] := List.head?_eq_none_iff.mp hfirst
    rw [announced, hnone] at hannounced
    exact absurd hannounced hknown
  | some c =>
    have hcodec := h.videoCodec.trans hfirst
    refine ⟨c, rfl, hcodec, by rw [viewerCodec, hcodec]; rfl, ?_, ?_⟩
    · intro hsame
      rw [hsame]
      exact hknown
    · intro hname
      rw [hannounced, announced]
      refine (firstNamed_of_head ?_ hname).symm
      rw [List.head?_map, hfirst]
      rfl

/-- A first track with a name: viewers get what is announced. -/
theorem viewerCodec_of_named_first :
    let sightings : List Sighting :=
      [⟨.audio, .opus⟩, ⟨.video, { mimeType := "video/VP8" }⟩, ⟨.video, .h264⟩]
    let info : BroadcasterInfo := { audioCodec := "opus", videoCodec := "VP8" }
    ((create "a" 8 0).observed sightings).broadcaster = some info ∧ info.hasVideo = true
      ∧ info.videoCodec = announced .video sightings
      ∧ ∃ c, (codecsOf .video sightings).head? = some c
        ∧ ((create "a" 8 0).observed sightings).videoCodec = some c
        ∧ ((create "a" 8 0).observed sightings).viewerCodec = c
        ∧ (codecName c.mimeType = info.videoCodec ↔ codecName c.mimeType ≠ unknownCodec) := by
  intro sightings info
  have hinfo : ((create "a" 8 0).observed sightings).broadcaster = some info := by decide
  have hvideo : info.hasVideo = true := by decide
  exact ⟨hinfo, hvideo, viewerCodec_of_announced hinfo hvideo⟩

/-- **A first track without a name**: AV1 is announced, and viewers get something else. -/
theorem viewerCodec_of_unnamed_first :
    let s := (create "a" 8 0).observed
      [⟨.video, { mimeType := "garbage" }⟩, ⟨.video, { mimeType := "video/AV1" }⟩]
    ∃ info, s.broadcaster = some info ∧ info.hasVideo = true
      ∧ ¬ ∃ c, s.videoCodec = some c ∧ codecName c.mimeType = info.videoCodec := by
  intro s
  refine ⟨{ videoCodec := "AV1" }, by decide, by decide, ?_⟩
  rintro ⟨c, hc, hname⟩
  have hgarbage : s.videoCodec = some { mimeType := "garbage" } := by decide
  obtain rfl : { mimeType := "garbage" } = c := Option.some.inj (hgarbage.symm.trans hc)
  exact absurd hname (by decide)

end Stream

end Simulcast
