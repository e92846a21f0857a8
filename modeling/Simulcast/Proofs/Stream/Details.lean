import Simulcast.Proofs.Log
import Simulcast.Proofs.Stream.Announcement
import Simulcast.Proofs.Stream.Tenure
/-!
# What is known of a broadcaster

Tracks appear on a stream while it is claimed, put on air and released, in any order.  What is
then known of its broadcaster can be read off the log (`Stream.detailsIn`): nothing before the
first track and the first time the stream went on air, and after that for each field the first
entry that fills it.  A codec is the first name of its kind, the address is the first that was
given when the stream went on air, and no entry fills the other fields.

`Stream.factsIn` is what fills the fields, known or not.  A track adds to it what
`BroadcasterInfo.observe` says (`Stream.factsIn_tracked`), so the details that a track gives out
are those known right after it, and it gives them out exactly if they changed.  This is the case
once for each kind at most: `Stream.count_told`.
-/

namespace Simulcast

namespace BroadcasterInfo

/-- The codec of the tracks of one kind. -/
def codecOf (info : BroadcasterInfo) : MediaKind → String
  | .audio => info.audioCodec
  | .video => info.videoCodec
  | .unspecified => unknownCodec

theorem settles_isSome_iff {known mimeType : String} :
    (settles known mimeType).isSome = true ↔
      known = unknownCodec ∧ codecName mimeType ≠ unknownCodec := by
  rw [settles]
  split <;> simp [*]

/-- **When a track changes the details**: its codec has a name, and none of its kind is known. -/
theorem observe_isSome_iff {info : BroadcasterInfo} {kind : MediaKind} {mimeType : String} :
    (info.observe kind mimeType).isSome = true ↔
      kind ≠ .unspecified ∧ info.codecOf kind = unknownCodec ∧
        codecName mimeType ≠ unknownCodec := by
  cases kind with
  | audio => simp [observe, codecOf, settles_isSome_iff]
  | video => simp [observe, codecOf, settles_isSome_iff]
  | unspecified => simp [observe]

theorem settles_ne {known mimeType name : String} (h : settles known mimeType = some name) :
    name ≠ known := by
  rw [settles] at h
  split at h
  · rename_i hopen
    rw [hopen.1, ← Option.some.inj h]
    exact hopen.2
  · exact absurd h (by simp)

theorem observe_ne {info changed : BroadcasterInfo} {kind : MediaKind} {mimeType : String}
    (h : info.observe kind mimeType = some changed) : changed ≠ info := by
  rintro rfl
  cases kind with
  | audio =>
    obtain ⟨name, hname, hchanged⟩ := Option.map_eq_some_iff.mp h
    exact settles_ne hname (congrArg audioCodec hchanged)
  | video =>
    obtain ⟨name, hname, hchanged⟩ := Option.map_eq_some_iff.mp h
    exact settles_ne hname (congrArg videoCodec hchanged)
  | unspecified => exact absurd h (by simp [observe])

end BroadcasterInfo

namespace Stream

/-! ### Inputs and their log -/

/-- What happens to a stream: a track appears on it, or its hold is asked something. -/
inductive Input where
  | track (o : Sighting)
  | ask (a : Ask)

/-- What happened, with the answer. -/
inductive Line where
  | tracked (o : Sighting) (answer : Option BroadcasterInfo)
  | asked (a : Ask) (touch : Touch)

def Line.input : Line → Input
  | tracked o _ => .track o
  | asked a _ => .ask a

/-- Answers an input. -/
def respond (s : Stream) : Input → Line × Stream
  | .track o => (.tracked o (s.observeTrack o.kind o.codec).1, (s.observeTrack o.kind o.codec).2)
  | .ask a => (.asked a (s.ask a).1, (s.ask a).2)

theorem input_respond (s : Stream) (i : Input) : (s.respond i).1.input = i := by
  cases i <;> rfl

/-! ### What the log says -/

def Line.sighting? : Line → Option Sighting
  | tracked o _ => some o
  | asked .. => none

/-- The address that came with it, if the stream went on air. -/
def Line.onAir? : Line → Option (Option SocketAddress)
  | asked (.mark remote) (.mark true) => some remote
  | _ => none

/-- The tracks that appeared, oldest first. -/
def sightingsIn (log : List Line) : List Sighting := log.filterMap Line.sighting?

/-- The first address that was given when the stream went on air. -/
def addressIn (log : List Line) : Option SocketAddress := log.findSome? fun l => l.onAir?.join

/-- What fills the fields of the details. -/
def factsIn (log : List Line) : BroadcasterInfo where
  remote := addressIn log
  audioCodec := announced .audio (sightingsIn log)
  videoCodec := announced .video (sightingsIn log)

/-- Whether a line tells of a broadcaster. -/
def Line.tells (l : Line) : Bool := l.sighting?.isSome || l.onAir?.isSome

/-- **What is known of the broadcaster**: something, once a track appeared or the stream went
on air. -/
def detailsIn (log : List Line) : Option BroadcasterInfo :=
  if log.any Line.tells then some (factsIn log) else none

variable {log : List Line} {l : Line} {s : Stream} {kind : MediaKind}

theorem codecOf_factsIn (h : kind ≠ .unspecified) :
    (factsIn log).codecOf kind = announced kind (sightingsIn log) := by
  cases kind with
  | audio => rfl
  | video => rfl
  | unspecified => exact absurd rfl h

theorem sightingsIn_concat : sightingsIn (log ++ [l]) = sightingsIn log ++ l.sighting?.toList :=
  filterMap_concat _ _ _

theorem sightingsIn_asked (a : Ask) (touch : Touch) :
    sightingsIn (log ++ [.asked a touch]) = sightingsIn log := by
  rw [sightingsIn_concat]
  exact List.append_nil _

theorem addressIn_concat : addressIn (log ++ [l]) = (addressIn log).or l.onAir?.join := by
  rw [addressIn, List.findSome?_append, addressIn]
  cases h : l.onAir?.join <;> simp [h]

theorem factsIn_quiet (h : l.tells = false) : factsIn (log ++ [l]) = factsIn log := by
  simp only [Line.tells, Bool.or_eq_false_iff, Option.isSome_eq_false_iff,
    Option.isNone_iff_eq_none] at h
  rw [factsIn, sightingsIn_concat, addressIn_concat, h.1, h.2]
  simp [factsIn]

theorem detailsIn_quiet (h : l.tells = false) : detailsIn (log ++ [l]) = detailsIn log := by
  rw [detailsIn, List.any_append, factsIn_quiet h]
  simp [detailsIn, h]

theorem detailsIn_telling (h : l.tells = true) :
    detailsIn (log ++ [l]) = some (factsIn (log ++ [l])) := by
  simp [detailsIn, h]

/-- As long as nothing is known, no field is filled. -/
theorem getD_detailsIn (log : List Line) : (detailsIn log).getD {} = factsIn log := by
  induction log using List.reverseRecOn with
  | nil => rfl
  | append_singleton log l ih =>
    cases h : l.tells with
    | true => rw [detailsIn_telling h, Option.getD_some]
    | false => rw [detailsIn_quiet h, factsIn_quiet h, ih]

/-- A track is heard among those of its kind. -/
theorem announced_tracked (log : List Line) (o : Sighting) (answer : Option BroadcasterInfo)
    (kind : MediaKind) :
    announced kind (sightingsIn (log ++ [.tracked o answer]))
      = if o.kind = kind then heard (announced kind (sightingsIn log)) o.codec.mimeType
        else announced kind (sightingsIn log) := by
  rw [sightingsIn_concat]
  exact announced_concat kind (sightingsIn log) o

theorem addressIn_tracked (log : List Line) (o : Sighting) (answer : Option BroadcasterInfo) :
    addressIn (log ++ [.tracked o answer]) = addressIn log := by
  rw [addressIn_concat]
  exact Option.or_none

/-- **What a track adds.** -/
theorem factsIn_tracked (log : List Line) (o : Sighting) (answer : Option BroadcasterInfo) :
    factsIn (log ++ [.tracked o answer])
      = ((factsIn log).observe o.kind o.codec.mimeType).getD (factsIn log) := by
  rw [getD_observe, factsIn, announced_tracked, announced_tracked, addressIn_tracked]
  rfl

/-- **What going on air adds.** -/
theorem factsIn_onAir {remote : Option SocketAddress} (h : l.onAir? = some remote) :
    factsIn (log ++ [l]) = (factsIn log).noteAddress remote := by
  cases l with
  | tracked o answer => exact absurd h (by simp [Line.onAir?])
  | asked a touch =>
    rw [factsIn, sightingsIn_asked, addressIn_concat, h]
    simp [BroadcasterInfo.noteAddress, factsIn]

/-! ### Right answers -/

/-- **The answer that is right after a log.**  A track gives the details out exactly if it is the
first of its kind whose codec has a name, which is if it changes them, and it gives them out as
they are right after it.  It leaves the address and the codecs of other kinds alone. -/
def Right (log : List Line) : Line → Prop
  | .tracked o answer =>
    (answer.isSome = true ↔ o.kind ≠ .unspecified ∧
      announced o.kind (sightingsIn log) = unknownCodec ∧
      codecName o.codec.mimeType ≠ unknownCodec) ∧
    (answer.isSome = true ↔ factsIn (log ++ [.tracked o answer]) ≠ factsIn log) ∧
    (∀ info, answer = some info → detailsIn (log ++ [.tracked o answer]) = some info) ∧
    addressIn (log ++ [.tracked o answer]) = addressIn log ∧
    ∀ kind, kind ≠ o.kind →
      announced kind (sightingsIn (log ++ [.tracked o answer])) = announced kind (sightingsIn log)
  | .asked .. => True

theorem right_tracked (log : List Line) (o : Sighting) :
    Right log (.tracked o ((factsIn log).observe o.kind o.codec.mimeType)) := by
  have hnext := factsIn_tracked log o ((factsIn log).observe o.kind o.codec.mimeType)
  refine ⟨?_, ?_, ?_, addressIn_tracked log o _, fun kind hkind => ?_⟩
  · rw [BroadcasterInfo.observe_isSome_iff]
    exact and_congr_right fun hkind => by rw [codecOf_factsIn hkind]
  · rw [hnext]
    cases hobserve : (factsIn log).observe o.kind o.codec.mimeType with
    | none => simp
    | some changed => simpa using BroadcasterInfo.observe_ne hobserve
  · intro info hinfo
    rw [detailsIn_telling rfl, hnext, hinfo, Option.getD_some]
  · rw [announced_tracked, if_neg hkind.symm]

/-- The kind of a track that gave the details out. -/
def Line.told? : Line → Option MediaKind
  | tracked o (some _) => some o.kind
  | _ => none

theorem heard_eq_unknown_iff {known mimeType : String} :
    heard known mimeType = unknownCodec ↔
      known = unknownCodec ∧ codecName mimeType = unknownCodec := by
  rw [heard]
  by_cases h : known = unknownCodec <;> simp [h]

/-- What is announced once stays announced. -/
theorem announced_ne_of_ne (h : announced kind (sightingsIn log) ≠ unknownCodec) :
    announced kind (sightingsIn (log ++ [l])) ≠ unknownCodec := by
  cases l with
  | asked a touch => rwa [sightingsIn_asked]
  | tracked o answer =>
    rw [announced_tracked]
    split
    · exact fun hnext => h (heard_eq_unknown_iff.mp hnext).1
    · exact h

/-- A right answer gives the details out when a codec is first announced. -/
theorem Right.told_iff (h : Right log l) :
    l.told? = some kind ↔ kind ≠ .unspecified ∧
      announced kind (sightingsIn log) = unknownCodec ∧
      announced kind (sightingsIn (log ++ [l])) ≠ unknownCodec := by
  cases l with
  | asked a touch => simp [Line.told?, sightingsIn_asked]
  | tracked o answer =>
    have htold : (Line.tracked o answer).told? = some kind ↔
        answer.isSome = true ∧ o.kind = kind := by
      cases answer <;> simp [Line.told?]
    rw [htold, h.1, announced_tracked]
    by_cases hkind : o.kind = kind
    · subst hkind
      rw [if_pos rfl, ne_eq (heard _ _), heard_eq_unknown_iff]
      grind
    · rw [if_neg hkind]
      simp [hkind]

/-- **The details are given out once for each kind**: for audio and video, when a codec of that
kind is first announced. -/
theorem count_told (h : Throughout Right log) (kind : MediaKind) :
    (log.filterMap Line.told?).count kind
      = if kind ≠ .unspecified ∧ announced kind (sightingsIn log) ≠ unknownCodec then 1 else 0 := by
  induction log using List.reverseRecOn with
  | nil => exact (if_neg fun hkind => hkind.2 rfl).symm
  | append_singleton log l ih =>
    obtain ⟨hlog, hl⟩ := throughout_concat_iff.mp h
    have hone : l.told?.toList.count kind = if l.told? = some kind then 1 else 0 := by
      cases l.told? <;> simp [List.count_singleton]
    rw [filterMap_concat, List.count_append, ih hlog, hone]
    simp only [hl.told_iff]
    by_cases hopen : announced kind (sightingsIn log) = unknownCodec
    · simp [hopen]
    · simp [hopen, announced_ne_of_ne hopen]

/-! ### The stream and its log -/

theorem broadcaster_of_told {codec : Codec} {info : BroadcasterInfo}
    (h : (s.observeTrack kind codec).1 = some info) :
    (s.observeTrack kind codec).2.broadcaster = some info := by
  show some ((s.observeTrack kind codec).1.getD (s.broadcaster.getD {})) = some info
  rw [h, Option.getD_some]

theorem markConnected_of_false {remote : Option SocketAddress}
    (h : (s.markConnected remote).1 = false) : (s.markConnected remote).2 = s := by
  rw [markConnected] at h ⊢
  split at h
  · exact absurd h (by simp)
  · rename_i hphase
    rw [if_neg hphase]

/-- What a stream knows of its broadcaster is what the log says, and all answers were right. -/
structure Informed (log : List Line) (s : Stream) : Prop where
  details : s.broadcaster = detailsIn log
  answers : Throughout Right log

theorem informed_create (key : String) (queueCapacity : Nat) (now : Millis) :
    Informed [] (create key queueCapacity now) where
  details := rfl
  answers := throughout_nil _

theorem Informed.track (h : Informed log s) (o : Sighting) :
    Informed (log ++ [(s.respond (.track o)).1]) (s.respond (.track o)).2 := by
  have hknown : s.broadcaster.getD {} = factsIn log := by rw [h.details, getD_detailsIn]
  have hline : (s.respond (.track o)).1
      = .tracked o ((factsIn log).observe o.kind o.codec.mimeType) := by
    rw [← hknown]
    rfl
  rw [hline]
  refine ⟨?_, throughout_concat_iff.mpr ⟨h.answers, right_tracked log o⟩⟩
  rw [detailsIn_telling rfl, factsIn_tracked, ← hknown]
  rfl

/-- The hold on a stream tells of a broadcaster when the stream goes on air. -/
theorem broadcaster_ask (s : Stream) (a : Ask) :
    (s.ask a).2.broadcaster
      = match (Line.asked a (s.ask a).1).onAir? with
        | some remote => some ((s.broadcaster.getD {}).noteAddress remote)
        | none => s.broadcaster := by
  cases a with
  | claim =>
    simp only [ask, claim?]
    cases s.hasPublisher <;> rfl
  | attach c => rfl
  | mark remote =>
    simp only [ask, markConnected]
    split <;> rfl
  | release caller =>
    simp only [ask, release?]
    cases s.hasPublisher <;> rfl

theorem Informed.ask (h : Informed log s) (a : Ask) :
    Informed (log ++ [(s.respond (.ask a)).1]) (s.respond (.ask a)).2 := by
  refine ⟨?_, throughout_concat_iff.mpr ⟨h.answers, trivial⟩⟩
  show (s.ask a).2.broadcaster = detailsIn (log ++ [.asked a (s.ask a).1])
  rw [broadcaster_ask]
  cases hair : (Line.asked a (s.ask a).1).onAir? with
  | none =>
    have hquiet : (Line.asked a (s.ask a).1).tells = false := by
      simp [Line.tells, Line.sighting?, hair]
    rw [detailsIn_quiet hquiet]
    exact h.details
  | some remote =>
    have htells : (Line.asked a (s.ask a).1).tells = true := by simp [Line.tells, hair]
    rw [detailsIn_telling htells, factsIn_onAir hair, h.details, getD_detailsIn]

theorem Informed.respond (h : Informed log s) (i : Input) :
    Informed (log ++ [(s.respond i).1]) (s.respond i).2 := by
  cases i with
  | track o => exact h.track o
  | ask a => exact h.ask a

/-- **What is known of a broadcaster**, after any tracks and any use of the hold on the stream.
All of it is in the log one for one, and the stream and its answers are what the log says.  The
details are given out at most once for each kind, and they are those of the stream right after
the track.  A stream that does not go on air when it is asked to stays as it is. -/
theorem informed_logged (key : String) (queueCapacity : Nat) (now : Millis)
    (inputs : List Input) :
    (logged respond (create key queueCapacity now) inputs).1.map Line.input = inputs ∧
    Informed (logged respond (create key queueCapacity now) inputs).1
      (logged respond (create key queueCapacity now) inputs).2 ∧
    (∀ kind, ((logged respond (create key queueCapacity now) inputs).1.filterMap
      Line.told?).count kind ≤ 1) ∧
    (∀ (s : Stream) (o : Sighting) (info : BroadcasterInfo),
      (s.observeTrack o.kind o.codec).1 = some info →
      (s.observeTrack o.kind o.codec).2.broadcaster = some info) ∧
    ∀ (s : Stream) (remote : Option SocketAddress), (s.markConnected remote).1 = false →
      (s.markConnected remote).2 = s := by
  have h : Informed (logged respond (create key queueCapacity now) inputs).1
      (logged respond (create key queueCapacity now) inputs).2 :=
    logged_induct (informed_create key queueCapacity now)
      (fun _ _ i h => h.respond i) inputs
  refine ⟨map_logged input_respond _ inputs, h, fun kind => ?_,
    fun _ _ _ => broadcaster_of_told, fun _ _ => markConnected_of_false⟩
  rw [count_told h.answers kind]
  split <;> simp

-- a codec may be called just what stands for an unknown one
example : (logged respond (create "a" 8 0) [.track ⟨.video, { mimeType := "video/Unknown" }⟩,
    .ask .claim, .ask (.mark none), .track ⟨.video, .h264⟩]).2.broadcaster
      = some { videoCodec := "H264" } := by
  decide

end Stream

end Simulcast
