import Simulcast.Proofs.Relay.Orderly
/-!
# The board of a relay

Who may broadcast, what is registered, which stream objects were ever made, and what the
outside was told: this is the board of a relay.  It leaves out viewers, packets and
connections, and nothing that happens to those shows on it.

What does show is one of a few cues, such as a broadcaster's offer with its key and the fate
of its session description.  `Relay.board_perform` says that every operation does to the board
what its cue says.  It asks for one thing, `Board.Sound`: a registered stream is on air and
has the key that it is registered under.  Every cue keeps that (`Board.Sound.follow`), whatever
names the viewers have.
-/

namespace Simulcast

/-! ### Lists and tables -/

/-- A value that is put where it stood. -/
theorem set_of_getElem?_eq_some {α : Type} {l : List α} {i : Nat} {a : α} (h : l[i]? = some a) :
    l.set i a = l := by
  obtain ⟨hlt, rfl⟩ := List.getElem?_eq_some_iff.mp h
  exact List.set_getElem_self hlt

/-- A key that was free is as it was, once it is written and dropped again. -/
theorem Table.erase_insert_of_free {κ α : Type} [DecidableEq κ] {t : Table κ α} {k : κ}
    (h : t.find? k = none) (v : α) : (t.insert k v).erase k = t := by
  have hk : k ∉ t.entries.map Prod.fst := fun hm => by
    have hsome := (Entries.lookup_isSome_iff k t.entries).mpr hm
    rw [show Entries.lookup k t.entries = none from h] at hsome
    exact absurd hsome (by simp)
  apply Table.ext
  show Entries.drop k (Entries.assign k v t.entries) = t.entries
  generalize t.entries = es at hk
  induction es with
  | nil => simp [Entries.assign, Entries.drop]
  | cons e rest ih =>
    rw [List.map_cons, List.mem_cons, not_or] at hk
    have he : e.1 ≠ k := fun c => hk.1 c.symm
    have hrest : List.filter (fun e => decide (e.1 ≠ k)) (Entries.assign k v rest) = rest :=
      ih hk.2
    rw [Entries.assign, if_neg he, Entries.drop, List.filter_cons_of_pos (by simpa using he), hrest]

/-! ### Boards -/

/-- What there is to tell of the broadcasts of a relay. -/
@[ext]
structure Board where
  validator : KeyValidator
  /-- The registered streams by key. -/
  index : Table String StreamId
  /-- Key and phase of every stream object ever made. -/
  made : List (String × IngestPhase)
  notices : List Notice

namespace Board

/-- A key was accepted. -/
def remember (b : Board) (key : String) : Board :=
  { b with validator := { b.validator with lastMatched := some key } }

/-- A new stream goes on air. -/
def launch (b : Board) (key : String) : Board :=
  { b with
    index := b.index.insert key b.made.length
    made := b.made ++ [(key, .connected)]
    notices := b.notices ++ [.connected key] }

/-- A new stream was made and comes to nothing. -/
def abandon (b : Board) (key : String) : Board :=
  { b with
    validator := b.validator.clearLastMatched key
    made := b.made ++ [(key, .disconnected)] }

/-- A new stream is claimed and its session description is not answered yet. -/
def claim (b : Board) (key : String) : Board :=
  { b with
    index := b.index.insert key b.made.length
    made := b.made ++ [(key, .negotiating)] }

/-- What a broadcaster's offer comes to. -/
def bid (b : Board) (key : String) (answered : Bool) : Board :=
  if b.validator.accepts key then
    if (b.index.find? key).isSome then b.remember key
    else if answered then (b.remember key).launch key
    else (b.remember key).abandon key
  else b

/-- The hold on a stream ends. -/
def dismiss (b : Board) (sid : StreamId) (key : String) (phase : IngestPhase) : Board where
  validator := b.validator.clearLastMatched key
  index := if b.index.find? key = some sid then b.index.erase key else b.index
  made := b.made.set sid (key, .disconnected)
  notices := if phase = .connected then b.notices ++ [.disconnected key] else b.notices

/-- A stream is taken off the air, if somebody holds it. -/
def takeOff (b : Board) (sid : StreamId) : Board :=
  match b.made[sid]? with
  | some (key, phase) => if phase.holdsStream then b.dismiss sid key phase else b
  | none => b

/-- The session description of a claimed stream is answered, or it is not. -/
def settle (b : Board) (sid : StreamId) (key : String) (answered : Bool) : Board :=
  if answered then
    { b with
      made := b.made.set sid (key, .connected)
      notices := b.notices ++ [.connected key] }
  else b.takeOff sid

/-- The broadcast under a key ends. -/
def stop (b : Board) (key : String) : Board :=
  match b.index.find? key with
  | some sid => b.takeOff sid
  | none => b

/-- All broadcasts end. -/
def clear (b : Board) : Board := b.index.values.foldl takeOff b

end Board

/-- What happens to a relay, as far as the board shows it. -/
inductive Cue where
  /-- A broadcaster's offer; its session description is answered or not. -/
  | offer (key : String) (answered : Bool)
  /-- A broadcaster asks for the end of its broadcast. -/
  | halt (key : String)
  /-- A broadcast is ended from inside. -/
  | stop (key : String)
  | stopAll
  | check (key : String)
  | forget (key : String)
  | setKeys (keys : List String)
  /-- Nothing that shows. -/
  | idle
  deriving DecidableEq, Repr

/-- The board after a cue. -/
def Board.follow (b : Board) : Cue → Board
  | .offer key answered => b.bid key answered
  | .halt key => if b.validator.accepts key then (b.remember key).stop key else b
  | .stop key => b.stop key
  | .stopAll => b.clear
  | .check key => if b.validator.accepts key then b.remember key else b
  | .forget key => { b with validator := b.validator.clearLastMatched key }
  | .setKeys keys => { b with validator := b.validator.setKeys keys }
  | .idle => b

/-! ### Sound boards -/

/-- What is registered is on air, under its own key. -/
def Board.Sound (b : Board) : Prop :=
  ∀ key sid, b.index.find? key = some sid → b.made[sid]? = some (key, .connected)

namespace Board

variable {b : Board} {key : String} {sid : StreamId}

theorem Sound.remember (h : b.Sound) (key : String) : (b.remember key).Sound := h

theorem Sound.lt_length (h : b.Sound) (hk : b.index.find? key = some sid) : sid < b.made.length :=
  (List.getElem?_eq_some_iff.mp (h key sid hk)).1

theorem Sound.abandon (h : b.Sound) (key : String) : (b.abandon key).Sound := by
  intro k sid hk
  show (b.made ++ [_])[sid]? = _
  rw [List.getElem?_append_left (h.lt_length hk)]
  exact h k sid hk

theorem Sound.launch (h : b.Sound) (key : String) : (b.launch key).Sound := by
  intro k sid hk
  show (b.made ++ [(key, .connected)])[sid]? = _
  have hk' : (b.index.insert key b.made.length).find? k = some sid := hk
  rw [Table.find?_insert] at hk'
  split at hk'
  · rename_i heq
    obtain rfl := Option.some.inj hk'
    rw [List.getElem?_concat_length, heq]
  · rw [List.getElem?_append_left (h.lt_length hk')]
    exact h k sid hk'

theorem Sound.bid (h : b.Sound) (key : String) (answered : Bool) : (b.bid key answered).Sound := by
  unfold Board.bid
  split
  · split
    · exact h.remember key
    · split
      · exact (h.remember key).launch key
      · exact (h.remember key).abandon key
  · exact h

theorem find?_dismiss (b : Board) (sid : StreamId) (key : String) (phase : IngestPhase)
    (k : String) :
    (b.dismiss sid key phase).index.find? k
      = if k = key ∧ b.index.find? key = some sid then none else b.index.find? k := by
  show (if b.index.find? key = some sid then b.index.erase key else b.index).find? k = _
  by_cases hsid : b.index.find? key = some sid
  · rw [if_pos hsid, Table.find?_erase]
    by_cases hk : k = key
    · rw [if_pos hk, if_pos ⟨hk, hsid⟩]
    · rw [if_neg hk, if_neg fun c => hk c.1]
  · rw [if_neg hsid, if_neg fun c => hsid c.2]

theorem Sound.dismiss (h : b.Sound) {phase : IngestPhase} (hm : b.made[sid]? = some (key, phase)) :
    (b.dismiss sid key phase).Sound := by
  intro k j hk
  rw [find?_dismiss] at hk
  split at hk
  · exact absurd hk (by simp)
  · rename_i hno
    have hj := h k j hk
    show (b.made.set sid (key, .disconnected))[j]? = _
    rw [List.getElem?_set_ne, hj]
    -- the object under `k` has the key `k`, so it is not the one that is dismissed
    rintro rfl
    rw [hm] at hj
    obtain ⟨rfl, -⟩ := Prod.mk.inj (Option.some.inj hj)
    exact hno ⟨rfl, hk⟩

theorem Sound.takeOff (h : b.Sound) (sid : StreamId) : (b.takeOff sid).Sound := by
  unfold Board.takeOff
  split
  · rename_i key phase hm
    split
    · exact h.dismiss hm
    · exact h
  · exact h

theorem Sound.stop (h : b.Sound) (key : String) : (b.stop key).Sound := by
  unfold Board.stop
  split
  · exact h.takeOff _
  · exact h

theorem Sound.clear (h : b.Sound) : b.clear.Sound := by
  unfold Board.clear
  generalize b.index.values = sids
  induction sids generalizing b with
  | nil => exact h
  | cons sid rest ih => exact ih (h.takeOff sid)

/-- **Every cue leaves a sound board sound.** -/
theorem Sound.follow (h : b.Sound) (cue : Cue) : (b.follow cue).Sound := by
  cases cue with
  | offer key answered => exact h.bid key answered
  | halt key =>
    simp only [Board.follow]
    split
    · exact (h.remember key).stop key
    · exact h
  | stop key => exact h.stop key
  | stopAll => exact h.clear
  | check key =>
    simp only [Board.follow]
    split
    · exact h.remember key
    · exact h
  | forget key => exact h
  | setKeys keys => exact h
  | idle => exact h

/-! ### What a cue comes to -/

/-- **All outcomes of an offer.** -/
theorem bid_cases (b : Board) (key : String) (answered : Bool) :
    (b.validator.accepts key = false ∧ b.bid key answered = b) ∨
    b.validator.accepts key = true ∧
      ((∃ sid, b.index.find? key = some sid ∧ b.bid key answered = b.remember key) ∨
        b.index.find? key = none ∧
          ((answered = true ∧ b.bid key answered = (b.remember key).launch key) ∨
            answered = false ∧ b.bid key answered = (b.remember key).abandon key)) := by
  unfold Board.bid
  cases ha : b.validator.accepts key with
  | false => exact .inl ⟨rfl, rfl⟩
  | true =>
    refine .inr ⟨rfl, ?_⟩
    cases hf : b.index.find? key with
    | some sid => exact .inl ⟨sid, rfl, rfl⟩
    | none =>
      cases answered with
      | true => exact .inr ⟨rfl, .inl ⟨rfl, rfl⟩⟩
      | false => exact .inr ⟨rfl, .inr ⟨rfl, rfl⟩⟩

/-- A registered stream that is taken off the air. -/
theorem Sound.takeOff_eq (h : b.Sound) (hk : b.index.find? key = some sid) :
    b.takeOff sid = b.dismiss sid key .connected := by
  rw [Board.takeOff, h key sid hk]
  rfl

/-- **Both outcomes of an ending.** -/
theorem Sound.stop_cases (h : b.Sound) (key : String) :
    (b.index.find? key = none ∧ b.stop key = b) ∨
    ∃ sid, b.index.find? key = some sid ∧ b.stop key = b.dismiss sid key .connected := by
  unfold Board.stop
  cases hk : b.index.find? key with
  | none => exact .inl ⟨rfl, rfl⟩
  | some sid => exact .inr ⟨sid, rfl, h.takeOff_eq hk⟩

theorem Sound.find?_stop (h : b.Sound) (key k : String) :
    (b.stop key).index.find? k = if k = key then none else b.index.find? k := by
  rcases h.stop_cases key with ⟨hf, he⟩ | ⟨sid, hf, he⟩
  · rw [he]
    split
    · rename_i hk
      rw [hk, hf]
    · rfl
  · rw [he, find?_dismiss]
    by_cases hk : k = key
    · rw [if_pos ⟨hk, hf⟩, if_pos hk]
    · rw [if_neg fun c => hk c.1, if_neg hk]

/-- A stream that is registered, or whose broadcast is over. -/
def Accounted (b : Board) (sid : StreamId) : Prop :=
  (∃ key, b.index.find? key = some sid) ∨ ∃ key, b.made[sid]? = some (key, .disconnected)

theorem Sound.accounted_dismiss (h : b.Sound) (hk : b.index.find? key = some sid) {j : StreamId}
    (hj : b.Accounted j) : (b.dismiss sid key .connected).Accounted j := by
  have hmade : (b.dismiss sid key .connected).made[j]?
      = if sid = j then some (key, .disconnected) else b.made[j]? := by
    show (b.made.set sid (key, .disconnected))[j]? = _
    split
    · rename_i heq
      subst heq
      exact List.getElem?_set_self (h.lt_length hk)
    · rename_i hne
      exact List.getElem?_set_ne hne
  by_cases heq : sid = j
  · exact .inr ⟨key, by rw [hmade, if_pos heq]⟩
  · rcases hj with ⟨k, hkj⟩ | ⟨k, hkj⟩
    · refine .inl ⟨k, ?_⟩
      rw [find?_dismiss, if_neg, hkj]
      rintro ⟨rfl, hs⟩
      exact heq (Option.some.inj (hs.symm.trans hkj))
    · exact .inr ⟨k, by rw [hmade, if_neg heq, hkj]⟩

/-- **What every single ending keeps, the end of all broadcasts keeps.** -/
theorem Sound.clear_of_dismiss {P : Board → Prop} (h : b.Sound) (hP : P b)
    (hstep : ∀ {b : Board} {key sid}, b.Sound → b.index.find? key = some sid → P b →
      P (b.dismiss sid key .connected)) : P b.clear := by
  have hall : ∀ sid ∈ b.index.values, b.Accounted sid := by
    intro sid hsid
    obtain ⟨⟨key, j⟩, hentry, rfl⟩ := List.mem_map.mp hsid
    exact .inl ⟨key, (Table.mem_entries_iff ..).mp hentry⟩
  unfold Board.clear
  generalize b.index.values = sids at hall
  -- the list was fixed before the first ending: when a stream's turn comes, it is still
  -- registered or it was ended already
  induction sids generalizing b with
  | nil => exact hP
  | cons sid rest ih =>
    rcases hall sid List.mem_cons_self with ⟨key, hk⟩ | ⟨key, hover⟩
    · have hoff := h.takeOff sid
      rw [List.foldl_cons]
      rw [h.takeOff_eq hk] at hoff ⊢
      exact ih hoff (hstep h hk hP) fun j hj =>
        h.accounted_dismiss hk (hall j (List.mem_cons_of_mem _ hj))
    · have hoff : b.takeOff sid = b := by
        rw [Board.takeOff, hover]
        rfl
      rw [List.foldl_cons, hoff]
      exact ih h hP fun j hj => hall j (List.mem_cons_of_mem _ hj)

/-- No stream is registered once all broadcasts have ended. -/
theorem Sound.find?_clear (h : b.Sound) (key : String) : b.clear.index.find? key = none := by
  have hall : ∀ k sid, b.index.find? k = some sid → sid ∈ b.index.values := fun k sid hk =>
    List.mem_map.mpr ⟨(k, sid), (Table.mem_entries_iff ..).mpr hk, rfl⟩
  unfold Board.clear
  generalize b.index.values = sids at hall
  induction sids generalizing b with
  | nil =>
    refine Option.eq_none_iff_forall_ne_some.mpr fun sid hk => ?_
    exact List.not_mem_nil (hall key sid hk)
  | cons sid rest ih =>
    refine ih (h.takeOff sid) fun k j hk => ?_
    have hback : b.index.find? k = some j := by
      unfold Board.takeOff at hk
      split at hk
      · split at hk
        · rw [find?_dismiss] at hk
          split at hk
          · exact absurd hk (by simp)
          · exact hk
        · exact hk
      · exact hk
    rcases List.mem_cons.mp (hall k j hback) with rfl | hrest
    · -- the entry of the stream that was taken off went with it
      rw [h.takeOff_eq hback, find?_dismiss, if_pos ⟨rfl, hback⟩] at hk
      exact absurd hk (by simp)
    · exact hrest

theorem set_concat_length {α : Type} (l : List α) (a x : α) :
    (l ++ [a]).set l.length x = l ++ [x] := by
  rw [List.set_append_right _ _ (Nat.le_refl _), Nat.sub_self, List.set_cons_zero]

/-- **A claim that is settled** puts a new stream on air, or leaves one that never was. -/
theorem settle_claim (h : b.index.find? key = none) (answered : Bool) :
    (b.claim key).settle b.made.length key answered
      = if answered then b.launch key else b.abandon key := by
  cases answered with
  | true => exact Board.ext rfl rfl (set_concat_length ..) rfl
  | false =>
    have hfind : (b.index.insert key b.made.length).find? key = some b.made.length := by
      rw [Table.find?_insert, if_pos rfl]
    have hmade : (b.claim key).made[b.made.length]? = some (key, .negotiating) :=
      List.getElem?_concat_length
    show (b.claim key).takeOff b.made.length = b.abandon key
    rw [takeOff, hmade]
    refine Board.ext rfl ?_ (set_concat_length ..) rfl
    show (if (b.index.insert key b.made.length).find? key = some b.made.length then _ else _) = _
    rw [if_pos hfind]
    exact Table.erase_insert_of_free h b.made.length

end Board

/-! ### The board of a relay -/

/-- What a stream object shows. -/
def Stream.standing (s : Stream) : String × IngestPhase := (s.key, s.phase)

namespace Relay

/-- The board of a relay. -/
def board (r : Relay) : Board where
  validator := r.validator
  index := r.registry.index
  made := r.registry.streams.map Stream.standing
  notices := r.notices

variable {r q : Relay} {sid : StreamId} {s : Stream}

theorem made_board (r : Relay) (sid : StreamId) :
    r.board.made[sid]? = (r.registry.stream? sid).map Stream.standing :=
  List.getElem?_map ..

theorem length_made (r : Relay) : r.board.made.length = r.registry.streams.length :=
  List.length_map ..

theorem held_of_sound (h : r.board.Sound) {key : String} (hk : r.registry.find? key = some sid) :
    ∃ s, r.registry.stream? sid = some s ∧ s.key = key ∧ s.phase = .connected := by
  have hm := h key sid hk
  rw [made_board] at hm
  obtain ⟨s, hs, hstanding⟩ := Option.map_eq_some_iff.mp hm
  obtain ⟨hkey, hphase⟩ := Prod.mk.inj hstanding
  exact ⟨s, hs, hkey, hphase⟩

/-- The registered stream under a key, as the registry has it. -/
theorem stream?_of_find? {key : String} (hk : r.registry.find? key = some sid)
    (hs : r.registry.stream? sid = some s) : r.stream? key = some s := by
  rw [stream?, hk, Option.bind_some, hs]

theorem sound_start (settings : Settings) (negotiate : Attempt → Except RelayError Agreement) :
    (start settings negotiate).board.Sound :=
  fun key sid h => absurd h (by simp [board, start])

/-! ### What does not show -/

theorem standings_put (hs : r.registry.stream? sid = some s) {t : Stream}
    (ht : t.standing = s.standing) :
    (r.registry.put sid t).streams.map Stream.standing
      = r.registry.streams.map Stream.standing := by
  show (r.registry.streams.set sid t).map _ = _
  rw [List.map_set, ht]
  refine set_of_getElem?_eq_some ?_
  rw [List.getElem?_map, show r.registry.streams[sid]? = some s from hs, Option.map_some]

/-- A change of a stream that keeps its key and phase does not show. -/
theorem board_updateStream (r : Relay) (sid : StreamId) {f : Stream → Stream}
    (hf : ∀ s : Stream, (f s).standing = s.standing) : (r.updateStream sid f).board = r.board := by
  refine Board.ext rfl ?_ ?_ rfl
  · show (r.registry.update sid f).index = _
    unfold Registry.update Registry.act
    split <;> rfl
  · show (r.registry.update sid f).streams.map _ = _
    cases hs : r.registry.stream? sid with
    | none => rw [Registry.update, Registry.act_of_none hs]; rfl
    | some s =>
      rw [Registry.update, Registry.act_of_some hs]
      exact standings_put hs (hf s)

theorem board_closeViewer (r : Relay) (id : ViewerId) : (r.closeViewer id).board = r.board := by
  unfold closeViewer
  split
  · rfl
  · split
    · rename_i v hv c hc
      unfold leaveHome
      split
      · exact board_updateStream _ _ fun _ => rfl
      · rfl
    · rfl

theorem board_foldl_closeViewer (ids : List ViewerId) (r : Relay) :
    (ids.foldl closeViewer r).board = r.board := by
  induction ids generalizing r with
  | nil => rfl
  | cons id rest ih =>
    rw [List.foldl_cons, ih]
    exact board_closeViewer r id

theorem board_createSession (r : Relay) (offer key : String) (id : ViewerId) :
    (r.createSession offer key id).2.board = r.board := by
  have hseated : ∀ {q sid s codec}, Seated r q key id sid s codec → q.board = r.board := by
    intro q sid s codec seat
    have hattach : (s.attach id).2.standing = s.standing := by
      rw [Stream.attach]
      split <;> rfl
    have hq := seat.only
    refine Board.ext (by rw [hq]; rfl) ?_ ?_ (by rw [hq]; rfl)
    · show q.registry.index = _
      rw [seat.registry]
      rfl
    · show q.registry.streams.map _ = _
      rw [seat.registry]
      exact standings_put seat.stream? hattach
  obtain ⟨e, he⟩ | ⟨q, sid, s, codec, seat, ⟨e, he⟩ | ⟨answer, he⟩⟩ :=
    r.createSession_cases offer key id
  · rw [he]
  · rw [he, dropViewer]
    have hdetach := board_updateStream q sid (f := fun s => (s.detach id).2) fun _ => rfl
    exact (board_closeViewer ..).trans (hdetach.trans (hseated seat))
  · rw [he]
    exact (show (q.updateViewer id Viewer.activate).board = q.board from rfl).trans (hseated seat)

theorem board_setLayer (r : Relay) (id : ViewerId) (layer : String) :
    (r.setLayer id layer).2.board = r.board := by
  unfold setLayer
  split
  · rfl
  · exact board_updateStream (r.updateViewer id fun v => v.selectLayer layer) _ fun _ => rfl

theorem board_feedPacket (r : Relay) (loop : LoopId) (p : Packet) :
    (r.feedPacket loop p).2.board = r.board := by
  unfold feedPacket
  split
  · rfl
  · rename_i f hf
    exact board_updateStream r f.stream fun s => by
      have hold := s.sameHold_noteRead f p r.clock
      exact Prod.ext hold.key hold.phase

theorem board_closeFeed (r : Relay) (loop : LoopId) : (r.closeFeed loop).2.board = r.board := by
  unfold closeFeed
  split
  · rfl
  · exact board_updateStream r _ fun _ => rfl

theorem board_serveKeyframes (r : Relay) : r.serveKeyframes.2.board = r.board := by
  refine Board.ext rfl rfl ?_ rfl
  show ((r.registry.streams.map _).map Prod.snd).map Stream.standing = _
  simp only [List.map_map]
  rfl

/-! ### Endings -/

theorem board_drained (hs : r.registry.stream? sid = some s) :
    (r.drained sid s).board = { r.board.dismiss sid s.key s.phase with notices := r.notices } := by
  have hput : (r.registry.put sid s.released).stream? sid = some s.released := by
    rw [Registry.stream?_put_of_some hs, if_pos rfl]
  have hstanding : s.retired.standing = s.released.standing := rfl
  refine Board.ext ?_ ?_ ?_ ?_
  · show (r.closeReleased _).validator.clearLastMatched s.key = r.validator.clearLastMatched s.key
    unfold closeReleased
    split <;> rfl
  · show (r.withoutStream sid s).index = _
    rw [withoutStream]
    show ((r.registry.put sid s.released).forget sid).index = _
    unfold Registry.forget
    rw [hput]
    simp only
    split
    · rename_i hf
      exact (if_pos hf).symm
    · rename_i hf
      exact (if_neg hf).symm
  · show (r.withoutStream sid s).streams.map _ = (r.registry.streams.map _).set sid _
    have hforget : ∀ g : Registry, (g.forget sid).streams = g.streams := by
      intro g
      unfold Registry.forget
      split
      · split <;> rfl
      · rfl
    rw [withoutStream]
    show (((r.registry.put sid s.released).forget sid).streams.set sid s.retired).map _ = _
    rw [hforget]
    show ((r.registry.streams.set sid s.released).set sid s.retired).map _ = _
    rw [List.set_set, List.map_set]
    rfl
  · show (r.closeReleased _).notices = r.notices
    unfold closeReleased
    split <;> rfl

theorem board_notify (r : Relay) (n : Notice) :
    (r.notify n).board = { r.board with notices := r.board.notices ++ [n] } := rfl

/-- **A teardown on the board.** -/
theorem board_teardown (r : Relay) (sid : StreamId) :
    (r.teardown sid).board = r.board.takeOff sid := by
  rw [Board.takeOff, made_board]
  cases hs : r.registry.stream? sid with
  | none => rw [teardown_of_none hs]; rfl
  | some s =>
    show _ = if s.phase.holdsStream = true then r.board.dismiss sid s.key s.phase else r.board
    cases hp : s.hasPublisher with
    | false =>
      rw [teardown_of_free hs hp, if_neg]
      rw [show s.phase.holdsStream = false from hp]
      exact Bool.false_ne_true
    | true =>
      have hend := (board_foldl_closeViewer s.viewers (r.drained sid s)).trans (board_drained hs)
      rw [if_pos (show s.phase.holdsStream = true from hp), teardown_of_held hs hp]
      by_cases hl : s.phase = .connected
      · have hlive : s.isLive = true := decide_eq_true hl
        rw [if_pos hlive, board_notify, hend]
        refine Board.ext rfl rfl rfl ?_
        exact (if_pos hl).symm
      · have hlive : ¬ s.isLive = true := fun c => hl (of_decide_eq_true c)
        rw [if_neg hlive, hend]
        refine Board.ext rfl rfl rfl ?_
        exact (if_neg hl).symm

theorem board_disconnect (r : Relay) (key : String) :
    (r.disconnect key).board = r.board.stop key := by
  unfold disconnect Board.stop
  show (match r.registry.find? key with | some sid => r.teardown sid | none => r).board
    = match r.registry.find? key with | some sid => r.board.takeOff sid | none => r.board
  split
  · exact board_teardown ..
  · rfl

theorem board_shutdown (r : Relay) : r.shutdown.board = r.board.clear := by
  have hfold : ∀ (sids : List StreamId) (r : Relay),
      (sids.foldl teardown r).board = sids.foldl Board.takeOff r.board := by
    intro sids
    induction sids with
    | nil => exact fun _ => rfl
    | cons sid rest ih =>
      intro r
      rw [List.foldl_cons, List.foldl_cons, ih, board_teardown]
  exact hfold r.registry.registered r

/-! ### Offers -/

/-- What follows the claim of a stream, on the board. -/
theorem board_bid (hs : r.registry.stream? sid = some s) (hp : s.phase = .negotiating)
    (offer : String) (remote : Option SocketAddress) :
    (r.bid sid offer s.key remote).1 = r.verdict offer ∧
      (r.bid sid offer s.key remote).2.board
        = r.board.settle sid s.key (r.verdict offer).isOk := by
  unfold bid
  cases he : r.connectionFault? with
  | some e =>
    have hv : r.verdict offer = .error e := by rw [verdict, he]
    rw [negotiateIngest_of_fault he, hv]
    exact ⟨rfl, board_teardown r sid⟩
  | none =>
    have hattached := board_updateStream r sid
      (f := (·.attachConnection r.connections.opened)) fun _ => rfl
    have hq := Registry.stream?_update r.registry sid (·.attachConnection r.connections.opened) sid
    rw [if_pos rfl, hs, Option.map_some] at hq
    rw [negotiateIngest_of_no_fault he]
    cases hv : r.verdict offer with
    | error e => exact ⟨rfl, (board_teardown ..).trans (congrArg (·.takeOff sid) hattached)⟩
    | ok answer =>
      have hstanding : ((s.attachConnection r.connections.opened).markConnected remote).2.standing
          = (s.key, .connected) := by
        rw [Stream.markConnected, if_pos (show (s.attachConnection _).phase = _ from hp)]
        rfl
      simp only [markConnected_of_negotiating (r := { r with
        registry := r.registry.update sid (·.attachConnection r.connections.opened)
        connections := r.connections.openNext.2 }) hq hp remote]
      have hindex : (r.registry.update sid (·.attachConnection r.connections.opened)).index
          = r.registry.index := congrArg Board.index hattached
      refine ⟨trivial, Board.ext rfl ?_ ?_ rfl⟩
      · exact hindex
      · show ((r.registry.update sid _).streams.set sid _).map Stream.standing = _
        rw [List.map_set, hstanding]
        exact congrArg (·.set sid (s.key, .connected)) (congrArg Board.made hattached)

/-- The relay between the claim of a free key and the verdict on the session description. -/
def claimed (r : Relay) (key : String) : Relay :=
  { r with
    validator := { r.validator with lastMatched := some key }
    registry := r.registry.enroll key
      (Stream.create key r.registry.queueCapacity r.clock).claimed }

theorem board_claimed (r : Relay) (key : String) :
    (r.claimed key).board = (r.board.remember key).claim key := by
  refine Board.ext rfl ?_ ?_ rfl
  · show r.registry.index.insert key r.registry.streams.length = r.board.index.insert key _
    rw [← r.length_made]
    rfl
  · show (r.registry.streams ++ [_]).map Stream.standing = _
    rw [List.map_append]
    rfl

section

variable {key : String}

theorem validate_of_accepts (h : r.validator.accepts key = true) :
    r.validate key
      = (true, { r with validator := { r.validator with lastMatched := some key } }) := by
  simp only [validate, KeyValidator.validate, h, if_true]

theorem validate_of_not_accepts (h : r.validator.accepts key = false) :
    r.validate key = (false, r) := by
  simp only [validate, KeyValidator.validate, h, Bool.false_eq_true, if_false]

theorem ingest_of_not_accepts (h : r.validator.accepts key = false) (offer : String)
    (remote : Option SocketAddress) : r.ingest offer key remote = (.error .unauthorized, r) := by
  rw [Relay.ingest, validate_of_not_accepts h]

theorem ingest_of_held (h : r.validator.accepts key = true)
    (hf : r.registry.find? key = some sid) (hs : r.registry.stream? sid = some s)
    (hp : s.hasPublisher = true) (offer : String) (remote : Option SocketAddress) :
    r.ingest offer key remote = (.error (.streamAlreadyPublishing key),
      { r with validator := { r.validator with lastMatched := some key } }) := by
  have hclaim := Registry.claim_of_find?_eq_some hf hs r.clock
  rw [if_pos hp] at hclaim
  rw [Relay.ingest, validate_of_accepts h]
  simp only [onRegistry, hclaim]

theorem ingest_of_free (h : r.validator.accepts key = true) (hf : r.registry.find? key = none)
    (offer : String) (remote : Option SocketAddress) :
    r.ingest offer key remote
      = (r.claimed key).bid r.registry.streams.length offer key remote := by
  rw [Relay.ingest, validate_of_accepts h]
  simp only [onRegistry, Registry.claim_of_find?_eq_none hf r.clock]
  rfl

end

/-- **An offer on the board**, together with what the broadcaster is told. -/
theorem board_ingest (h : r.board.Sound) (offer key : String) (remote : Option SocketAddress) :
    (r.ingest offer key remote).1
        = (if r.mayBid key then r.verdict offer else .error (r.bidFault key)) ∧
      (r.ingest offer key remote).2.board = r.board.bid key (r.verdict offer).isOk := by
  have haccepts : r.board.validator.accepts key = r.validator.accepts key := rfl
  have hindex : r.board.index.find? key = r.registry.find? key := rfl
  rw [mayBid, bidFault, Board.bid, haccepts, hindex]
  cases ha : r.validator.accepts key with
  | false =>
    rw [ingest_of_not_accepts ha]
    exact ⟨rfl, rfl⟩
  | true =>
    cases hf : r.registry.find? key with
    | some sid =>
      obtain ⟨s, hs, -, hphase⟩ := held_of_sound h hf
      have hheld : s.hasPublisher = true := by rw [Stream.hasPublisher, hphase]; rfl
      rw [ingest_of_held ha hf hs hheld]
      exact ⟨rfl, rfl⟩
    | none =>
      have hnew := r.registry.stream?_enroll key
        (Stream.create key r.registry.queueCapacity r.clock).claimed r.registry.streams.length
      rw [if_pos rfl] at hnew
      obtain ⟨hanswer, hboard⟩ := board_bid (r := r.claimed key) hnew rfl offer remote
      have hsettled := Board.settle_claim (b := r.board.remember key) hf (r.verdict offer).isOk
      rw [show (r.board.remember key).made.length = r.registry.streams.length from r.length_made,
        ← board_claimed] at hsettled
      rw [ingest_of_free ha hf]
      exact ⟨hanswer, hboard.trans hsettled⟩

/-! ### All operations -/

/-- The cue that an operation gives to the board. -/
def cue (r : Relay) : Operation → Cue
  | .ingest offer key _ => .offer key (r.verdict offer).isOk
  | .disconnect key => .stop key
  | .shutdown => .stopAll
  | .validate key => .check key
  | .clearLastMatched key => .forget key
  | .setKeys keys => .setKeys keys
  | _ => .idle

theorem board_validate (r : Relay) (key : String) :
    (r.validate key).2.board
      = if r.validator.accepts key then r.board.remember key else r.board := by
  cases h : r.validator.accepts key with
  | false => rw [validate_of_not_accepts h]; rfl
  | true => rw [validate_of_accepts h]; rfl

/-- **An operation does to the board what its cue says.** -/
theorem board_perform (h : r.board.Sound) (op : Operation) :
    (r.perform op).board = r.board.follow (r.cue op) := by
  cases op with
  | ingest offer key remote => exact (board_ingest h offer key remote).2
  | createSession offer key id => exact board_createSession r offer key id
  | setLayer id layer => exact board_setLayer r id layer
  | listLayers id => rfl
  | disconnect key => exact board_disconnect r key
  | shutdown => exact board_shutdown r
  | validate key => exact board_validate r key
  | setKeys keys => rfl
  | clearLastMatched key => rfl
  | observeTrack sid kind codec => exact board_updateStream r sid fun _ => rfl
  | openFeed sid rid ssrc mimeType canSend => exact board_updateStream r sid fun _ => rfl
  | feedPacket loop p => exact board_feedPacket r loop p
  | closeFeed loop => exact board_closeFeed r loop
  | serveKeyframes => exact board_serveKeyframes r
  | scriptSink id answer => rfl
  | tick elapsed => rfl

end Relay

end Simulcast
