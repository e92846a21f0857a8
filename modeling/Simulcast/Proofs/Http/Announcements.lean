import Simulcast.Proofs.Document.Status
import Simulcast.Proofs.Http.Cues
import Simulcast.Proofs.Relay.Shares
/-!
# What is announced is what is on air

The notices about a key are whole broadcasts one after the other, each with its beginning and
its end, and after them the beginning of one more if the key is on air (`broadcasts`).

On the board every change of the entry under a key comes with its notice: a launch writes the
entry and announces it, a dismissal takes the entry and announces that.  An abandoned stream
touches neither.  So `Board.Tracked`, which compares the notices about each key with its
entry, survives every cue, and `Http.announces_through` reads it on the relay itself.
-/

namespace Simulcast

/-! ### Broadcasts, told by notices -/

/-- The notices of `n` broadcasts that are over, and of one that is not if `live`. -/
def broadcasts (key : String) (n : Nat) (live : Bool) : List Notice :=
  (List.replicate n [Notice.connected key, .disconnected key]).flatten ++
    if live then [.connected key] else []

section

variable (key : String) (n : Nat)

theorem broadcasts_begin : broadcasts key n false ++ [.connected key] = broadcasts key n true := by
  simp only [broadcasts, if_true, Bool.false_eq_true, if_false, List.append_nil]

theorem broadcasts_end :
    broadcasts key n true ++ [.disconnected key] = broadcasts key (n + 1) false := by
  simp only [broadcasts, if_true, Bool.false_eq_true, if_false, List.append_nil,
    List.replicate_succ', List.flatten_append, List.flatten_singleton, List.append_assoc,
    List.cons_append, List.nil_append]

theorem getLast?_broadcasts (live : Bool) :
    (broadcasts key n live).getLast? = some (.connected key) ↔ live = true := by
  cases live with
  | true => simp [broadcasts]
  | false =>
    cases n with
    | zero => simp [broadcasts]
    | succ n =>
      rw [← broadcasts_end, List.getLast?_concat]
      simp

theorem count_broadcasts :
    (broadcasts key n false).count (.connected key) = n ∧
      (broadcasts key n false).count (.disconnected key) = n := by
  induction n with
  | zero => exact ⟨rfl, rfl⟩
  | succ n ih =>
    rw [← broadcasts_end, ← broadcasts_begin]
    simp [ih.1, ih.2]

end

/-! ### Notices on the board -/

namespace Board

/-- The notices about a key. -/
def told (b : Board) (key : String) : List Notice := b.notices.filter fun n => n.key = key

/-- The notices about each key fit its entry. -/
def Tracked (b : Board) : Prop :=
  ∀ key, ∃ n, b.told key = broadcasts key n (b.index.find? key).isSome

variable {b : Board} {key : String} {sid : StreamId}

theorem told_append (b : Board) (x : Notice) (k : String) :
    (b.notices ++ [x]).filter (fun n => n.key = k)
      = b.told k ++ if x.key = k then [x] else [] := by
  rw [List.filter_append, told]
  by_cases hx : x.key = k <;> simp [hx]

theorem Tracked.launch (h : b.Tracked) (hfree : b.index.find? key = none) :
    (b.launch key).Tracked := by
  intro k
  obtain ⟨n, hn⟩ := h k
  refine ⟨n, (b.told_append (.connected key) k).trans ?_⟩
  show b.told k ++ (if key = k then [Notice.connected key] else [])
    = broadcasts k n ((b.index.insert key b.made.length).find? k).isSome
  rw [hn, Table.find?_insert]
  by_cases hk : k = key
  · subst hk
    rw [hfree, if_pos rfl, if_pos rfl]
    exact broadcasts_begin k n
  · rw [if_neg hk, if_neg fun c => hk c.symm, List.append_nil]

theorem Tracked.dismiss (h : b.Tracked) (hk : b.index.find? key = some sid) :
    (b.dismiss sid key .connected).Tracked := by
  intro k
  obtain ⟨n, hn⟩ := h k
  have htold : (b.dismiss sid key .connected).told k
      = b.told k ++ if key = k then [.disconnected key] else [] :=
    b.told_append (.disconnected key) k
  rw [htold, hn, find?_dismiss]
  by_cases hkey : k = key
  · subst hkey
    rw [hk, if_pos rfl, if_pos ⟨rfl, rfl⟩]
    exact ⟨n + 1, broadcasts_end k n⟩
  · rw [if_neg fun c => hkey c.symm, if_neg fun c => hkey c.1, List.append_nil]
    exact ⟨n, rfl⟩

theorem Tracked.bid (h : b.Tracked) (key : String) (answered : Bool) :
    (b.bid key answered).Tracked := by
  rcases b.bid_cases key answered with ⟨-, he⟩ | ⟨-, ⟨sid, -, he⟩ | ⟨hfree, ⟨-, he⟩ | ⟨-, he⟩⟩⟩
  · rw [he]; exact h
  · rw [he]; exact h
  · have hremembered : (b.remember key).Tracked := h
    rw [he]
    exact hremembered.launch hfree
  · rw [he]; exact h

theorem Tracked.stop (h : b.Tracked) (hsound : b.Sound) (key : String) : (b.stop key).Tracked := by
  rcases hsound.stop_cases key with ⟨-, he⟩ | ⟨sid, hk, he⟩
  · rw [he]; exact h
  · rw [he]; exact h.dismiss hk

theorem Tracked.clear (h : b.Tracked) (hsound : b.Sound) : b.clear.Tracked :=
  hsound.clear_of_dismiss h fun _ hk h => h.dismiss hk

/-- **Every cue keeps the notices in step** with the entries. -/
theorem Tracked.follow (h : b.Tracked) (hsound : b.Sound) (cue : Cue) : (b.follow cue).Tracked := by
  cases cue with
  | offer key answered => exact h.bid key answered
  | halt key =>
    have hremembered : (b.remember key).Tracked := h
    simp only [Board.follow]
    split
    · exact hremembered.stop (hsound.remember key) key
    · exact h
  | stop key => exact h.stop hsound key
  | stopAll => exact h.clear hsound
  | check key =>
    simp only [Board.follow]
    split <;> exact h
  | forget key => exact h
  | setKeys keys => exact h
  | idle => exact h

theorem notices_bid_of_unanswered (b : Board) (key : String) :
    (b.bid key false).notices = b.notices := by
  rcases b.bid_cases key false with ⟨-, he⟩ | ⟨-, ⟨sid, -, he⟩ | ⟨-, ⟨ha, -⟩ | ⟨-, he⟩⟩⟩
  · rw [he]
  · rw [he]; rfl
  · exact absurd ha Bool.false_ne_true
  · rw [he]; rfl

end Board

/-! ### Notices of a relay -/

namespace Relay

variable {r : Relay}

/-- The notices about a key that were given so far, oldest first. -/
def noticesOf (r : Relay) (key : String) : List Notice := r.notices.filter fun n => n.key = key

/-- The live keys are the registered ones. -/
theorem mem_activeKeys_of_sound (h : r.board.Sound) (key : String) :
    key ∈ r.activeKeys ↔ (r.registry.find? key).isSome = true := by
  show key ∈ r.registry.activeKeys ↔ _
  rw [Registry.mem_activeKeys_iff, Option.isSome_iff_exists]
  constructor
  · rintro ⟨sid, s, hk, -, -⟩
    exact ⟨sid, hk⟩
  · rintro ⟨sid, hk⟩
    obtain ⟨s, hs, -, hphase⟩ := held_of_sound h hk
    exact ⟨sid, s, hk, hs, decide_eq_true hphase⟩

theorem tracked_start (settings : Settings) (negotiate : Attempt → Except RelayError Agreement) :
    (start settings negotiate).board.Tracked :=
  fun _ => ⟨0, rfl⟩

theorem noticesOf_of_tracked (h : r.board.Tracked) (hsound : r.board.Sound) (key : String) :
    ∃ n, r.noticesOf key = broadcasts key n (decide (key ∈ r.activeKeys)) := by
  obtain ⟨n, hn⟩ := h key
  have hlive : decide (key ∈ r.activeKeys) = (r.registry.find? key).isSome := by
    simp only [mem_activeKeys_of_sound hsound key, Bool.decide_eq_true]
  rw [hlive]
  exact ⟨n, hn⟩

/-- A refused or failed ingest gives no notice. -/
theorem notices_ingest_of_error (h : r.board.Sound) {offer key : String}
    {remote : Option SocketAddress} {e : RelayError}
    (he : (r.ingest offer key remote).1 = .error e) :
    (r.ingest offer key remote).2.notices = r.notices := by
  obtain ⟨hanswer, hboard⟩ := board_ingest h offer key remote
  have hnotices := congrArg Board.notices hboard
  refine hnotices.trans ?_
  rw [he] at hanswer
  cases hmay : r.mayBid key with
  | true =>
    rw [hmay, if_pos rfl] at hanswer
    rw [← hanswer]
    exact Board.notices_bid_of_unanswered ..
  | false =>
    rcases r.board.bid_cases key (r.verdict offer).isOk with
      ⟨-, hb⟩ | ⟨haccepts, ⟨sid, -, hb⟩ | ⟨hfree, -⟩⟩
    · rw [hb]; rfl
    · rw [hb]; rfl
    · have haccepts' : r.validator.accepts key = true := haccepts
      have hfree' : r.registry.find? key = none := hfree
      rw [mayBid, haccepts', hfree'] at hmay
      exact absurd hmay (by decide)

theorem disconnect_of_free {key : String} (h : r.registry.find? key = none) :
    r.disconnect key = r := by
  rw [disconnect, h]

theorem find?_disconnect (h : r.board.Sound) (key : String) :
    (r.disconnect key).registry.find? key = none := by
  have hfind : (r.disconnect key).registry.find? key = (r.board.stop key).index.find? key :=
    congrArg (fun b => b.index.find? key) (board_disconnect r key)
  rw [hfind, h.find?_stop, if_pos rfl]

theorem activeKeys_shutdown (h : r.board.Sound) : r.shutdown.activeKeys = [] := by
  have hsound : r.shutdown.board.Sound := r.board_shutdown ▸ h.clear
  refine List.eq_nil_iff_forall_not_mem.mpr fun key hkey => ?_
  rw [mem_activeKeys_of_sound hsound] at hkey
  have hfind : r.shutdown.registry.find? key = none :=
    (congrArg (fun b => b.index.find? key) r.board_shutdown).trans (h.find?_clear key)
  rw [hfind] at hkey
  exact absurd hkey Bool.false_ne_true

/-- What a relay announces tells what is on air. -/
structure Announces (r : Relay) : Prop where
  /-- Beginnings and ends alternate, a beginning first, and the last one tells what is so. -/
  alternate : ∀ key, ∃ n, r.noticesOf key = broadcasts key n (decide (key ∈ r.activeKeys))
  last : ∀ key, key ∈ r.activeKeys ↔ (r.noticesOf key).getLast? = some (.connected key)
  /-- A client that asks for the live streams is sent them, and reads their keys off the answer
  in order. -/
  listed : ∀ (req : Http.Request) (id : ViewerId), req.method = .get →
    Http.Route.ofTarget? req.target = some .status →
    (Http.handle r req id).1.status = 200 ∧
      (Http.handle r req id).1.body
        = Json.list (r.activeKeys.map fun key => StreamStatus.encode { streamKey := key }) ∧
      Json.decode (Utf8.encode (Http.handle r req id).1.body)
        = .ok (.list (r.activeKeys.map fun key => .object [("streamKey", .text key)]))
  failed : ∀ offer key remote e, (r.ingest offer key remote).1 = .error e →
    (r.ingest offer key remote).2.notices = r.notices
  refused : ∀ (req : Http.Request) (id : ViewerId), 400 ≤ (Http.handle r req id).1.status →
    (Http.handle r req id).2.notices = r.notices
  unknown : ∀ key, key ∉ r.activeKeys → r.disconnect key = r
  repeated : ∀ key, (r.disconnect key).disconnect key = r.disconnect key
  /-- Once all broadcasts have ended, each beginning has its end. -/
  matched : r.shutdown.activeKeys = [] ∧ ∀ key,
    (r.shutdown.noticesOf key).count (.connected key)
      = (r.shutdown.noticesOf key).count (.disconnected key)

end Relay

namespace Http

open Relay

theorem tracked_through {r : Relay} (h : r.board.Tracked) (hsound : r.board.Sound)
    (events : List Event) : (through r events).board.Tracked := by
  induction events generalizing r with
  | nil => exact h
  | cons event rest ih =>
    have hboard := board_occur hsound event
    refine ih ?_ ?_
    · rw [hboard]
      exact h.follow hsound _
    · rw [hboard]
      exact hsound.follow _

section

variable {r : Relay} {req : Request}

theorem notices_whipOffer_of_fault (h : r.board.Sound)
    (hfault : 400 ≤ (whipOffer r req).1.status) : (whipOffer r req).2.notices = r.notices := by
  unfold whipOffer at hfault ⊢
  split
  · rfl
  · rename_i offer hoffer
    rw [hoffer] at hfault
    split
    · rfl
    · rename_i key hkey
      rw [hkey] at hfault
      simp only at hfault
      split
      · rename_i answer q hq
        rw [hq] at hfault
        exact absurd hfault (by simp [sdpResponse])
      · rename_i e q hq
        exact congrArg (fun p => p.2.notices) hq.symm |>.trans
          (notices_ingest_of_error h (congrArg Prod.fst hq))

theorem notices_whipDelete_of_fault (hfault : 400 ≤ (whipDelete r req).1.status) :
    (whipDelete r req).2.notices = r.notices := by
  unfold whipDelete at hfault ⊢
  split
  · rfl
  · rename_i key hkey
    rw [hkey] at hfault
    cases ha : r.validator.accepts key with
    | false => simp only [validate_of_not_accepts ha]
    | true =>
      simp only [validate_of_accepts ha] at hfault
      exact absurd hfault (by decide)

/-- A request that is answered with a fault gives no notice. -/
theorem notices_handle_of_fault (h : r.board.Sound) {id : ViewerId}
    (hfault : 400 ≤ (handle r req id).1.status) : (handle r req id).2.notices = r.notices := by
  rcases cue_cases r req with hidle | ⟨key, answered, -, hoffers⟩ | ⟨key, -, hstops⟩
  · have hboard := board_handle h req id
    rw [hidle] at hboard
    exact congrArg Board.notices hboard
  · rw [handle_whip_post hoffers.target hoffers.method] at hfault ⊢
    exact notices_whipOffer_of_fault h hfault
  · rw [handle_whip_delete hstops.target hstops.method] at hfault ⊢
    exact notices_whipDelete_of_fault hfault

end

theorem handle_status {req : Request} (hmethod : req.method = .get)
    (hroute : Route.ofTarget? req.target = some .status) (r : Relay) (id : ViewerId) :
    (handle r req id).1.status = 200 ∧
      (handle r req id).1.body
        = Json.list (r.activeKeys.map fun key => StreamStatus.encode { streamKey := key }) ∧
      Json.decode (Utf8.encode (handle r req id).1.body)
        = .ok (.list (r.activeKeys.map fun key => .object [("streamKey", .text key)])) := by
  have hmem : req.method ∈ Route.status.methods := by
    rw [hmethod]
    exact List.mem_cons_self
  have hdecode := StreamStatus.decode_list (r.activeKeys.map StreamStatus.mk)
  rw [List.map_map, List.map_map] at hdecode
  rw [handle_of_route hroute hmem (by rw [hmethod]; decide)]
  exact ⟨rfl, rfl, hdecode⟩

/-- **A relay announces what is on air**, whatever happened to it. -/
theorem announces_through (settings : Settings) (negotiate : Attempt → Except RelayError Agreement)
    (events : List Event) : (through (start settings negotiate) events).Announces := by
  have hsound := sound_through (sound_start settings negotiate) events
  have htracked := tracked_through (tracked_start settings negotiate)
    (sound_start settings negotiate) events
  generalize through (start settings negotiate) events = r at hsound htracked
  constructor
  · exact fun key => noticesOf_of_tracked htracked hsound key
  · intro key
    obtain ⟨n, hn⟩ := noticesOf_of_tracked htracked hsound key
    rw [hn, getLast?_broadcasts, decide_eq_true_eq]
  · exact fun req id hmethod hroute => handle_status hmethod hroute r id
  · exact fun offer key remote e he => notices_ingest_of_error hsound he
  · exact fun req id hfault => notices_handle_of_fault hsound hfault
  · intro key hkey
    rw [mem_activeKeys_of_sound hsound, Bool.not_eq_true, Option.isSome_eq_false_iff,
      Option.isNone_iff_eq_none] at hkey
    exact disconnect_of_free hkey
  · exact fun key => disconnect_of_free (find?_disconnect hsound key)
  · refine ⟨activeKeys_shutdown hsound, fun key => ?_⟩
    have hcleared : r.shutdown.board.Tracked := r.board_shutdown ▸ htracked.clear hsound
    obtain ⟨n, hn⟩ := noticesOf_of_tracked hcleared (r.board_shutdown ▸ hsound.clear) key
    have hoff : decide (key ∈ r.shutdown.activeKeys) = false := by
      rw [activeKeys_shutdown hsound]
      exact decide_eq_false List.not_mem_nil
    rw [hn, hoff, (count_broadcasts key n).1, (count_broadcasts key n).2]

end Http

end Simulcast
