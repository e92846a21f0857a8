import Simulcast.Http.Endpoint
import Simulcast.Proofs.Relay.Refusal
/-!
# Failed requests change nothing

A request reaches the relay through one endpoint, and each endpoint makes at most one
attempt that can fail after it changed something.  `Http.Served` is what is true of every
answer: the relay stays settled, and if the status tells of a fault the relay is
undisturbed.  It is proved endpoint by endpoint, up to `Http.served_handle`.

A relay in use is reached by operations and requests in any order.
`Http.undisturbed_of_fault` is the statement about all such relays.
-/

namespace Simulcast

namespace Http

open Relay

/-! ### One request -/

/-- An answer to a request that was handed the name `id`, together with the relay after it. -/
structure Served (ids : List ViewerId) (id : ViewerId) (r : Relay) (out : Response × Relay) :
    Prop where
  settled : Settled (id :: ids) out.2.registry out.2.viewers
  undisturbed : 400 ≤ out.1.status → r.Undisturbed out.2

section

variable {ids : List ViewerId} {id : ViewerId} {r : Relay}

theorem served_at_once (h : Settled ids r.registry r.viewers) (response : Response) :
    Served ids id r (response, r) :=
  ⟨h.cons id, fun _ => .refl r⟩

theorem served_well {q : Relay} (h : Settled (id :: ids) q.registry q.viewers)
    {response : Response} (status : Nat) (hs : response.status = status) (hlow : status < 400) :
    Served ids id r (response, q) :=
  ⟨h, fun hf => absurd (hs ▸ hf : 400 ≤ status) (Nat.not_le_of_lt hlow)⟩

/-- Headers and a missing body make no difference. -/
theorem Served.dress {response dressed : Response} {q : Relay}
    (h : Served ids id r (response, q)) (hs : dressed.status = response.status) :
    Served ids id r (dressed, q) :=
  ⟨h.settled, fun hf => h.undisturbed (hs ▸ hf)⟩

theorem served_whipOffer (h : Settled ids r.registry r.viewers) (req : Request) :
    Served ids id r (whipOffer r req) := by
  unfold whipOffer
  split
  · exact served_at_once h _
  · rename_i offer hoffer
    split
    · exact served_at_once h _
    · rename_i key hkey
      have hsettled := (h.ingest offer key req.peer).cons id
      split
      · rename_i answer q hq
        rw [hq] at hsettled
        exact served_well hsettled 201 rfl (by decide)
      · rename_i e q hq
        have hsame := h.undisturbed_ingest (congrArg Prod.fst hq)
        rw [hq] at hsettled hsame
        exact ⟨hsettled, fun _ => hsame⟩

theorem served_whipDelete (h : Settled ids r.registry r.viewers) (req : Request) :
    Served ids id r (whipDelete r req) := by
  unfold whipDelete
  split
  · exact served_at_once h _
  · rename_i key hkey
    obtain ⟨last, hval⟩ := r.validate_eq key
    rw [hval]
    cases r.validator.accepts key with
    | false => exact ⟨h.cons id, fun _ => r.undisturbed_lastMatched last⟩
    | true =>
      have hdown : Settled ids
          ({ r with validator := { r.validator with lastMatched := last } } : Relay).registry
          ({ r with validator := { r.validator with lastMatched := last } } : Relay).viewers := h
      exact served_well ((hdown.perform (.disconnect key) (by simp [newViewer?])).cons id) 200 rfl
        (by decide)

theorem served_whepOffer (h : Settled ids r.registry r.viewers) (hid : id ∉ ids)
    (req : Request) : Served ids id r (whepOffer r req id) := by
  unfold whepOffer
  split
  · exact served_at_once h _
  · rename_i offer hoffer
    split
    · exact served_at_once h _
    · rename_i key hkey
      have hsettled := h.createSession offer key hid
      split
      · rename_i answer q hq
        rw [hq] at hsettled
        exact served_well hsettled 201 rfl (by decide)
      · rename_i e q hq
        have hsame := h.undisturbed_createSession hid (congrArg Prod.fst hq)
        rw [hq] at hsettled hsame
        exact ⟨hsettled, fun _ => hsame⟩

theorem served_whepSelectLayer (h : Settled ids r.registry r.viewers) (req : Request)
    (raw : String) : Served ids id r (whepSelectLayer r req raw) := by
  unfold whepSelectLayer
  split
  · exact served_at_once h _
  · rename_i session hsession
    split
    · exact served_at_once h _
    · rename_i bytes hbytes
      split
      · exact served_at_once h _
      · rename_i choice hchoice
        have hsettled := (h.setLayer session choice.encodingId).cons id
        split
        · rename_i q hq
          rw [hq] at hsettled
          exact served_well hsettled 200 rfl (by decide)
        · rename_i e q hq
          rw [hq] at hsettled
          refine ⟨hsettled, fun _ => ?_⟩
          unfold Relay.setLayer at hq
          split at hq
          · obtain rfl := (Prod.mk.inj hq).2
            exact .refl r
          · exact absurd (congrArg Prod.fst hq) (by simp)

theorem served_respond (h : Settled ids r.registry r.viewers) (hid : id ∉ ids) (req : Request)
    (route : Route) : Served ids id r (respond r req route id) := by
  cases route with
  | whip =>
    simp only [respond]
    split
    · exact served_whipOffer h req
    · exact served_whipDelete h req
  | whep => exact served_whepOffer h hid req
  | layers session => exact served_at_once h _
  | layer session => exact served_whepSelectLayer h req session
  | status => exact served_at_once h _
  | streamStatus key => exact served_at_once h _

theorem served_dispatch (h : Settled ids r.registry r.viewers) (hid : id ∉ ids)
    (req : Request) : Served ids id r (dispatch r req id) := by
  unfold dispatch
  split
  · exact served_at_once h _
  · rename_i route hroute
    split
    · refine (served_respond h hid req route).dress ?_
      split <;> rfl
    · exact served_at_once h _

/-- **Every request is served** so that a fault leaves the relay undisturbed. -/
theorem served_handle (h : Settled ids r.registry r.viewers) (hid : id ∉ ids) (req : Request) :
    Served ids id r (handle r req id) := by
  unfold handle
  split
  · exact served_at_once h _
  · exact (served_dispatch h hid req).dress rfl

end

/-! ### A relay in use -/

/-- What happens to a relay from outside. -/
inductive Event where
  /-- A complete operation that was not asked for by a request. -/
  | operation (op : Operation)
  /-- A request, with the name for the viewer that it may make. -/
  | request (req : Request) (id : ViewerId)

def Event.names : Event → List ViewerId
  | .operation op => (newViewer? op).toList
  | .request _ id => [id]

def Event.occur (r : Relay) : Event → Relay
  | .operation op => r.perform op
  | .request req id => (handle r req id).2

def through (r : Relay) (events : List Event) : Relay := events.foldl Event.occur r

theorem settled_occur {ids : List ViewerId} {r : Relay} (h : Settled ids r.registry r.viewers)
    (event : Event) (hnew : ∀ id ∈ event.names, id ∉ ids) :
    Settled (event.names ++ ids) (event.occur r).registry (event.occur r).viewers := by
  cases event with
  | operation op => exact h.perform op fun id hid => hnew id (Option.mem_toList.mpr hid)
  | request req id => exact (served_handle h (hnew id List.mem_cons_self) req).settled

/-- **All events together keep the relay settled**, and no name is known afterwards that was
not handed in. -/
theorem settled_through {ids : List ViewerId} {r : Relay} (h : Settled ids r.registry r.viewers)
    {events : List Event} (hnodup : (events.flatMap Event.names).Nodup)
    (hnew : ∀ id ∈ events.flatMap Event.names, id ∉ ids) :
    ∃ named, (∀ id ∈ named, id ∈ ids ∨ id ∈ events.flatMap Event.names) ∧
      Settled named (through r events).registry (through r events).viewers := by
  induction events generalizing r ids with
  | nil => exact ⟨ids, fun id hid => .inl hid, h⟩
  | cons event rest ih =>
    rw [List.flatMap_cons] at hnodup hnew ⊢
    obtain ⟨hfirst, hrest, hnext⟩ := new_of_append hnodup hnew
    obtain ⟨named, hknown, hsettled⟩ := ih (settled_occur h event hfirst) hrest hnext
    refine ⟨named, fun id hid => ?_, hsettled⟩
    rcases hknown id hid with hm | hm
    · exact (List.mem_append.mp hm).elim (fun hm => .inr (List.mem_append_left _ hm)) .inl
    · exact .inr (List.mem_append_right _ hm)

/-- **Failed requests change nothing.**  Whatever happened to the relay before, a request that
is answered with a status of 400 or above leaves all that was there as it was. -/
theorem undisturbed_of_fault (settings : Settings)
    (negotiate : Attempt → Except RelayError Agreement) (events : List Event) (req : Request)
    (id : ViewerId) (hnames : (events.flatMap Event.names ++ [id]).Nodup)
    (hfault : 400 ≤ (handle (through (start settings negotiate) events) req id).1.status) :
    (through (start settings negotiate) events).Undisturbed
      (handle (through (start settings negotiate) events) req id).2 := by
  obtain ⟨hnodup, -, hapart⟩ := List.nodup_append.mp hnames
  obtain ⟨named, hknown, hsettled⟩ := settled_through (r := start settings negotiate)
    (settled_empty settings.queueCapacity) hnodup fun id _ => List.not_mem_nil
  refine (served_handle hsettled (fun hid => ?_) req).undisturbed hfault
  rcases hknown id hid with hm | hm
  · exact absurd hm List.not_mem_nil
  · exact hapart id hm id (List.mem_singleton.mpr rfl) rfl

def joined : List Event := [
  .request
    { method := .post
      target := "/whip"
      headers := [("authorization", Utf8.encode "Bearer k")]
      body := Utf8.encode "offer" } "u",
  .operation (.createSession "h264" "k" "v")]

/-- The offer of a viewer that understands no codec of the broadcast. -/
def mismatched : Request where
  method := .post
  target := "/whep"
  headers := [("authorization", Utf8.encode "k")]
  body := Utf8.encode "h265"

/-- After `joined` the offer `mismatched` gets a place and loses it again; the viewer that was
there stays. -/
theorem undisturbed_of_mismatched :
    let r := through (start { streamKeys := ["k"] } fun attempt =>
      .ok { answer := "answer", videoTypes := some ["video/" ++ attempt.offer] }) joined
    (joined.flatMap Event.names ++ ["w"]).Nodup ∧ (handle r mismatched "w").1.status = 400 ∧
      r.Undisturbed (handle r mismatched "w").2 ∧
      (r.registry.stream? 0).map Stream.viewers = some ["v"] :=
  ⟨by decide, by decide, undisturbed_of_fault _ _ joined mismatched "w" (by decide) (by decide),
    by decide⟩

end Http

end Simulcast
