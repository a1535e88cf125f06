import VirtualHidDevice.UnixDomainStream.Peer
import Mathlib.Data.List.Nodup

/-!
# Requests that wait for their response

`pqrs::unix_domain_stream::impl::request_manager`, which the client and the server of a stream
share. A request is registered under an id that goes into its frame, and completed by the
response with this id, by its timer, or because the peer it was sent to is gone.

* `RequestManager` — the pending requests and the outstanding waits of their timers. What a
  callback is does not matter here, so its type is a parameter.
* `Completion` — a callback that is handed to the dispatcher, with its arguments.
* `RequestManager.Inv` — the ids are distinct. `Inv.add`, `Inv.complete` and `inv_completeAll` say
  which callbacks are kept and which are handed over: none is lost or handed over twice.
-/

namespace VirtualHidDevice.UnixDomainStream

variable {γ : Type}

/-- `pending_request`, without its timer. -/
structure PendingRequest (γ : Type) where
  /-- `peer_id_value` -/
  peerId : Option UInt64
  /-- `callback` -/
  callback : γ

/-- A callback that is due, with its arguments. -/
structure Completion (γ : Type) where
  /-- the callback -/
  callback : γ
  /-- `error_code`, none for success -/
  errorCode : Option ErrorCode
  /-- `data` -/
  data : Option Bytes
deriving DecidableEq, Repr

/-- The manager. -/
structure RequestManager (γ : Type) where
  /-- `next_request_id_` -/
  nextRequestId : UInt64 := 0
  /-- `pending_requests_`, by their ids -/
  pendingRequests : List (UInt64 × PendingRequest γ) := []
  /-- the outstanding waits of the timers, by the ids of the requests -/
  timers : List UInt64 := []

namespace RequestManager

/-- `pending_requests_.find(id)`. -/
def find (m : RequestManager γ) (id : UInt64) : Option (PendingRequest γ) :=
  m.pendingRequests.lookup id

/-- `add(peer_id_value, timeout, request_callback)`; `emplace` does not replace an entry. -/
def add (m : RequestManager γ) (peerId : Option UInt64) (callback : γ) :
    RequestManager γ × UInt64 :=
  let id := m.nextRequestId + 1
  ({ nextRequestId := id
     pendingRequests :=
       if (m.find id).isSome then m.pendingRequests
       else m.pendingRequests ++ [(id, { peerId, callback })]
     timers := m.timers ++ [id] }, id)

/-- `complete(id, error_code, data)`. -/
def complete (m : RequestManager γ) (id : UInt64) (errorCode : Option ErrorCode)
    (data : Option Bytes) : RequestManager γ × List (Completion γ) :=
  match m.find id with
  | none => (m, [])
  | some request =>
    ({ m with pendingRequests := m.pendingRequests.filter (·.1 ≠ id) },
     [{ callback := request.callback, errorCode, data }])

/-- `complete(peer_id_value, id, error_code, data)`. -/
def completeOf (m : RequestManager γ) (peerId id : UInt64) (errorCode : Option ErrorCode)
    (data : Option Bytes) : RequestManager γ × List (Completion γ) :=
  match m.find id with
  | none => (m, [])
  | some request => if request.peerId ≠ some peerId then (m, []) else m.complete id errorCode data

/-- `complete_peer(id, error_code)`; the order of a hash map is not specified. -/
def completePeer (m : RequestManager γ) (peerId : UInt64) (errorCode : ErrorCode) :
    RequestManager γ × List (Completion γ) :=
  ({ m with pendingRequests := m.pendingRequests.filter (·.2.peerId ≠ some peerId) },
   (m.pendingRequests.filter (·.2.peerId = some peerId)).map fun request =>
    { callback := request.2.callback, errorCode := some errorCode, data := none })

/-- `complete_all(error_code)`. -/
def completeAll (m : RequestManager γ) (errorCode : ErrorCode) :
    RequestManager γ × List (Completion γ) :=
  ({ m with pendingRequests := [] },
   m.pendingRequests.map fun request =>
    { callback := request.2.callback, errorCode := some errorCode, data := none })

/-- The handler of a timer that expired, up to `timeout_callback`. -/
def timerExpired (m : RequestManager γ) (id : UInt64) : RequestManager γ × List (Completion γ) :=
  { m with timers := m.timers.erase id }.complete id (some .timedOut) none

/-! ## Every callback is kept or handed over -/

/-- The callbacks of the pending requests. -/
def callbacks (m : RequestManager γ) : List γ := m.pendingRequests.map (·.2.callback)

/-- The ids are those that were given out, each once. -/
structure Inv (m : RequestManager γ) : Prop where
  /-- an id has one request -/
  nodup : (m.pendingRequests.map Prod.fst).Nodup
  /-- ids are given out in order -/
  le : ∀ request ∈ m.pendingRequests, request.1.toNat ≤ m.nextRequestId.toNat

theorem inv_empty : ({} : RequestManager γ).Inv :=
  ⟨List.nodup_nil, fun _ h => absurd h List.not_mem_nil⟩

/-- Fewer pending requests. -/
theorem Inv.filter {m : RequestManager γ} (h : m.Inv) (p : UInt64 × PendingRequest γ → Bool) :
    { m with pendingRequests := m.pendingRequests.filter p }.Inv :=
  ⟨h.nodup.sublist (List.filter_sublist.map Prod.fst),
    fun request hr => h.le request (List.mem_filter.mp hr).1⟩

/-- A new id is not in use, as long as the counter does not wrap around. -/
theorem Inv.find_next {m : RequestManager γ} (h : m.Inv)
    (hnext : m.nextRequestId.toNat + 1 < 2 ^ 64) : m.find (m.nextRequestId + 1) = none := by
  rw [find, List.lookup_eq_none_iff]
  intro request hr
  have hle := h.le request hr
  have hid : (m.nextRequestId + 1).toNat = m.nextRequestId.toNat + 1 := by
    rw [UInt64.toNat_add]
    exact Nat.mod_eq_of_lt hnext
  rw [bne_iff_ne]
  intro heq
  rw [heq] at hid
  omega

/-- A new request gets an id of its own, as long as ids do not come round. -/
theorem Inv.add {m : RequestManager γ} (h : m.Inv) (hnext : m.nextRequestId.toNat + 1 < 2 ^ 64)
    (peerId : Option UInt64) (callback : γ) :
    (m.add peerId callback).1.Inv ∧
      (m.add peerId callback).1.callbacks = m.callbacks ++ [callback] ∧
      (m.add peerId callback).1.nextRequestId.toNat = m.nextRequestId.toNat + 1 := by
  have hfind := h.find_next hnext
  have hid : (m.nextRequestId + 1).toNat = m.nextRequestId.toNat + 1 := by
    rw [UInt64.toNat_add]
    exact Nat.mod_eq_of_lt hnext
  have hnot : ∀ request ∈ m.pendingRequests, request.1 ≠ m.nextRequestId + 1 := by
    intro request hr heq
    have hle := h.le request hr
    rw [heq] at hle
    omega
  rw [RequestManager.add, hfind]
  refine ⟨⟨?_, ?_⟩, ?_, hid⟩
  · simp only [Option.isSome_none, Bool.false_eq_true, if_false, List.map_append, List.map_cons,
      List.map_nil]
    refine List.nodup_append.mpr ⟨h.nodup, List.nodup_singleton _, ?_⟩
    intro id hid' id' hid'' heq
    obtain ⟨request, hr, rfl⟩ := List.mem_map.mp hid'
    exact hnot request hr (heq.trans (List.mem_singleton.mp hid''))
  · intro request hr
    simp only [Option.isSome_none, Bool.false_eq_true, if_false] at hr
    dsimp only
    rw [hid]
    rcases List.mem_append.mp hr with hr | hr
    · exact (h.le request hr).trans (Nat.le_succ _)
    · rw [List.mem_singleton.mp hr]
      exact hid.le
  · simp [callbacks]

/-- The request with an id, and the others. -/
theorem Inv.perm_find {m : RequestManager γ} (h : m.Inv) {id : UInt64} {request : PendingRequest γ}
    (hfind : m.find id = some request) :
    m.callbacks.Perm
      (request.callback :: (m.pendingRequests.filter (·.1 ≠ id)).map (·.2.callback)) := by
  obtain ⟨front, rest, hlist, -⟩ := List.lookup_eq_some_iff.mp hfind
  have hnodup := h.nodup
  rw [hlist, List.map_append, List.map_cons, List.nodup_middle, List.nodup_cons,
    List.mem_append] at hnodup
  have hkeep : ∀ part : List (UInt64 × PendingRequest γ), id ∉ part.map Prod.fst →
      part.filter (·.1 ≠ id) = part := by
    intro part hpart
    refine List.filter_eq_self.mpr fun request hr => ?_
    simp only [ne_eq, decide_not, Bool.not_eq_true', decide_eq_false_iff_not]
    rintro rfl
    exact hpart (List.mem_map_of_mem hr)
  have hfilter : m.pendingRequests.filter (·.1 ≠ id) = front ++ rest := by
    rw [hlist, List.filter_append, List.filter_cons_of_neg (by simp),
      hkeep front fun hf => hnodup.1 (.inl hf), hkeep rest fun hr => hnodup.1 (.inr hr)]
  rw [hfilter, callbacks, hlist, List.map_append, List.map_cons, List.map_append]
  exact List.perm_middle

/-- A request that is completed hands over its callback, and no other request does. -/
theorem Inv.complete {m : RequestManager γ} (h : m.Inv) (id : UInt64)
    (errorCode : Option ErrorCode) (data : Option Bytes) :
    (m.complete id errorCode data).1.Inv ∧ m.callbacks.Perm
      ((m.complete id errorCode data).2.map (·.callback) ++
        (m.complete id errorCode data).1.callbacks) := by
  rw [RequestManager.complete]
  split
  next => exact ⟨h, .refl _⟩
  next request hfind => exact ⟨h.filter _, h.perm_find hfind⟩

/-- All requests are completed, each once. -/
theorem inv_completeAll (m : RequestManager γ) (errorCode : ErrorCode) :
    (m.completeAll errorCode).1.Inv ∧ (m.completeAll errorCode).1.callbacks = [] ∧
      (m.completeAll errorCode).2.map (·.callback) = m.callbacks := by
  refine ⟨⟨List.nodup_nil, fun _ hr => absurd hr List.not_mem_nil⟩, rfl, ?_⟩
  simp only [RequestManager.completeAll, callbacks, List.map_map, Function.comp_def]

end RequestManager

end VirtualHidDevice.UnixDomainStream
