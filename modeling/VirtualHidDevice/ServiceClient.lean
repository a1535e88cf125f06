import VirtualHidDevice.ClientEntry

/-!
# The client of the service

`virtual_hid_device_service::client`: the calls a program makes, and what the
messages of the daemon change.

* `ServiceClient` — the cached ready states and keyboard parameters.
* `ServiceClient.call` — a public method: it updates the cache and queues at most
  one request. An initialization that is not forced is left out when the cache
  says that the device is ready.
* `ServiceClient.handleMessage` — `handle_message`, with checked reads;
  `ServiceClient.handleMessage_spec` — what it does with any buffer, in terms of
  the pairs of the message.
* `encodeStatuses` — the daemon's encoder; `ServiceClient.messageSignals_encodeStatuses`
  says that what was encoded is signalled.
* `status_message_decodes` — the result about all buffers and all states of the daemon.
-/

namespace VirtualHidDevice

/-- The members of the client that calls and messages change. -/
structure ServiceClient where
  /-- `last_virtual_hid_keyboard_ready_` and `last_virtual_hid_pointing_ready_` -/
  lastReady : DeviceKind → Option Bool := fun _ => none
  /-- `last_virtual_hid_keyboard_parameters_` -/
  lastKeyboardParameters : Option Parameters := none

/-- A call of a public method. -/
inductive ClientCall where
  /-- `async_virtual_hid_keyboard_initialize(parameters, force)` -/
  | keyboardInitialize (parameters : Parameters) (force : Bool)
  /-- `async_virtual_hid_keyboard_terminate()` -/
  | keyboardTerminate
  /-- `async_virtual_hid_keyboard_reset()` -/
  | keyboardReset
  /-- `async_virtual_hid_pointing_initialize(force)` -/
  | pointingInitialize (force : Bool)
  /-- `async_virtual_hid_pointing_terminate()` -/
  | pointingTerminate
  /-- `async_virtual_hid_pointing_reset()` -/
  | pointingReset
  /-- `async_post_report(report)` -/
  | postReport (report : Report)

/-- The operation that a call asks for. -/
def ClientCall.operation : ClientCall → ClientOperation
  | keyboardInitialize p _ => .keyboardInitialize p
  | keyboardTerminate => .keyboardTerminate
  | keyboardReset => .keyboardReset
  | pointingInitialize _ => .pointingInitialize
  | pointingTerminate => .pointingTerminate
  | pointingReset => .pointingReset
  | postReport r => .postReport r

/-- What `warning_reported` says about a message. -/
inductive MessageWarning where
  /-- `message buffer size is invalid` -/
  | invalidSize
  /-- `unknown message` -/
  | unknownMessage
deriving DecidableEq, Repr

/-- A signal that `handle_message` invokes. -/
inductive ClientSignal where
  /-- `warning_reported` -/
  | warningReported (warning : MessageWarning)
  /-- `driver_activated` -/
  | driverActivated (value : Bool)
  /-- `driver_connected` -/
  | driverConnected (value : Bool)
  /-- `driver_version_mismatched` -/
  | driverVersionMismatched (value : Bool)
  /-- `virtual_hid_keyboard_ready` and `virtual_hid_pointing_ready` -/
  | ready (kind : DeviceKind) (value : Bool)
deriving DecidableEq, Repr

/-- The signal of a status; `none` has no signal. -/
def ClientSignal.ofStatus : Response × Bool → Option ClientSignal
  | (.none, _) => none
  | (.driverActivated, value) => some (.driverActivated value)
  | (.driverConnected, value) => some (.driverConnected value)
  | (.driverVersionMismatched, value) => some (.driverVersionMismatched value)
  | (.virtualHidKeyboardReady, value) => some (.ready .keyboard value)
  | (.virtualHidPointingReady, value) => some (.ready .pointing value)

/-- The response that tells whether a device is ready. -/
def DeviceKind.readyResponse : DeviceKind → Response
  | keyboard => .virtualHidKeyboardReady
  | pointing => .virtualHidPointingReady

namespace ServiceClient

/-! ## Calls -/

/-- The early return of the two initializations: the call is left out. -/
def suppresses (c : ServiceClient) : ClientCall → Bool
  | .keyboardInitialize p force =>
    !force && (c.lastReady .keyboard == some true && c.lastKeyboardParameters == some p)
  | .pointingInitialize force => !force && c.lastReady .pointing == some true
  | _ => false

/-- What a call that is not left out stores. -/
def remember (c : ServiceClient) : ClientCall → ServiceClient
  | .keyboardInitialize p _ => { c with lastKeyboardParameters := some p }
  | _ => c

/-- A public method: the new cache, and the request that is queued. -/
def call (c : ServiceClient) (request : ClientCall) : ServiceClient × Option Bytes :=
  if c.suppresses request then (c, none)
  else (c.remember request, some request.operation.requestBuffer)

/-! ## Messages -/

/-- `response_buffer[index]`. -/
def readByte (buffer : Bytes) (index : ℕ) : Except Fault UInt8 :=
  match buffer[index]? with
  | none => .error .outOfBounds
  | some byte => .ok byte

/-- The `switch` of `handle_message` for one pair. -/
def handlePair (c : ServiceClient) (tag value : UInt8) : ServiceClient × List ClientSignal :=
  match Response.ofTag tag with
  | some .none => (c, [])
  | some .driverActivated => (c, [.driverActivated (value != 0)])
  | some .driverConnected => (c, [.driverConnected (value != 0)])
  | some .driverVersionMismatched => (c, [.driverVersionMismatched (value != 0)])
  | some .virtualHidKeyboardReady =>
    ({ c with lastReady := Function.update c.lastReady .keyboard (some (value != 0)) },
      [.ready .keyboard (value != 0)])
  | some .virtualHidPointingReady =>
    ({ c with lastReady := Function.update c.lastReady .pointing (some (value != 0)) },
      [.ready .pointing (value != 0)])
  | none => (c, [.warningReported .unknownMessage])

/-- One round of the loop of `handle_message`. -/
def handleRound (buffer : Bytes) (s : ServiceClient × List ClientSignal) (index : ℕ) :
    Except Fault (ServiceClient × List ClientSignal) :=
  (readByte buffer (index * 2)).bind fun tag =>
    (readByte buffer (index * 2 + 1)).bind fun value =>
      .ok ((s.1.handlePair tag value).1, s.2 ++ (s.1.handlePair tag value).2)

/-- `handle_message`. -/
def handleMessage (c : ServiceClient) (buffer : Bytes) :
    Except Fault (ServiceClient × List ClientSignal) :=
  if buffer.isEmpty then .ok (c, [])
  else if buffer.length % 2 ≠ 0 then .ok (c, [.warningReported .invalidSize])
  else (List.range (buffer.length / 2)).foldlM (handleRound buffer) (c, [])

/-- The cache after `handle_message`, which stays as it is if a read faults. -/
def handle (c : ServiceClient) (buffer : Bytes) : ServiceClient :=
  match c.handleMessage buffer with
  | .ok s => s.1
  | .error _ => c

/-! ### What a message says -/

/-- The pairs of a message, one after the other. -/
def messagePairs : Bytes → List (UInt8 × UInt8)
  | tag :: value :: rest => (tag, value) :: messagePairs rest
  | _ => []

/-- What a pair says about a device. -/
def readyValue (pair : UInt8 × UInt8) : Option (DeviceKind × Bool) :=
  match Response.ofTag pair.1 with
  | some .virtualHidKeyboardReady => some (.keyboard, pair.2 != 0)
  | some .virtualHidPointingReady => some (.pointing, pair.2 != 0)
  | _ => none

/-- What a message says about the devices; nothing if its size is odd. -/
def readyValues (buffer : Bytes) : List (DeviceKind × Bool) :=
  if buffer.length % 2 = 0 then (messagePairs buffer).filterMap readyValue else []

/-- Remember what was said about a device. -/
def storeReady (c : ServiceClient) (value : DeviceKind × Bool) : ServiceClient :=
  { c with lastReady := Function.update c.lastReady value.1 (some value.2) }

/-- The status of a pair, if its tag is known. -/
def decodePair (pair : UInt8 × UInt8) : Option (Response × Bool) :=
  (Response.ofTag pair.1).map fun response => (response, pair.2 != 0)

/-- What is signalled for a pair: its status, or a warning if there is none. -/
def pairSignal (pair : UInt8 × UInt8) : Option ClientSignal :=
  match decodePair pair with
  | some status => ClientSignal.ofStatus status
  | none => some (.warningReported .unknownMessage)

/-- What is signalled for a message; only a warning if its size is odd. -/
def messageSignals (buffer : Bytes) : List ClientSignal :=
  if buffer.length % 2 = 0 then (messagePairs buffer).filterMap pairSignal
  else [.warningReported .invalidSize]

/-- One pair: what it says about a device is remembered, and its status is signalled. -/
theorem handlePair_eq (c : ServiceClient) (tag value : UInt8) : c.handlePair tag value =
    ((readyValue (tag, value)).toList.foldl storeReady c, (pairSignal (tag, value)).toList) := by
  simp only [handlePair, readyValue, pairSignal, decodePair]
  rcases Response.ofTag tag with _ | response
  · rfl
  · cases response <;> rfl

/-- The loop over the pairs that are left, behind those that are done. -/
theorem foldlM_handleRound (done : Bytes) (rest : Bytes) (k n : ℕ) (hdone : done.length = k * 2)
    (hrest : rest.length = n * 2) (c : ServiceClient) (signals : List ClientSignal) :
    (List.range' k n).foldlM (handleRound (done ++ rest)) (c, signals) =
      .ok (((messagePairs rest).filterMap readyValue).foldl storeReady c,
        signals ++ (messagePairs rest).filterMap pairSignal) := by
  -- the rounds read at twice their index, so the bytes before it are kept along
  induction n generalizing done rest k c signals with
  | zero =>
    obtain rfl := List.length_eq_zero_iff.mp hrest
    exact congrArg (fun signals => Except.ok (c, signals)) (List.append_nil signals).symm
  | succ n ih =>
    match rest, hrest with
    | [_], hrest =>
      rw [List.length_singleton] at hrest
      omega
    | tag :: value :: rest, hrest =>
      have htag : readByte (done ++ tag :: value :: rest) (k * 2) = .ok tag := by
        rw [readByte, List.getElem?_append_right hdone.le, hdone, Nat.sub_self]
        rfl
      have hvalue : readByte (done ++ tag :: value :: rest) (k * 2 + 1) = .ok value := by
        rw [readByte, List.getElem?_append_right (by omega), hdone, Nat.add_sub_cancel_left]
        rfl
      have hloop := ih (done ++ [tag, value]) rest (k + 1) (by simp; omega)
        (by simp only [List.length_cons] at hrest; omega) (c.handlePair tag value).1
        (signals ++ (c.handlePair tag value).2)
      rw [List.append_assoc, List.cons_append, List.cons_append, List.nil_append] at hloop
      rw [List.range'_succ, List.foldlM_cons, handleRound, htag, hvalue]
      refine hloop.trans ?_
      rw [handlePair_eq, messagePairs, List.filterMap_cons, List.filterMap_cons,
        List.append_assoc]
      rcases readyValue (tag, value) <;> rcases pairSignal (tag, value) <;> rfl

/-- `handle_message` never faults: it remembers what the message says about the devices, and
signals what the message says. -/
theorem handleMessage_spec (c : ServiceClient) (buffer : Bytes) :
    c.handleMessage buffer =
      .ok ((readyValues buffer).foldl storeReady c, messageSignals buffer) := by
  rw [handleMessage, readyValues, messageSignals]
  by_cases hempty : buffer = []
  · subst hempty
    rfl
  · rw [if_neg (by simpa using hempty)]
    by_cases hsize : buffer.length % 2 = 0
    · rw [if_neg (not_not.mpr hsize), if_pos hsize, if_pos hsize, List.range_eq_range']
      exact foldlM_handleRound [] buffer 0 (buffer.length / 2) rfl (by omega) c []
    · rw [if_pos hsize, if_neg hsize, if_neg hsize]
      rfl

theorem handle_eq (c : ServiceClient) (buffer : Bytes) :
    c.handle buffer = (readyValues buffer).foldl storeReady c := by
  rw [handle, handleMessage_spec]

theorem handleMessage_eq (c : ServiceClient) (buffer : Bytes) :
    c.handleMessage buffer = .ok (c.handle buffer, messageSignals buffer) := by
  rw [handleMessage_spec, handle_eq]

/-- A message signals that a device is ready, or not, exactly if it says so. -/
theorem ready_mem_messageSignals {buffer : Bytes} {kind : DeviceKind} {v : Bool} :
    .ready kind v ∈ messageSignals buffer ↔ (kind, v) ∈ readyValues buffer := by
  have hpair : ∀ pair, pairSignal pair = some (.ready kind v) ↔
      readyValue pair = some (kind, v) := by
    intro pair
    simp only [pairSignal, decodePair, readyValue]
    rcases Response.ofTag pair.1 with _ | response
    · simp
    · cases response <;> simp [ClientSignal.ofStatus, eq_comm]
  rw [messageSignals, readyValues]
  split
  · simp only [List.mem_filterMap, hpair]
  · simp

/-! ### What is remembered -/

/-- The last value for a device is remembered; without one, nothing changes. -/
theorem lastReady_foldl_storeReady (c : ServiceClient) (values : List (DeviceKind × Bool))
    (kind : DeviceKind) : (values.foldl storeReady c).lastReady kind =
      ((values.filter fun value => value.1 = kind).getLast?.map Prod.snd).or
        (c.lastReady kind) := by
  induction values generalizing c with
  | nil => rfl
  | cons value values ih =>
    rw [List.foldl_cons, ih]
    by_cases hkind : value.1 = kind
    · have hstore : (c.storeReady value).lastReady kind = some value.2 := by
        rw [storeReady, ← hkind]
        exact Function.update_self _ _ _
      rw [List.filter_cons_of_pos (by simpa using hkind), List.getLast?_cons, hstore]
      generalize (values.filter fun value => decide (value.1 = kind)).getLast? = last
      cases last <;> rfl
    · have hstore : (c.storeReady value).lastReady kind = c.lastReady kind :=
        Function.update_of_ne (Ne.symm hkind) _ _
      rw [List.filter_cons_of_neg (by simpa using hkind), hstore]

/-- A device that some value is about has a ready state afterwards. -/
theorem foldl_storeReady_isSome {values : List (DeviceKind × Bool)} {kind : DeviceKind} {v : Bool}
    (c : ServiceClient) (h : (kind, v) ∈ values) :
    ((values.foldl storeReady c).lastReady kind).isSome := by
  have hsome : (values.filter fun value => value.1 = kind).getLast?.isSome := by
    refine List.getLast?_isSome.mpr (List.ne_nil_of_mem (List.mem_filter.mpr ⟨h, ?_⟩))
    exact decide_eq_true rfl
  rw [lastReady_foldl_storeReady, Option.isSome_or, Option.isSome_map, hsome, Bool.true_or]

/-- A device that becomes ready was said to be so. -/
theorem mem_of_foldl_storeReady {values : List (DeviceKind × Bool)} {kind : DeviceKind} {v : Bool}
    {c : ServiceClient} (h : (values.foldl storeReady c).lastReady kind = some v) :
    c.lastReady kind = some v ∨ (kind, v) ∈ values := by
  rw [lastReady_foldl_storeReady] at h
  rcases hlast : (values.filter fun value => value.1 = kind).getLast? with _ | value
  · rw [hlast] at h
    exact Or.inl h
  · rw [hlast] at h
    obtain ⟨hmem, hkind⟩ := List.mem_filter.mp (List.mem_of_getLast? hlast)
    obtain rfl := Option.some.inj h
    obtain rfl := of_decide_eq_true hkind
    exact Or.inr hmem

/-- The same cache with other parameters. -/
def withParameters (q : Option Parameters) (c : ServiceClient) : ServiceClient :=
  { c with lastKeyboardParameters := q }

/-- The parameters do not matter for a message, and a message leaves them alone. -/
theorem handle_withParameters (q : Option Parameters) (c : ServiceClient) (buffer : Bytes) :
    (c.withParameters q).handle buffer = (c.handle buffer).withParameters q := by
  rw [handle_eq, handle_eq]
  exact List.foldl_hom (withParameters q) fun _ _ => rfl

theorem handle_parameters (c : ServiceClient) (buffer : Bytes) :
    (c.handle buffer).lastKeyboardParameters = c.lastKeyboardParameters := by
  have h := handle_withParameters c.lastKeyboardParameters c buffer
  rw [show c.withParameters c.lastKeyboardParameters = c from rfl] at h
  rw [h]
  rfl

/-- The ready states after some messages depend on the ready states before. -/
theorem lastReady_foldl_handle {c d : ServiceClient} (h : c.lastReady = d.lastReady)
    (buffers : List Bytes) :
    (buffers.foldl handle c).lastReady = (buffers.foldl handle d).lastReady := by
  induction buffers generalizing c d with
  | nil => exact h
  | cons buffer buffers ih =>
    have hd : d = c.withParameters d.lastKeyboardParameters := by
      rw [withParameters, h]
    refine ih ?_
    rw [hd, handle_withParameters]
    rfl

/-- What a pair says about a device is its value, if it has the device's tag. -/
theorem readyValue_filter (pair : UInt8 × UInt8) (kind : DeviceKind) :
    (readyValue pair).filter (fun value => value.1 = kind) =
      if pair.1 = kind.readyResponse.tag then some (kind, pair.2 != 0) else none := by
  have htag : pair.1 = kind.readyResponse.tag ↔ Response.ofTag pair.1 = some kind.readyResponse :=
    Response.ofTag_eq_some.symm
  simp only [htag, readyValue]
  rcases Response.ofTag pair.1 with _ | response
  · rfl
  · cases response <;> cases kind <;> rfl

/-- The last pair with a device's tag is remembered. -/
theorem lastReady_handle {buffer : Bytes} (hsize : buffer.length % 2 = 0) (c : ServiceClient)
    (kind : DeviceKind) : (c.handle buffer).lastReady kind =
      (((messagePairs buffer).filter fun pair => pair.1 = kind.readyResponse.tag).getLast?.map
        fun pair => pair.2 != 0).or (c.lastReady kind) := by
  have hvalues : (readyValues buffer).filter (fun value => value.1 = kind) =
      ((messagePairs buffer).filter fun pair => pair.1 = kind.readyResponse.tag).map
        fun pair => (kind, pair.2 != 0) := by
    rw [readyValues, if_pos hsize, List.filter_filterMap, ← List.filterMap_eq_map',
      List.filterMap_filter]
    refine List.filterMap_congr fun pair _ => ?_
    simp only [readyValue_filter, decide_eq_true_eq]
  rw [handle_eq, lastReady_foldl_storeReady, hvalues, List.getLast?_map, Option.map_map]
  rfl

/-! ### Several messages -/

theorem messagePairs_append {b₁ : Bytes} (h : b₁.length % 2 = 0) (b₂ : Bytes) :
    messagePairs (b₁ ++ b₂) = messagePairs b₁ ++ messagePairs b₂ := by
  fun_induction messagePairs b₁ with
  | case1 tag value rest ih =>
    have hrest : rest.length % 2 = 0 := by
      rw [List.length_cons, List.length_cons] at h
      omega
    rw [List.cons_append, List.cons_append, messagePairs, ih hrest, List.cons_append]
  | case2 b₁ hshort =>
    rcases b₁ with _ | ⟨tag, _ | ⟨value, rest⟩⟩
    · rfl
    · cases h
    · exact absurd rfl (hshort tag value rest)

/-- Two messages of even size can be handled as one. -/
theorem handleMessage_append (c : ServiceClient) {b₁ b₂ : Bytes} (h₁ : b₁.length % 2 = 0)
    (h₂ : b₂.length % 2 = 0) : c.handleMessage (b₁ ++ b₂) =
      (c.handleMessage b₁).bind fun s => (s.1.handleMessage b₂).map fun t => (t.1, s.2 ++ t.2) := by
  have hboth : (b₁ ++ b₂).length % 2 = 0 := by
    rw [List.length_append]
    omega
  simp only [handleMessage_spec, readyValues, messageSignals, if_pos h₁, if_pos h₂, if_pos hboth,
    messagePairs_append h₁, List.filterMap_append, List.foldl_append]
  rfl

end ServiceClient

/-! ## The status of the daemon -/

/-- Some statuses in bytes, one `append_response` after the other. -/
def encodeStatuses (statuses : List (Response × Bool)) : Bytes :=
  statuses.foldl (fun buffer pair => appendResponse buffer pair.1 pair.2) []

/-- What `make_response()` says. -/
def Local.statuses (l : Local) : List (Response × Bool) :=
  [(.driverActivated, l.activated),
   (.driverConnected, l.entry.noVirtualDevices.driverConnected),
   (.driverVersionMismatched, l.entry.noVirtualDevices.driverVersionMismatched),
   (.virtualHidKeyboardReady, l.entry.ready .keyboard),
   (.virtualHidPointingReady, l.entry.ready .pointing)]

theorem Local.makeResponse_eq (l : Local) : l.makeResponse = encodeStatuses l.statuses := rfl

theorem encodeStatuses_concat (statuses : List (Response × Bool)) (status : Response × Bool) :
    encodeStatuses (statuses ++ [status]) =
      appendResponse (encodeStatuses statuses) status.1 status.2 := List.foldl_concat ..

theorem length_encodeStatuses (statuses : List (Response × Bool)) :
    (encodeStatuses statuses).length % 2 = 0 := by
  induction statuses using List.reverseRecOn with
  | nil => rfl
  | append_singleton statuses status ih =>
    rw [encodeStatuses_concat, appendResponse, List.length_append, List.length_cons,
      List.length_singleton]
    omega

theorem toUInt8_bne_zero (b : Bool) : (b.toUInt8 != 0) = b := by
  cases b <;> rfl

namespace ServiceClient

/-- The bytes of any statuses are read as these statuses. -/
theorem messagePairs_encodeStatuses (statuses : List (Response × Bool)) :
    messagePairs (encodeStatuses statuses) =
      statuses.map fun status => (status.1.tag, status.2.toUInt8) := by
  induction statuses using List.reverseRecOn with
  | nil => rfl
  | append_singleton statuses status ih =>
    rw [encodeStatuses_concat, appendResponse,
      messagePairs_append (length_encodeStatuses statuses), ih, List.map_append]
    rfl

/-- The encoder and the decoder agree: the statuses that were encoded are signalled, in order. -/
theorem messageSignals_encodeStatuses (statuses : List (Response × Bool)) :
    messageSignals (encodeStatuses statuses) = statuses.filterMap ClientSignal.ofStatus := by
  rw [messageSignals, if_pos (length_encodeStatuses statuses), messagePairs_encodeStatuses,
    List.filterMap_map]
  refine List.filterMap_congr fun status _ => ?_
  have htag : Response.ofTag status.1.tag = some status.1 := Response.ofTag_eq_some.mpr rfl
  simp only [Function.comp_apply, pairSignal, decodePair, htag, Option.map_some,
    toUInt8_bne_zero]

/-- A status sets both ready states, and nothing else. -/
theorem handle_status (c : ServiceClient) (l : Local) : c.handle l.makeResponse =
    ⟨fun kind => some (l.entry.ready kind), c.lastKeyboardParameters⟩ := by
  have hvalues : readyValues l.makeResponse =
      [(.keyboard, (l.entry.ready .keyboard).toUInt8 != 0),
       (.pointing, (l.entry.ready .pointing).toUInt8 != 0)] := by
    rw [readyValues, Local.makeResponse_eq, if_pos (length_encodeStatuses _),
      messagePairs_encodeStatuses]
    rfl
  have hready : Function.update (Function.update c.lastReady .keyboard
      (some (l.entry.ready .keyboard))) .pointing (some (l.entry.ready .pointing)) =
      fun kind => some (l.entry.ready kind) := by
    funext kind
    cases kind <;> rfl
  rw [handle_eq, hvalues, toUInt8_bne_zero, toUInt8_bne_zero, ← hready]
  rfl

end ServiceClient

open ServiceClient in
/-- Messages decode to what was encoded. Whatever the bytes are, no read is out of bounds: a
message of odd size changes nothing and is warned about, a message of even size is signalled
pair by pair, and the last value for a device is remembered. Messages of even size can be
joined. The status of the daemon is signalled as its five values. -/
theorem status_message_decodes (c : ServiceClient) :
    (∀ buffer, ∃ d signals, c.handleMessage buffer = .ok (d, signals) ∧
      (buffer.length % 2 = 1 → d = c ∧ signals = [.warningReported .invalidSize]) ∧
      (buffer.length % 2 = 0 →
        signals = (messagePairs buffer).filterMap pairSignal ∧
        d.lastKeyboardParameters = c.lastKeyboardParameters ∧
        ∀ kind, d.lastReady kind =
          (((messagePairs buffer).filter fun pair => pair.1 = kind.readyResponse.tag).getLast?.map
            fun pair => pair.2 != 0).or (c.lastReady kind))) ∧
    (∀ b₁ b₂ : Bytes, b₁.length % 2 = 0 → b₂.length % 2 = 0 → c.handleMessage (b₁ ++ b₂) =
      (c.handleMessage b₁).bind fun s =>
        (s.1.handleMessage b₂).map fun t => (t.1, s.2 ++ t.2)) ∧
    ∀ l : Local, c.handleMessage l.makeResponse =
      .ok (⟨fun kind => some (l.entry.ready kind), c.lastKeyboardParameters⟩,
        [.driverActivated l.activated,
         .driverConnected l.entry.noVirtualDevices.driverConnected,
         .driverVersionMismatched l.entry.noVirtualDevices.driverVersionMismatched,
         .ready .keyboard (l.entry.ready .keyboard),
         .ready .pointing (l.entry.ready .pointing)]) := by
  refine ⟨fun buffer => ?_, fun b₁ b₂ h₁ h₂ => handleMessage_append c h₁ h₂, fun l => ?_⟩
  · refine ⟨c.handle buffer, messageSignals buffer, handleMessage_eq c buffer, ?_, ?_⟩
    · intro hodd
      have hsize : ¬ buffer.length % 2 = 0 := by omega
      rw [handle_eq, readyValues, messageSignals, if_neg hsize, if_neg hsize]
      exact ⟨rfl, rfl⟩
    · intro hsize
      refine ⟨if_pos hsize, handle_parameters c buffer, fun kind => ?_⟩
      exact lastReady_handle hsize c kind
  · rw [handleMessage_eq, handle_status, Local.makeResponse_eq, messageSignals_encodeStatuses]
    rfl

open ServiceClient in
/-- A message with an unknown tag and two values for the keyboard: the scan goes on behind the
unknown tag, and the second value is remembered. -/
theorem unknown_tag_skipped : ∃ d, handleMessage {} [4, 1, 9, 7, 4, 0, 0, 1, 5, 2] =
      .ok (d, [.ready .keyboard true, .warningReported .unknownMessage, .ready .keyboard false,
        .ready .pointing true]) ∧
    d.lastReady .keyboard = some false ∧ d.lastReady .pointing = some true := by
  obtain ⟨d, signals, hok, -, heven⟩ :=
    (status_message_decodes {}).1 [4, 1, 9, 7, 4, 0, 0, 1, 5, 2]
  obtain ⟨hsignals, -, hready⟩ := heven rfl
  rw [hok, hsignals]
  exact ⟨d, rfl, hready .keyboard, hready .pointing⟩

end VirtualHidDevice
