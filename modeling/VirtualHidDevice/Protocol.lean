import VirtualHidDevice.HidReport

/-!
# The request format

The bytes that travel from `virtual_hid_device_service::client` to
`virtual_hid_device_service_server`, on both sides of the socket.

* `Request`, `Response`, `UserClientMethod` — the enumerations of the source.
* `Parameters` — `virtual_hid_keyboard_parameters`, three 64-bit values.
* `makeRequestBuffer` — the client's encoder, `append_data` by `append_data`.
* `requestReceived` — the handler of the server. Every read and every
  subtraction of sizes is checked: one that C++ leaves undefined, or that wraps
  around, is a `Fault`.
* `ManagerCall.onEntry` — what a call on the clients manager does before it
  looks at an io service client: find the entry, check the report's size.

The main result is `request_format`: the handler never faults, answers exactly
once, undoes the encoder, and reaches an entry only for a well-formed buffer.
-/

namespace VirtualHidDevice

/-! ## Enumerations -/

/-- `virtual_hid_device_service::request`, in the order of the source. -/
inductive Request where
  /-- `virtual_hid_keyboard_initialize` -/
  | virtualHidKeyboardInitialize
  /-- `virtual_hid_keyboard_terminate` -/
  | virtualHidKeyboardTerminate
  /-- `virtual_hid_keyboard_reset` -/
  | virtualHidKeyboardReset
  /-- `virtual_hid_pointing_initialize` -/
  | virtualHidPointingInitialize
  /-- `virtual_hid_pointing_terminate` -/
  | virtualHidPointingTerminate
  /-- `virtual_hid_pointing_reset` -/
  | virtualHidPointingReset
  /-- `post_keyboard_input_report` -/
  | postKeyboardInputReport
  /-- `post_consumer_input_report` -/
  | postConsumerInputReport
  /-- `post_apple_vendor_keyboard_input_report` -/
  | postAppleVendorKeyboardInputReport
  /-- `post_apple_vendor_top_case_input_report` -/
  | postAppleVendorTopCaseInputReport
  /-- `post_generic_desktop_input_report` -/
  | postGenericDesktopInputReport
  /-- `post_pointing_input_report` -/
  | postPointingInputReport
deriving DecidableEq, Repr

namespace Request

/-- The requests in the order of their underlying values. -/
def all : List Request :=
  [virtualHidKeyboardInitialize, virtualHidKeyboardTerminate, virtualHidKeyboardReset,
   virtualHidPointingInitialize, virtualHidPointingTerminate, virtualHidPointingReset,
   postKeyboardInputReport, postConsumerInputReport, postAppleVendorKeyboardInputReport,
   postAppleVendorTopCaseInputReport, postGenericDesktopInputReport, postPointingInputReport]

/-- `std::to_underlying(request)`. -/
def tag (request : Request) : UInt8 := UInt8.ofNat (all.idxOf request)

/-- The `case` a byte selects in the handler's `switch`, none for `default`. -/
def ofTag (byte : UInt8) : Option Request := all[byte.toNat]?

theorem ofTag_tag (request : Request) : ofTag request.tag = some request := by
  cases request <;> rfl

/-- A byte that selects a case is that case's underlying value. -/
theorem tag_of_ofTag {byte : UInt8} {request : Request} (h : ofTag byte = some request) :
    byte = request.tag := by
  obtain ⟨hlt, hget⟩ := List.getElem?_eq_some_iff.mp h
  have hnodup : all.Nodup := by decide
  have hidx : all.idxOf request = byte.toNat := by
    rw [← hget]
    exact hnodup.idxOf_getElem byte.toNat hlt
  rw [tag, hidx]
  exact (UInt8.ofNat_toNat).symm

end Request

/-- `virtual_hid_device_driver::user_client_method`, in the order of the source. -/
inductive UserClientMethod where
  /-- `driver_version` -/
  | driverVersion
  /-- `virtual_hid_keyboard_initialize` -/
  | virtualHidKeyboardInitialize
  /-- `virtual_hid_keyboard_ready` -/
  | virtualHidKeyboardReady
  /-- `virtual_hid_keyboard_post_report` -/
  | virtualHidKeyboardPostReport
  /-- `virtual_hid_keyboard_reset` -/
  | virtualHidKeyboardReset
  /-- `virtual_hid_pointing_initialize` -/
  | virtualHidPointingInitialize
  /-- `virtual_hid_pointing_ready` -/
  | virtualHidPointingReady
  /-- `virtual_hid_pointing_post_report` -/
  | virtualHidPointingPostReport
  /-- `virtual_hid_pointing_reset` -/
  | virtualHidPointingReset
deriving DecidableEq, Repr

/-- The two devices a client can ask for. -/
inductive DeviceKind where
  /-- the virtual keyboard -/
  | keyboard
  /-- the virtual pointing device -/
  | pointing
deriving DecidableEq, Repr

/-- `client_protocol_version::embedded_client_protocol_version`. -/
def embeddedClientProtocolVersion : UInt16 := 7

/-! ## Keyboard parameters -/

/-- `virtual_hid_device_service::virtual_hid_keyboard_parameters`. -/
@[ext] structure Parameters where
  /-- `vendor_id_` -/
  vendorId : UInt64
  /-- `product_id_` -/
  productId : UInt64
  /-- `country_code_` -/
  countryCode : UInt64
deriving DecidableEq, Repr

namespace Parameters

/-- The default constructor; `country_code::not_supported` is zero. -/
def init : Parameters := ⟨0x16c0, 0x27db, 0⟩

/-- The 24 bytes of the structure in memory. -/
def bytes (p : Parameters) : Bytes :=
  LittleEndian.bytes 8 p.vendorId.toNat ++ LittleEndian.bytes 8 p.productId.toNat ++
    LittleEndian.bytes 8 p.countryCode.toNat

/-- The structure whose memory holds the given bytes. -/
def ofBytes (bs : Bytes) : Parameters :=
  ⟨UInt64.ofNat (LittleEndian.value (bs.take 8)),
   UInt64.ofNat (LittleEndian.value ((bs.drop 8).take 8)),
   UInt64.ofNat (LittleEndian.value ((bs.drop 16).take 8))⟩

@[simp] theorem length_bytes (p : Parameters) : p.bytes.length = 24 := by
  simp [bytes]

theorem ofNat_value_bytes (n : UInt64) :
    UInt64.ofNat (LittleEndian.value (LittleEndian.bytes 8 n.toNat)) = n := by
  have hlt : n.toNat < 256 ^ 8 := n.toNat_lt
  rw [LittleEndian.value_bytes, Nat.mod_eq_of_lt hlt, UInt64.ofNat_toNat]

/-- Copying the parameters into a buffer and back gives them back. -/
theorem ofBytes_bytes (p : Parameters) : ofBytes p.bytes = p := by
  obtain ⟨v, q, c⟩ := p
  have htake : (bytes ⟨v, q, c⟩).take 8 = LittleEndian.bytes 8 v.toNat := by
    simp [bytes]
  have hmid : ((bytes ⟨v, q, c⟩).drop 8).take 8 = LittleEndian.bytes 8 q.toNat := by
    simp [bytes]
  have hlast : ((bytes ⟨v, q, c⟩).drop 16).take 8 = LittleEndian.bytes 8 c.toNat := by
    rw [bytes, List.drop_left' (by simp)]
    exact List.take_of_length_le (by simp)
  rw [ofBytes, htake, hmid, hlast, ofNat_value_bytes, ofNat_value_bytes, ofNat_value_bytes]

end Parameters

/-! ## The client's side -/

/-- The argument of the six overloads of `async_post_report`. -/
inductive Report where
  /-- `keyboard_input` -/
  | keyboard (report : KeyboardInput)
  /-- `consumer_input` -/
  | consumer (report : KeysInput)
  /-- `apple_vendor_keyboard_input` -/
  | appleVendorKeyboard (report : KeysInput)
  /-- `apple_vendor_top_case_input` -/
  | appleVendorTopCase (report : KeysInput)
  /-- `generic_desktop_input` -/
  | genericDesktop (report : KeysInput)
  /-- `pointing_input` -/
  | pointing (report : PointingInput)

namespace Report

/-- The request an overload sends. -/
def request : Report → Request
  | keyboard _ => .postKeyboardInputReport
  | consumer _ => .postConsumerInputReport
  | appleVendorKeyboard _ => .postAppleVendorKeyboardInputReport
  | appleVendorTopCase _ => .postAppleVendorTopCaseInputReport
  | genericDesktop _ => .postGenericDesktopInputReport
  | pointing _ => .postPointingInputReport

/-- The bytes of the report structure. -/
def bytes : Report → Bytes
  | keyboard r => r.bytes
  | consumer r => r.bytes
  | appleVendorKeyboard r => r.bytes
  | appleVendorTopCase r => r.bytes
  | genericDesktop r => r.bytes
  | pointing r => r.bytes

/-- The device a report is for. -/
def kind : Report → DeviceKind
  | pointing _ => .pointing
  | _ => .keyboard

end Report

/-- `append_data`: resize and `memcpy`. -/
def appendData (buffer data : Bytes) : Bytes := buffer ++ data

/-- `make_request_buffer(request_type)`. -/
def makeRequestBuffer (request : Request) : Bytes :=
  appendData (appendData [] (LittleEndian.bytes 2 embeddedClientProtocolVersion.toNat))
    [request.tag]

/-- `make_request_buffer(request_type, data)`, `data` given by its bytes. -/
def makeRequestBufferWith (request : Request) (data : Bytes) : Bytes :=
  appendData (makeRequestBuffer request) data

/-- An operation of the client that is sent to the daemon. -/
inductive ClientOperation where
  /-- `async_virtual_hid_keyboard_initialize(parameters)` -/
  | keyboardInitialize (parameters : Parameters)
  /-- `async_virtual_hid_keyboard_terminate()` -/
  | keyboardTerminate
  /-- `async_virtual_hid_keyboard_reset()` -/
  | keyboardReset
  /-- `async_virtual_hid_pointing_initialize()` -/
  | pointingInitialize
  /-- `async_virtual_hid_pointing_terminate()` -/
  | pointingTerminate
  /-- `async_virtual_hid_pointing_reset()` -/
  | pointingReset
  /-- `async_post_report(report)` -/
  | postReport (report : Report)

/-- The buffer the operation passes to `async_request`. -/
def ClientOperation.requestBuffer : ClientOperation → Bytes
  | keyboardInitialize p => makeRequestBufferWith .virtualHidKeyboardInitialize p.bytes
  | keyboardTerminate => makeRequestBuffer .virtualHidKeyboardTerminate
  | keyboardReset => makeRequestBuffer .virtualHidKeyboardReset
  | pointingInitialize => makeRequestBuffer .virtualHidPointingInitialize
  | pointingTerminate => makeRequestBuffer .virtualHidPointingTerminate
  | pointingReset => makeRequestBuffer .virtualHidPointingReset
  | postReport r => makeRequestBufferWith r.request r.bytes

/-! ## Checked memory operations -/

/-- What C++ would not report: a read outside the buffer, or a `size_t`
subtraction below zero. -/
inductive Fault where
  /-- a read past the end of the buffer -/
  | outOfBounds
  /-- `a - b` with `a < b` on `size_t` -/
  | underflow
deriving DecidableEq, Repr

/-- `a - b` on `size_t`. -/
def subSize (a b : ℕ) : Except Fault ℕ := if b ≤ a then .ok (a - b) else .error .underflow

/-- `std::memcpy` of `n` bytes out of `buffer`, starting at `offset`. -/
def memcpy (buffer : Bytes) (offset n : ℕ) : Except Fault Bytes :=
  if offset + n ≤ buffer.length then .ok ((buffer.drop offset).take n) else .error .outOfBounds

/-- `read_data` for a value of `n` bytes: the bytes and the advanced offset,
none if the buffer is too short. -/
def readData (n : ℕ) (buffer : Bytes) (offset : ℕ) : Except Fault (Option (Bytes × ℕ)) :=
  if offset > buffer.length then .ok none
  else (subSize buffer.length offset).bind fun rest =>
    if rest < n then .ok none
    else (memcpy buffer offset n).bind fun data => .ok (some (data, offset + n))

theorem subSize_of_le {a b : ℕ} (h : b ≤ a) : subSize a b = .ok (a - b) := if_pos h

theorem memcpy_of_le {buffer : Bytes} {offset n : ℕ} (h : offset + n ≤ buffer.length) :
    memcpy buffer offset n = .ok ((buffer.drop offset).take n) := if_pos h

/-- `read_data` never faults; it fails exactly on a short buffer. -/
theorem readData_eq (n : ℕ) (buffer : Bytes) (offset : ℕ) :
    readData n buffer offset = .ok (if offset + n ≤ buffer.length then
      some ((buffer.drop offset).take n, offset + n) else none) := by
  by_cases hoff : offset > buffer.length
  · rw [readData, if_pos hoff, if_neg (by omega)]
  · rw [readData, if_neg hoff, subSize_of_le (by omega)]
    by_cases hn : buffer.length - offset < n
    · simp only [Except.bind, if_pos hn]
      rw [if_neg (by omega)]
    · have hle : offset + n ≤ buffer.length := by omega
      simp only [Except.bind, if_neg hn, memcpy_of_le hle, if_pos hle]

/-! ## The server's side -/

/-- A call on the clients manager that the handler makes for one peer. The name
of the report, used for logging only, is left out. -/
inductive ManagerCall where
  /-- `initialize_keyboard(peer_id, parameters)` -/
  | initializeKeyboard (parameters : Parameters)
  /-- `terminate_keyboard(peer_id)` -/
  | terminateKeyboard
  /-- `virtual_hid_keyboard_reset(peer_id)` -/
  | virtualHidKeyboardReset
  /-- `initialize_pointing(peer_id)` -/
  | initializePointing
  /-- `terminate_pointing(peer_id)` -/
  | terminatePointing
  /-- `virtual_hid_pointing_reset(peer_id)` -/
  | virtualHidPointingReset
  /-- `post_keyboard_report` -/
  | postKeyboardReport (buffer : Bytes) (reportOffset : ℕ) (method : UserClientMethod)
      (expectedSize : ℕ)
  /-- `post_pointing_report` -/
  | postPointingReport (buffer : Bytes) (reportOffset : ℕ) (method : UserClientMethod)
      (expectedSize : ℕ)
deriving DecidableEq, Repr

/-- What the server passes to `async_respond`. -/
inductive Reply where
  /-- `{}` -/
  | empty
  /-- `make_response(peer_id)` of the clients manager -/
  | status
deriving DecidableEq, Repr

/-- What the handler does, in order. -/
inductive ServerCall where
  /-- a call on the clients manager -/
  | manager (call : ManagerCall)
  /-- a call of `server_->async_respond` -/
  | respond (reply : Reply)
deriving DecidableEq, Repr

/-- `sizeof(virtual_hid_keyboard_parameters)` -/
def sizeofParameters : ℕ := 24
/-- `sizeof(hid_report::keyboard_input)` -/
def sizeofKeyboardInput : ℕ := 67
/-- `sizeof` of the four structures with a report id and `keys` -/
def sizeofKeysInput : ℕ := 65
/-- `sizeof(hid_report::pointing_input)` -/
def sizeofPointingInput : ℕ := 8

/-- `server_->async_respond`, skipped when `server_` is null. -/
def respondIf (server : Bool) (reply : Reply) : List ServerCall :=
  if server then [.respond reply] else []

/-- The `switch` of the handler, with the offset behind the common data. -/
def handleRequest (server : Bool) (buffer : Bytes) (offset : ℕ) :
    Option Request → Except Fault (List ServerCall)
  -- the only request whose payload is read here; the manager looks at the size of reports
  | some .virtualHidKeyboardInitialize =>
    (subSize buffer.length offset).bind fun payloadSize =>
      if sizeofParameters ≠ payloadSize then .ok (respondIf server .empty)
      else (memcpy buffer offset sizeofParameters).bind fun data =>
        .ok (.manager (.initializeKeyboard (Parameters.ofBytes data)) :: respondIf server .status)
  | some .virtualHidKeyboardTerminate =>
    .ok (.manager .terminateKeyboard :: respondIf server .status)
  | some .virtualHidKeyboardReset =>
    .ok (.manager .virtualHidKeyboardReset :: respondIf server .status)
  | some .virtualHidPointingInitialize =>
    .ok (.manager .initializePointing :: respondIf server .status)
  | some .virtualHidPointingTerminate =>
    .ok (.manager .terminatePointing :: respondIf server .status)
  | some .virtualHidPointingReset =>
    .ok (.manager .virtualHidPointingReset :: respondIf server .status)
  | some .postKeyboardInputReport =>
    .ok (.manager (.postKeyboardReport buffer offset .virtualHidKeyboardPostReport
      sizeofKeyboardInput) :: respondIf server .empty)
  | some .postConsumerInputReport =>
    .ok (.manager (.postKeyboardReport buffer offset .virtualHidKeyboardPostReport
      sizeofKeysInput) :: respondIf server .empty)
  | some .postAppleVendorKeyboardInputReport =>
    .ok (.manager (.postKeyboardReport buffer offset .virtualHidKeyboardPostReport
      sizeofKeysInput) :: respondIf server .empty)
  | some .postAppleVendorTopCaseInputReport =>
    .ok (.manager (.postKeyboardReport buffer offset .virtualHidKeyboardPostReport
      sizeofKeysInput) :: respondIf server .empty)
  | some .postGenericDesktopInputReport =>
    .ok (.manager (.postKeyboardReport buffer offset .virtualHidKeyboardPostReport
      sizeofKeysInput) :: respondIf server .empty)
  | some .postPointingInputReport =>
    .ok (.manager (.postPointingReport buffer offset .virtualHidPointingPostReport
      sizeofPointingInput) :: respondIf server .empty)
  | none => .ok (respondIf server .empty)

/-- The `request_received` handler: `server` tells whether `server_` is set. -/
def requestReceived (server : Bool) (buffer : Bytes) : Except Fault (List ServerCall) :=
  if buffer.isEmpty then .ok (respondIf server .empty)
  else (readData 2 buffer 0).bind fun
    | none => .ok (respondIf server .empty)
    | some (version, offset) => (readData 1 buffer offset).bind fun
      | none => .ok (respondIf server .empty)
      | some (request, offset) =>
        if LittleEndian.value version ≠ embeddedClientProtocolVersion.toNat then
          .ok (respondIf server .empty)
        else handleRequest server buffer offset
          (Request.ofTag (UInt8.ofNat (LittleEndian.value request)))

/-! ## The clients manager -/

/-- What a manager call does to the peer's entry, if there is one: a method of
`client_entry`, or a call through one of its io service clients. -/
inductive EntryCall where
  /-- `initialize_keyboard(parameters)` -/
  | initializeKeyboard (parameters : Parameters)
  /-- `terminate_keyboard()` -/
  | terminateKeyboard
  /-- `initialize_pointing()` -/
  | initializePointing
  /-- `terminate_pointing()` -/
  | terminatePointing
  /-- `async_virtual_hid_keyboard_reset` or `async_virtual_hid_pointing_reset` -/
  | reset (kind : DeviceKind)
  /-- `async_post_report` on the kind's io service client -/
  | postReport (kind : DeviceKind) (method : UserClientMethod) (buffer : Bytes)
      (reportOffset : ℕ)
deriving DecidableEq, Repr

/-- The checks of `post_report` that precede the lookup of the entry. -/
def postReport (kind : DeviceKind) (buffer : Bytes) (reportOffset : ℕ)
    (method : UserClientMethod) (expectedSize : ℕ) : Except Fault (Option EntryCall) :=
  if reportOffset > buffer.length then .ok none
  else (subSize buffer.length reportOffset).bind fun reportSize =>
    if expectedSize ≠ reportSize then .ok none
    else .ok (some (.postReport kind method buffer reportOffset))

/-- What the methods of the clients manager ask of the peer's entry. -/
def ManagerCall.onEntry : ManagerCall → Except Fault (Option EntryCall)
  | initializeKeyboard p => .ok (some (.initializeKeyboard p))
  | terminateKeyboard => .ok (some .terminateKeyboard)
  | virtualHidKeyboardReset => .ok (some (.reset .keyboard))
  | initializePointing => .ok (some .initializePointing)
  | terminatePointing => .ok (some .terminatePointing)
  | virtualHidPointingReset => .ok (some (.reset .pointing))
  | postKeyboardReport buffer offset method size => postReport .keyboard buffer offset method size
  | postPointingReport buffer offset method size => postReport .pointing buffer offset method size

/-- The entry calls of a handler run, in order. -/
def entryCalls : List ServerCall → Except Fault (List EntryCall)
  | [] => .ok []
  | .manager call :: calls => call.onEntry.bind fun entryCall =>
    (entryCalls calls).bind fun rest => .ok (entryCall.toList ++ rest)
  | .respond _ :: calls => entryCalls calls

/-- The replies of a handler run, in order. -/
def replies (calls : List ServerCall) : List Reply :=
  calls.filterMap fun
    | .manager _ => none
    | .respond reply => some reply

/-- The report that the task of `io_service_client::async_post_report` hands to
the driver: the rest of the buffer, none if the offset is behind its end. -/
def reportData (buffer : Bytes) (reportOffset : ℕ) : Except Fault (Option Bytes) :=
  if reportOffset > buffer.length then .ok none
  else (subSize buffer.length reportOffset).bind fun reportSize =>
    (memcpy buffer reportOffset reportSize).bind fun report => .ok (some report)

/-- The checks of `async_post_report` make its read safe. -/
theorem reportData_eq (buffer : Bytes) (offset : ℕ) :
    reportData buffer offset =
      .ok (if offset > buffer.length then none else some (buffer.drop offset)) := by
  by_cases hoff : offset > buffer.length
  · rw [reportData, if_pos hoff, if_pos hoff]
  · have hle : offset + (buffer.length - offset) ≤ buffer.length := by omega
    rw [reportData, if_neg hoff, if_neg hoff, subSize_of_le (by omega)]
    simp only [Except.bind, memcpy_of_le hle]
    rw [List.take_of_length_le (by simp)]

/-! ## The format as one statement -/

/-- The payload a request must carry; none where the handler does not look at it. -/
def Request.payloadSize : Request → Option ℕ
  | virtualHidKeyboardInitialize => some 24
  | postKeyboardInputReport => some 67
  | postConsumerInputReport => some 65
  | postAppleVendorKeyboardInputReport => some 65
  | postAppleVendorTopCaseInputReport => some 65
  | postGenericDesktopInputReport => some 65
  | postPointingInputReport => some 8
  | _ => none

/-- A management request is answered with the status. -/
def Request.isManagement : Request → Bool
  | virtualHidKeyboardInitialize => true
  | virtualHidKeyboardTerminate => true
  | virtualHidKeyboardReset => true
  | virtualHidPointingInitialize => true
  | virtualHidPointingTerminate => true
  | virtualHidPointingReset => true
  | _ => false

/-- The buffers of a request: the protocol version, the tag, and a payload of
the size the request asks for. -/
def WellFormed (request : Request) (buffer : Bytes) : Prop :=
  ∃ payload, buffer = [7, 0, request.tag] ++ payload ∧
    ∀ size, request.payloadSize = some size → payload.length = size

/-- The manager call that an operation of the client is meant to cause. -/
def ClientOperation.managerCall : ClientOperation → ManagerCall
  | keyboardInitialize p => .initializeKeyboard p
  | keyboardTerminate => .terminateKeyboard
  | keyboardReset => .virtualHidKeyboardReset
  | pointingInitialize => .initializePointing
  | pointingTerminate => .terminatePointing
  | pointingReset => .virtualHidPointingReset
  | postReport (.pointing r) => .postPointingReport (postReport (.pointing r)).requestBuffer 3
      .virtualHidPointingPostReport r.bytes.length
  | postReport r => .postKeyboardReport (postReport r).requestBuffer 3
      .virtualHidKeyboardPostReport r.bytes.length

/-- What the operation is meant to ask of the peer's entry. -/
def ClientOperation.entryCall : ClientOperation → EntryCall
  | keyboardInitialize p => .initializeKeyboard p
  | keyboardTerminate => .terminateKeyboard
  | keyboardReset => .reset .keyboard
  | pointingInitialize => .initializePointing
  | pointingTerminate => .terminatePointing
  | pointingReset => .reset .pointing
  | postReport (.pointing r) => .postReport .pointing .virtualHidPointingPostReport
      (postReport (.pointing r)).requestBuffer 3
  | postReport r => .postReport .keyboard .virtualHidKeyboardPostReport
      (postReport r).requestBuffer 3

/-- The reply an operation gets: reports are answered with an empty buffer. -/
def ClientOperation.reply : ClientOperation → Reply
  | postReport _ => .empty
  | _ => .status

/-- The `switch` argument that the common data selects: none when the handler
leaves before the `switch` or reaches `default`. -/
def selected : Bytes → Option Request
  | v₀ :: v₁ :: t :: _ =>
    if LittleEndian.value [v₀, v₁] = embeddedClientProtocolVersion.toNat then Request.ofTag t
    else none
  | _ => none

/-- All the exits before the `switch` do what its `default` does. -/
theorem requestReceived_eq (server : Bool) (buffer : Bytes) :
    requestReceived server buffer = handleRequest server buffer 3 (selected buffer) := by
  match buffer with
  | [] => rfl
  | [v₀] =>
    simp only [requestReceived, readData_eq]
    rfl
  | [v₀, v₁] =>
    simp only [requestReceived, readData_eq]
    rfl
  | v₀ :: v₁ :: t :: payload =>
    have htag : UInt8.ofNat (LittleEndian.value [t]) = t := by
      simp [LittleEndian.value]
    simp only [requestReceived, readData_eq, selected, Except.bind]
    by_cases hv : LittleEndian.value [v₀, v₁] = embeddedClientProtocolVersion.toNat
    · simp [hv, htag]
    · simp [hv, handleRequest]

/-- The handler makes at most one manager call, and then replies once. -/
theorem requestReceived_calls (server : Bool) (buffer : Bytes) :
    ∃ (call : Option ManagerCall) (reply : Reply), requestReceived server buffer =
      .ok ((call.map ServerCall.manager).toList ++ respondIf server reply) := by
  rw [requestReceived_eq]
  rcases hsel : selected buffer with _ | request
  · exact ⟨none, .empty, rfl⟩
  · have hlen : 3 ≤ buffer.length := by
      match buffer, hsel with
      | _ :: _ :: _ :: _, _ => simp
    cases request with
    | virtualHidKeyboardInitialize =>
      rw [handleRequest, subSize_of_le hlen]
      simp only [Except.bind]
      by_cases hsize : sizeofParameters ≠ buffer.length - 3
      · rw [if_pos hsize]
        exact ⟨none, .empty, rfl⟩
      · rw [if_neg hsize, memcpy_of_le (by omega)]
        exact ⟨some (.initializeKeyboard _), .status, rfl⟩
    | virtualHidKeyboardTerminate | virtualHidKeyboardReset | virtualHidPointingInitialize
    | virtualHidPointingTerminate | virtualHidPointingReset => exact ⟨some _, .status, rfl⟩
    | _ => exact ⟨some _, .empty, rfl⟩

/-- Two bytes with the value seven are the encoded protocol version. -/
theorem version_bytes {v₀ v₁ : UInt8}
    (h : LittleEndian.value [v₀, v₁] = embeddedClientProtocolVersion.toNat) :
    v₀ = 7 ∧ v₁ = 0 := by
  have hb := LittleEndian.bytes_value [v₀, v₁]
  rw [h] at hb
  have hcons : [v₀, v₁] = [7, 0] := hb.symm
  exact ⟨(List.cons.inj hcons).1, (List.cons.inj (List.cons.inj hcons).2).1⟩

/-- A buffer selects a request exactly when it starts with the protocol version
and the request's tag. -/
theorem selected_eq_some {buffer : Bytes} {request : Request} :
    selected buffer = some request ↔ ∃ payload, buffer = [7, 0, request.tag] ++ payload := by
  refine ⟨fun h => ?_, ?_⟩
  · match buffer with
    | [] => cases h
    | [_] => cases h
    | [_, _] => cases h
    | v₀ :: v₁ :: t :: payload =>
      rw [selected] at h
      split at h
      next hv =>
        obtain ⟨rfl, rfl⟩ := version_bytes hv
        obtain rfl := Request.tag_of_ofTag h
        exact ⟨payload, rfl⟩
      next => cases h
  · rintro ⟨payload, rfl⟩
    exact Request.ofTag_tag request

/-- The encoder writes the common data that selects its request. -/
theorem makeRequestBufferWith_eq (request : Request) (data : Bytes) :
    makeRequestBufferWith request data = [7, 0, request.tag] ++ data := rfl

/-- The handler run on an encoded operation makes the operation's manager call
and answers once. -/
theorem requestReceived_requestBuffer (server : Bool) (op : ClientOperation) :
    requestReceived server op.requestBuffer =
      .ok (.manager op.managerCall :: respondIf server op.reply) := by
  rw [requestReceived_eq]
  cases op with
  | keyboardInitialize p =>
    have hsel : selected (ClientOperation.keyboardInitialize p).requestBuffer =
        some .virtualHidKeyboardInitialize := selected_eq_some.mpr ⟨p.bytes, rfl⟩
    have hlen : (ClientOperation.keyboardInitialize p).requestBuffer.length = 27 := by
      simp [ClientOperation.requestBuffer, makeRequestBufferWith_eq]
    have hdata : ((ClientOperation.keyboardInitialize p).requestBuffer.drop 3).take
        sizeofParameters = p.bytes := by
      rw [ClientOperation.requestBuffer, makeRequestBufferWith_eq]
      exact List.take_of_length_le (by simp [sizeofParameters])
    rw [hsel, handleRequest, subSize_of_le (by omega)]
    simp only [Except.bind, hlen]
    rw [if_neg (by decide), memcpy_of_le (by rw [hlen]; decide)]
    simp only [hdata, Parameters.ofBytes_bytes]
    rfl
  | postReport r =>
    have hsel : selected (ClientOperation.postReport r).requestBuffer = some r.request :=
      selected_eq_some.mpr ⟨r.bytes, rfl⟩
    rw [hsel]
    -- each overload is its own case of the `switch`, with its own expected size
    cases r <;>
      simp [Report.request, Report.bytes, handleRequest, ClientOperation.managerCall,
        ClientOperation.reply, sizeofKeyboardInput, sizeofKeysInput, sizeofPointingInput]
  | _ => rfl

/-- The size check of the manager passes on an encoded report, so that the
operation's entry call is made. -/
theorem managerCall_onEntry (op : ClientOperation) :
    op.managerCall.onEntry = .ok (some op.entryCall) := by
  have hpost : ∀ (kind : DeviceKind) (request : Request) (method : UserClientMethod)
      (data : Bytes), postReport kind (makeRequestBufferWith request data) 3 method data.length =
        .ok (some (.postReport kind method (makeRequestBufferWith request data) 3)) := by
    intro kind request method data
    have hlen : (makeRequestBufferWith request data).length = data.length + 3 := rfl
    rw [postReport, if_neg (by omega), subSize_of_le (by omega)]
    simp [Except.bind, hlen]
  cases op with
  | postReport r => cases r <;> exact hpost _ _ _ _
  | _ => rfl

/-- The task of `async_post_report` hands the report's own bytes to the driver. -/
theorem reportData_requestBuffer (r : Report) :
    reportData (ClientOperation.postReport r).requestBuffer 3 = .ok (some r.bytes) := by
  rw [reportData_eq, ClientOperation.requestBuffer, makeRequestBufferWith_eq]
  rw [if_neg (by simp)]
  rfl

/-- The manager's check of a report's size, behind the common data. -/
theorem postReport_append {kind : DeviceKind} {common payload : Bytes} {method : UserClientMethod}
    {size : ℕ} (hcommon : common.length = 3) :
    postReport kind (common ++ payload) 3 method size =
      .ok (if payload.length = size then
        some (.postReport kind method (common ++ payload) 3) else none) := by
  have hlen : (common ++ payload).length = payload.length + 3 := by
    rw [List.length_append, hcommon, Nat.add_comm]
  rw [postReport, if_neg (by omega), subSize_of_le (by omega), hlen]
  by_cases hsize : payload.length = size
  · simp [Except.bind, hsize]
  · simp [Except.bind, hsize, Ne.symm hsize]

/-- What one run of the handler amounts to: the entry calls and the reply. -/
structure Outcome (server : Bool) (calls : List ServerCall) (es : List EntryCall)
    (reply : Reply) : Prop where
  /-- the entry calls, none of whose checks faults -/
  entry : entryCalls calls = .ok es
  /-- one reply, if there is a server to send it -/
  answered : replies calls = if server then [reply] else []

theorem outcome_respond (server : Bool) (reply : Reply) :
    Outcome server (respondIf server reply) [] reply := by
  cases server <;> exact ⟨rfl, rfl⟩

theorem outcome_manager {server : Bool} {call : ManagerCall} {reply : Reply}
    {e : Option EntryCall} (h : call.onEntry = .ok e) :
    Outcome server (.manager call :: respondIf server reply) e.toList reply := by
  cases server <;> exact ⟨by simp [entryCalls, respondIf, h, Except.bind], rfl⟩

/-- One run of the handler on a buffer: no fault, one reply, an entry call for a
buffer of the given form only, and the status for a management request only. -/
def Handled (server : Bool) (buffer : Bytes) (wellFormed management : Prop) : Prop :=
  ∃ calls es reply, requestReceived server buffer = .ok calls ∧
    Outcome server calls es reply ∧ (es ≠ [] ↔ wellFormed) ∧
    (reply = .status ↔ management ∧ wellFormed)

/-- A request without payload always reaches the entry. -/
theorem handled_management {server : Bool} {buffer : Bytes} {call : ManagerCall} {e : EntryCall}
    (h : requestReceived server buffer = .ok (.manager call :: respondIf server .status))
    (hcall : call.onEntry = .ok (some e)) : Handled server buffer True True :=
  ⟨_, _, _, h, outcome_manager hcall, by simp, by simp⟩

/-- A report reaches the entry when its size is the expected one. -/
theorem handled_report {server : Bool} {common payload : Bytes} {call : ManagerCall}
    {kind : DeviceKind} {method : UserClientMethod} {size : ℕ}
    (h : requestReceived server (common ++ payload) =
      .ok (.manager call :: respondIf server .empty))
    (hcommon : common.length = 3)
    (hcall : call.onEntry = postReport kind (common ++ payload) 3 method size) :
    Handled server (common ++ payload) (payload.length = size) False := by
  rw [postReport_append hcommon] at hcall
  refine ⟨_, _, _, h, outcome_manager hcall, ?_, by simp⟩
  by_cases hsize : payload.length = size
  · simp [hsize]
  · simp [hsize]

/-- Keyboard parameters reach the entry when the payload is their size. -/
theorem handled_keyboardInitialization (server : Bool) (payload : Bytes) :
    Handled server ([7, 0, Request.virtualHidKeyboardInitialize.tag] ++ payload)
      (payload.length = 24) True := by
  have hrun : requestReceived server ([7, 0, Request.virtualHidKeyboardInitialize.tag] ++
      payload) = handleRequest server ([7, 0, Request.virtualHidKeyboardInitialize.tag] ++
        payload) 3 (some .virtualHidKeyboardInitialize) := requestReceived_eq _ _
  rw [handleRequest, subSize_of_le (by simp)] at hrun
  simp only [Except.bind] at hrun
  by_cases hsize : payload.length = 24
  · have hdata : (([7, 0, Request.virtualHidKeyboardInitialize.tag] ++ payload).drop 3).take
        sizeofParameters = payload := List.take_of_length_le (by simp [hsize, sizeofParameters])
    rw [if_neg (by simp [hsize, sizeofParameters]),
      memcpy_of_le (by simp [hsize, sizeofParameters])] at hrun
    simp only [hdata] at hrun
    exact ⟨_, _, _, hrun, outcome_manager rfl, by simp [hsize], by simp [hsize]⟩
  · have hne : sizeofParameters ≠
        ([7, 0, Request.virtualHidKeyboardInitialize.tag] ++ payload).length - 3 := by
      simpa [sizeofParameters] using Ne.symm hsize
    rw [if_pos hne] at hrun
    exact ⟨_, _, _, hrun, outcome_respond server .empty, by simp [hsize], by simp [hsize]⟩

/-- The well-formed buffers, for a buffer that selects the request. -/
theorem wellFormed_append {request : Request} {payload : Bytes} :
    WellFormed request ([7, 0, request.tag] ++ payload) ↔
      ∀ size, request.payloadSize = some size → payload.length = size := by
  refine ⟨?_, fun h => ⟨payload, rfl, h⟩⟩
  rintro ⟨payload', heq, h⟩
  rw [List.append_cancel_left heq]
  exact h

/-- One case of the `switch`. -/
theorem handled_request (server : Bool) (request : Request) (payload : Bytes) :
    Handled server ([7, 0, request.tag] ++ payload)
      (WellFormed request ([7, 0, request.tag] ++ payload)) (request.isManagement = true) := by
  rw [wellFormed_append]
  -- a form of the payload size condition for each request with a fixed size
  have fixed : ∀ {size : ℕ} {m : Prop}, request.payloadSize = some size →
      (m ↔ request.isManagement = true) →
      Handled server ([7, 0, request.tag] ++ payload) (payload.length = size) m →
      Handled server ([7, 0, request.tag] ++ payload)
        (∀ size, request.payloadSize = some size → payload.length = size)
        (request.isManagement = true) := by
    rintro size m hsize hman ⟨calls, es, reply, hrun, hout, hes, hreply⟩
    refine ⟨calls, es, reply, hrun, hout, ?_, ?_⟩ <;> simp_all
  cases request with
  | virtualHidKeyboardInitialize =>
    have hman : True ↔ Request.virtualHidKeyboardInitialize.isManagement = true := by
      simp [Request.isManagement]
    exact fixed rfl hman (handled_keyboardInitialization server payload)
  | virtualHidKeyboardTerminate | virtualHidKeyboardReset | virtualHidPointingInitialize
  | virtualHidPointingTerminate | virtualHidPointingReset =>
    simpa [Request.payloadSize, Request.isManagement] using
      handled_management (requestReceived_eq server _) rfl
  | postKeyboardInputReport | postConsumerInputReport | postAppleVendorKeyboardInputReport
  | postAppleVendorTopCaseInputReport | postGenericDesktopInputReport
  | postPointingInputReport =>
    refine fixed rfl (m := False) (by simp [Request.isManagement]) ?_
    exact handled_report (requestReceived_eq server _) rfl rfl

/-- The request format. The handler undoes the client's encoder: it makes
exactly the operation's manager call, which reaches the entry with the same
parameters, or hands the driver the same report bytes. On any buffer at all it
neither reads outside the buffer nor lets a size wrap around, answers exactly
once if there is a server to answer through, and reaches the entry only if the
buffer is well formed. -/
theorem request_format :
    (∀ server (op : ClientOperation), requestReceived server op.requestBuffer =
        .ok (.manager op.managerCall :: respondIf server op.reply) ∧
      op.managerCall.onEntry = .ok (some op.entryCall)) ∧
    (∀ r : Report, reportData (ClientOperation.postReport r).requestBuffer 3 =
      .ok (some r.bytes)) ∧
    (∀ server buffer, ∃ calls es reply, requestReceived server buffer = .ok calls ∧
      entryCalls calls = .ok es ∧
      (replies calls = if server then [reply] else []) ∧
      (es ≠ [] → ∃ request, WellFormed request buffer) ∧
      (reply = .status ↔ ∃ request, request.isManagement ∧ WellFormed request buffer) ∧
      ∀ kind method report offset, EntryCall.postReport kind method report offset ∈ es →
        ∃ data, reportData report offset = .ok data) := by
  refine ⟨fun server op => ⟨requestReceived_requestBuffer server op, managerCall_onEntry op⟩,
    reportData_requestBuffer, fun server buffer => ?_⟩
  rcases hsel : selected buffer with _ | request
  · have hrun : requestReceived server buffer = .ok (respondIf server .empty) := by
      rw [requestReceived_eq, hsel, handleRequest]
    obtain ⟨hentry, hanswered⟩ := outcome_respond server .empty
    have hnot : ∀ request, ¬ WellFormed request buffer := by
      rintro request ⟨payload, hbuf, -⟩
      rw [selected_eq_some.mpr ⟨payload, hbuf⟩] at hsel
      cases hsel
    refine ⟨_, [], .empty, hrun, hentry, hanswered, ?_, ?_, ?_⟩
    · intro h
      exact absurd rfl h
    · simp [hnot]
    · simp
  · obtain ⟨payload, rfl⟩ := selected_eq_some.mp hsel
    obtain ⟨calls, es, reply, hrun, ⟨hentry, hanswered⟩, hes, hreply⟩ :=
      handled_request server request payload
    refine ⟨calls, es, reply, hrun, hentry, hanswered, fun h => ⟨request, hes.mp h⟩, ?_, ?_⟩
    · rw [hreply]
      refine ⟨fun h => ⟨request, h⟩, ?_⟩
      rintro ⟨request', hman, hwf⟩
      -- the tag leaves no choice of the request
      obtain ⟨payload', hbuf, hsize⟩ := hwf
      rw [selected_eq_some.mpr ⟨payload', hbuf⟩] at hsel
      obtain rfl := Option.some.inj hsel
      exact ⟨hman, payload', hbuf, hsize⟩
    · intro kind method report offset _
      exact ⟨_, reportData_eq report offset⟩

end VirtualHidDevice
