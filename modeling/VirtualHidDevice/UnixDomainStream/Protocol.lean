import VirtualHidDevice.Protocol

/-!
# The frames of a stream

`pqrs::unix_domain_stream::impl::protocol`: what is written to a stream socket is a sequence
of frames. A frame has a header with the size of its body, and the body starts with the type
of the message.

* `encodeUint32`, `decodeUint32`, `encodeUint64`, `decodeUint64` — big-endian integers, with
  the shifts of the source. They are the bytes of `LittleEndian` in reverse.
* `makeFrame`, `makeRequestResponseFrame` — the encoders.
* `Message` — what a frame says; `Message.frame` is its frame.
-/

namespace VirtualHidDevice.UnixDomainStream

open LittleEndian

/-! ## Integers -/

/-- `encode_uint32(output, value)`. -/
def encodeUint32 (value : UInt32) : Bytes :=
  [((value >>> 24) &&& 0xff).toUInt8, ((value >>> 16) &&& 0xff).toUInt8,
   ((value >>> 8) &&& 0xff).toUInt8, (value &&& 0xff).toUInt8]

/-- `decode_uint32(input)`, of an array of four bytes. -/
def decodeUint32 (a b c d : UInt8) : UInt32 :=
  (a.toUInt32 <<< 24) ||| (b.toUInt32 <<< 16) ||| (c.toUInt32 <<< 8) ||| d.toUInt32

/-- `encode_uint64(output, value)`. -/
def encodeUint64 (value : UInt64) : Bytes :=
  [((value >>> 56) &&& 0xff).toUInt8, ((value >>> 48) &&& 0xff).toUInt8,
   ((value >>> 40) &&& 0xff).toUInt8, ((value >>> 32) &&& 0xff).toUInt8,
   ((value >>> 24) &&& 0xff).toUInt8, ((value >>> 16) &&& 0xff).toUInt8,
   ((value >>> 8) &&& 0xff).toUInt8, (value &&& 0xff).toUInt8]

/-- `decode_uint64(input, offset)`, with checked reads. -/
def decodeUint64 (input : Bytes) (offset : ℕ) : Except Fault UInt64 :=
  match input.drop offset with
  | a :: b :: c :: d :: e :: f :: g :: h :: _ =>
    .ok ((a.toUInt64 <<< 56) ||| (b.toUInt64 <<< 48) ||| (c.toUInt64 <<< 40) |||
      (d.toUInt64 <<< 32) ||| (e.toUInt64 <<< 24) ||| (f.toUInt64 <<< 16) |||
      (g.toUInt64 <<< 8) ||| h.toUInt64)
  | _ => .error .outOfBounds

/-- A read within bounds succeeds. -/
theorem decodeUint64_ok {input : Bytes} {offset : ℕ} (h : offset + 8 ≤ input.length) :
    ∃ value, decodeUint64 input offset = .ok value := by
  have hlen : 8 ≤ (input.drop offset).length := by
    rw [List.length_drop]
    omega
  rw [decodeUint64]
  split
  next => exact ⟨_, rfl⟩
  next hshort =>
    -- eight bytes are there, so the first pattern matches
    match hdrop : input.drop offset, hlen with
    | a :: b :: c :: d :: e :: f :: g :: i :: rest, _ => exact absurd hdrop (hshort a b c d e f g i rest)

/-- Bits that do not overlap are added. -/
theorem or_eq_add {x y k : ℕ} (hx : 2 ^ k ∣ x) (hy : y < 2 ^ k) : x ||| y = x + y := by
  obtain ⟨m, rfl⟩ := hx
  exact (Nat.two_pow_add_eq_or_of_lt hy m).symm

/-- Big-endian is little-endian the other way round. -/
theorem encodeUint32_eq (value : UInt32) :
    encodeUint32 value = (bytes 4 value.toNat).reverse := by
  have hbyte : ∀ v : UInt32, (v &&& 0xff).toUInt8 = UInt8.ofNat v.toNat := by
    intro v
    apply UInt8.toNat_inj.mp
    simp [Nat.and_two_pow_sub_one_eq_mod _ 8]
  simp only [encodeUint32, hbyte, bytes, List.reverse_cons, List.reverse_nil, List.nil_append,
    List.cons_append, UInt32.toNat_shiftRight, Nat.shiftRight_eq_div_pow, Nat.div_div_eq_div_mul]
  rfl

theorem encodeUint64_eq (value : UInt64) :
    encodeUint64 value = (bytes 8 value.toNat).reverse := by
  have hbyte : ∀ v : UInt64, (v &&& 0xff).toUInt8 = UInt8.ofNat v.toNat := by
    intro v
    apply UInt8.toNat_inj.mp
    simp [Nat.and_two_pow_sub_one_eq_mod _ 8]
  simp only [encodeUint64, hbyte, bytes, List.reverse_cons, List.reverse_nil, List.nil_append,
    List.cons_append, UInt64.toNat_shiftRight, Nat.shiftRight_eq_div_pow, Nat.div_div_eq_div_mul]
  rfl

/-- The next byte of a big-endian integer, below the digits that are there already. -/
theorem or_digit {x : ℕ} (k : ℕ) (hx : 2 ^ (k + 8) ∣ x) (b : UInt8) :
    x ||| 2 ^ k * b.toNat = x + 2 ^ k * b.toNat ∧ 2 ^ k ∣ x + 2 ^ k * b.toNat := by
  have hlt : 2 ^ k * b.toNat < 2 ^ (k + 8) := by
    rw [pow_add]
    exact Nat.mul_lt_mul_of_pos_left b.toNat_lt (Nat.two_pow_pos k)
  have hdvd : 2 ^ k ∣ x := (pow_dvd_pow 2 (Nat.le_add_right k 8)).trans hx
  exact ⟨or_eq_add hx hlt, Nat.dvd_add hdvd ⟨_, rfl⟩⟩

/-- A byte that is shifted stays within the integer. -/
theorem two_pow_mul_toNat_lt (b : UInt8) {k n : ℕ} (hk : k + 8 ≤ n) : 2 ^ k * b.toNat < 2 ^ n := by
  calc 2 ^ k * b.toNat < 2 ^ k * 2 ^ 8 :=
        Nat.mul_lt_mul_of_pos_left b.toNat_lt (Nat.two_pow_pos k)
    _ = 2 ^ (k + 8) := (pow_add 2 k 8).symm
    _ ≤ 2 ^ n := Nat.pow_le_pow_right (by decide) hk

/-- A shifted byte that fits keeps all its bits. -/
theorem toNat_shift32 (b : UInt8) {k : ℕ} (hk : k ≤ 24) :
    (b.toUInt32 <<< UInt32.ofNat k).toNat = 2 ^ k * b.toNat := by
  rw [UInt32.toNat_shiftLeft, UInt8.toNat_toUInt32, UInt32.toNat_ofNat', Nat.shiftLeft_eq,
    Nat.mod_eq_of_lt (show k < 2 ^ 32 by omega), Nat.mod_eq_of_lt (show k < 32 by omega),
    Nat.mul_comm, Nat.mod_eq_of_lt (two_pow_mul_toNat_lt b (by omega))]

/-- What a shifted byte is worth. -/
theorem toNat_shift64 (b : UInt8) {k : ℕ} (hk : k ≤ 56) :
    (b.toUInt64 <<< UInt64.ofNat k).toNat = 2 ^ k * b.toNat := by
  rw [UInt64.toNat_shiftLeft, UInt8.toNat_toUInt64, UInt64.toNat_ofNat', Nat.shiftLeft_eq,
    Nat.mod_eq_of_lt (show k < 2 ^ 64 by omega), Nat.mod_eq_of_lt (show k < 64 by omega),
    Nat.mul_comm, Nat.mod_eq_of_lt (two_pow_mul_toNat_lt b (by omega))]

/-- Reading four bytes the other way round. -/
theorem decodeUint32_eq (a b c d : UInt8) :
    (decodeUint32 a b c d).toNat = value [d, c, b, a] := by
  have ha : (a.toUInt32 <<< 24).toNat = 2 ^ 24 * a.toNat := toNat_shift32 a (k := 24) (by decide)
  have hb : (b.toUInt32 <<< 16).toNat = 2 ^ 16 * b.toNat := toNat_shift32 b (k := 16) (by decide)
  have hc : (c.toUInt32 <<< 8).toNat = 2 ^ 8 * c.toNat := toNat_shift32 c (k := 8) (by decide)
  have hd : d.toUInt32.toNat = 2 ^ 0 * d.toNat := by rw [UInt8.toNat_toUInt32]; omega
  obtain ⟨h₁, d₁⟩ := or_digit 16 (x := 2 ^ 24 * a.toNat) ⟨_, rfl⟩ b
  obtain ⟨h₂, d₂⟩ := or_digit 8 d₁ c
  obtain ⟨h₃, -⟩ := or_digit 0 d₂ d
  rw [decodeUint32, UInt32.toNat_or, UInt32.toNat_or, UInt32.toNat_or, ha, hb, hc, hd, h₁, h₂, h₃]
  simp only [value]
  omega

/-- Reading eight of them, with more behind. -/
theorem decodeUint64_eq (a b c d e f g h : UInt8) (rest : Bytes) :
    (decodeUint64 (a :: b :: c :: d :: e :: f :: g :: h :: rest) 0).map UInt64.toNat =
      .ok (value [h, g, f, e, d, c, b, a]) := by
  have ha : (a.toUInt64 <<< 56).toNat = 2 ^ 56 * a.toNat := toNat_shift64 a (k := 56) (by decide)
  have hb : (b.toUInt64 <<< 48).toNat = 2 ^ 48 * b.toNat := toNat_shift64 b (k := 48) (by decide)
  have hc : (c.toUInt64 <<< 40).toNat = 2 ^ 40 * c.toNat := toNat_shift64 c (k := 40) (by decide)
  have hd : (d.toUInt64 <<< 32).toNat = 2 ^ 32 * d.toNat := toNat_shift64 d (k := 32) (by decide)
  have he : (e.toUInt64 <<< 24).toNat = 2 ^ 24 * e.toNat := toNat_shift64 e (k := 24) (by decide)
  have hf : (f.toUInt64 <<< 16).toNat = 2 ^ 16 * f.toNat := toNat_shift64 f (k := 16) (by decide)
  have hg : (g.toUInt64 <<< 8).toNat = 2 ^ 8 * g.toNat := toNat_shift64 g (k := 8) (by decide)
  have hh : h.toUInt64.toNat = 2 ^ 0 * h.toNat := by rw [UInt8.toNat_toUInt64]; omega
  obtain ⟨h₁, d₁⟩ := or_digit 48 (x := 2 ^ 56 * a.toNat) ⟨_, rfl⟩ b
  obtain ⟨h₂, d₂⟩ := or_digit 40 d₁ c
  obtain ⟨h₃, d₃⟩ := or_digit 32 d₂ d
  obtain ⟨h₄, d₄⟩ := or_digit 24 d₃ e
  obtain ⟨h₅, d₅⟩ := or_digit 16 d₄ f
  obtain ⟨h₆, d₆⟩ := or_digit 8 d₅ g
  obtain ⟨h₇, -⟩ := or_digit 0 d₆ h
  simp only [decodeUint64, List.drop_zero, Except.map, Except.ok.injEq]
  rw [UInt64.toNat_or, UInt64.toNat_or, UInt64.toNat_or, UInt64.toNat_or, UInt64.toNat_or,
    UInt64.toNat_or, UInt64.toNat_or, ha, hb, hc, hd, he, hf, hg, hh, h₁, h₂, h₃, h₄, h₅, h₆, h₇]
  simp only [value]
  omega

/-- Decoding what was encoded, of a header. -/
theorem decodeUint32_encode (v : UInt32) :
    ∃ a b c d, encodeUint32 v = [a, b, c, d] ∧ decodeUint32 a b c d = v := by
  refine ⟨_, _, _, _, rfl, UInt32.toNat_inj.mp ?_⟩
  have hrev := congrArg List.reverse (encodeUint32_eq v)
  rw [List.reverse_reverse] at hrev
  calc _ = value (encodeUint32 v).reverse := decodeUint32_eq _ _ _ _
    _ = v.toNat % 256 ^ 4 := by rw [hrev, value_bytes]
    _ = v.toNat := Nat.mod_eq_of_lt v.toNat_lt

/-- Decoding what was encoded, of a request id somewhere in a body. -/
theorem decodeUint64_encode (pre rest : Bytes) (v : UInt64) :
    decodeUint64 (pre ++ encodeUint64 v ++ rest) pre.length = .ok v := by
  have hdrop : decodeUint64 (pre ++ encodeUint64 v ++ rest) pre.length =
      decodeUint64 (encodeUint64 v ++ rest) 0 := by
    simp only [decodeUint64, List.append_assoc, List.drop_left, List.drop_zero]
  have hrev := congrArg List.reverse (encodeUint64_eq v)
  rw [List.reverse_reverse] at hrev
  have hnat : (decodeUint64 (encodeUint64 v ++ rest) 0).map UInt64.toNat = .ok v.toNat := by
    have hvalue : value (encodeUint64 v).reverse = v.toNat := by
      rw [hrev, value_bytes]
      exact Nat.mod_eq_of_lt v.toNat_lt
    rw [← hvalue]
    exact decodeUint64_eq _ _ _ _ _ _ _ _ rest
  rw [hdrop]
  rcases hd : decodeUint64 (encodeUint64 v ++ rest) 0 with e | w
  · rw [hd] at hnat
    cases hnat
  · rw [hd] at hnat
    exact congrArg _ (UInt64.toNat_inj.mp (Except.ok.inj hnat))

/-! ## Frames -/

/-- `message_type`, in the order of the source. -/
inductive MessageType where
  /-- `heartbeat` -/
  | heartbeat
  /-- `user_data` -/
  | userData
  /-- `health_check` -/
  | healthCheck
  /-- `health_check_response` -/
  | healthCheckResponse
  /-- `request` -/
  | request
  /-- `response` -/
  | response
deriving DecidableEq, Repr

namespace MessageType

/-- The types in the order of their underlying values. -/
def all : List MessageType :=
  [heartbeat, userData, healthCheck, healthCheckResponse, request, response]

/-- `std::to_underlying(type)`. -/
def tag (type : MessageType) : UInt8 := UInt8.ofNat (all.idxOf type)

/-- The `case` a byte selects in a `switch` over the types, none for `default`. -/
def ofTag (byte : UInt8) : Option MessageType := all[byte.toNat]?

@[simp] theorem ofTag_tag (type : MessageType) : ofTag type.tag = some type := by
  cases type <;> rfl

end MessageType

/-- `header_size` -/
def headerSize : ℕ := 4

/-- `type_size` -/
def typeSize : UInt64 := 1

/-- `request_id_size` -/
def requestIdSize : UInt64 := 8

/-- `make_frame(type, data, size)`. -/
def makeFrame (type : MessageType) (data : Bytes) : Bytes :=
  encodeUint32 (UInt32.ofNat (typeSize.toNat + data.length)) ++ type.tag :: data

/-- `make_request_response_frame(type, request_id, data)`. -/
def makeRequestResponseFrame (type : MessageType) (requestId : UInt64) (data : Bytes) : Bytes :=
  encodeUint32 (UInt32.ofNat (typeSize.toNat + requestIdSize.toNat + data.length)) ++
    type.tag :: (encodeUint64 requestId ++ data)

/-- Adding sizes may wrap around, and then gives less. -/
theorem toNat_add_le (a b : UInt64) : (a + b).toNat ≤ a.toNat + b.toNat := by
  rw [UInt64.toNat_add]
  exact Nat.mod_le _ _

/-- `peer::valid_outgoing_frame(frame)`; the sizes are added as `size_t`. -/
def validOutgoingFrame (maxMessageSize : UInt64) : Bytes → Bool
  | a :: b :: c :: d :: type :: rest =>
    let bodySize := (decodeUint32 a b c d).toNat
    if (a :: b :: c :: d :: type :: rest).length ≠ headerSize + bodySize ∨
        bodySize < typeSize.toNat then false
    else match MessageType.ofTag type with
      | some .request | some .response =>
        typeSize.toNat + requestIdSize.toNat ≤ bodySize ∧
          bodySize ≤ (maxMessageSize + typeSize + requestIdSize).toNat
      | some .heartbeat | some .userData | some .healthCheck | some .healthCheckResponse =>
        bodySize ≤ (maxMessageSize + typeSize).toNat
      | none => false
  | _ => false

/-! ## Messages -/

/-- What a frame says. -/
inductive Message where
  /-- `make_heartbeat_frame()` -/
  | heartbeat
  /-- `make_user_data_frame(data)` -/
  | userData (data : Bytes)
  /-- `make_health_check_frame()` -/
  | healthCheck
  /-- `make_health_check_response_frame()` -/
  | healthCheckResponse
  /-- `make_request_frame(request_id, data)` -/
  | request (requestId : UInt64) (data : Bytes)
  /-- `make_response_frame(request_id, data)` -/
  | response (requestId : UInt64) (data : Bytes)
deriving DecidableEq, Repr

namespace Message

/-- The frame of a message. -/
def frame : Message → Bytes
  | heartbeat => makeFrame .heartbeat []
  | userData data => makeFrame .userData data
  | healthCheck => makeFrame .healthCheck []
  | healthCheckResponse => makeFrame .healthCheckResponse []
  | request requestId data => makeRequestResponseFrame .request requestId data
  | response requestId data => makeRequestResponseFrame .response requestId data

/-- The body of a message's frame. -/
def body : Message → Bytes
  | heartbeat => [MessageType.tag .heartbeat]
  | userData data => MessageType.tag .userData :: data
  | healthCheck => [MessageType.tag .healthCheck]
  | healthCheckResponse => [MessageType.tag .healthCheckResponse]
  | request requestId data => MessageType.tag .request :: (encodeUint64 requestId ++ data)
  | response requestId data => MessageType.tag .response :: (encodeUint64 requestId ++ data)

/-- The largest body that may be sent and is accepted for a message of this type. -/
def bodyLimit (maxMessageSize : UInt64) : Message → ℕ
  | request _ _ | response _ _ => (maxMessageSize + typeSize + requestIdSize).toNat
  | _ => (maxMessageSize + typeSize).toNat

/-- A frame is its header and its body. -/
theorem frame_eq (m : Message) : m.frame = encodeUint32 (UInt32.ofNat m.body.length) ++ m.body := by
  have hid : ∀ id data, 1 + 8 + List.length data = (encodeUint64 id ++ data).length + 1 := by
    intro id data
    simp only [List.length_append, encodeUint64, List.length_cons, List.length_nil]
    omega
  cases m with
  | heartbeat => rfl
  | userData data => simp [frame, body, makeFrame, typeSize, Nat.add_comm]
  | healthCheck => rfl
  | healthCheckResponse => rfl
  | request id data =>
    simp only [frame, body, makeRequestResponseFrame, List.length_cons, ← hid]
    rfl
  | response id data =>
    simp only [frame, body, makeRequestResponseFrame, List.length_cons, ← hid]
    rfl

/-- The header of a frame says how long its body is, modulo what fits. -/
theorem frame_header (m : Message) :
    ∃ a b c d, m.frame = a :: b :: c :: d :: m.body ∧
      (decodeUint32 a b c d).toNat = m.body.length % 2 ^ 32 := by
  obtain ⟨a, b, c, d, henc, hdec⟩ := decodeUint32_encode (UInt32.ofNat m.body.length)
  refine ⟨a, b, c, d, ?_, ?_⟩
  · rw [frame_eq, henc]
    rfl
  · rw [hdec]
    exact UInt32.toNat_ofNat'

/-- The type of a message. -/
def type : Message → MessageType
  | heartbeat => .heartbeat
  | userData _ => .userData
  | healthCheck => .healthCheck
  | healthCheckResponse => .healthCheckResponse
  | request _ _ => .request
  | response _ _ => .response

/-- A body begins with its tag. -/
theorem body_eq_cons (m : Message) : ∃ rest, m.body = m.type.tag :: rest := by
  cases m <;> exact ⟨_, rfl⟩

/-- The `switch` of `valid_outgoing_frame` for the size of a message's own body. -/
theorem type_check_iff (maxMessageSize : UInt64) (m : Message) :
    (match some m.type with
      | some .request | some .response =>
        decide (typeSize.toNat + requestIdSize.toNat ≤ m.body.length ∧
          m.body.length ≤ (maxMessageSize + typeSize + requestIdSize).toNat)
      | some .heartbeat | some .userData | some .healthCheck | some .healthCheckResponse =>
        decide (m.body.length ≤ (maxMessageSize + typeSize).toNat)
      | none => false) = true ↔ m.body.length ≤ m.bodyLimit maxMessageSize := by
  have hid : ∀ (tag : UInt8) (id : UInt64) (data : Bytes),
      typeSize.toNat + requestIdSize.toNat ≤ (tag :: (encodeUint64 id ++ data)).length := by
    intro tag id data
    have hsize : typeSize.toNat + requestIdSize.toNat = 9 := rfl
    rw [hsize]
    simp only [List.length_cons, List.length_append, encodeUint64]
    omega
  cases m with
  | request id data => exact decide_eq_true_iff.trans ⟨And.right, fun h => ⟨hid _ id data, h⟩⟩
  | response id data => exact decide_eq_true_iff.trans ⟨And.right, fun h => ⟨hid _ id data, h⟩⟩
  | heartbeat => exact decide_eq_true_iff
  | userData data => exact decide_eq_true_iff
  | healthCheck => exact decide_eq_true_iff
  | healthCheckResponse => exact decide_eq_true_iff

/-- A message may be sent if its body fits into a frame and is within the limit of its type. -/
theorem validOutgoingFrame_iff (maxMessageSize : UInt64) (m : Message) :
    validOutgoingFrame maxMessageSize m.frame = true ↔
      m.body.length < 2 ^ 32 ∧ m.body.length ≤ m.bodyLimit maxMessageSize := by
  obtain ⟨a, b, c, d, hframe, hdec⟩ := m.frame_header
  obtain ⟨rest, hbody⟩ := m.body_eq_cons
  have hlen : m.body.length = rest.length + 1 := by rw [hbody]; rfl
  have htype : typeSize.toNat = 1 := rfl
  have hheader : headerSize = 4 := rfl
  rw [hframe, hbody, validOutgoingFrame, hdec, MessageType.ofTag_tag, ← hbody]
  simp only [List.length_cons]
  by_cases hfits : m.body.length < 2 ^ 32
  · rw [Nat.mod_eq_of_lt hfits, if_neg (by omega), type_check_iff]
    exact ⟨fun h => ⟨hfits, h⟩, And.right⟩
  · rw [if_pos (by omega)]
    exact ⟨fun h => (Bool.false_ne_true h).elim, fun h => absurd h.1 hfits⟩

end Message

end VirtualHidDevice.UnixDomainStream
