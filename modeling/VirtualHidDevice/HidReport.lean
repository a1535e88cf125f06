import Mathlib.Data.Nat.Bitwise
import VirtualHidDevice.LittleEndian

/-!
# The report structures a client posts

The classes of `virtual_hid_device_driver::hid_report`: the three containers
(`keys`, `modifiers`, `buttons`) and the six packed report structures, each
with the bytes `memcpy` sees on a little-endian host.

* `Keys` — 32 slots of `uint16_t`, zero meaning free; the length is a field, so
  no other array can be built.
* `Modifiers`, `Buttons` — bit sets in one `uint8_t` and one `uint32_t`.
* `KeyboardInput`, `KeysInput`, `PointingInput` — the packed structures. The
  four classes that hold a report id and `keys` only share `KeysInput`.

`KeysOp`, `ModifiersOp` and `ButtonsOp` name the mutating methods, so that a
report reachable by any sequence of calls is the fold of a list of them.
-/

namespace VirtualHidDevice

open LittleEndian

/-- A `std::vector<uint8_t>`. -/
abbrev Bytes : Type := List UInt8

/-! ## `keys` -/

/-- `hid_report::keys`: the 32 slots of `keys_`. -/
@[ext] structure Keys where
  /-- the raw array, `get_raw_value()` -/
  slots : List UInt16
  /-- `uint16_t keys_[32]` -/
  length_slots : slots.length = 32

namespace Keys

/-- The constructor: every slot is zero. -/
def init : Keys := ⟨List.replicate 32 0, rfl⟩

/-- `exists(key)`: some slot holds `key`. -/
def existsKey (keys : Keys) (key : UInt16) : Bool := keys.slots.any (· == key)

/-- The loop of `insert`: the first zero slot becomes `key`. -/
def fillFirst (key : UInt16) : List UInt16 → List UInt16
  | [] => []
  | k :: ks => if k = 0 then key :: ks else k :: fillFirst key ks

theorem length_fillFirst (key : UInt16) (ks : List UInt16) :
    (fillFirst key ks).length = ks.length := by
  induction ks with
  | nil => rfl
  | cons k ks ih =>
    by_cases hk : k = 0
    · simp [fillFirst, hk]
    · simp [fillFirst, hk, ih]

/-- `insert(key)`: nothing if the key is there or no slot is free. -/
def insert (keys : Keys) (key : UInt16) : Keys :=
  if keys.existsKey key then keys
  else ⟨fillFirst key keys.slots, (length_fillFirst key keys.slots).trans keys.length_slots⟩

/-- `erase(key)`: every slot that holds `key` becomes zero. -/
def erase (keys : Keys) (key : UInt16) : Keys :=
  ⟨keys.slots.map fun k => if k = key then 0 else k, by
    rw [List.length_map]
    exact keys.length_slots⟩

/-- `clear()`. -/
def clear (_ : Keys) : Keys := init

/-- `empty()`: every slot is zero. -/
def empty (keys : Keys) : Bool := keys.slots.all (· == 0)

/-- `count()`: the slots that are not zero. -/
def count (keys : Keys) : ℕ := keys.slots.countP (· != 0)

/-- The 64 bytes of `keys_`. -/
def bytes (keys : Keys) : Bytes := keys.slots.flatMap fun k => LittleEndian.bytes 2 k.toNat

end Keys

/-- A mutating call on `keys`. -/
inductive KeysOp where
  /-- `insert(key)` -/
  | insert (key : UInt16)
  /-- `erase(key)` -/
  | erase (key : UInt16)
  /-- `clear()` -/
  | clear
  deriving DecidableEq

/-- Perform one call. -/
def KeysOp.apply (keys : Keys) : KeysOp → Keys
  | .insert key => keys.insert key
  | .erase key => keys.erase key
  | .clear => keys.clear

/-- The key a call is made with, if it has one. -/
def KeysOp.key? : KeysOp → Option UInt16
  | .insert key => some key
  | .erase key => some key
  | .clear => none

/-- A slot that `fillFirst` produces is an old one or the new key. -/
theorem Keys.mem_fillFirst {key k : UInt16} {ks : List UInt16}
    (h : k ∈ fillFirst key ks) : k ∈ ks ∨ k = key := by
  induction ks with
  | nil => cases h
  | cons a ks ih =>
    by_cases ha : a = 0
    · rw [fillFirst, if_pos ha] at h
      rcases List.mem_cons.mp h with h | h
      · exact .inr h
      · exact .inl (List.mem_cons_of_mem _ h)
    · rw [fillFirst, if_neg ha] at h
      rcases List.mem_cons.mp h with h | h
      · exact .inl (h ▸ List.mem_cons_self ..)
      · rcases ih h with h | h
        · exact .inl (List.mem_cons_of_mem _ h)
        · exact .inr h

/-- What one call can leave in a slot: zero, an old slot, or its own key. -/
theorem KeysOp.mem_apply {keys : Keys} {op : KeysOp} {k : UInt16}
    (h : k ∈ (op.apply keys).slots) : k = 0 ∨ k ∈ keys.slots ∨ op.key? = some k := by
  cases op with
  | insert key =>
    by_cases he : keys.existsKey key
    · simp only [KeysOp.apply, Keys.insert, if_pos he] at h
      exact .inr (.inl h)
    · simp only [KeysOp.apply, Keys.insert, if_neg he] at h
      rcases Keys.mem_fillFirst h with h | h
      · exact .inr (.inl h)
      · exact .inr (.inr (congrArg some h.symm))
  | erase key =>
    obtain ⟨a, ha, hak⟩ := List.mem_map.mp h
    by_cases hkey : a = key
    · rw [if_pos hkey] at hak
      exact .inl hak.symm
    · rw [if_neg hkey] at hak
      exact .inr (.inl (hak ▸ ha))
  | clear => exact .inl (List.eq_of_mem_replicate h)

/-- Slots reachable by calls whose keys satisfy `P` are zero or satisfy `P`. -/
theorem keysOps_slots {P : UInt16 → Prop} {ops : List KeysOp} {keys : Keys}
    (hinit : ∀ k ∈ keys.slots, k = 0 ∨ P k)
    (hops : ∀ op ∈ ops, ∀ key, op.key? = some key → P key) :
    ∀ k ∈ (ops.foldl KeysOp.apply keys).slots, k = 0 ∨ P k := by
  induction ops generalizing keys with
  | nil => exact hinit
  | cons op ops ih =>
    refine ih ?_ fun o ho => hops o (List.mem_cons_of_mem _ ho)
    intro k hk
    rcases KeysOp.mem_apply hk with h | h | h
    · exact .inl h
    · exact hinit k h
    · exact .inr (hops op (List.mem_cons_self ..) k h)

/-! ## `modifiers` -/

/-- Testing one bit of a word with a mask. -/
theorem and_one_shiftLeft_ne_zero (n i : ℕ) : n &&& 1 <<< i ≠ 0 ↔ n.testBit i = true := by
  rw [Nat.one_shiftLeft, Nat.and_two_pow]
  cases n.testBit i
  · simp
  · simp

/-- `hid_report::modifier`. -/
inductive Modifier where
  /-- `0x1 << 0` -/
  | leftControl
  /-- `0x1 << 1` -/
  | leftShift
  /-- `0x1 << 2` -/
  | leftOption
  /-- `0x1 << 3` -/
  | leftCommand
  /-- `0x1 << 4` -/
  | rightControl
  /-- `0x1 << 5` -/
  | rightShift
  /-- `0x1 << 6` -/
  | rightOption
  /-- `0x1 << 7` -/
  | rightCommand
  deriving DecidableEq

/-- The position of the modifier's bit. -/
def Modifier.bit : Modifier → ℕ
  | .leftControl => 0
  | .leftShift => 1
  | .leftOption => 2
  | .leftCommand => 3
  | .rightControl => 4
  | .rightShift => 5
  | .rightOption => 6
  | .rightCommand => 7

/-- The enumerator's value. -/
def Modifier.value (m : Modifier) : UInt8 := UInt8.ofNat (1 <<< m.bit)

/-- Each modifier has a bit of its own. -/
theorem Modifier.bit_inj {m n : Modifier} : m.bit = n.bit ↔ m = n := by
  refine ⟨fun h => ?_, congrArg bit⟩
  cases m <;> cases n <;> first | rfl | cases h

theorem Modifier.toNat_value (m : Modifier) : m.value.toNat = 1 <<< m.bit := by
  cases m <;> rfl

/-- `hid_report::modifiers`: the bits of `modifiers_`. -/
@[ext] structure Modifiers where
  /-- `get_raw_value()` -/
  raw : UInt8

namespace Modifiers

/-- The constructor. -/
def init : Modifiers := ⟨0⟩

/-- `clear()`. -/
def clear (_ : Modifiers) : Modifiers := ⟨0⟩

/-- `insert(value)`. -/
def insert (ms : Modifiers) (m : Modifier) : Modifiers := ⟨ms.raw ||| m.value⟩

/-- `erase(value)`. -/
def erase (ms : Modifiers) (m : Modifier) : Modifiers := ⟨ms.raw &&& ~~~m.value⟩

/-- `exists(value)`. -/
def existsModifier (ms : Modifiers) (m : Modifier) : Bool := ms.raw &&& m.value != 0

variable {ms : Modifiers} {m n : Modifier}

/-- `exists` tests the modifier's bit. -/
theorem existsModifier_iff : ms.existsModifier m = true ↔ ms.raw.toNat.testBit m.bit = true := by
  rw [← and_one_shiftLeft_ne_zero, ← m.toNat_value, ← UInt8.toNat_and]
  simp only [existsModifier, bne_iff_ne, ne_eq, ← UInt8.toNat_inj]
  rfl

theorem not_existsModifier_clear : (clear ms).existsModifier m = false := by
  rw [existsModifier, clear, UInt8.zero_and]
  rfl

/-- `insert` adds one modifier. -/
theorem existsModifier_insert :
    (ms.insert m).existsModifier n = true ↔ n = m ∨ ms.existsModifier n = true := by
  rw [existsModifier_iff, existsModifier_iff, insert, UInt8.toNat_or, m.toNat_value,
    Nat.one_shiftLeft, Nat.testBit_or, Bool.or_eq_true, Nat.testBit_two_pow, decide_eq_true_eq,
    Modifier.bit_inj, or_comm, eq_comm]

/-- `erase` takes one away. -/
theorem existsModifier_erase :
    (ms.erase m).existsModifier n = true ↔ n ≠ m ∧ ms.existsModifier n = true := by
  have hlt : m.value.toNat < 2 ^ 8 := m.value.toNat_lt
  have hnot : (~~~m.value).toNat = 2 ^ 8 - (m.value.toNat + 1) := by
    rw [UInt8.toNat_not, UInt8.size]
    omega
  have hbit : n.bit < 8 := by cases n <;> decide
  rw [existsModifier_iff, existsModifier_iff, erase, UInt8.toNat_and, hnot, Nat.testBit_and,
    Nat.testBit_two_pow_sub_succ hlt, m.toNat_value, Nat.one_shiftLeft, Nat.testBit_two_pow,
    decide_eq_true hbit, Bool.true_and, Bool.and_eq_true, Bool.not_eq_true', decide_eq_false_iff_not,
    Modifier.bit_inj, and_comm, ne_comm]

end Modifiers

/-- A mutating call on `modifiers`. -/
inductive ModifiersOp where
  /-- `insert(value)` -/
  | insert (m : Modifier)
  /-- `erase(value)` -/
  | erase (m : Modifier)
  /-- `clear()` -/
  | clear
  deriving DecidableEq

/-- Perform one call. -/
def ModifiersOp.apply (ms : Modifiers) : ModifiersOp → Modifiers
  | .insert m => ms.insert m
  | .erase m => ms.erase m
  | .clear => ms.clear

/-! ## `buttons` -/

/-- `hid_report::buttons`: the bits of `buttons_`, button `n` at bit `n - 1`. -/
@[ext] structure Buttons where
  /-- `get_raw_value()` -/
  raw : UInt32

namespace Buttons

/-- The constructor. -/
def init : Buttons := ⟨0⟩

/-- The mask `0x1 << (button - 1)` as it is stored. -/
def mask (button : UInt8) : UInt32 := UInt32.ofNat (1 <<< (button.toNat - 1))

/-- `clear()`. -/
def clear (_ : Buttons) : Buttons := ⟨0⟩

/-- `insert(button)`: nothing unless the button is in `1..32`. -/
def insert (bs : Buttons) (button : UInt8) : Buttons :=
  if 1 ≤ button ∧ button ≤ 32 then ⟨bs.raw ||| mask button⟩ else bs

/-- `erase(button)`: nothing unless the button is in `1..32`. -/
def erase (bs : Buttons) (button : UInt8) : Buttons :=
  if 1 ≤ button ∧ button ≤ 32 then ⟨bs.raw &&& ~~~mask button⟩ else bs

/-- `exists(button)`. -/
def existsButton (bs : Buttons) (button : UInt8) : Bool :=
  if 1 ≤ button ∧ button ≤ 32 then bs.raw &&& mask button != 0 else false

variable {bs : Buttons} {button b : UInt8}

/-- The button's bit is one of the word. -/
theorem toNat_mask (h : 1 ≤ button ∧ button ≤ 32) :
    (mask button).toNat = 1 <<< (button.toNat - 1) ∧ button.toNat - 1 < 32 := by
  have h1 : 1 ≤ button.toNat := UInt8.le_iff_toNat_le.mp h.1
  have h32 : button.toNat ≤ 32 := UInt8.le_iff_toNat_le.mp h.2
  have hbit : button.toNat - 1 < 32 := by omega
  have hlt : 1 <<< (button.toNat - 1) < 2 ^ 32 := by
    rw [Nat.one_shiftLeft]
    exact Nat.pow_lt_pow_right (by decide) hbit
  rw [mask, UInt32.toNat_ofNat', Nat.mod_eq_of_lt hlt]
  exact ⟨rfl, hbit⟩

/-- Each button has a bit of its own. -/
theorem bit_inj (h : 1 ≤ button ∧ button ≤ 32) (hb : 1 ≤ b ∧ b ≤ 32) :
    button.toNat - 1 = b.toNat - 1 ↔ b = button := by
  have hb1 : 1 ≤ b.toNat := UInt8.le_iff_toNat_le.mp hb.1
  have h1 : 1 ≤ button.toNat := UInt8.le_iff_toNat_le.mp h.1
  rw [← UInt8.toNat_inj]
  omega

/-- `exists` tests the button's bit. -/
theorem existsButton_iff (h : 1 ≤ button ∧ button ≤ 32) :
    bs.existsButton button = true ↔ bs.raw.toNat.testBit (button.toNat - 1) = true := by
  rw [← and_one_shiftLeft_ne_zero, ← (toNat_mask h).1, ← UInt32.toNat_and, existsButton, if_pos h]
  simp only [bne_iff_ne, ne_eq, ← UInt32.toNat_inj]
  rfl

theorem not_existsButton_clear : (clear bs).existsButton button = false := by
  rw [existsButton, clear, UInt32.zero_and]
  split <;> rfl

/-- `insert` adds one button, if it is one. -/
theorem existsButton_insert : (bs.insert button).existsButton b = true ↔
    (b = button ∧ 1 ≤ button ∧ button ≤ 32) ∨ bs.existsButton b = true := by
  rw [insert]
  split
  next h =>
    by_cases hb : 1 ≤ b ∧ b ≤ 32
    · rw [existsButton_iff hb, existsButton_iff hb, UInt32.toNat_or, (toNat_mask h).1,
        Nat.one_shiftLeft, Nat.testBit_or, Bool.or_eq_true, Nat.testBit_two_pow,
        decide_eq_true_eq, bit_inj h hb, or_comm, and_iff_left h]
    · have hne : b ≠ button := fun heq => hb (heq ▸ h)
      rw [existsButton, existsButton, if_neg hb, if_neg hb, or_iff_right fun heq => hne heq.1]
  next h => rw [or_iff_right fun heq => h heq.2]

/-- `erase` takes one away. -/
theorem existsButton_erase : (bs.erase button).existsButton b = true ↔
    b ≠ button ∧ bs.existsButton b = true := by
  by_cases hb : 1 ≤ b ∧ b ≤ 32
  · rw [erase]
    split
    next h =>
      have hlt : (mask button).toNat < 2 ^ 32 := (mask button).toNat_lt
      have hnot : (~~~mask button).toNat = 2 ^ 32 - ((mask button).toNat + 1) := by
        rw [UInt32.toNat_not, UInt32.size]
        omega
      rw [existsButton_iff hb, existsButton_iff hb, UInt32.toNat_and, hnot, Nat.testBit_and,
        Nat.testBit_two_pow_sub_succ hlt, (toNat_mask h).1, Nat.one_shiftLeft,
        Nat.testBit_two_pow, decide_eq_true (toNat_mask hb).2, Bool.true_and, Bool.and_eq_true,
        Bool.not_eq_true', decide_eq_false_iff_not, bit_inj h hb, and_comm]
    next h =>
      have hne : b ≠ button := fun heq => h (heq ▸ hb)
      rw [and_iff_right hne]
  · rw [existsButton, existsButton, if_neg hb, if_neg hb, and_iff_right_of_imp]
    exact fun hfalse => by cases hfalse

end Buttons

/-- A mutating call on `buttons`. -/
inductive ButtonsOp where
  /-- `insert(button)` -/
  | insert (button : UInt8)
  /-- `erase(button)` -/
  | erase (button : UInt8)
  /-- `clear()` -/
  | clear
  deriving DecidableEq

/-- Perform one call. -/
def ButtonsOp.apply (bs : Buttons) : ButtonsOp → Buttons
  | .insert button => bs.insert button
  | .erase button => bs.erase button
  | .clear => bs.clear

/-! ## The packed report structures -/

/-- `hid_report::keyboard_input`. -/
structure KeyboardInput where
  /-- `report_id_`, `1` from the constructor -/
  reportId : UInt8
  /-- `modifiers` -/
  modifiers : Modifiers
  /-- `reserved`, `0` from the constructor -/
  reserved : UInt8
  /-- `keys` -/
  keys : Keys

/-- The shape shared by `consumer_input`, `apple_vendor_keyboard_input`,
`apple_vendor_top_case_input` and `generic_desktop_input`. -/
structure KeysInput where
  /-- `report_id_`, set by the constructor -/
  reportId : UInt8
  /-- `keys` -/
  keys : Keys

/-- `hid_report::pointing_input`; it has no report id. -/
structure PointingInput where
  /-- `buttons` -/
  buttons : Buttons
  /-- `x` -/
  x : UInt8
  /-- `y` -/
  y : UInt8
  /-- `vertical_wheel` -/
  verticalWheel : UInt8
  /-- `horizontal_wheel` -/
  horizontalWheel : UInt8

/-- `keyboard_input()`. -/
def KeyboardInput.init : KeyboardInput := ⟨1, Modifiers.init, 0, Keys.init⟩

/-- `consumer_input()`. -/
def KeysInput.consumer : KeysInput := ⟨2, Keys.init⟩

/-- `apple_vendor_top_case_input()`. -/
def KeysInput.appleVendorTopCase : KeysInput := ⟨3, Keys.init⟩

/-- `apple_vendor_keyboard_input()`. -/
def KeysInput.appleVendorKeyboard : KeysInput := ⟨4, Keys.init⟩

/-- `generic_desktop_input()`. -/
def KeysInput.genericDesktop : KeysInput := ⟨7, Keys.init⟩

/-- `pointing_input()`. -/
def PointingInput.init : PointingInput := ⟨Buttons.init, 0, 0, 0, 0⟩

/-- The bytes of a `keyboard_input`. -/
def KeyboardInput.bytes (r : KeyboardInput) : Bytes :=
  r.reportId :: r.modifiers.raw :: r.reserved :: r.keys.bytes

/-- The bytes of a report that is a report id and keys. -/
def KeysInput.bytes (r : KeysInput) : Bytes := r.reportId :: r.keys.bytes

/-- The bytes of a `pointing_input`. -/
def PointingInput.bytes (r : PointingInput) : Bytes :=
  LittleEndian.bytes 4 r.buttons.raw.toNat ++
    [r.x, r.y, r.verticalWheel, r.horizontalWheel]

/-- A mutating call on a `keyboard_input`: on its `modifiers` or its `keys`. -/
inductive KeyboardInputOp where
  /-- a call on `modifiers` -/
  | modifiers (op : ModifiersOp)
  /-- a call on `keys` -/
  | keys (op : KeysOp)
  deriving DecidableEq

/-- Perform one call. -/
def KeyboardInputOp.apply (r : KeyboardInput) : KeyboardInputOp → KeyboardInput
  | .modifiers op => { r with modifiers := op.apply r.modifiers }
  | .keys op => { r with keys := op.apply r.keys }

/-- The key a call is made with, if it has one. -/
def KeyboardInputOp.key? : KeyboardInputOp → Option UInt16
  | .modifiers _ => none
  | .keys op => op.key?

/-- The private members keep the values of the constructor, and slots reachable
by calls whose keys satisfy `P` are zero or satisfy `P`. -/
theorem keyboardInputOps_slots {P : UInt16 → Prop} {ops : List KeyboardInputOp}
    {r : KeyboardInput} (hinit : ∀ k ∈ r.keys.slots, k = 0 ∨ P k)
    (hops : ∀ op ∈ ops, ∀ key, op.key? = some key → P key) :
    (ops.foldl KeyboardInputOp.apply r).reportId = r.reportId ∧
      (ops.foldl KeyboardInputOp.apply r).reserved = r.reserved ∧
      ∀ k ∈ (ops.foldl KeyboardInputOp.apply r).keys.slots, k = 0 ∨ P k := by
  induction ops generalizing r with
  | nil => exact ⟨rfl, rfl, hinit⟩
  | cons op ops ih =>
    have hrest : ∀ o ∈ ops, ∀ key, o.key? = some key → P key :=
      fun o ho => hops o (List.mem_cons_of_mem _ ho)
    cases op with
    | modifiers op => exact ih hinit hrest
    | keys op =>
      have hop : ∀ o ∈ [op], ∀ key, o.key? = some key → P key := by
        intro o ho key hkey
        obtain rfl := List.mem_singleton.mp ho
        exact hops (.keys o) (List.mem_cons_self ..) key hkey
      exact ih (r := { r with keys := op.apply r.keys }) (keysOps_slots hinit hop) hrest

/-! ### Sizes: what `sizeof` gives for each structure -/

theorem Keys.length_bytes (keys : Keys) : keys.bytes.length = 64 := by
  have hslots : ∀ ks : List UInt16,
      (ks.flatMap fun k => LittleEndian.bytes 2 k.toNat).length = 2 * ks.length := by
    intro ks
    induction ks with
    | nil => rfl
    | cons k ks ih =>
      rw [List.flatMap_cons, List.length_append, LittleEndian.length_bytes, ih,
        List.length_cons]
      omega
  rw [Keys.bytes, hslots, keys.length_slots]

/-- `sizeof(keyboard_input)` is 67. -/
@[simp] theorem KeyboardInput.length_bytes (r : KeyboardInput) : r.bytes.length = 67 := by
  simp [KeyboardInput.bytes, Keys.length_bytes]

/-- `sizeof` of each report that is a report id and keys is 65. -/
@[simp] theorem KeysInput.length_bytes (r : KeysInput) : r.bytes.length = 65 := by
  simp [KeysInput.bytes, Keys.length_bytes]

/-- `sizeof(pointing_input)` is 8. -/
@[simp] theorem PointingInput.length_bytes (r : PointingInput) : r.bytes.length = 8 := by
  simp [PointingInput.bytes]

end VirtualHidDevice
