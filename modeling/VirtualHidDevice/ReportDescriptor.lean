import VirtualHidDevice.HidDescriptor
import VirtualHidDevice.HidReport
import Mathlib.Data.Nat.Bitwise

/-!
# The report descriptors and the report structures agree

The two `reportDescriptor` arrays of the driver, byte for byte, and what a host
that follows them reads out of the structures of `HidReport`.
-/

namespace VirtualHidDevice

open LittleEndian HidDescriptor

/-- `reportDescriptor` of `VirtualHIDKeyboard`. -/
def keyboardReportDescriptor : Bytes := [
  0x05, 0x01,       -- Usage Page (Generic Desktop)
  0x09, 0x06,       -- Usage (Keyboard)
  0xa1, 0x01,       -- Collection (Application)
  0x85, 0x01,       --   Report Id (1)
  0x05, 0x07,       --   Usage Page (Keyboard/Keypad)
  0x19, 0xe0,       --   Usage Minimum (224)
  0x29, 0xe7,       --   Usage Maximum (231)
  0x15, 0x00,       --   Logical Minimum (0)
  0x25, 0x01,       --   Logical Maximum (1)
  0x75, 0x01,       --   Report Size (1)
  0x95, 0x08,       --   Report Count (8)
  0x81, 0x02,       --   Input (Data, Variable, Absolute)
  0x95, 0x01,       --   Report Count (1)
  0x75, 0x08,       --   Report Size (8)
  0x81, 0x01,       --   Input (Constant)
  0x95, 0x20,       --   Report Count (32)
  0x75, 0x10,       --   Report Size (16)
  0x15, 0x00,       --   Logical Minimum (0)
  0x26, 0xff, 0x00, --   Logical Maximum (255)
  0x05, 0x07,       --   Usage Page (Keyboard/Keypad)
  0x19, 0x00,       --   Usage Minimum (0)
  0x2a, 0xff, 0x00, --   Usage Maximum (255)
  0x81, 0x00,       --   Input (Data, Array, Absolute)
  0xc0,             -- End Collection
  0x05, 0x0c,       -- Usage Page (Consumer)
  0x09, 0x01,       -- Usage 1 (kHIDUsage_Csmr_ConsumerControl)
  0xa1, 0x01,       -- Collection (Application)
  0x85, 0x02,       --   Report Id (2)
  0x05, 0x0c,       --   Usage Page (Consumer)
  0x95, 0x20,       --   Report Count (32)
  0x75, 0x10,       --   Report Size (16)
  0x15, 0x00,       --   Logical Minimum (0)
  0x26, 0x00, 0x03, --   Logical Maximum (768)
  0x19, 0x00,       --   Usage Minimum (0)
  0x2a, 0x00, 0x03, --   Usage Maximum (768)
  0x81, 0x00,       --   Input (Data, Array, Absolute)
  0xc0,             -- End Collection
  0x06, 0x00, 0xff, -- Usage Page (kHIDPage_AppleVendor)
  0x09, 0x01,       -- Usage 1 (kHIDUsage_AppleVendor_TopCase)
  0xa1, 0x01,       -- Collection (Application)
  0x85, 0x03,       --   Report Id (3)
  0x05, 0xff,       --   Usage Page (kHIDPage_AppleVendorTopCase)
  0x95, 0x20,       --   Report Count (32)
  0x75, 0x10,       --   Report Size (16)
  0x15, 0x00,       --   Logical Minimum (0)
  0x26, 0xff, 0x00, --   Logical Maximum (255)
  0x19, 0x00,       --   Usage Minimum (0)
  0x2a, 0xff, 0x00, --   Usage Maximum (255)
  0x81, 0x00,       --   Input (Data, Array, Absolute)
  0xc0,             -- End Collection
  0x06, 0x00, 0xff, -- Usage Page (kHIDPage_AppleVendor)
  0x09, 0x06,       -- Usage 6 (kHIDUsage_AppleVendor_Keyboard)
  0xa1, 0x01,       -- Collection (Application)
  0x85, 0x04,       --   Report Id (4)
  0x06, 0x01, 0xff, --   Usage Page (kHIDPage_AppleVendorKeyboard)
  0x95, 0x20,       --   Report Count (32)
  0x75, 0x10,       --   Report Size (16)
  0x15, 0x00,       --   Logical Minimum (0)
  0x26, 0xff, 0x00, --   Logical Maximum (255)
  0x19, 0x00,       --   Usage Minimum (0)
  0x2a, 0xff, 0x00, --   Usage Maximum (255)
  0x81, 0x00,       --   Input (Data, Array, Absolute)
  0xc0,             -- End Collection
  0x05, 0x01,       -- Usage Page (Generic Desktop)
  0x09, 0x06,       -- Usage (Keyboard)
  0xa1, 0x01,       -- Collection (Application)
  0x85, 0x05,       --   Report Id (5)
  0x05, 0x08,       --   Usage Page (LED)
  0x95, 0x02,       --   Report Count (2)
  0x75, 0x01,       --   Report Size (1)
  0x19, 0x01,       --   Usage Minimum (1)
  0x29, 0x02,       --   Usage Maximum (2)
  0x91, 0x02,       --   Output (Data, Variable, Absolute)
  0x95, 0x01,       --   Report Count (1)
  0x75, 0x06,       --   Report Size (6)
  0x91, 0x01,       --   Output (Constant)
  0xc0,             -- End Collection
  0x05, 0x01,       -- Usage Page (Generic Desktop)
  0x09, 0x06,       -- Usage (Keyboard)
  0xa1, 0x01,       -- Collection (Application)
  0x85, 0x06,       --   Report Id (6)
  0x05, 0x08,       --   Usage Page (LED)
  0x95, 0x02,       --   Report Count (2)
  0x75, 0x01,       --   Report Size (1)
  0x19, 0x01,       --   Usage Minimum (1)
  0x29, 0x02,       --   Usage Maximum (2)
  0x81, 0x02,       --   Input (Data, Variable, Absolute)
  0x95, 0x01,       --   Report Count (1)
  0x75, 0x06,       --   Report Size (6)
  0x81, 0x01,       --   Input (Constant)
  0xc0,             -- End Collection
  0x05, 0x01,       -- Usage Page (Generic Desktop)
  0x09, 0x06,       -- Usage (Keyboard)
  0xa1, 0x01,       -- Collection (Application)
  0x85, 0x07,       --   Report Id (7)
  0x05, 0x01,       --   Usage Page (Generic Desktop)
  0x95, 0x20,       --   Report Count (32)
  0x75, 0x10,       --   Report Size (16)
  0x15, 0x00,       --   Logical Minimum (0)
  0x26, 0xff, 0x00, --   Logical Maximum (255)
  0x19, 0x00,       --   Usage Minimum (0)
  0x2a, 0xff, 0x00, --   Usage Maximum (255)
  0x81, 0x00,       --   Input (Data, Array, Absolute)
  0xc0]             -- End Collection

/-- `reportDescriptor` of `VirtualHIDPointing`. -/
def pointingReportDescriptor : Bytes := [
  0x05, 0x01,       -- Usage Page (Generic Desktop)
  0x09, 0x02,       -- Usage (Mouse)
  0xa1, 0x01,       -- Collection (Application)
  0x09, 0x02,       --   Usage (Mouse)
  0xa1, 0x02,       --   Collection (Logical)
  0x09, 0x01,       --     Usage (Pointer)
  0xa1, 0x00,       --     Collection (Physical)
  0x05, 0x09,       --       Usage Page (Button)
  0x19, 0x01,       --       Usage Minimum (Button 1)
  0x29, 0x20,       --       Usage Maximum (Button 32)
  0x15, 0x00,       --       Logical Minimum (0)
  0x25, 0x01,       --       Logical Maximum (1)
  0x75, 0x01,       --       Report Size (1)
  0x95, 0x20,       --       Report Count (32)
  0x81, 0x02,       --       Input (Data, Variable, Absolute)
  0x05, 0x01,       --       Usage Page (Generic Desktop)
  0x09, 0x30,       --       Usage (X)
  0x09, 0x31,       --       Usage (Y)
  0x15, 0x81,       --       Logical Minimum (-127)
  0x25, 0x7f,       --       Logical Maximum (127)
  0x75, 0x08,       --       Report Size (8)
  0x95, 0x02,       --       Report Count (2)
  0x81, 0x06,       --       Input (Data, Variable, Relative)
  0xa1, 0x02,       --       Collection (Logical)
  0x09, 0x48,       --         Usage (Resolution Multiplier)
  0x15, 0x00,       --         Logical Minimum (0)
  0x25, 0x01,       --         Logical Maximum (1)
  0x35, 0x01,       --         Physical Minimum (1)
  0x45, 0x04,       --         Physical Maximum (4)
  0x75, 0x02,       --         Report Size (2)
  0x95, 0x01,       --         Report Count (1)
  0xa4,             --         Push
  0xb1, 0x02,       --         Feature (Data, Variable, Absolute)
  0x09, 0x38,       --         Usage (Wheel)
  0x15, 0x81,       --         Logical Minimum (-127)
  0x25, 0x7f,       --         Logical Maximum (127)
  0x35, 0x00,       --         Physical Minimum (0)
  0x45, 0x00,       --         Physical Maximum (0)
  0x75, 0x08,       --         Report Size (8)
  0x81, 0x06,       --         Input (Data, Variable, Relative)
  0xc0,             --       End Collection
  0xa1, 0x02,       --       Collection (Logical)
  0x09, 0x48,       --         Usage (Resolution Multiplier)
  0xb4,             --         Pop
  0xb1, 0x02,       --         Feature (Data, Variable, Absolute)
  0x35, 0x00,       --         Physical Minimum (0)
  0x45, 0x00,       --         Physical Maximum (0)
  0x75, 0x04,       --         Report Size (4)
  0xb1, 0x03,       --         Feature (Constant, Variable, Absolute)
  0x05, 0x0c,       --         Usage Page (Consumer Devices)
  0x0a, 0x38, 0x02, --         Usage (AC Pan)
  0x15, 0x81,       --         Logical Minimum (-127)
  0x25, 0x7f,       --         Logical Maximum (127)
  0x75, 0x08,       --         Report Size (8)
  0x81, 0x06,       --         Input (Data, Variable, Relative)
  0xc0,             --       End Collection
  0xc0,             --     End Collection
  0xc0,             --   End Collection
  0xc0]             -- End Collection

/-- What a host that follows the descriptor reads out of a report. -/
def hostDecode (descriptor report : Bytes) : Option (List Control) :=
  (parse descriptor).bind fun fs => decode fs report

/-! ## What the descriptors declare -/

/-- The field of 32 keys in a report of `VirtualHIDKeyboard`. -/
def keysField (reportId page maximum : ℕ) : ReportField where
  kind := .input
  reportId := some reportId
  isConstant := false
  isVariable := false
  usages := [⟨page, 0, maximum⟩]
  logicalMinimum := 0
  logicalMaximum := maximum
  size := 16
  count := 32

/-- The modifier bits of report 1. -/
def modifiersField : ReportField where
  kind := .input
  reportId := some 1
  isConstant := false
  isVariable := true
  usages := [⟨0x07, 0xe0, 0xe7⟩]
  logicalMinimum := 0
  logicalMaximum := 1
  size := 1
  count := 8

/-- The reserved byte of report 1. -/
def reservedField : ReportField where
  kind := .input
  reportId := some 1
  isConstant := true
  isVariable := false
  usages := []
  logicalMinimum := 0
  logicalMaximum := 1
  size := 8
  count := 1

/-- The two LED bits, as an output in report 5 and an input in report 6. -/
def ledField (kind : FieldKind) (reportId : ℕ) : ReportField where
  kind := kind
  reportId := some reportId
  isConstant := false
  isVariable := true
  usages := [⟨0x08, 1, 2⟩]
  logicalMinimum := 0
  logicalMaximum := 255
  size := 1
  count := 2

/-- The six bits after the LED bits. -/
def ledPadding (kind : FieldKind) (reportId : ℕ) : ReportField where
  kind := kind
  reportId := some reportId
  isConstant := true
  isVariable := false
  usages := []
  logicalMinimum := 0
  logicalMaximum := 255
  size := 6
  count := 1

/-- The fields of the keyboard descriptor. The logical maximum 255 of report 4
is still in force in the LED reports. -/
def keyboardFields : List ReportField :=
  [modifiersField, reservedField, keysField 1 0x07 255, keysField 2 0x0c 768,
    keysField 3 0xff 255, keysField 4 0xff01 255, ledField .output 5, ledPadding .output 5,
    ledField .input 6, ledPadding .input 6, keysField 7 0x01 255]

theorem parse_keyboardReportDescriptor :
    parse keyboardReportDescriptor = some keyboardFields := by
  decide +kernel

/-- The 32 button bits. -/
def buttonsField : ReportField where
  kind := .input
  reportId := none
  isConstant := false
  isVariable := true
  usages := [⟨0x09, 1, 32⟩]
  logicalMinimum := 0
  logicalMaximum := 1
  size := 1
  count := 32

/-- Relative axes of one byte each. -/
def axesField (usages : List UsageRange) (count : ℕ) : ReportField where
  kind := .input
  reportId := none
  isConstant := false
  isVariable := true
  usages := usages
  logicalMinimum := -127
  logicalMaximum := 127
  size := 8
  count := count

/-- The input fields of the pointing descriptor. Pop brings back the two-bit
report size of the first multiplier, not the eight bits of the wheel. -/
def pointingInputFields : List ReportField :=
  [buttonsField, axesField [⟨0x01, 0x30, 0x30⟩, ⟨0x01, 0x31, 0x31⟩] 2,
    axesField [⟨0x01, 0x38, 0x38⟩] 1, axesField [⟨0x0c, 0x238, 0x238⟩] 1]

theorem parse_pointingReportDescriptor :
    ∃ fs, parse pointingReportDescriptor = some fs ∧
      (fs.any fun f => f.reportId.isSome) = false ∧
      inputFields fs none = pointingInputFields := by
  have hsome : (parse pointingReportDescriptor).isSome = true := by decide +kernel
  obtain ⟨fs, hfs⟩ := Option.isSome_iff_exists.mp hsome
  have hany : (parse pointingReportDescriptor).map (fun fs => fs.any fun f => f.reportId.isSome) =
      some false := by decide +kernel
  have hfields : (parse pointingReportDescriptor).map (inputFields · none) =
      some pointingInputFields := by decide +kernel
  rw [hfs] at hany hfields
  exact ⟨fs, hfs, Option.some.inj hany, Option.some.inj hfields⟩

/-! ## Reading the keys -/

/-- The keys hold this usage id: a nonzero slot has it. -/
def Keys.Holds (keys : Keys) (id : ℕ) : Prop :=
  ∃ k : UInt16, k ≠ 0 ∧ keys.existsKey k = true ∧ k.toNat = id

theorem Keys.holds_iff {keys : Keys} {id : ℕ} :
    keys.Holds id ↔ ∃ k ∈ keys.slots, k ≠ 0 ∧ k.toNat = id := by
  constructor
  · rintro ⟨k, hk, he, hid⟩
    obtain ⟨a, ha, hak⟩ := List.any_eq_true.mp he
    obtain rfl := eq_of_beq hak
    exact ⟨a, ha, hk, hid⟩
  · rintro ⟨k, hmem, hk, hid⟩
    exact ⟨k, hk, List.any_eq_true.mpr ⟨k, hmem, beq_self_eq_true k⟩, hid⟩

/-- The keys stream as 32 words of 16 bits. -/
theorem Keys.bitStream_bytes (keys : Keys) :
    bitStream keys.bytes = keys.slots.flatMap fun k => bits 16 k.toNat := by
  rw [Keys.bytes]
  induction keys.slots with
  | nil => rfl
  | cons k ks ih =>
    rw [List.flatMap_cons, List.flatMap_cons, bitStream_append, ih,
      LittleEndian.bitStream_bytes]

/-- A slot within the logical range asserts its own usage, zero asserts none. -/
theorem keysField_arrayControl {reportId page maximum k : ℕ} (hk : k ≤ maximum) :
    (keysField reportId page maximum).arrayControl k =
      if k = 0 then none else some ⟨⟨page, k⟩, 1⟩ := by
  have hv : (keysField reportId page maximum).logical k = k := by
    simp [ReportField.logical, keysField]
  have hrange : (keysField reportId page maximum).logicalMinimum ≤ (k : ℤ) ∧
      (k : ℤ) ≤ (keysField reportId page maximum).logicalMaximum := by
    simp only [keysField]
    omega
  have husage : nthUsage (keysField reportId page maximum).usages
      ((k : ℤ) - (keysField reportId page maximum).logicalMinimum).toNat = some ⟨page, k⟩ := by
    simp [keysField, nthUsage, hk]
  simp only [ReportField.arrayControl, hv, if_pos hrange, husage, Option.bind_some]

/-- The field of keys, read from the bytes of the keys alone. -/
theorem readFields_keysField (reportId page : ℕ) {maximum : ℕ} {keys : Keys}
    (hmax : ∀ k ∈ keys.slots, k.toNat ≤ maximum) :
    ∃ cs, readFields [keysField reportId page maximum] (bitStream keys.bytes) = some cs ∧
      ∀ u, Asserts cs u ↔ u.page = page ∧ keys.Holds u.id := by
  have hread := readValues_words 16 UInt16.toNat keys.slots []
  rw [List.append_nil, ← Keys.bitStream_bytes, keys.length_slots] at hread
  have hmod : (keys.slots.map fun k => k.toNat % 2 ^ 16) = keys.slots.map UInt16.toNat :=
    List.map_congr_left fun k _ => Nat.mod_eq_of_lt k.toNat_lt
  rw [hmod] at hread
  refine ⟨_, readFields_data (f := keysField reportId page maximum) rfl hread rfl, ?_⟩
  · intro u
    rw [ReportField.controls_of_array (f := keysField reportId page maximum) rfl,
      List.append_nil, Keys.holds_iff, List.filterMap_map]
    simp only [Asserts, List.mem_filterMap, Function.comp_apply]
    constructor
    · rintro ⟨v, -, k, hk, hc⟩
      rw [keysField_arrayControl (hmax k hk)] at hc
      by_cases hzero : k.toNat = 0
      · rw [if_pos hzero] at hc
        cases hc
      · rw [if_neg hzero] at hc
        obtain ⟨rfl, -⟩ := Control.mk.inj (Option.some.inj hc)
        refine ⟨rfl, k, hk, ?_, rfl⟩
        rintro rfl
        exact hzero rfl
    · rintro ⟨hpage, k, hk, hne, hid⟩
      refine ⟨1, by decide, k, hk, ?_⟩
      have hzero : k.toNat ≠ 0 := fun h => hne (UInt16.toNat_inj.mp h)
      rw [keysField_arrayControl (hmax k hk), if_neg hzero, ← hpage, hid]

/-! ## Reading the modifiers and the buttons -/

/-- A one-bit variable field over a single range of usages, read from a word:
the `i`-th usage has the value of the `i`-th bit. -/
theorem mem_controls_bits {f : ReportField} (page first w : ℕ) {n : ℕ}
    (hvar : f.isVariable = true) (husages : f.usages = [⟨page, first, first + (w - 1)⟩])
    (hmin : f.logicalMinimum = 0) (hmax : f.logicalMaximum = 1) {c : Control} :
    c ∈ f.controls 0 ((bits w n).map Bool.toNat) ↔
      ∃ i, i < w ∧ c = ⟨⟨page, first + i⟩, if n.testBit i then 1 else 0⟩ := by
  have hbit : ∀ (i : ℕ) (b : Bool), i < w →
      f.variableControl i b.toNat = some ⟨⟨page, first + i⟩, if b then 1 else 0⟩ := by
    intro i b hi
    have hle : i ≤ w - 1 := by omega
    cases b <;>
      simp [ReportField.variableControl, ReportField.logical, hmin, hmax, husages, nthUsage, hle]
  rw [ReportField.mem_controls_of_variable hvar]
  constructor
  · rintro ⟨i, raw, hraw, hc⟩
    have hi : i < w := by
      have hlt := (List.getElem?_eq_some_iff.mp hraw).1
      rwa [List.length_map, length_bits] at hlt
    rw [List.getElem?_map, getElem?_bits hi] at hraw
    obtain rfl := Option.some.inj hraw
    rw [Nat.zero_add, hbit i _ hi] at hc
    exact ⟨i, hi, (Option.some.inj hc).symm⟩
  · rintro ⟨i, hi, rfl⟩
    refine ⟨i, (n.testBit i).toNat, ?_, ?_⟩
    · rw [List.getElem?_map, getElem?_bits hi]
      rfl
    · rw [Nat.zero_add, hbit i _ hi]

/-- A usage of such a field is asserted when its bit is set. -/
theorem asserts_bits {f : ReportField} (page first w : ℕ) {n : ℕ}
    (hvar : f.isVariable = true) (husages : f.usages = [⟨page, first, first + (w - 1)⟩])
    (hmin : f.logicalMinimum = 0) (hmax : f.logicalMaximum = 1) {u : Usage} :
    Asserts (f.controls 0 ((bits w n).map Bool.toNat)) u ↔
      u.page = page ∧ ∃ i, i < w ∧ n.testBit i = true ∧ u.id = first + i := by
  simp only [Asserts, mem_controls_bits page first w hvar husages hmin hmax]
  constructor
  · rintro ⟨v, hv, i, hi, hc⟩
    obtain ⟨rfl, rfl⟩ := Control.mk.inj hc
    refine ⟨rfl, i, hi, ?_, rfl⟩
    by_contra hbit
    rw [if_neg hbit] at hv
    exact hv rfl
  · rintro ⟨hpage, i, hi, hbit, hid⟩
    refine ⟨1, by decide, i, hi, ?_⟩
    rw [if_pos hbit, ← hpage, ← hid]

/-- Every modifier bit belongs to a modifier. -/
theorem Modifier.exists_bit {i : ℕ} (hi : i < 8) : ∃ m : Modifier, m.bit = i := by
  match i, hi with
  | 0, _ => exact ⟨.leftControl, rfl⟩
  | 1, _ => exact ⟨.leftShift, rfl⟩
  | 2, _ => exact ⟨.leftOption, rfl⟩
  | 3, _ => exact ⟨.leftCommand, rfl⟩
  | 4, _ => exact ⟨.rightControl, rfl⟩
  | 5, _ => exact ⟨.rightShift, rfl⟩
  | 6, _ => exact ⟨.rightOption, rfl⟩
  | 7, _ => exact ⟨.rightCommand, rfl⟩

/-! ## The agreement -/

/-- The four reports that are a report id and keys. -/
inductive KeysReport where
  /-- `consumer_input` -/
  | consumer
  /-- `apple_vendor_top_case_input` -/
  | appleVendorTopCase
  /-- `apple_vendor_keyboard_input` -/
  | appleVendorKeyboard
  /-- `generic_desktop_input` -/
  | genericDesktop
  deriving DecidableEq

namespace KeysReport

/-- The report as its constructor leaves it. -/
def init : KeysReport → KeysInput
  | consumer => KeysInput.consumer
  | appleVendorTopCase => KeysInput.appleVendorTopCase
  | appleVendorKeyboard => KeysInput.appleVendorKeyboard
  | genericDesktop => KeysInput.genericDesktop

/-- The usage page the keys of the report belong to. -/
def page : KeysReport → ℕ
  | consumer => 0x0c
  | appleVendorTopCase => 0xff
  | appleVendorKeyboard => 0xff01
  | genericDesktop => 0x01

/-- The largest usage the report carries. -/
def maximum : KeysReport → ℕ
  | consumer => 768
  | _ => 255

/-- The report after some calls on its keys. -/
def after (t : KeysReport) (ops : List KeysOp) : KeysInput :=
  { t.init with keys := ops.foldl KeysOp.apply t.init.keys }

end KeysReport

/-- A slot that is zero or within bounds is within bounds. -/
theorem slot_le {n : ℕ} {k : UInt16} (h : k = 0 ∨ 1 ≤ k.toNat ∧ k.toNat ≤ n) : k.toNat ≤ n := by
  rcases h with rfl | h
  · exact Nat.zero_le n
  · exact h.2

/-- Decoding with the keyboard descriptor picks the fields of the report id. -/
theorem hostDecode_keyboard (id : UInt8) (body : Bytes) :
    hostDecode keyboardReportDescriptor (id :: body) =
      readFields (inputFields keyboardFields (some id.toNat)) (bitStream body) := by
  rw [hostDecode, parse_keyboardReportDescriptor]
  rfl

/-- What the host reads out of a `keyboard_input`. -/
theorem hostDecode_keyboardInput {r : KeyboardInput} (hid : r.reportId = 1)
    (hmax : ∀ k ∈ r.keys.slots, k.toNat ≤ 255) :
    ∃ cs, hostDecode keyboardReportDescriptor r.bytes = some cs ∧
      ∀ u, Asserts cs u ↔ u.page = 0x07 ∧
        (r.keys.Holds u.id ∨ ∃ m, r.modifiers.existsModifier m = true ∧ u.id = 0xe0 + m.bit) := by
  obtain ⟨cs, hcs, hheld⟩ := readFields_keysField 1 0x07 hmax
  -- the reserved byte is read and contributes nothing
  have hreserved : readFields [reservedField, keysField 1 0x07 255]
      (bits 8 r.reserved.toNat ++ bitStream r.keys.bytes) = some cs := by
    have hread : readValues 8 1 (bits 8 r.reserved.toNat ++ bitStream r.keys.bytes) =
        some ([bitValue (bits 8 r.reserved.toNat)], bitStream r.keys.bytes) :=
      readValues_succ (length_bits 8 _) _
    exact readFields_constant (f := reservedField) rfl hread hcs
  have hall := readFields_data (f := modifiersField) rfl
    (readValues_bits 8 r.modifiers.raw.toNat _) hreserved
  refine ⟨modifiersField.controls 0 ((bits 8 r.modifiers.raw.toNat).map Bool.toNat) ++ cs,
    ?_, ?_⟩
  · rw [KeyboardInput.bytes, hid, hostDecode_keyboard]
    exact hall
  · intro u
    rw [asserts_append, hheld, asserts_bits 0x07 0xe0 8 rfl rfl rfl rfl]
    constructor
    · rintro (⟨hpage, i, hi, hbit, hu⟩ | ⟨hpage, hu⟩)
      · obtain ⟨m, rfl⟩ := Modifier.exists_bit hi
        exact ⟨hpage, .inr ⟨m, Modifiers.existsModifier_iff.mpr hbit, hu⟩⟩
      · exact ⟨hpage, .inl hu⟩
    · rintro ⟨hpage, hu | ⟨m, hm, hu⟩⟩
      · exact .inr ⟨hpage, hu⟩
      · have hlt : m.bit < 8 := by cases m <;> decide
        exact .inl ⟨hpage, m.bit, hlt, Modifiers.existsModifier_iff.mp hm, hu⟩

/-- What the host reads out of a report that is a report id and keys. -/
theorem hostDecode_keysInput {t : KeysReport} {keys : Keys}
    (hmax : ∀ k ∈ keys.slots, k.toNat ≤ t.maximum) :
    ∃ cs, hostDecode keyboardReportDescriptor { t.init with keys := keys }.bytes = some cs ∧
      ∀ u, Asserts cs u ↔ u.page = t.page ∧ keys.Holds u.id := by
  obtain ⟨cs, hcs, hheld⟩ := readFields_keysField t.init.reportId.toNat t.page hmax
  have hfields : inputFields keyboardFields (some t.init.reportId.toNat) =
      [keysField t.init.reportId.toNat t.page t.maximum] := by
    cases t <;> decide
  refine ⟨cs, ?_, hheld⟩
  rw [KeysInput.bytes, hostDecode_keyboard, hfields]
  exact hcs

/-- One relative axis: a byte other than `0x80` is its two's complement value. -/
theorem axesField_variableControl (usages : List UsageRange) (count i : ℕ) {u : Usage}
    {b : UInt8} (hb : b ≠ 0x80) (hu : nthUsage usages i = some u) :
    (axesField usages count).variableControl i (bitValue (bits 8 b.toNat)) =
      some ⟨u, signedOf 8 b.toNat⟩ := by
  have hlt : b.toNat < 256 := b.toNat_lt
  have hne : b.toNat ≠ 128 := fun h => hb (UInt8.toNat_inj.mp h)
  have hval : bitValue (bits 8 b.toNat) = b.toNat := by
    rw [bitValue_bits]
    exact Nat.mod_eq_of_lt hlt
  have hlogical : (axesField usages count).logical b.toNat = signedOf 8 b.toNat := rfl
  have hrange : (axesField usages count).logicalMinimum ≤ signedOf 8 b.toNat ∧
      signedOf 8 b.toNat ≤ (axesField usages count).logicalMaximum := by
    simp only [axesField, signedOf]
    split <;> omega
  have husages : (axesField usages count).usages = usages := rfl
  simp only [ReportField.variableControl, hval, hlogical, if_pos hrange, husages, hu,
    Option.map_some]

/-- What the host reads out of a `pointing_input`. -/
theorem hostDecode_pointingInput {r : PointingInput} (hx : r.x ≠ 0x80) (hy : r.y ≠ 0x80)
    (hv : r.verticalWheel ≠ 0x80) (hh : r.horizontalWheel ≠ 0x80) :
    hostDecode pointingReportDescriptor r.bytes =
      some (buttonsField.controls 0 ((bits 32 r.buttons.raw.toNat).map Bool.toNat) ++
        [⟨⟨0x01, 0x30⟩, signedOf 8 r.x.toNat⟩, ⟨⟨0x01, 0x31⟩, signedOf 8 r.y.toNat⟩,
          ⟨⟨0x01, 0x38⟩, signedOf 8 r.verticalWheel.toNat⟩,
          ⟨⟨0x0c, 0x238⟩, signedOf 8 r.horizontalWheel.toNat⟩]) := by
  obtain ⟨fs, hfs, hany, hfields⟩ := parse_pointingReportDescriptor
  have hbits : bitStream r.bytes =
      bits 32 r.buttons.raw.toNat ++ (bits 8 r.x.toNat ++ (bits 8 r.y.toNat ++
        (bits 8 r.verticalWheel.toNat ++ (bits 8 r.horizontalWheel.toNat ++ [])))) := by
    rw [PointingInput.bytes, bitStream_append, LittleEndian.bitStream_bytes]
    rfl
  have hwheels := readFields_data (f := axesField [⟨0x0c, 0x238, 0x238⟩] 1) rfl
    (readValues_succ (length_bits 8 r.horizontalWheel.toNat) []) (readFields_nil)
  have hwheel := readFields_data (f := axesField [⟨0x01, 0x38, 0x38⟩] 1) rfl
    (readValues_succ (length_bits 8 r.verticalWheel.toNat) _) hwheels
  have htwo : readValues 8 2 (bits 8 r.x.toNat ++ (bits 8 r.y.toNat ++
      (bits 8 r.verticalWheel.toNat ++ (bits 8 r.horizontalWheel.toNat ++ [])))) =
      some ([bitValue (bits 8 r.x.toNat), bitValue (bits 8 r.y.toNat)],
        bits 8 r.verticalWheel.toNat ++ (bits 8 r.horizontalWheel.toNat ++ [])) := by
    rw [readValues_succ (length_bits 8 _), readValues_succ (length_bits 8 _)]
    rfl
  have haxes := readFields_data
    (f := axesField [⟨0x01, 0x30, 0x30⟩, ⟨0x01, 0x31, 0x31⟩] 2) rfl htwo hwheel
  have hall := readFields_data (f := buttonsField) rfl
    (readValues_bits 32 r.buttons.raw.toNat _) haxes
  have hx' := axesField_variableControl [⟨0x01, 0x30, 0x30⟩, ⟨0x01, 0x31, 0x31⟩] 2 0 hx rfl
  have hy' := axesField_variableControl [⟨0x01, 0x30, 0x30⟩, ⟨0x01, 0x31, 0x31⟩] 2 1 hy rfl
  have hv' := axesField_variableControl [⟨0x01, 0x38, 0x38⟩] 1 0 hv rfl
  have hh' := axesField_variableControl [⟨0x0c, 0x238, 0x238⟩] 1 0 hh rfl
  have hvar : ∀ us n, (axesField us n).isVariable = true := fun _ _ => rfl
  simp only [hostDecode, hfs, Option.bind_some, decode, hany, Bool.false_eq_true, if_false,
    hfields, hbits]
  refine hall.trans (congrArg some (congrArg _ ?_))
  simp [ReportField.controls, hvar, hx', hy', hv', hh']

/-- The report structures and the report descriptors agree. A keyboard report
whose key usages lie in the range of its report decodes to exactly the usages
held in its keys, on the page of its type, and for `keyboard_input` also the
usages of its modifiers; a pointing report decodes to its 32 buttons and the
signed values of its four axes. `hostDecode` answers only if the fields use up
the report exactly, so no byte is missing or left over. -/
theorem reports_agree_with_descriptors :
    (∀ ops : List KeyboardInputOp,
      (∀ op ∈ ops, ∀ key, op.key? = some key → 1 ≤ key.toNat ∧ key.toNat ≤ 255) →
      ∃ cs, hostDecode keyboardReportDescriptor
          (ops.foldl KeyboardInputOp.apply KeyboardInput.init).bytes = some cs ∧
        ∀ u, Asserts cs u ↔ u.page = 0x07 ∧
          ((ops.foldl KeyboardInputOp.apply KeyboardInput.init).keys.Holds u.id ∨
            ∃ m, (ops.foldl KeyboardInputOp.apply KeyboardInput.init).modifiers.existsModifier m
                = true ∧
              u.id = 0xe0 + m.bit)) ∧
    (∀ (t : KeysReport) (ops : List KeysOp),
      (∀ op ∈ ops, ∀ key, op.key? = some key → 1 ≤ key.toNat ∧ key.toNat ≤ t.maximum) →
      ∃ cs, hostDecode keyboardReportDescriptor (t.after ops).bytes = some cs ∧
        ∀ u, Asserts cs u ↔ u.page = t.page ∧ (t.after ops).keys.Holds u.id) ∧
    (∀ (ops : List ButtonsOp) (x y verticalWheel horizontalWheel : UInt8),
      x ≠ 0x80 → y ≠ 0x80 → verticalWheel ≠ 0x80 → horizontalWheel ≠ 0x80 →
      ∃ cs, hostDecode pointingReportDescriptor
          (PointingInput.mk (ops.foldl ButtonsOp.apply Buttons.init) x y verticalWheel
            horizontalWheel).bytes = some cs ∧
        ∀ u v, ⟨u, v⟩ ∈ cs ↔
          (∃ b : UInt8, 1 ≤ b ∧ b ≤ 32 ∧ u = ⟨0x09, b.toNat⟩ ∧
            v = if (ops.foldl ButtonsOp.apply Buttons.init).existsButton b then 1 else 0) ∨
          (u = ⟨0x01, 0x30⟩ ∧ v = signedOf 8 x.toNat) ∨
          (u = ⟨0x01, 0x31⟩ ∧ v = signedOf 8 y.toNat) ∨
          (u = ⟨0x01, 0x38⟩ ∧ v = signedOf 8 verticalWheel.toNat) ∨
          (u = ⟨0x0c, 0x238⟩ ∧ v = signedOf 8 horizontalWheel.toNat)) := by
  have hzero : ∀ {n : ℕ}, ∀ k ∈ Keys.init.slots, k = 0 ∨ 1 ≤ k.toNat ∧ k.toNat ≤ n :=
    fun k hk => .inl (List.eq_of_mem_replicate hk)
  refine ⟨?_, ?_, ?_⟩
  · intro ops hops
    obtain ⟨hid, -, hslots⟩ := keyboardInputOps_slots
      (P := fun k => 1 ≤ k.toNat ∧ k.toNat ≤ 255) (r := KeyboardInput.init) hzero hops
    exact hostDecode_keyboardInput hid fun k hk => slot_le (hslots k hk)
  · intro t ops hops
    have hinit : t.init.keys = Keys.init := by cases t <;> rfl
    have hstart : ∀ k ∈ t.init.keys.slots, k = 0 ∨ 1 ≤ k.toNat ∧ k.toNat ≤ t.maximum :=
      hinit ▸ hzero
    have hslots := keysOps_slots (P := fun k => 1 ≤ k.toNat ∧ k.toNat ≤ t.maximum) hstart hops
    exact hostDecode_keysInput fun k hk => slot_le (hslots k hk)
  · intro ops x y v h hx hy hv hh
    refine ⟨_, hostDecode_pointingInput hx hy hv hh, ?_⟩
    intro u w
    rw [List.mem_append, mem_controls_bits 0x09 1 32 rfl rfl rfl rfl]
    refine or_congr ?_ (by simp)
    constructor
    · rintro ⟨i, hi, hc⟩
      obtain ⟨rfl, rfl⟩ := Control.mk.inj hc
      have hb : (UInt8.ofNat (1 + i)).toNat = 1 + i := by
        rw [UInt8.toNat_ofNat']
        exact Nat.mod_eq_of_lt (by omega)
      have h1 : 1 ≤ UInt8.ofNat (1 + i) := by
        rw [UInt8.le_iff_toNat_le, hb]
        exact Nat.le_add_right 1 i
      have h32 : UInt8.ofNat (1 + i) ≤ 32 := by
        rw [UInt8.le_iff_toNat_le, hb]
        change 1 + i ≤ 32
        omega
      refine ⟨UInt8.ofNat (1 + i), h1, h32, by rw [hb], ?_⟩
      simp only [Buttons.existsButton_iff ⟨h1, h32⟩, hb, Nat.add_sub_cancel_left]
    · rintro ⟨b, h1, h32, rfl, rfl⟩
      have h1' : 1 ≤ b.toNat := UInt8.le_iff_toNat_le.mp h1
      have h32' : b.toNat ≤ 32 := UInt8.le_iff_toNat_le.mp h32
      refine ⟨b.toNat - 1, by omega, ?_⟩
      simp only [Buttons.existsButton_iff ⟨h1, h32⟩, Nat.add_sub_cancel' h1']

/-- Shift and `e` held: the host sees the two usages and nothing else. -/
theorem keyboard_report_shift_e :
    ∃ cs, hostDecode keyboardReportDescriptor
        ([.modifiers (.insert .leftShift), .keys (.insert 8)].foldl KeyboardInputOp.apply
          KeyboardInput.init).bytes = some cs ∧
      Asserts cs ⟨0x07, 0xe1⟩ ∧ Asserts cs ⟨0x07, 8⟩ ∧ ¬Asserts cs ⟨0x07, 9⟩ := by
  have hops : ∀ op ∈ [KeyboardInputOp.modifiers (.insert .leftShift), .keys (.insert 8)],
      ∀ key, op.key? = some key → 1 ≤ key.toNat ∧ key.toNat ≤ 255 := by
    intro op hop key hkey
    simp only [List.mem_cons, List.not_mem_nil, or_false] at hop
    rcases hop with rfl | rfl
    · cases hkey
    · cases hkey
      decide
  obtain ⟨cs, hcs, hheld⟩ := reports_agree_with_descriptors.1 _ hops
  refine ⟨cs, hcs, (hheld _).mpr ?_, (hheld _).mpr ?_, fun h => ?_⟩
  · exact ⟨rfl, .inr ⟨.leftShift, by decide, rfl⟩⟩
  · exact ⟨rfl, .inl ⟨8, by decide, by decide, rfl⟩⟩
  · obtain ⟨-, ⟨k, -, hk, hid⟩ | ⟨m, -, hm⟩⟩ := (hheld _).mp h
    · obtain rfl : k = 9 := UInt16.toNat_inj.mp hid
      revert hk
      decide
    · cases m <;> cases hm

end VirtualHidDevice
