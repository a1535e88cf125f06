import VirtualHidDevice.LittleEndian

/-!
# HID report descriptors

The host's side of a HID device, after the short-item rules of the HID 1.11
device class definition: a descriptor is a byte program whose global items
persist (and can be pushed and popped), whose local items are consumed by the
next main item, and whose main items lay out the fields of the reports.

* `items` — split the bytes into short items.
* `State.exec`, `parse` — run the items; the result is the list of `ReportField`s in
  the order in which they occupy the reports.
* `decode` — read a report with the fields of its report id. It answers only if
  the fields use up the report exactly: no bit is missing and none is left.

A `Control` is a usage with its value. In a variable field the `i`-th value
belongs to the `i`-th usage; in an array field a value is itself the index of
the usage it asserts. Values outside the logical range report nothing, and
usage id 0, which every usage page leaves undefined, asserts no control.
-/

namespace HidDescriptor

open LittleEndian

/-! ## Items -/

/-- A short item: its prefix byte, split into tag and type, and its data. -/
structure Item where
  /-- `bTag`, the high four bits -/
  tag : ℕ
  /-- `bType`: 0 main, 1 global, 2 local -/
  type : ℕ
  /-- the data bytes -/
  data : List UInt8
  deriving DecidableEq

/-- The item with this prefix byte and data. -/
def Item.ofByte (b : UInt8) (data : List UInt8) : Item :=
  ⟨b.toNat / 16, b.toNat / 4 % 4, data⟩

/-- Split a descriptor into short items. The prefix `0xfe` announces a long
item, which has no meaning here; an item cut short has none either. -/
def items : List UInt8 → Option (List Item)
  | [] => some []
  | b :: bs =>
    if b = 0xfe then none else
    match b.toNat % 4, bs with
    | 0, rest => (items rest).map (Item.ofByte b [] :: ·)
    | 1, d₀ :: rest => (items rest).map (Item.ofByte b [d₀] :: ·)
    | 2, d₀ :: d₁ :: rest => (items rest).map (Item.ofByte b [d₀, d₁] :: ·)
    | 3, d₀ :: d₁ :: d₂ :: d₃ :: rest =>
      (items rest).map (Item.ofByte b [d₀, d₁, d₂, d₃] :: ·)
    | _, _ => none

/-- The data as an unsigned number. -/
def Item.unsigned (i : Item) : ℕ := value i.data

/-- `n` read as a two's complement number of the given width. -/
def signedOf (width n : ℕ) : ℤ :=
  if n < 2 ^ (width - 1) then n else (n : ℤ) - 2 ^ width

/-- The data as a signed number of its own width. -/
def Item.signed (i : Item) : ℤ := signedOf (8 * i.data.length) i.unsigned

/-! ## The parser state -/

/-- A usage: a usage page and a usage id on it. -/
structure Usage where
  /-- the usage page -/
  page : ℕ
  /-- the usage id -/
  id : ℕ
  deriving DecidableEq

/-- The usages `first..last` of one page. -/
structure UsageRange where
  /-- the usage page -/
  page : ℕ
  /-- the first usage id -/
  first : ℕ
  /-- the last usage id -/
  last : ℕ
  deriving DecidableEq

/-- The `n`-th usage of a list of ranges. -/
def nthUsage : List UsageRange → ℕ → Option Usage
  | [], _ => none
  | r :: rs, n =>
    if n ≤ r.last - r.first then some ⟨r.page, r.first + n⟩
    else nthUsage rs (n - (r.last - r.first + 1))

/-- The global item state table. -/
structure Globals where
  /-- usage page -/
  usagePage : ℕ
  /-- logical minimum -/
  logicalMinimum : ℤ
  /-- logical maximum -/
  logicalMaximum : ℤ
  /-- physical minimum -/
  physicalMinimum : ℤ
  /-- physical maximum -/
  physicalMaximum : ℤ
  /-- report size, in bits -/
  reportSize : ℕ
  /-- report count -/
  reportCount : ℕ
  /-- report id, if one was given -/
  reportId : Option ℕ
  deriving DecidableEq

/-- Which reports a field belongs to. -/
inductive FieldKind where
  /-- device to host -/
  | input
  /-- host to device -/
  | output
  /-- both ways, on request -/
  | feature
  deriving DecidableEq

/-- What one input, output or feature item declares. -/
structure ReportField where
  /-- input, output or feature -/
  kind : FieldKind
  /-- the report the field is part of -/
  reportId : Option ℕ
  /-- constant fields carry no data -/
  isConstant : Bool
  /-- one control for each value, as opposed to an array of indices -/
  isVariable : Bool
  /-- the usages, in order -/
  usages : List UsageRange
  /-- logical minimum -/
  logicalMinimum : ℤ
  /-- logical maximum -/
  logicalMaximum : ℤ
  /-- width of a value, in bits -/
  size : ℕ
  /-- number of values -/
  count : ℕ
  deriving DecidableEq

/-- The state of the item parser. -/
structure State where
  /-- the global items in force -/
  globals : Globals
  /-- what Push has saved -/
  stack : List Globals
  /-- the usages given since the last main item -/
  usages : List UsageRange
  /-- an open Usage Minimum -/
  usageMinimum : Option ℕ
  /-- open collections -/
  depth : ℕ
  /-- the fields declared so far -/
  fields : List ReportField
  deriving DecidableEq

/-- The state a parser starts in. -/
def State.init : State := ⟨⟨0, 0, 0, 0, 0, 0, 0, none⟩, [], [], none, 0, []⟩

namespace State

/-- A main item consumes the local items. -/
def endLocals (s : State) : State := { s with usages := [], usageMinimum := none }

/-- Input, Output and Feature: declare a field from the state. Bit 0 of the
data says constant, bit 1 says variable. -/
def addField (s : State) (kind : FieldKind) (flags : ℕ) : State :=
  { s.endLocals with
    fields := s.fields ++
      [{ kind := kind
         reportId := s.globals.reportId
         isConstant := flags % 2 == 1
         isVariable := flags / 2 % 2 == 1
         usages := s.usages
         logicalMinimum := s.globals.logicalMinimum
         logicalMaximum := s.globals.logicalMaximum
         size := s.globals.reportSize
         count := s.globals.reportCount }] }

/-- A main item. -/
def execMain (s : State) (i : Item) : Option State :=
  match i.tag with
  | 0x8 => some (s.addField .input i.unsigned)
  | 0x9 => some (s.addField .output i.unsigned)
  | 0xb => some (s.addField .feature i.unsigned)
  | 0xa => some { s.endLocals with depth := s.depth + 1 }
  | 0xc => if s.depth = 0 then none else some { s.endLocals with depth := s.depth - 1 }
  | _ => none

/-- A global item. Units have no part in the layout. -/
def execGlobal (s : State) (i : Item) : Option State :=
  match i.tag with
  | 0x0 => some { s with globals.usagePage := i.unsigned }
  | 0x1 => some { s with globals.logicalMinimum := i.signed }
  | 0x2 => some { s with globals.logicalMaximum := i.signed }
  | 0x3 => some { s with globals.physicalMinimum := i.signed }
  | 0x4 => some { s with globals.physicalMaximum := i.signed }
  | 0x5 => some s
  | 0x6 => some s
  | 0x7 => some { s with globals.reportSize := i.unsigned }
  | 0x8 => some { s with globals.reportId := some i.unsigned }
  | 0x9 => some { s with globals.reportCount := i.unsigned }
  | 0xa => some { s with stack := s.globals :: s.stack }
  | 0xb =>
    match s.stack with
    | [] => none
    | g :: rest => some { s with globals := g, stack := rest }
  | _ => none

/-- A usage item: four data bytes carry their own page, fewer use the page in
force. -/
def usageOf (s : State) (i : Item) : Usage :=
  if i.data.length = 4 then ⟨i.unsigned / 65536, i.unsigned % 65536⟩
  else ⟨s.globals.usagePage, i.unsigned⟩

/-- A local item. Designators, strings and delimiters have no part in the
layout. -/
def execLocal (s : State) (i : Item) : Option State :=
  match i.tag with
  | 0x0 =>
    let u := s.usageOf i
    some { s with usages := s.usages ++ [⟨u.page, u.id, u.id⟩] }
  | 0x1 => some { s with usageMinimum := some (s.usageOf i).id }
  | 0x2 =>
    match s.usageMinimum with
    | none => none
    | some first =>
      let u := s.usageOf i
      some { s with usages := s.usages ++ [⟨u.page, first, u.id⟩], usageMinimum := none }
  | _ => some s

/-- One item. -/
def exec (s : State) (i : Item) : Option State :=
  match i.type with
  | 0 => s.execMain i
  | 1 => s.execGlobal i
  | 2 => s.execLocal i
  | _ => none

/-- All items, one after the other. -/
def execAll : State → List Item → Option State
  | s, [] => some s
  | s, i :: is => (s.exec i).bind fun t => execAll t is

end State

/-- The fields a descriptor declares; every collection must be closed. -/
def parse (descriptor : List UInt8) : Option (List ReportField) := do
  let is ← items descriptor
  let s ← State.init.execAll is
  if s.depth = 0 then some s.fields else none

/-! ## Reading a report -/

/-- A control with its value. -/
structure Control where
  /-- which control -/
  usage : Usage
  /-- its value -/
  value : ℤ
  deriving DecidableEq

/-- The next `count` values of `size` bits each, and what follows them. -/
def readValues (size : ℕ) : ℕ → List Bool → Option (List ℕ × List Bool)
  | 0, bs => some ([], bs)
  | count + 1, bs =>
    if bs.length < size then none
    else (readValues size count (bs.drop size)).map fun p =>
      (bitValue (bs.take size) :: p.1, p.2)

namespace ReportField

/-- A raw value as the field means it: signed if the logical minimum is. -/
def logical (f : ReportField) (raw : ℕ) : ℤ :=
  if f.logicalMinimum < 0 then signedOf f.size raw else raw

/-- The control an array value asserts: the usage it is the index of. -/
def arrayControl (f : ReportField) (raw : ℕ) : Option Control :=
  let v := f.logical raw
  if f.logicalMinimum ≤ v ∧ v ≤ f.logicalMaximum then
    (nthUsage f.usages (v - f.logicalMinimum).toNat).bind fun u =>
      if u.id = 0 then none else some ⟨u, 1⟩
  else none

/-- The control the `i`-th value of a variable field belongs to. -/
def variableControl (f : ReportField) (i raw : ℕ) : Option Control :=
  let v := f.logical raw
  if f.logicalMinimum ≤ v ∧ v ≤ f.logicalMaximum then
    (nthUsage f.usages i).map fun u => ⟨u, v⟩
  else none

/-- The controls of the field's values, from index `i` on. -/
def controls (f : ReportField) (i : ℕ) : List ℕ → List Control
  | [] => []
  | raw :: raws =>
    let c := if f.isVariable then f.variableControl i raw else f.arrayControl raw
    c.toList ++ f.controls (i + 1) raws

end ReportField

/-- Read the fields one after the other; the bits must be used up exactly. -/
def readFields : List ReportField → List Bool → Option (List Control)
  | [], bs => if bs = [] then some [] else none
  | f :: fs, bs => do
    let p ← readValues f.size f.count bs
    let rest ← readFields fs p.2
    if f.isConstant then some rest else some (f.controls 0 p.1 ++ rest)

/-- The input fields of one report. -/
def inputFields (fs : List ReportField) (id : Option ℕ) : List ReportField :=
  fs.filter fun f => f.kind = .input ∧ f.reportId = id

/-- Decode an input report. If the descriptor uses report ids, the report
starts with the id byte. -/
def decode (fs : List ReportField) (report : List UInt8) : Option (List Control) :=
  if fs.any fun f => f.reportId.isSome then
    match report with
    | [] => none
    | id :: body => readFields (inputFields fs (some id.toNat)) (bitStream body)
  else readFields (inputFields fs none) (bitStream report)

/-- The usages a list of controls asserts: those with a nonzero value. -/
def Asserts (cs : List Control) (u : Usage) : Prop := ∃ v, v ≠ 0 ∧ ⟨u, v⟩ ∈ cs

/-! ## How fields compose -/

/-- A value that stands at the front of the bits is read back. -/
theorem readValues_succ {size count : ℕ} {v : List Bool} (hv : v.length = size)
    (bs : List Bool) :
    readValues size (count + 1) (v ++ bs) =
      (readValues size count bs).map fun p => (bitValue v :: p.1, p.2) := by
  have hlen : ¬(v ++ bs).length < size := by
    rw [List.length_append]
    omega
  rw [readValues, if_neg hlen, ← hv, List.take_left, List.drop_left]

/-- With no field left, all bits are used up. -/
theorem readFields_nil : readFields [] [] = some [] := rfl

/-- A data field contributes the controls of its values. -/
theorem readFields_data {f : ReportField} {fs : List ReportField} {bs rest : List Bool}
    {raws : List ℕ} {cs : List Control} (hf : f.isConstant = false)
    (hread : readValues f.size f.count bs = some (raws, rest))
    (hrest : readFields fs rest = some cs) :
    readFields (f :: fs) bs = some (f.controls 0 raws ++ cs) := by
  simp [readFields, hread, hrest, hf]

/-- A constant field contributes nothing. -/
theorem readFields_constant {f : ReportField} {fs : List ReportField} {bs rest : List Bool}
    {raws : List ℕ} {cs : List Control} (hf : f.isConstant = true)
    (hread : readValues f.size f.count bs = some (raws, rest))
    (hrest : readFields fs rest = some cs) :
    readFields (f :: fs) bs = some cs := by
  simp [readFields, hread, hrest, hf]

/-- Words written one after the other are read back in order. -/
theorem readValues_words {α : Type} (size : ℕ) (word : α → ℕ) (xs : List α) (bs : List Bool) :
    readValues size xs.length ((xs.flatMap fun x => bits size (word x)) ++ bs) =
      some (xs.map fun x => word x % 2 ^ size, bs) := by
  induction xs with
  | nil => rfl
  | cons x xs ih =>
    rw [List.flatMap_cons, List.append_assoc, List.length_cons,
      readValues_succ (length_bits size (word x)), ih]
    simp [bitValue_bits]

/-- The bits of one word, read as values of one bit. -/
theorem readValues_bits (w n : ℕ) (bs : List Bool) :
    readValues 1 w (bits w n ++ bs) = some ((bits w n).map Bool.toNat, bs) := by
  induction w generalizing n with
  | zero => rfl
  | succ w ih =>
    rw [bits, List.cons_append, ← List.singleton_append,
      readValues_succ (List.length_singleton), ih]
    simp [bitValue]

/-- The controls of an array field are those of its values. -/
theorem ReportField.controls_of_array {f : ReportField} (hf : f.isVariable = false) (i : ℕ)
    (raws : List ℕ) : f.controls i raws = raws.filterMap f.arrayControl := by
  induction raws generalizing i with
  | nil => rfl
  | cons raw raws ih =>
    rw [ReportField.controls, ih, hf, List.filterMap_cons]
    rcases f.arrayControl raw with _ | c <;> rfl

/-- The controls of a variable field: the values in their positions. -/
theorem ReportField.mem_controls_of_variable {f : ReportField} (hf : f.isVariable = true)
    {c : Control} {i : ℕ} {raws : List ℕ} :
    c ∈ f.controls i raws ↔
      ∃ j raw, raws[j]? = some raw ∧ f.variableControl (i + j) raw = some c := by
  induction raws generalizing i with
  | nil => simp [ReportField.controls]
  | cons raw raws ih =>
    rw [ReportField.controls, hf, if_pos rfl, List.mem_append, ih, Option.mem_toList]
    constructor
    · rintro (h | ⟨j, r, hj, hc⟩)
      · exact ⟨0, raw, rfl, h⟩
      · refine ⟨j + 1, r, hj, ?_⟩
        rw [← hc]
        congr 1
        omega
    · rintro ⟨j, r, hj, hc⟩
      cases j with
      | zero =>
        obtain rfl := Option.some.inj hj
        exact .inl hc
      | succ j =>
        refine .inr ⟨j, r, hj, ?_⟩
        rw [← hc]
        congr 1
        omega

/-- Asserting distributes over concatenation. -/
theorem asserts_append {cs ds : List Control} {u : Usage} :
    Asserts (cs ++ ds) u ↔ Asserts cs u ∨ Asserts ds u := by
  simp only [Asserts, List.mem_append]
  constructor
  · rintro ⟨v, hv, h | h⟩
    · exact .inl ⟨v, hv, h⟩
    · exact .inr ⟨v, hv, h⟩
  · rintro (⟨v, hv, h⟩ | ⟨v, hv, h⟩)
    · exact ⟨v, hv, .inl h⟩
    · exact ⟨v, hv, .inr h⟩

end HidDescriptor
