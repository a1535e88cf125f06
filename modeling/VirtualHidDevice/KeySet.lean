import Mathlib.Data.Finset.Card
import Mathlib.Data.List.Perm.Basic
import VirtualHidDevice.HidReport

/-!
# `keys` as a bounded set, `modifiers` and `buttons` as sets

What `hid_report::keys` is for: a set of usages with room for 32 of them. Zero marks a
free slot, so it is never an element. The modifiers and the 32 buttons have a bit each.

* `KeySet.apply` — the calls on the set, in the set's own terms.
* `Keys.held` — the usages that are held in the slots.
* `Keys.Represents` — the slots hold each element of the set once; every call keeps it.
* `modifiers_is_set`, `buttons_is_set` — the same for the bits.
-/

namespace VirtualHidDevice

/-! ## The set -/

/-- How many keys a report holds at once. -/
def KeySet.capacity : ℕ := 32

/-- One call, on the set: there is no room for more than 32 keys, and zero is no key. -/
def KeySet.apply (S : Finset UInt16) : KeysOp → Finset UInt16
  | .insert key => if key ≠ 0 ∧ S.card < KeySet.capacity then insert key S else S
  | .erase key => S.erase key
  | .clear => ∅

/-! ## The slots -/

namespace Keys

/-- The keys in the slots. -/
def held (keys : Keys) : List UInt16 := keys.slots.filter (· ≠ 0)

/-- The slots hold the set, each element once. -/
structure Represents (keys : Keys) (S : Finset UInt16) : Prop where
  /-- no key is held twice -/
  nodup : keys.held.Nodup
  /-- the keys that are held -/
  mem : ∀ k, k ∈ keys.held ↔ k ∈ S

theorem mem_held {keys : Keys} {k : UInt16} : k ∈ keys.held ↔ k ∈ keys.slots ∧ k ≠ 0 := by
  simp [held]

theorem existsKey_iff {keys : Keys} {k : UInt16} : keys.existsKey k = true ↔ k ∈ keys.slots := by
  simp [existsKey]

/-- Without a free slot, the loop of `insert` changes nothing. -/
theorem fillFirst_of_full (key : UInt16) {slots : List UInt16} (h : 0 ∉ slots) :
    fillFirst key slots = slots := by
  induction slots with
  | nil => rfl
  | cons k slots ih =>
    rw [List.mem_cons, not_or] at h
    rw [fillFirst, if_neg (Ne.symm h.1), ih h.2]

/-- With a free slot, it adds the key to those that are held. -/
theorem fillFirst_perm {key : UInt16} (hkey : key ≠ 0) {slots : List UInt16} (h : 0 ∈ slots) :
    ((fillFirst key slots).filter (· ≠ 0)).Perm (key :: slots.filter (· ≠ 0)) := by
  induction slots with
  | nil => cases h
  | cons k slots ih =>
    by_cases hk : k = 0
    · rw [fillFirst, if_pos hk, List.filter_cons_of_pos (by simpa using hkey),
        List.filter_cons_of_neg (by simp [hk])]
    · have hrest : 0 ∈ slots := (List.mem_cons.mp h).resolve_left (Ne.symm hk)
      rw [fillFirst, if_neg hk, List.filter_cons_of_pos (by simpa using hk),
        List.filter_cons_of_pos (by simpa using hk)]
      exact ((ih hrest).cons k).trans (List.Perm.swap key k _)

/-- Slots are free exactly while there is room. -/
theorem zero_mem_iff (keys : Keys) : 0 ∈ keys.slots ↔ keys.held.length < KeySet.capacity := by
  rw [held, KeySet.capacity, ← keys.length_slots, List.length_filter_lt_length_iff_exists]
  simp

/-- `erase` takes the key from those that are held. -/
theorem held_erase (keys : Keys) (key : UInt16) :
    (keys.erase key).held = keys.held.filter (· ≠ key) := by
  rw [held, held, List.filter_filter]
  change (keys.slots.map fun k => if k = key then 0 else k).filter (· ≠ 0) = _
  induction keys.slots with
  | nil => rfl
  | cons k slots ih =>
    by_cases hk : k = key
    · by_cases hzero : key = 0 <;> simpa [hk, hzero] using ih
    · by_cases hzero : k = 0 <;> simpa [hk, hzero] using ih

namespace Represents

variable {keys : Keys} {S : Finset UInt16}

/-- The set is the set of keys that are held. -/
theorem toFinset_eq (h : keys.Represents S) : keys.held.toFinset = S := by
  ext k
  rw [List.mem_toFinset, h.mem]

theorem card_eq (h : keys.Represents S) : S.card = keys.held.length := by
  rw [← h.toFinset_eq, List.toFinset_card_of_nodup h.nodup]

/-- `insert`: the key is there already, or there is no room, or a free slot takes it. -/
theorem insert (h : keys.Represents S) (key : UInt16) :
    (keys.insert key).Represents (KeySet.apply S (.insert key)) := by
  rw [KeySet.apply, Keys.insert]
  by_cases hthere : keys.existsKey key = true
  · rw [if_pos hthere]
    split
    next hroom =>
      have hmem : key ∈ S := (h.mem key).mp (mem_held.mpr ⟨existsKey_iff.mp hthere, hroom.1⟩)
      rw [Finset.insert_eq_self.mpr hmem]
      exact h
    next => exact h
  · rw [if_neg hthere]
    by_cases hfree : 0 ∈ keys.slots
    · -- the key is not zero, as zero is there
      have hkey : key ≠ 0 := by
        rintro rfl
        exact hthere (existsKey_iff.mpr hfree)
      have hroom : S.card < KeySet.capacity := by
        rw [h.card_eq]
        exact (zero_mem_iff keys).mp hfree
      have hperm := fillFirst_perm hkey hfree
      rw [if_pos ⟨hkey, hroom⟩]
      refine ⟨?_, fun k => ?_⟩
      · refine hperm.nodup_iff.mpr (List.nodup_cons.mpr ⟨fun hmem => ?_, h.nodup⟩)
        exact hthere (existsKey_iff.mpr (mem_held.mp hmem).1)
      · rw [held, hperm.mem_iff, List.mem_cons, Finset.mem_insert, ← h.mem, held]
    · have hfull : ¬ S.card < KeySet.capacity := by
        rw [h.card_eq]
        exact fun hlt => hfree ((zero_mem_iff keys).mpr hlt)
      rw [if_neg (fun hroom => hfull hroom.2)]
      have hsame : (⟨fillFirst key keys.slots,
          (length_fillFirst key keys.slots).trans keys.length_slots⟩ : Keys) = keys :=
        Keys.ext (fillFirst_of_full key hfree)
      rw [hsame]
      exact h

/-- `erase`: the key is held in no slot any more. -/
theorem erase (h : keys.Represents S) (key : UInt16) :
    (keys.erase key).Represents (KeySet.apply S (.erase key)) := by
  rw [KeySet.apply]
  refine ⟨?_, fun k => ?_⟩
  · rw [held_erase]
    exact h.nodup.filter _
  · rw [held_erase, List.mem_filter, h.mem, Finset.mem_erase, decide_eq_true_eq, and_comm]

/-- A new object, and one that was cleared, holds nothing. -/
theorem init : Keys.init.Represents ∅ := by
  have hheld : Keys.init.held = [] := by decide
  exact ⟨hheld ▸ List.nodup_nil, fun k => by simp [hheld]⟩

/-- Every call does to the slots what it does to the set. -/
theorem apply (h : keys.Represents S) (op : KeysOp) :
    (op.apply keys).Represents (KeySet.apply S op) := by
  cases op with
  | insert key => exact h.insert key
  | erase key => exact h.erase key
  | clear => exact init

/-- And so does every sequence of calls. -/
theorem run (h : keys.Represents S) (ops : List KeysOp) :
    (ops.foldl KeysOp.apply keys).Represents (ops.foldl KeySet.apply S) := by
  induction ops generalizing keys S with
  | nil => exact h
  | cons op ops ih => exact ih (h.apply op)

/-- What the observers say about the set. -/
theorem existsKey_eq (h : keys.Represents S) {k : UInt16} (hk : k ≠ 0) :
    keys.existsKey k = true ↔ k ∈ S := by
  rw [existsKey_iff, ← h.mem, mem_held]
  exact ⟨fun hmem => ⟨hmem, hk⟩, And.left⟩

theorem count_eq (h : keys.Represents S) : keys.count = S.card := by
  rw [h.card_eq, held, count, List.countP_eq_length_filter]
  congr 2
  funext k
  by_cases hk : k = 0 <;> simp [hk]

theorem empty_eq (h : keys.Represents S) : keys.empty = true ↔ S = ∅ := by
  rw [empty, List.all_eq_true, Finset.eq_empty_iff_forall_notMem]
  refine ⟨fun hzero k hk => ?_, fun hempty k hk => ?_⟩
  · obtain ⟨hmem, hne⟩ := mem_held.mp ((h.mem k).mpr hk)
    exact hne (beq_iff_eq.mp (hzero k hmem))
  · by_contra hne
    exact hempty k ((h.mem k).mp (mem_held.mpr ⟨hk, by simpa using hne⟩))

end Represents

/-- Zero is found, or no slot is free. -/
theorem insert_zero (keys : Keys) : keys.insert 0 = keys := by
  rw [insert]
  split
  next => rfl
  next hthere =>
    exact Keys.ext (fillFirst_of_full 0 fun hmem => hthere (existsKey_iff.mpr hmem))

theorem erase_zero (keys : Keys) : keys.erase 0 = keys := by
  refine Keys.ext ?_
  refine (List.map_congr_left fun k _ => ?_).trans (List.map_id _)
  split
  next hk => rw [hk]; rfl
  next => rfl

/-- After `erase`, no second copy is left. -/
theorem existsKey_erase (keys : Keys) {k : UInt16} (hk : k ≠ 0) :
    (keys.erase k).existsKey k = false := by
  refine Bool.eq_false_iff.mpr fun hthere => ?_
  obtain ⟨a, -, ha⟩ := List.mem_map.mp (existsKey_iff.mp hthere)
  split at ha
  next => exact hk ha.symm
  next hne => exact hne ha

end Keys

/-- `keys` is a set of usages that are not zero, with room for 32 of them: after any calls, the
slots hold each element once, the observers answer as the set does, and zero changes nothing. -/
theorem keys_is_bounded_set (ops : List KeysOp) :
    let keys := ops.foldl KeysOp.apply Keys.init
    let S := ops.foldl KeySet.apply ∅
    (keys.slots.filter (· ≠ 0)).Nodup ∧ (∀ k, k ∈ keys.slots.filter (· ≠ 0) ↔ k ∈ S) ∧
      (∀ k, k ≠ 0 → (keys.existsKey k = true ↔ k ∈ S)) ∧ keys.count = S.card ∧
      (keys.empty = true ↔ S = ∅) ∧ keys.insert 0 = keys ∧ keys.erase 0 = keys ∧
      ∀ k, k ≠ 0 → (keys.erase k).existsKey k = false := by
  intro keys S
  have h : keys.Represents S := Keys.Represents.init.run ops
  exact ⟨h.nodup, h.mem, fun k hk => h.existsKey_eq hk, h.count_eq, h.empty_eq, keys.insert_zero,
    keys.erase_zero, fun k hk => keys.existsKey_erase hk⟩

/-- A slot that was freed is the next one to be used. -/
example : (([.insert 4, .insert 5, .erase 4, .insert 5, .insert 6] : List KeysOp).foldl
    KeysOp.apply Keys.init).slots.take 3 = [6, 5, 0] := by decide

/-! ## The modifiers and the buttons -/

/-- One call, on the set of modifiers. -/
def ModifiersOp.applySet (S : Finset Modifier) : ModifiersOp → Finset Modifier
  | insert m => Insert.insert m S
  | erase m => S.erase m
  | clear => ∅

/-- One call, on the set of buttons: only those from 1 to 32 count. -/
def ButtonsOp.applySet (S : Finset UInt8) : ButtonsOp → Finset UInt8
  | insert button => if 1 ≤ button ∧ button ≤ 32 then Insert.insert button S else S
  | erase button => S.erase button
  | clear => ∅

/-- Every call does to the bits what it does to the set. -/
theorem ModifiersOp.apply_set {ms : Modifiers} {S : Finset Modifier}
    (h : ∀ m, ms.existsModifier m = true ↔ m ∈ S) (op : ModifiersOp) (m : Modifier) :
    (op.apply ms).existsModifier m = true ↔ m ∈ op.applySet S := by
  cases op with
  | insert n => rw [apply, applySet, Modifiers.existsModifier_insert, Finset.mem_insert, h]
  | erase n => rw [apply, applySet, Modifiers.existsModifier_erase, Finset.mem_erase, h]
  | clear =>
    rw [apply, applySet, Modifiers.not_existsModifier_clear]
    exact iff_of_false Bool.false_ne_true (Finset.notMem_empty m)

theorem ButtonsOp.apply_set {bs : Buttons} {S : Finset UInt8}
    (h : ∀ b, bs.existsButton b = true ↔ b ∈ S) (op : ButtonsOp) (b : UInt8) :
    (op.apply bs).existsButton b = true ↔ b ∈ op.applySet S := by
  cases op with
  | insert button =>
    rw [apply, applySet, Buttons.existsButton_insert, h]
    split
    next hbutton => rw [Finset.mem_insert, and_iff_left hbutton]
    next hbutton => exact or_iff_right fun hnew => hbutton hnew.2
  | erase button => rw [apply, applySet, Buttons.existsButton_erase, Finset.mem_erase, h]
  | clear =>
    rw [apply, applySet, Buttons.not_existsButton_clear]
    exact iff_of_false Bool.false_ne_true (Finset.notMem_empty b)

/-- `modifiers` is a set of modifiers: after any calls, `exists` answers as the set does. -/
theorem modifiers_is_set (ops : List ModifiersOp) (m : Modifier) :
    (ops.foldl ModifiersOp.apply Modifiers.init).existsModifier m = true ↔
      m ∈ ops.foldl ModifiersOp.applySet ∅ := by
  induction ops using List.reverseRecOn generalizing m with
  | nil =>
    change Modifiers.init.clear.existsModifier m = true ↔ m ∈ (∅ : Finset Modifier)
    rw [Modifiers.not_existsModifier_clear]
    exact iff_of_false Bool.false_ne_true (Finset.notMem_empty m)
  | append_singleton ops op ih =>
    rw [List.foldl_append, List.foldl_append]
    exact op.apply_set ih m

/-- `buttons` is a set of the buttons from 1 to 32. -/
theorem buttons_is_set (ops : List ButtonsOp) (b : UInt8) :
    (ops.foldl ButtonsOp.apply Buttons.init).existsButton b = true ↔
      b ∈ ops.foldl ButtonsOp.applySet ∅ := by
  induction ops using List.reverseRecOn generalizing b with
  | nil =>
    change Buttons.init.clear.existsButton b = true ↔ b ∈ (∅ : Finset UInt8)
    rw [Buttons.not_existsButton_clear]
    exact iff_of_false Bool.false_ne_true (Finset.notMem_empty b)
  | append_singleton ops op ih =>
    rw [List.foldl_append, List.foldl_append]
    exact op.apply_set ih b

end VirtualHidDevice
