import Mathlib.Data.List.Count

/-!
# Reference counts

Objects that live as long as there are references to them. Whoever creates or retains an object
holds a reference, and gives it back with a release.

* `Heap`, with `Heap.create`, `Heap.retain`, `Heap.release` — the latter two need an object that
  is still there.
* `Heap.Owns` — the references to all objects are those in a list of what is held. `Owns.create`,
  `Owns.retain` and `Owns.release` say how the list changes, and that no object is missing.
-/

namespace RefCount

universe u

variable {α : Type u}

/-- The objects that were created, each with the number of references to it. -/
structure Heap (α : Type u) where
  /-- the objects, by the order in which they were created -/
  objects : List (α × ℕ) := []

namespace Heap

/-- What an object is, whether or not there are references to it. -/
def content (h : Heap α) (i : ℕ) : Option α := h.objects[i]?.map Prod.fst

/-- The references to an object. -/
def count (h : Heap α) (i : ℕ) : ℕ := (h.objects[i]?.map Prod.snd).getD 0

/-- An object that is looked at; `none` if there are no references to it. -/
def get (h : Heap α) (i : ℕ) : Option α := if 0 < h.count i then h.content i else none

/-- A new object with one reference. -/
def create (h : Heap α) (a : α) : ℕ × Heap α := (h.objects.length, ⟨h.objects ++ [(a, 1)]⟩)

/-- The number of references is changed. -/
def modifyCount (h : Heap α) (i : ℕ) (f : ℕ → ℕ) : Heap α :=
  ⟨h.objects.modify i fun (a, n) => (a, f n)⟩

/-- One more reference to an object; `none` if there was none. -/
def retain (h : Heap α) (i : ℕ) : Option (Heap α) :=
  if 0 < h.count i then some (h.modifyCount i (· + 1)) else none

/-- One reference less; `none` if there was none. -/
def release (h : Heap α) (i : ℕ) : Option (Heap α) :=
  if 0 < h.count i then some (h.modifyCount i (· - 1)) else none

variable {h h' h'' : Heap α} {i : ℕ} {a : α}

theorem content_modifyCount (f : ℕ → ℕ) (j : ℕ) :
    (h.modifyCount i f).content j = h.content j := by
  rw [content, modifyCount, List.getElem?_modify, content]
  by_cases hij : i = j
  · cases h.objects[j]? <;> simp [hij]
  · cases h.objects[j]? <;> simp [hij]

theorem count_modifyCount (f : ℕ → ℕ) (hpos : 0 < h.count i) (j : ℕ) :
    (h.modifyCount i f).count j = if i = j then f (h.count j) else h.count j := by
  rw [count, modifyCount, List.getElem?_modify]
  by_cases hij : i = j
  · subst hij
    rw [count] at hpos
    cases hentry : h.objects[i]? with
    | none => simp [hentry] at hpos
    | some entry => simp [count, hentry]
  · cases hentry : h.objects[j]? <;> simp [hij, count, hentry]

theorem content_create_self : (h.create a).2.content (h.create a).1 = some a := by
  rw [content, create, List.getElem?_concat_length]
  rfl

theorem count_create (j : ℕ) :
    (h.create a).2.count j = if (h.create a).1 = j then 1 else h.count j := by
  rw [create, count, count]
  by_cases hlt : j < h.objects.length
  · rw [List.getElem?_append_left hlt, if_neg (Nat.ne_of_gt hlt)]
  · by_cases heq : h.objects.length = j
    · rw [if_pos heq, ← heq, List.getElem?_concat_length]
      rfl
    · have hle : (h.objects ++ [(a, 1)]).length ≤ j := by
        rw [List.length_append, List.length_singleton]
        omega
      rw [if_neg heq, List.getElem?_eq_none hle, List.getElem?_eq_none (Nat.not_lt.mp hlt)]

theorem count_create_self : h.count (h.create a).1 = 0 := by
  rw [count, create, List.getElem?_eq_none (Nat.le_refl _)]
  rfl

/-! ## Objects stay what they are -/

/-- Objects may come. -/
def Extends (h h' : Heap α) : Prop := ∀ i a, h.content i = some a → h'.content i = some a

theorem Extends.refl (h : Heap α) : Extends h h := fun _ _ ha => ha

theorem Extends.trans (hfirst : Extends h h') (hsecond : Extends h' h'') : Extends h h'' :=
  fun i a ha => hsecond i a (hfirst i a ha)

theorem extends_create : Extends h (h.create a).2 := by
  intro i b hb
  obtain ⟨entry, hentry, rfl⟩ := Option.map_eq_some_iff.mp hb
  have hlt := (List.getElem?_eq_some_iff.mp hentry).1
  rw [content, create, List.getElem?_append_left hlt, hentry]
  rfl

theorem extends_modifyCount (f : ℕ → ℕ) : Extends h (h.modifyCount i f) :=
  fun j _ hb => (content_modifyCount f j).trans hb

/-! ## Who holds the references -/

/-- The references to all objects are those that are held. -/
def Owns (h : Heap α) (held : List ℕ) : Prop := ∀ i, h.count i = held.count i

variable {held held' : List ℕ}

theorem Owns.perm (howns : h.Owns held) (hperm : held.Perm held') : h.Owns held' :=
  fun i => (howns i).trans (hperm.count_eq i)

theorem Owns.pos (howns : h.Owns held) (hi : i ∈ held) : 0 < h.count i := by
  rw [howns i]
  exact List.count_pos_iff.mpr hi

/-- What is held can be looked at. -/
theorem Owns.get (howns : h.Owns held) (hi : i ∈ held) : h.get i = h.content i :=
  if_pos (howns.pos hi)

theorem Owns.exists_get (howns : h.Owns held) (hi : i ∈ held) : ∃ a, h.get i = some a := by
  have hpos := howns.pos hi
  rw [Heap.get, if_pos hpos, content]
  rw [count] at hpos
  cases hentry : h.objects[i]? with
  | none => simp [hentry] at hpos
  | some entry => exact ⟨entry.1, rfl⟩

/-- A new object is held once. -/
theorem Owns.create (howns : h.Owns held) (a : α) :
    (h.create a).2.Owns ((h.create a).1 :: held) := by
  intro j
  rw [count_create, List.count_cons, ← howns j]
  by_cases hj : (h.create a).1 = j
  · subst hj
    rw [count_create_self, if_pos rfl, if_pos (beq_self_eq_true _)]
  · rw [if_neg hj, if_neg fun heq => hj (eq_of_beq heq)]
    rfl

/-- What is held can be retained. -/
theorem Owns.retain (howns : h.Owns held) (hi : i ∈ held) :
    ∃ h', h.retain i = some h' ∧ h'.Owns (i :: held) ∧ Extends h h' := by
  have hpos := howns.pos hi
  refine ⟨_, if_pos hpos, fun j => ?_, extends_modifyCount _⟩
  rw [count_modifyCount _ hpos, List.count_cons, ← howns j]
  by_cases hj : i = j
  · rw [if_pos hj, if_pos (beq_iff_eq.mpr hj)]
  · rw [if_neg hj, if_neg fun heq => hj (eq_of_beq heq)]
    rfl

/-- What is held can be released. -/
theorem Owns.release (howns : h.Owns (i :: held)) :
    ∃ h', h.release i = some h' ∧ h'.Owns held ∧ Extends h h' := by
  have hpos := howns.pos List.mem_cons_self
  refine ⟨_, if_pos hpos, fun j => ?_, extends_modifyCount _⟩
  rw [count_modifyCount _ hpos, howns j, List.count_cons]
  by_cases hj : i = j
  · rw [if_pos hj, if_pos (beq_iff_eq.mpr hj), Nat.add_sub_cancel]
  · rw [if_neg hj, if_neg fun heq => hj (eq_of_beq heq)]
    rfl

end Heap

end RefCount
