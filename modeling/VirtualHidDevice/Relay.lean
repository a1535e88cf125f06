import Mathlib.Data.List.Basic

/-!
# Marks that go through a queue twice

A queue is run from the front. Some of its elements are relayed: running one of them only appends
another element that carries the same mark. The marks then come out in the order in which they
went in, since what was relayed is behind everything that was relayed before.

* `marks relayed emitted queue` — the marks still in the queue, those of relayed elements first.
* `marks_append_of_none`, `marks_emit`, `marks_relay`, `marks_cons_relayed`, `marks_cons_of_none` —
  what appending and running elements does to them.
-/

namespace Relay

universe u v

variable {α : Type u} {μ : Type v} (relayed emitted : α → Option μ)

/-- The marks in the queue, in the order in which they will come out. -/
def marks (queue : List α) : List μ := queue.filterMap relayed ++ queue.filterMap emitted

@[simp] theorem marks_nil : marks relayed emitted [] = [] := rfl

variable {relayed emitted}

/-- Elements without a mark are appended. -/
theorem marks_append_of_none (queue : List α) {new : List α} (hr : ∀ a ∈ new, relayed a = none)
    (he : ∀ a ∈ new, emitted a = none) :
    marks relayed emitted (queue ++ new) = marks relayed emitted queue := by
  rw [marks, List.filterMap_append, List.filterMap_append, List.filterMap_eq_nil_iff.mpr hr,
    List.filterMap_eq_nil_iff.mpr he, List.append_nil, List.append_nil, marks]

/-- Marks go in. -/
theorem marks_emit (queue : List α) {new : List α} (hr : ∀ a ∈ new, relayed a = none) :
    marks relayed emitted (queue ++ new) =
      marks relayed emitted queue ++ new.filterMap emitted := by
  rw [marks, List.filterMap_append, List.filterMap_append, List.filterMap_eq_nil_iff.mpr hr,
    List.append_nil, ← List.append_assoc, marks]

/-- An element is relayed. -/
theorem marks_relay {a b : α} {m : μ} (queue : List α) (har : relayed a = none)
    (hae : emitted a = some m) (hbr : relayed b = some m) (hbe : emitted b = none) :
    marks relayed emitted (queue ++ [b]) = marks relayed emitted (a :: queue) := by
  rw [marks, marks, List.filterMap_append, List.filterMap_append, List.filterMap_cons_none har,
    List.filterMap_cons_some hae, List.filterMap_cons_some hbr, List.filterMap_cons_none hbe,
    List.filterMap_nil, List.filterMap_nil, List.append_nil, List.append_assoc,
    List.singleton_append]

/-- A mark comes out. -/
theorem marks_cons_relayed {a : α} {m : μ} (queue : List α) (hr : relayed a = some m)
    (he : emitted a = none) :
    marks relayed emitted (a :: queue) = m :: marks relayed emitted queue := by
  rw [marks, List.filterMap_cons_some hr, List.filterMap_cons_none he, List.cons_append, marks]

/-- An element without a mark is run. -/
theorem marks_cons_of_none {a : α} (queue : List α) (hr : relayed a = none)
    (he : emitted a = none) : marks relayed emitted (a :: queue) = marks relayed emitted queue := by
  rw [marks, List.filterMap_cons_none hr, List.filterMap_cons_none he, marks]

end Relay
