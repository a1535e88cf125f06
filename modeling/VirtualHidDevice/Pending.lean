import Mathlib.Data.List.Basic

/-!
# Elements of a queue that are not called off

A queue is run from the front. One kind of element calls off what another kind has set up; it
cannot call off what is queued behind it.

* `Outlasts token killer queue` — the queue has a `token` with no `killer` behind it, so that once
  the queue is empty, what the token set up is still there.
* `outlasts_concat`, `Outlasts.append`, `Outlasts.filter` — how the queue may change.
* `Outlasts.of_cons` — the front is run: it was this token, or there is another one.
-/

namespace Pending

universe u

variable {α : Type u} {token killer : α}

/-- A token with no killer behind it. -/
def Outlasts (token killer : α) (queue : List α) : Prop :=
  ∃ past rest, queue = past ++ token :: rest ∧ killer ∉ rest

/-- What was queued last is not called off. -/
theorem outlasts_concat (token killer : α) (queue : List α) :
    Outlasts token killer (queue ++ [token]) :=
  ⟨queue, [], rfl, List.not_mem_nil⟩

/-- Only a killer calls off what is in front of it. -/
theorem Outlasts.append {queue : List α} (h : Outlasts token killer queue) {new : List α}
    (hnew : killer ∉ new) : Outlasts token killer (queue ++ new) := by
  obtain ⟨past, rest, rfl, hrest⟩ := h
  refine ⟨past, rest ++ new, by rw [List.append_assoc, List.cons_append], ?_⟩
  rw [List.mem_append, not_or]
  exact ⟨hrest, hnew⟩

/-- Running the front of the queue. -/
theorem Outlasts.of_cons {front : α} {queue : List α} (h : Outlasts token killer (front :: queue)) :
    front = token ∧ killer ∉ queue ∨ Outlasts token killer queue := by
  obtain ⟨past, rest, heq, hrest⟩ := h
  cases past with
  | nil =>
    obtain ⟨rfl, rfl⟩ := List.cons.inj heq
    exact .inl ⟨rfl, hrest⟩
  | cons head past =>
    obtain ⟨rfl, rfl⟩ := List.cons.inj heq
    exact .inr ⟨past, rest, rfl, hrest⟩

/-- Elements may be dropped as long as the tokens stay. -/
theorem Outlasts.filter {queue : List α} (h : Outlasts token killer queue) {keep : α → Bool}
    (htoken : keep token = true) : Outlasts token killer (queue.filter keep) := by
  obtain ⟨past, rest, rfl, hrest⟩ := h
  refine ⟨past.filter keep, rest.filter keep, ?_, fun hk => hrest (List.mem_filter.mp hk).1⟩
  rw [List.filter_append, List.filter_cons_of_pos htoken]

/-- A token is in the queue. -/
theorem Outlasts.mem {queue : List α} (h : Outlasts token killer queue) : token ∈ queue := by
  obtain ⟨past, rest, rfl, -⟩ := h
  exact List.mem_append_right past List.mem_cons_self

end Pending
