import Mathlib.Data.List.Basic

/-!
# A dispatcher's queue of owned tasks

Every task that waits in a dispatcher's queue is owned by an object. Running a
task appends tasks at the end of the queue and may detach objects, which drops
the tasks they own. What a task does to the queue is recorded as a list of
effects and applied in order, so that the same list can be applied to a queue
that holds the tasks of others as well.

* `QueueEffect`, `apply`, `applyAll` — the effects on a queue.
* `enqueueAt` — the order of delayed tasks.
* `project` — the part of a shared queue that belongs to one member.
* `project_applyAll` — a member's effects change its own part as they would
  change a queue of its own, and, by `project_applyAll_of_ne`, nobody else's.
-/

namespace Dispatcher

universe u v w

variable {ω : Type u} {τ : Type v} [DecidableEq ω]

/-- What a running task does to the queue. -/
inductive QueueEffect (ω : Type u) (τ : Type v) where
  /-- append a task -/
  | enqueue (task : τ)
  /-- drop all tasks of an object -/
  | detach (owner : ω)

section Queue

variable (owner : τ → ω)

/-- One effect on the queue. -/
def apply (queue : List τ) : QueueEffect ω τ → List τ
  | .enqueue task => queue ++ [task]
  | .detach o => queue.filter fun task => owner task ≠ o

/-- All effects of a task, in order. -/
def applyAll (queue : List τ) (effects : List (QueueEffect ω τ)) : List τ :=
  effects.foldl (apply owner) queue

@[simp] theorem applyAll_nil (queue : List τ) :
    applyAll owner queue ([] : List (QueueEffect ω τ)) = queue := rfl

@[simp] theorem applyAll_enqueue (queue : List τ) (task : τ) (effects : List (QueueEffect ω τ)) :
    applyAll owner queue (.enqueue task :: effects) =
      applyAll owner (queue ++ [task]) effects := rfl

@[simp] theorem applyAll_detach (queue : List τ) (o : ω) (effects : List (QueueEffect ω τ)) :
    applyAll owner queue (.detach o :: effects) =
      applyAll owner (queue.filter fun task => owner task ≠ o) effects := rfl

@[simp] theorem applyAll_append (queue : List τ) (es fs : List (QueueEffect ω τ)) :
    applyAll owner queue (es ++ fs) = applyAll owner (applyAll owner queue es) fs :=
  List.foldl_append

/-- Queue a delayed task behind those that are due at the same time or before. -/
def enqueueAt (when : ℕ) (task : τ) (queue : List (ℕ × τ)) : List (ℕ × τ) :=
  queue.takeWhile (·.1 ≤ when) ++ (when, task) :: queue.dropWhile (·.1 ≤ when)

/-- The tasks that some effects append, when none of them detaches anything. -/
def enqueued : List (QueueEffect ω τ) → List τ
  | [] => []
  | .enqueue task :: effects => task :: enqueued effects
  | .detach _ :: effects => enqueued effects

/-- A task that is in the queue after some effects was there before, or is new. -/
theorem mem_applyAll {queue : List τ} {effects : List (QueueEffect ω τ)} {task : τ}
    (h : task ∈ applyAll owner queue effects) : task ∈ queue ∨ task ∈ enqueued effects := by
  induction effects generalizing queue with
  | nil => exact Or.inl h
  | cons e effects ih =>
    cases e with
    | enqueue t =>
      rw [applyAll_enqueue] at h
      rcases ih h with h | h
      · rcases List.mem_append.mp h with h | h
        · exact Or.inl h
        · obtain rfl := List.mem_singleton.mp h
          exact Or.inr List.mem_cons_self
      · exact Or.inr (List.mem_cons_of_mem _ h)
    | detach o =>
      rw [applyAll_detach] at h
      rcases ih h with h | h
      · exact Or.inl (List.mem_of_mem_filter h)
      · exact Or.inr h

/-- What can be seen of the queue after some effects, if nothing of what they append can. -/
theorem filterMap_applyAll_sublist {β : Type w} {f : τ → Option β} (queue : List τ)
    {effects : List (QueueEffect ω τ)} (h : ∀ task ∈ enqueued effects, f task = none) :
    ((applyAll owner queue effects).filterMap f).Sublist (queue.filterMap f) := by
  induction effects generalizing queue with
  | nil => exact List.Sublist.refl _
  | cons e effects ih =>
    cases e with
    | enqueue task =>
      have hrest := ih (queue ++ [task]) fun t ht => h t (List.mem_cons_of_mem _ ht)
      rw [List.filterMap_append, List.filterMap_cons_none (h task List.mem_cons_self),
        List.filterMap_nil, List.append_nil] at hrest
      exact hrest
    | detach o =>
      exact (ih (queue.filter fun task => owner task ≠ o) h).trans
        (List.filter_sublist.filterMap f)

/-- If nothing of what they drop can be seen either, the view is the same. -/
theorem filterMap_applyAll {β : Type w} {f : τ → Option β} {queue : List τ}
    {effects : List (QueueEffect ω τ)} (hnew : ∀ task ∈ enqueued effects, f task = none)
    (hold : ∀ o, .detach o ∈ effects → ∀ task, owner task = o → f task = none) :
    (applyAll owner queue effects).filterMap f = queue.filterMap f := by
  induction effects generalizing queue with
  | nil => rfl
  | cons e effects ih =>
    have hold' : ∀ o, .detach o ∈ effects → ∀ task, owner task = o → f task = none :=
      fun o ho => hold o (List.mem_cons_of_mem _ ho)
    cases e with
    | enqueue task =>
      rw [applyAll_enqueue, ih (fun t ht => hnew t (List.mem_cons_of_mem _ ht)) hold',
        List.filterMap_append, List.filterMap_cons_none (hnew task List.mem_cons_self),
        List.filterMap_nil, List.append_nil]
    | detach o =>
      rw [applyAll_detach, ih hnew hold', List.filterMap_filter]
      refine List.filterMap_congr fun task _ => ?_
      by_cases ho : owner task = o
      · rw [hold o List.mem_cons_self task ho]
        simp
      · simp [ho]

/-- What a detached object owned is gone, if it is not appended again. -/
theorem mem_enqueued_of_detached {queue : List τ} {effects : List (QueueEffect ω τ)} {task : τ}
    (h : task ∈ applyAll owner queue effects) (ho : .detach (owner task) ∈ effects) :
    task ∈ enqueued effects := by
  induction effects generalizing queue with
  | nil => cases ho
  | cons e effects ih =>
    cases e with
    | enqueue t =>
      rw [applyAll_enqueue] at h
      rcases List.mem_cons.mp ho with ho | ho
      · cases ho
      · exact List.mem_cons_of_mem _ (ih h ho)
    | detach o =>
      rw [applyAll_detach] at h
      by_cases hlater : .detach (owner task) ∈ effects
      · exact ih h hlater
      · have ho' : owner task = o := by
          rcases List.mem_cons.mp ho with ho | ho
          · exact QueueEffect.detach.inj ho
          · exact absurd ho hlater
        rcases mem_applyAll owner h with h | h
        · exact absurd ho' (by simpa using (List.mem_filter.mp h).2)
        · exact h

end Queue

section Members

variable {ι : Type w} [DecidableEq ι] (owner : τ → ω)

/-- The owner of a member's task in a shared queue. -/
def memberOwner (task : ι × τ) : ι × ω := (task.1, owner task.2)

/-- A member's effect on a shared queue. -/
def tag (i : ι) : QueueEffect ω τ → QueueEffect (ι × ω) (ι × τ)
  | .enqueue task => .enqueue (i, task)
  | .detach o => .detach (i, o)

/-- The part of a shared queue that belongs to a member. -/
def project (i : ι) (queue : List (ι × τ)) : List τ :=
  queue.filterMap fun task => if task.1 = i then some task.2 else none

@[simp] theorem project_nil (i : ι) : project i ([] : List (ι × τ)) = [] := rfl

@[simp] theorem project_append (i : ι) (queue rest : List (ι × τ)) :
    project i (queue ++ rest) = project i queue ++ project i rest := List.filterMap_append

@[simp] theorem project_cons_self (i : ι) (task : τ) (queue : List (ι × τ)) :
    project i ((i, task) :: queue) = task :: project i queue := by
  simp [project]

theorem project_cons_of_ne {i j : ι} (h : j ≠ i) (task : τ) (queue : List (ι × τ)) :
    project i ((j, task) :: queue) = project i queue := by
  simp [project, h]

theorem mem_project {i : ι} {task : τ} {queue : List (ι × τ)} :
    task ∈ project i queue ↔ (i, task) ∈ queue := by
  rw [project, List.mem_filterMap]
  refine ⟨?_, fun h => ⟨_, h, by simp⟩⟩
  rintro ⟨⟨j, t⟩, hmem, heq⟩
  split at heq
  next hj =>
    obtain rfl := Option.some.inj heq
    obtain rfl := hj
    exact hmem
  next => cases heq

/-- A member's effects change its own part as they would change a queue of its own. -/
theorem project_applyAll (i : ι) (queue : List (ι × τ)) (effects : List (QueueEffect ω τ)) :
    project i (applyAll (memberOwner owner) queue (effects.map (tag i))) =
      applyAll owner (project i queue) effects := by
  induction effects generalizing queue with
  | nil => rfl
  | cons e effects ih =>
    cases e with
    | enqueue task =>
      rw [List.map_cons, tag, applyAll_enqueue, ih, project_append, project_cons_self,
        project_nil, applyAll_enqueue]
    | detach o =>
      rw [List.map_cons, tag, applyAll_detach, ih, applyAll_detach]
      congr 1
      rw [project, project, List.filterMap_filter, List.filter_filterMap]
      refine List.filterMap_congr fun task _ => ?_
      by_cases ht : task.1 = i
      · by_cases ho : owner task.2 = o
        · simp [memberOwner, ht, ho, Option.filter]
        · simp [memberOwner, ht, ho, Option.filter]
      · simp [ht]

/-- A member's effects leave the parts of the others alone. -/
theorem project_applyAll_of_ne {i j : ι} (h : j ≠ i) (queue : List (ι × τ))
    (effects : List (QueueEffect ω τ)) :
    project j (applyAll (memberOwner owner) queue (effects.map (tag i))) = project j queue := by
  induction effects generalizing queue with
  | nil => rfl
  | cons e effects ih =>
    cases e with
    | enqueue task =>
      rw [List.map_cons, tag, applyAll_enqueue, ih, project_append, project_cons_of_ne h.symm,
        project_nil, List.append_nil]
    | detach o =>
      rw [List.map_cons, tag, applyAll_detach, ih, project, project, List.filterMap_filter]
      refine List.filterMap_congr fun task _ => ?_
      by_cases ht : task.1 = j
      · have hne : task.1 ≠ i := fun hi => h (ht.symm.trans hi)
        simp [memberOwner, hne]
      · simp [ht]

@[simp] theorem project_map (i : ι) (queue : List τ) : project i (queue.map (i, ·)) = queue := by
  simp [project]

/-- A member's effects on a queue that holds tasks of its own only. -/
theorem applyAll_map_tag (i : ι) (queue : List τ) (effects : List (QueueEffect ω τ)) :
    applyAll (memberOwner owner) (queue.map (i, ·)) (effects.map (tag i)) =
      (applyAll owner queue effects).map (i, ·) := by
  induction effects generalizing queue with
  | nil => rfl
  | cons e effects ih =>
    cases e with
    | enqueue task =>
      rw [List.map_cons, tag, applyAll_enqueue, applyAll_enqueue, ← ih, List.map_append]
      rfl
    | detach o =>
      rw [List.map_cons, tag, applyAll_detach, applyAll_detach, ← ih, List.filter_map]
      congr 2
      refine List.filter_congr fun task _ => ?_
      simp [memberOwner]

end Members

end Dispatcher
