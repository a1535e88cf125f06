import VirtualHidDevice.Dispatcher.Order

/-!
# A dispatcher as its users see it

Whoever uses a dispatcher thinks of two queues: one of functions to run at once, in the order in
which they were enqueued, and one of functions that are delayed, by the time at which they are due,
which are run when the first queue is empty.

* `Queues`, `Queues.Step` — that view.
* `State.queues` — the one queue of the code, seen as two.
* `refines_queues` — whatever a thread does in a run is one of the steps of the view, or cannot be
  seen in it.
-/

namespace VirtualHidDevice.DispatcherThread

universe u v

/-- The functions to run at once, and the delayed ones by the time at which they are due. -/
structure Queues (τ : Type v) where
  queue : List τ
  delayed : List (ℕ × τ)

/-- What can happen to the queues, if `owner` says which object a function belongs to. -/
inductive Queues.Step {τ : Type v} (owner : τ → ℕ) : Queues τ → Queues τ → Prop where
  | nothing (q : Queues τ) : Step owner q q
  | enqueue (task : τ) (queue : List τ) (delayed : List (ℕ × τ)) :
      Step owner ⟨queue, delayed⟩ ⟨queue ++ [task], delayed⟩
  | detached (task : τ) (queue : List τ) (delayed : List (ℕ × τ)) :
      Step owner ⟨queue, delayed⟩ ⟨task :: queue, delayed⟩
  | enqueueAt (when : ℕ) (task : τ) (queue : List τ) (delayed : List (ℕ × τ)) :
      Step owner ⟨queue, delayed⟩ ⟨queue, Dispatcher.enqueueAt when task delayed⟩
  | run (task : τ) (queue : List τ) (delayed : List (ℕ × τ)) :
      Step owner ⟨task :: queue, delayed⟩ ⟨queue, delayed⟩
  | runDelayed (when : ℕ) (task : τ) (delayed : List (ℕ × τ)) :
      Step owner ⟨[], (when, task) :: delayed⟩ ⟨[], delayed⟩
  | detach (object : ℕ) (queue : List τ) (delayed : List (ℕ × τ)) :
      Step owner ⟨queue, delayed⟩
        ⟨queue.filter (owner · ≠ object), delayed.filter (owner ·.2 ≠ object)⟩

variable {F : Type u} {s t : State F} {label : Label F}

/-- The functions without delay are in front of the others. -/
def queuesOf (queue : List (Entry F)) : Queues (Entry F) where
  queue := queue.filter (·.when ≤ whenImmediately)
  delayed := (queue.filter (whenImmediately < ·.when)).map fun e => (e.when, e)

/-- The queue, seen as two. -/
def State.queues (s : State F) : Queues (Entry F) := queuesOf s.queue

/-- In a queue that is in order, those that are due up to some time are in front. -/
theorem takeWhile_eq_filter {queue : List (Entry F)} (h : queue.Pairwise Entry.Before) (when : ℕ) :
    queue.takeWhile (·.when ≤ when) = queue.filter (·.when ≤ when) ∧
      queue.dropWhile (·.when ≤ when) = queue.filter (when < ·.when) := by
  induction queue with
  | nil => exact ⟨rfl, rfl⟩
  | cons e queue ih =>
    rw [List.pairwise_cons] at h
    by_cases he : e.when ≤ when
    · obtain ⟨htake, hdrop⟩ := ih h.2
      constructor
      · rw [List.takeWhile_cons_of_pos (by simpa using he),
          List.filter_cons_of_pos (by simpa using he), htake]
      · rw [List.dropWhile_cons_of_pos (by simpa using he),
          List.filter_cons_of_neg (by simpa using he), hdrop]
    · have hlate : ∀ f ∈ e :: queue, when < f.when := by
        intro f hf
        rcases List.mem_cons.mp hf with rfl | hf
        · exact Nat.not_le.mp he
        · exact (Nat.not_le.mp he).trans_le (h.1 f hf).le
      constructor
      · rw [List.takeWhile_cons_of_neg (by simpa using he), eq_comm, List.filter_eq_nil_iff]
        exact fun f hf => by simpa using hlate f hf
      · rw [List.dropWhile_cons_of_neg (by simpa using he), eq_comm, List.filter_eq_self]
        exact fun f hf => by simpa using hlate f hf

/-- Where `Entry.insert` puts a function that is not detached. -/
theorem insert_eq {queue : List (Entry F)} (h : queue.Pairwise Entry.Before) {e : Entry F}
    (hwhen : e.when ≠ whenInternalDetached) :
    e.insert queue = queue.filter (·.when ≤ e.when) ++ e :: queue.filter (e.when < ·.when) := by
  obtain ⟨htake, hdrop⟩ := takeWhile_eq_filter h e.when
  rw [Entry.insert, if_neg hwhen, htake, hdrop]

/-- A delayed function is queued as the library does it, behind those without delay. -/
theorem queuesOf_insert_delayed {queue : List (Entry F)} (h : queue.Pairwise Entry.Before)
    {e : Entry F} (hwhen : whenImmediately < e.when) :
    queuesOf (e.insert queue) =
      ⟨(queuesOf queue).queue, Dispatcher.enqueueAt e.when e (queuesOf queue).delayed⟩ := by
  have hne : e.when ≠ whenInternalDetached := Nat.ne_of_gt (Nat.zero_lt_of_lt hwhen)
  have hdelayed := takeWhile_eq_filter (h.filter (fun f => whenImmediately < f.when)) e.when
  rw [queuesOf, queuesOf, Queues.mk.injEq]
  constructor
  · -- no function without delay is behind the new one
    rw [insert_eq h hne, List.filter_append, List.filter_cons_of_neg (by simpa using hwhen),
      List.filter_filter, List.filter_filter]
    have hnone : queue.filter
        (fun f => decide (f.when ≤ whenImmediately) && decide (e.when < f.when)) = [] := by
      rw [List.filter_eq_nil_iff]
      intro f _ hf
      simp only [Bool.and_eq_true, decide_eq_true_eq] at hf
      omega
    rw [hnone, List.append_nil]
    refine List.filter_congr fun f _ => ?_
    rw [Bool.and_eq_left_iff_imp]
    simp only [decide_eq_true_eq]
    omega
  · rw [Dispatcher.enqueueAt, List.takeWhile_map, List.dropWhile_map]
    have htake : (queue.filter (whenImmediately < ·.when)).takeWhile
        ((fun p : ℕ × Entry F => decide (p.1 ≤ e.when)) ∘ fun f => (f.when, f)) =
        (queue.filter (whenImmediately < ·.when)).filter (·.when ≤ e.when) := hdelayed.1
    have hdrop : (queue.filter (whenImmediately < ·.when)).dropWhile
        ((fun p : ℕ × Entry F => decide (p.1 ≤ e.when)) ∘ fun f => (f.when, f)) =
        (queue.filter (whenImmediately < ·.when)).filter (e.when < ·.when) := hdelayed.2
    rw [htake, hdrop, insert_eq h hne, List.filter_append,
      List.filter_cons_of_pos (by simpa using hwhen), List.map_append, List.map_cons]
    congr 2
    · rw [List.filter_filter, List.filter_filter]
      exact List.filter_congr fun f _ => Bool.and_comm _ _
    · rw [List.filter_filter, List.filter_filter]
      exact congrArg _ (List.filter_congr fun f _ => Bool.and_comm _ _)

/-- A function without delay is queued behind the others. -/
theorem queuesOf_insert_immediately {queue : List (Entry F)} (h : queue.Pairwise Entry.Before)
    {e : Entry F} (hwhen : e.when = whenImmediately) :
    queuesOf (e.insert queue) = ⟨(queuesOf queue).queue ++ [e], (queuesOf queue).delayed⟩ := by
  have hne : e.when ≠ whenInternalDetached := by
    rw [hwhen]
    exact Nat.one_ne_zero
  rw [queuesOf, queuesOf, Queues.mk.injEq, insert_eq h hne, hwhen]
  constructor
  · rw [List.filter_append, List.filter_cons_of_pos (by simpa using hwhen.le), List.filter_filter,
      List.filter_filter]
    have hnone : queue.filter
        (fun f => decide (f.when ≤ whenImmediately) && decide (whenImmediately < f.when)) = [] := by
      rw [List.filter_eq_nil_iff]
      intro f _ hf
      simp only [Bool.and_eq_true, decide_eq_true_eq] at hf
      omega
    rw [hnone]
    congr 1
    exact List.filter_congr fun f _ => Bool.and_self _
  · rw [List.filter_append, List.filter_cons_of_neg (by simpa using hwhen.le), List.filter_filter,
      List.filter_filter]
    have hnone : queue.filter
        (fun f => decide (whenImmediately < f.when) && decide (f.when ≤ whenImmediately)) = [] := by
      rw [List.filter_eq_nil_iff]
      intro f _ hf
      simp only [Bool.and_eq_true, decide_eq_true_eq] at hf
      omega
    rw [hnone, List.nil_append]
    exact congrArg _ (List.filter_congr fun f _ => Bool.and_self _)

/-- A function of a `detach` goes in front of all that have no delay. -/
theorem queuesOf_insert_detached {queue : List (Entry F)} {e : Entry F}
    (hwhen : e.when = whenInternalDetached) :
    queuesOf (e.insert queue) = ⟨e :: (queuesOf queue).queue, (queuesOf queue).delayed⟩ := by
  have hle : e.when ≤ whenImmediately := hwhen.trans_le (Nat.zero_le _)
  rw [Entry.insert, if_pos hwhen, queuesOf, queuesOf, List.filter_cons_of_pos (by simpa using hle),
    List.filter_cons_of_neg (by simpa using hle)]

/-- The first entry is the first of the one queue, or the one queue is empty and it is the first
of the other. -/
theorem queuesOf_cons {queue : List (Entry F)} {e : Entry F}
    (h : (e :: queue).Pairwise Entry.Before) :
    queuesOf (e :: queue) = ⟨e :: (queuesOf queue).queue, (queuesOf queue).delayed⟩ ∨
      queuesOf (e :: queue) = ⟨[], (e.when, e) :: (queuesOf queue).delayed⟩ ∧
        (queuesOf queue).queue = [] := by
  by_cases he : e.when ≤ whenImmediately
  · left
    rw [queuesOf, queuesOf, List.filter_cons_of_pos (by simpa using he),
      List.filter_cons_of_neg (by simpa using he)]
  · right
    have hnone : queue.filter (·.when ≤ whenImmediately) = [] := by
      rw [List.filter_eq_nil_iff]
      intro f hf
      have := ((List.pairwise_cons.mp h).1 f hf).le
      simp only [decide_eq_true_eq]
      omega
    refine ⟨?_, hnone⟩
    rw [queuesOf, queuesOf, List.filter_cons_of_neg (by simpa using he), hnone,
      List.filter_cons_of_pos (by simpa using he), List.map_cons]

/-- Detaching drops the functions of the object from both queues. -/
theorem queuesOf_filter (queue : List (Entry F)) (objectId : ℕ) :
    queuesOf (queue.filter (·.objectIdValue ≠ objectId)) =
      ⟨(queuesOf queue).queue.filter (·.objectIdValue ≠ objectId),
        (queuesOf queue).delayed.filter (·.2.objectIdValue ≠ objectId)⟩ := by
  rw [queuesOf, queuesOf, Queues.mk.injEq]
  constructor
  · rw [List.filter_filter, List.filter_filter]
    exact List.filter_congr fun f _ => Bool.and_comm _ _
  · rw [List.filter_map, List.filter_filter, List.filter_filter]
    exact congrArg _ (List.filter_congr fun f _ => Bool.and_comm _ _)

/-- In every run, whatever any thread does is a step of the two queues, or not seen in them. -/
theorem refines_queues (objectId : ℕ) (labels : List (Label F))
    (h : Transition.run step (init F objectId) labels = some s) (hstep : step s label = some t) :
    Queues.Step Entry.objectIdValue s.queues t.queues := by
  have horder := orderInv_of_run objectId labels h
  rw [State.queues, State.queues]
  cases queueStep (stepCase hstep) with
  | same hqueue =>
    rw [hqueue]
    exact .nothing _
  | push e _ hqueue =>
    rw [hqueue]
    rcases Nat.lt_trichotomy e.when whenImmediately with hwhen | hwhen | hwhen
    · rw [queuesOf_insert_detached (Nat.lt_one_iff.mp hwhen)]
      exact .detached e _ _
    · rw [queuesOf_insert_immediately horder.queue hwhen]
      exact .enqueue e _ _
    · rw [queuesOf_insert_delayed horder.queue hwhen]
      exact .enqueueAt e.when e _ _
  | take e now hqueue =>
    have hpairwise := horder.queue
    rw [hqueue] at hpairwise ⊢
    rcases queuesOf_cons hpairwise with heq | ⟨heq, hnone⟩
    · rw [heq]
      exact .run e _ _
    · have hrest : queuesOf t.queue = ⟨[], (queuesOf t.queue).delayed⟩ := by
        rw [← hnone]
      rw [heq, hrest]
      exact .runDelayed e.when e _
  | erase objectId hqueue =>
    rw [hqueue, queuesOf_filter]
    exact .detach objectId _ _

/-- A delayed function that is enqueued is a step of the two queues. -/
theorem refines_queues_delayed :
    ∃ s t, Transition.run step (init ℕ 1) delayedRun = some s ∧
      step s (.enqueue 5 9 200) = some t ∧
      Queues.Step Entry.objectIdValue s.queues t.queues :=
  ⟨_, _, rfl, rfl, @refines_queues ℕ _ _ (.enqueue 5 9 200) 1 delayedRun rfl rfl⟩

end VirtualHidDevice.DispatcherThread
