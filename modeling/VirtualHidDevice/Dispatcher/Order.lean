import VirtualHidDevice.Dispatcher.Thread
import Mathlib.Data.List.TakeWhile

/-!
# The order in which a dispatcher runs its functions

* `Entry.Before` — the order of the queue, `pairwise_insert` — an entry is inserted where it
  belongs.
* `QueueStep`, `OrderInv` — what a step does to the queue, and what holds of it in every run.
* `FateInv`, `Kept` — what becomes of the entries that the worker takes.

`functions_run_in_order` is the result for all runs.
-/

namespace VirtualHidDevice.DispatcherThread

universe u

variable {F : Type u} {s t : State F} {label : Label F}

/-! ## The queue is in order -/

/-- `f` is due earlier; or at the same time, and it is detached or was enqueued earlier. -/
def Entry.Before (f e : Entry F) : Prop :=
  f.when < e.when ∨ f.when = e.when ∧ (f.when = whenInternalDetached ∨ f.ticket < e.ticket)

/-- Nothing in front is due later. -/
theorem Entry.Before.le {f e : Entry F} (h : f.Before e) : f.when ≤ e.when := by
  rcases h with h | h
  · exact h.le
  · exact h.1.le

/-- Inserting adds the entry. -/
theorem mem_insert {e f : Entry F} {queue : List (Entry F)} :
    f ∈ e.insert queue ↔ f = e ∨ f ∈ queue := by
  rw [Entry.insert]
  split
  · exact List.mem_cons
  · rw [List.mem_append, List.mem_cons, or_left_comm, ← List.mem_append,
      List.takeWhile_append_dropWhile]

/-- It loses none and doubles none. -/
theorem perm_insert (e : Entry F) (queue : List (Entry F)) :
    (e.insert queue).Perm (e :: queue) := by
  rw [Entry.insert]
  split
  · exact List.Perm.refl _
  · refine List.perm_middle.trans ?_
    rw [List.takeWhile_append_dropWhile]

/-- In a queue that is in order, what is left after those that are due at `when` or before is
due later. -/
theorem lt_of_mem_dropWhile {queue : List (Entry F)} (h : queue.Pairwise Entry.Before) (when : ℕ)
    {f : Entry F} (hf : f ∈ queue.dropWhile (·.when ≤ when)) : when < f.when := by
  induction queue with
  | nil => exact absurd hf List.not_mem_nil
  | cons e queue ih =>
    rw [List.pairwise_cons] at h
    rw [List.dropWhile_cons] at hf
    split at hf
    next => exact ih h.2 hf
    next hlate =>
      have he : when < e.when := by simpa using hlate
      rcases List.mem_cons.mp hf with rfl | hf
      · exact he
      · exact he.trans_le (h.1 f hf).le

/-- An entry with a new ticket is inserted where it belongs. -/
theorem pairwise_insert {queue : List (Entry F)} (h : queue.Pairwise Entry.Before) {e : Entry F}
    (hnew : ∀ f ∈ queue, f.ticket < e.ticket) : (e.insert queue).Pairwise Entry.Before := by
  rw [Entry.insert]
  split
  next hwhen =>
    refine List.pairwise_cons.mpr ⟨fun f _ => ?_, h⟩
    rcases Nat.eq_zero_or_pos f.when with hf | hf
    · exact .inr ⟨hwhen.trans hf.symm, .inl hwhen⟩
    · exact .inl (hwhen.trans_lt hf)
  next =>
    have hbehind := fun f => lt_of_mem_dropWhile h e.when (f := f)
    rw [← List.takeWhile_append_dropWhile (p := (·.when ≤ e.when)) (l := queue),
      List.pairwise_append] at h
    obtain ⟨hfront, hback, hacross⟩ := h
    refine List.pairwise_append.mpr ⟨hfront, List.pairwise_cons.mpr ⟨?_, hback⟩, ?_⟩
    · exact fun f hf => .inl (hbehind f hf)
    · intro f hf g hg
      rcases List.mem_cons.mp hg with rfl | hg
      · have hle : f.when ≤ g.when := by simpa using List.mem_takeWhile_imp hf
        rcases hle.lt_or_eq with hlt | heq
        · exact .inl hlt
        · exact .inr ⟨heq, .inr (hnew f (List.takeWhile_subset _ hf))⟩
      · exact hacross f hf g hg

/-- What a step does to the queue. -/
inductive QueueStep (s t : State F) : Prop where
  | same (hqueue : t.queue = s.queue) (htaken : t.taken = s.taken) (herased : t.erased = s.erased)
      (htickets : t.tickets = s.tickets)
  | push (e : Entry F) (hticket : e.ticket = s.tickets) (hqueue : t.queue = e.insert s.queue)
      (htaken : t.taken = s.taken) (herased : t.erased = s.erased)
      (htickets : t.tickets = s.tickets + 1)
  | take (e : Entry F) (now : ℕ) (hqueue : s.queue = e :: t.queue) (hdue : e.when ≤ now)
      (htaken : t.taken = s.taken ++ [⟨e, now, s.tickets⟩]) (herased : t.erased = s.erased)
      (htickets : t.tickets = s.tickets)
  | erase (objectId : ℕ) (hqueue : t.queue = s.queue.filter (·.objectIdValue ≠ objectId))
      (htaken : t.taken = s.taken)
      (herased : t.erased = s.erased ++ s.queue.filter (·.objectIdValue = objectId))
      (htickets : t.tickets = s.tickets)

/-- Notifying changes the worker only. -/
theorem notifyAll_eq (s : State F) : ∃ worker, s.notifyAll = { s with worker } := by
  rw [State.notifyAll]
  split
  · exact ⟨_, rfl⟩
  · exact ⟨_, rfl⟩
  · exact ⟨s.worker, rfl⟩

/-- What any step does to the queue. -/
theorem queueStep (h : StepCase s label t) : QueueStep s t := by
  cases h with
  | enqueue => exact .push _ rfl rfl rfl rfl rfl
  | detachEnqueue _ _ f =>
    exact .push ⟨s.objectId, .detached f, whenInternalDetached, s.tickets⟩ rfl rfl rfl rfl rfl
  | detach _ objectId | detachInFunction objectId => exact .erase objectId rfl rfl rfl rfl
  | notify | invoke =>
    obtain ⟨worker, hworker⟩ := notifyAll_eq s
    rw [hworker]
    exact .same rfl rfl rfl rfl
  | locked _ _ _ hlocked =>
    cases hlocked with
    | takes e queue now _ hqueue hdue => exact .take e now hqueue hdue rfl rfl rfl
    | _ => exact .same rfl rfl rfl rfl
  | _ => exact .same rfl rfl rfl rfl

/-- The order of the queue, of what was taken out of it, and of the tickets. -/
structure OrderInv (s : State F) : Prop where
  queue : s.queue.Pairwise Entry.Before
  taken : s.taken.Pairwise fun a b => a.entry.Before b.entry ∨ a.tickets ≤ b.entry.ticket
  /-- what was taken was in front of what is left, except for what was enqueued later -/
  first : ∀ a ∈ s.taken, ∀ e ∈ s.queue, a.entry.Before e ∨ a.tickets ≤ e.ticket
  seen : ∀ a ∈ s.taken, a.entry.when ≤ a.now ∧ a.tickets ≤ s.tickets
  tickets : ((s.taken.map (·.entry) ++ (s.queue ++ s.erased)).map (·.ticket)).Perm
    (List.range s.tickets)

/-- The tickets of the queue were given out. -/
theorem OrderInv.ticket_lt (h : OrderInv s) {e : Entry F} (he : e ∈ s.queue) :
    e.ticket < s.tickets := by
  refine List.mem_range.mp (h.tickets.subset (List.mem_map_of_mem ?_))
  exact List.mem_append_right _ (List.mem_append_left _ he)

/-- The queue is empty at first. -/
theorem OrderInv.init (objectId : ℕ) : OrderInv (init F objectId) where
  queue := List.Pairwise.nil
  taken := List.Pairwise.nil
  first _ ha := absurd ha List.not_mem_nil
  seen _ ha := absurd ha List.not_mem_nil
  tickets := List.Perm.refl _

/-- One step keeps the order. -/
theorem OrderInv.step (h : OrderInv s) (hstep : QueueStep s t) : OrderInv t := by
  cases hstep with
  | same hqueue htaken herased htickets =>
    exact ⟨hqueue ▸ h.queue, htaken ▸ h.taken, hqueue ▸ htaken ▸ h.first,
      htickets ▸ htaken ▸ h.seen, htickets ▸ htaken ▸ hqueue ▸ herased ▸ h.tickets⟩
  | push e hticket hqueue htaken herased htickets =>
    have hnew : ∀ f ∈ s.queue, f.ticket < e.ticket := fun f hf => hticket ▸ h.ticket_lt hf
    refine ⟨hqueue ▸ pairwise_insert h.queue hnew, htaken ▸ h.taken, ?_, ?_, ?_⟩
    · intro a ha f hf
      rw [htaken] at ha
      rw [hqueue] at hf
      rcases mem_insert.mp hf with rfl | hf
      · exact .inr (hticket ▸ (h.seen a ha).2)
      · exact h.first a ha f hf
    · intro a ha
      rw [htaken] at ha
      exact ⟨(h.seen a ha).1, htickets ▸ (h.seen a ha).2.trans (Nat.le_succ _)⟩
    · rw [htaken, hqueue, herased, htickets, List.range_succ]
      have hperm : (s.taken.map (·.entry) ++ (e.insert s.queue ++ s.erased)).Perm
          (s.taken.map (·.entry) ++ (s.queue ++ s.erased) ++ [e]) := by
        refine (((perm_insert e s.queue).append_right _).append_left _).trans ?_
        exact List.perm_middle.trans (List.perm_append_singleton _ _).symm
      refine (hperm.map _).trans ?_
      rw [List.map_append, List.map_singleton, hticket]
      exact h.tickets.append_right _
  | take e now hqueue hdue htaken herased htickets =>
    have hfront := List.pairwise_cons.mp (hqueue ▸ h.queue)
    refine ⟨hfront.2, ?_, ?_, ?_, ?_⟩
    · rw [htaken, List.pairwise_append]
      refine ⟨h.taken, List.pairwise_singleton _ _, fun a ha b hb => ?_⟩
      rw [List.mem_singleton.mp hb]
      exact h.first a ha e (hqueue ▸ List.mem_cons_self)
    · intro a ha f hf
      rw [htaken] at ha
      rcases List.mem_append.mp ha with ha | ha
      · exact h.first a ha f (hqueue ▸ List.mem_cons_of_mem _ hf)
      · rw [List.mem_singleton.mp ha]
        exact .inl (hfront.1 f hf)
    · intro a ha
      rw [htaken] at ha
      rw [htickets]
      rcases List.mem_append.mp ha with ha | ha
      · exact h.seen a ha
      · rw [List.mem_singleton.mp ha]
        exact ⟨hdue, le_rfl⟩
    · have htickets' := h.tickets
      rw [hqueue] at htickets'
      have happend : s.taken.map (·.entry) ++ (e :: t.queue ++ s.erased) =
          (s.taken ++ [(⟨e, now, s.tickets⟩ : Taken F)]).map (·.entry) ++ (t.queue ++ s.erased) := by
        rw [List.map_append, List.append_assoc]
        rfl
      rw [htaken, herased, htickets, ← happend]
      exact htickets'
  | erase objectId hqueue htaken herased htickets =>
    have hsub : ∀ f ∈ t.queue, f ∈ s.queue := by
      rw [hqueue]
      exact fun f hf => List.mem_of_mem_filter hf
    refine ⟨?_, htaken ▸ h.taken, ?_, htickets ▸ htaken ▸ h.seen, ?_⟩
    · rw [hqueue]
      exact h.queue.filter _
    · rw [htaken]
      exact fun a ha f hf => h.first a ha f (hsub f hf)
    · rw [htickets, htaken, hqueue, herased]
      refine List.Perm.trans (List.Perm.map _ ?_) h.tickets
      refine List.Perm.append_left _ ((List.perm_append_comm.append_left _).trans ?_)
      rw [← List.append_assoc]
      refine List.Perm.append_right _ ?_
      have hsplit := List.filter_append_perm (fun e : Entry F => decide (e.objectIdValue ≠ objectId))
        s.queue
      simpa using hsplit

/-! ## What becomes of the entries -/

/-- The entry that the worker has taken and whose object it has not checked yet. -/
def Worker.held : Worker F → List (Entry F)
  | .popped e | .announced e => [e]
  | _ => []

/-- The entry whose function the worker runs. -/
def Worker.runs : Worker F → List (Entry F)
  | .executing e => [e]
  | _ => []

theorem Worker.Idle.held {worker : Worker F} (h : worker.Idle) : worker.held = [] := by
  cases worker <;> first | rfl | exact h.elim

theorem Worker.Idle.runs {worker : Worker F} (h : worker.Idle) : worker.runs = [] := by
  cases worker <;> first | rfl | exact h.elim

/-- Notifying changes neither what the worker holds nor what it runs. -/
theorem notifyAll_worker (s : State F) :
    s.notifyAll.worker.held = s.worker.held ∧
      s.notifyAll.worker.runs = s.worker.runs := by
  rw [State.notifyAll]
  split
  next hworker => exact hworker ▸ ⟨rfl, rfl⟩
  next hworker => exact hworker ▸ ⟨rfl, rfl⟩
  next => exact ⟨rfl, rfl⟩

/-- What a step does with the entries that were taken. -/
inductive FateStep (s t : State F) : Prop where
  | same (hheld : t.worker.held = s.worker.held)
      (hruns : t.worker.runs = s.worker.runs) (htaken : t.taken = s.taken)
      (hstarted : t.started = s.started) (hcompleted : t.completed = s.completed)
      (hskipped : t.skipped = s.skipped)
  | take (e : Entry F) (now : ℕ) (hheld : s.worker.held = []) (hheld' : t.worker.held = [e])
      (hruns : t.worker.runs = s.worker.runs)
      (htaken : t.taken = s.taken ++ [⟨e, now, s.tickets⟩]) (hfront : e ∈ s.queue)
      (hstarted : t.started = s.started) (hcompleted : t.completed = s.completed)
      (hskipped : t.skipped = s.skipped)
  | start (e : Entry F) (hheld : s.worker.held = [e]) (hheld' : t.worker.held = [])
      (hruns : s.worker.runs = []) (hruns' : t.worker.runs = [e])
      (htaken : t.taken = s.taken) (hstarted : t.started = s.started ++ [e])
      (hcompleted : t.completed = s.completed) (hskipped : t.skipped = s.skipped)
  | skip (e : Entry F) (hheld : s.worker.held = [e]) (hheld' : t.worker.held = [])
      (hruns : t.worker.runs = s.worker.runs) (htaken : t.taken = s.taken)
      (hdetached : e.objectIdValue ∉ s.objectIds) (hstarted : t.started = s.started)
      (hcompleted : t.completed = s.completed) (hskipped : t.skipped = s.skipped ++ [e])
  | complete (e : Entry F) (hheld : t.worker.held = s.worker.held)
      (hruns : s.worker.runs = [e]) (hruns' : t.worker.runs = [])
      (htaken : t.taken = s.taken) (hstarted : t.started = s.started)
      (hcompleted : t.completed = s.completed ++ [e]) (hskipped : t.skipped = s.skipped)

/-- What any step does with the entries that were taken. -/
theorem fateStep (h : StepCase s label t) : FateStep s t := by
  cases h with
  | notify | invoke =>
    obtain ⟨hheld, hruns⟩ := notifyAll_worker s
    obtain ⟨worker, hworker⟩ := notifyAll_eq s
    rw [hworker] at hheld hruns ⊢
    exact .same hheld hruns rfl rfl rfl rfl
  | locked _ _ hidle hlocked =>
    cases hlocked with
    | takes e queue now _ hqueue _ =>
      exact .take e now hidle.held rfl hidle.runs.symm rfl (hqueue ▸ List.mem_cons_self)
        rfl rfl rfl
    | loops | finishes =>
      exact .same hidle.held.symm hidle.runs.symm rfl rfl rfl rfl
    | waits worker hwaits =>
      cases hwaits <;> exact .same hidle.held.symm hidle.runs.symm rfl rfl rfl rfl
  | announce e hworker =>
    exact .same (by rw [hworker]; rfl) (by rw [hworker]; rfl) rfl rfl rfl rfl
  | start e hworker =>
    exact .start e (by rw [hworker]; rfl) rfl (by rw [hworker]; rfl) rfl rfl rfl rfl rfl
  | skip e hworker hdetached =>
    exact .skip e (by rw [hworker]; rfl) rfl (by rw [hworker]; rfl) rfl hdetached rfl rfl rfl
  | complete e f hworker | completeDetached e f hworker =>
    exact .complete e (by rw [hworker]; rfl) (by rw [hworker]; rfl) rfl rfl rfl rfl rfl
  | reset hworker =>
    exact .same (by rw [hworker]; rfl) (by rw [hworker]; rfl) rfl rfl rfl rfl
  | _ => exact .same rfl rfl rfl rfl rfl rfl

/-- An entry that was taken is held, or its function was called, or its object was not attached;
the functions are called in the order in which the entries are taken, one after the other. -/
structure FateInv (s : State F) : Prop where
  taken : (s.taken.map (·.entry)).Perm (s.started ++ s.worker.held ++ s.skipped)
  order : (s.started ++ s.worker.held).Sublist (s.taken.map (·.entry))
  started : s.started = s.completed ++ s.worker.runs

/-- Nothing was taken at first. -/
theorem FateInv.init (objectId : ℕ) : FateInv (init F objectId) :=
  ⟨List.Perm.refl _, List.Sublist.refl _, rfl⟩

/-- One step keeps the invariant. -/
theorem FateInv.step (h : FateInv s) (hstep : FateStep s t) : FateInv t := by
  obtain ⟨hperm, horder, hrun⟩ := h
  cases hstep with
  | same hheld hruns htaken hstarted hcompleted hskipped =>
    refine ⟨?_, ?_, ?_⟩
    · rwa [hheld, htaken, hstarted, hskipped]
    · rwa [hheld, htaken, hstarted]
    · rwa [hruns, hstarted, hcompleted]
  | take e now hheld hheld' hruns htaken _ hstarted hcompleted hskipped =>
    rw [hheld, List.append_nil] at hperm horder
    refine ⟨?_, ?_, ?_⟩
    · rw [hheld', htaken, hstarted, hskipped, List.map_append, List.append_assoc]
      refine (hperm.append_right _).trans ?_
      rw [List.append_assoc]
      exact List.perm_append_comm.append_left _
    · rw [hheld', htaken, hstarted, List.map_append]
      exact horder.append (List.Sublist.refl _)
    · rwa [hruns, hstarted, hcompleted]
  | start e hheld hheld' hruns hruns' htaken hstarted hcompleted hskipped =>
    rw [hheld] at hperm horder
    refine ⟨?_, ?_, ?_⟩
    · rwa [hheld', htaken, hstarted, hskipped, List.append_nil]
    · rwa [hheld', htaken, hstarted, List.append_nil]
    · rw [hruns, List.append_nil] at hrun
      rw [hruns', hstarted, hcompleted, hrun]
  | skip e hheld hheld' hruns htaken _ hstarted hcompleted hskipped =>
    rw [hheld] at hperm horder
    refine ⟨?_, ?_, ?_⟩
    · rw [hheld', htaken, hstarted, hskipped, List.append_nil]
      refine hperm.trans ?_
      rw [List.append_assoc]
      exact List.perm_append_comm.append_left _
    · rw [hheld', htaken, hstarted, List.append_nil]
      exact (List.sublist_append_left _ _).trans horder
    · rwa [hruns, hstarted, hcompleted]
  | complete e hheld hruns hruns' htaken hstarted hcompleted hskipped =>
    refine ⟨?_, ?_, ?_⟩
    · rwa [hheld, htaken, hstarted, hskipped]
    · rwa [hheld, htaken, hstarted]
    · rwa [hruns', hstarted, hcompleted, List.append_nil, ← hruns]

/-- The step detaches an object. -/
def Label.Detaches (objectId : ℕ) : Label F → Prop
  | .detach _ id _ | .detachInFunction id => id = objectId
  | _ => False

/-- No function of the object was lost, and none can be: it is attached as long as there is one. -/
structure Kept (objectId : ℕ) (s : State F) : Prop where
  attached : ∀ e ∈ s.queue ++ s.worker.held, e.objectIdValue = objectId → objectId ∈ s.objectIds
  lost : ∀ e ∈ s.erased ++ s.skipped, e.objectIdValue ≠ objectId

theorem Kept.init (objectId id : ℕ) : Kept id (init F objectId) :=
  ⟨fun _ he => absurd he List.not_mem_nil, fun _ he => absurd he List.not_mem_nil⟩

section Kept

variable {objectId : ℕ}

/-- A step that neither queues, takes nor drops anything. -/
theorem Kept.of_eq (h : Kept objectId s) (hids : s.objectIds ⊆ t.objectIds)
    (hqueue : t.queue = s.queue) (hheld : t.worker.held = s.worker.held)
    (herased : t.erased = s.erased) (hskipped : t.skipped = s.skipped) : Kept objectId t := by
  refine ⟨?_, ?_⟩
  · rw [hqueue, hheld]
    exact fun e he heq => hids (h.attached e he heq)
  · rw [herased, hskipped]
    exact h.lost

/-- A function of an attached object is queued. -/
theorem Kept.push (h : Kept objectId s) {e : Entry F} (hattached : e.objectIdValue ∈ s.objectIds) :
    Kept objectId (s.push e) := by
  refine ⟨fun f hf heq => ?_, h.lost⟩
  rcases List.mem_append.mp hf with hf | hf
  · rcases mem_insert.mp hf with rfl | hf
    · exact heq ▸ hattached
    · exact h.attached f (List.mem_append_left _ hf) heq
  · exact h.attached f (List.mem_append_right _ hf) heq

/-- Another object is detached. -/
theorem Kept.erase (h : Kept objectId s) {id : ℕ} (hne : id ≠ objectId) :
    Kept objectId (s.erase id) := by
  refine ⟨fun f hf heq => ?_, fun f hf => ?_⟩
  · have hmem : f ∈ s.queue ++ s.worker.held := by
      rcases List.mem_append.mp hf with hf | hf
      · exact List.mem_append_left _ (List.mem_of_mem_filter hf)
      · exact List.mem_append_right _ hf
    exact List.mem_filter.mpr ⟨h.attached f hmem heq, decide_eq_true hne.symm⟩
  · rcases List.mem_append.mp hf with hf | hf
    · rcases List.mem_append.mp hf with hf | hf
      · exact h.lost f (List.mem_append_left _ hf)
      · have hid : f.objectIdValue = id := of_decide_eq_true (List.mem_filter.mp hf).2
        exact hid ▸ hne
    · exact h.lost f (List.mem_append_right _ hf)

/-- A step that does not detach the object loses none of its functions. -/
theorem Kept.step (h : Kept objectId s) (hlabel : ¬ label.Detaches objectId)
    (hstep : StepCase s label t) : Kept objectId t := by
  cases hstep with
  | enqueue id function when _ hattached => exact h.push hattached
  | detachEnqueue thread id f _ hattached =>
    exact (h.push (e := ⟨s.objectId, .detached f, whenInternalDetached, s.tickets⟩) hattached).of_eq
      (List.Subset.refl _) rfl rfl rfl rfl
  | detach thread id =>
    exact (h.erase hlabel).of_eq (List.Subset.refl _) rfl rfl rfl rfl
  | detachInFunction id => exact h.erase hlabel
  | attach id => exact h.of_eq (fun _ hid => List.mem_insert_of_mem hid) rfl rfl rfl rfl
  | notify | invoke =>
    have hheld := (notifyAll_worker s).1
    obtain ⟨worker, hworker⟩ := notifyAll_eq s
    rw [hworker] at hheld ⊢
    exact h.of_eq (List.Subset.refl _) rfl hheld rfl rfl
  | locked _ _ hidle hlocked =>
    cases hlocked with
    | takes e queue now _ hqueue _ =>
      refine ⟨fun f hf heq => h.attached f (List.mem_append_left _ ?_) heq, h.lost⟩
      rw [hqueue]
      exact (List.perm_append_singleton e queue).subset hf
    | loops | finishes => exact h.of_eq (List.Subset.refl _) rfl hidle.held.symm rfl rfl
    | waits worker hwaits =>
      cases hwaits <;> exact h.of_eq (List.Subset.refl _) rfl hidle.held.symm rfl rfl
  | announce e hworker => exact h.of_eq (List.Subset.refl _) rfl (by rw [hworker]; rfl) rfl rfl
  | start e hworker =>
    refine ⟨fun f hf => h.attached f ?_, h.lost⟩
    exact List.mem_append_left _ ((List.append_nil s.queue) ▸ hf)
  | skip e hworker hdetached =>
    have hheld : e ∈ s.queue ++ s.worker.held := by
      rw [hworker]
      exact List.mem_append_right _ List.mem_cons_self
    refine ⟨fun f hf => h.attached f ?_, fun f hf => ?_⟩
    · exact List.mem_append_left _ ((List.append_nil s.queue) ▸ hf)
    · rw [← List.append_assoc] at hf
      rcases List.mem_append.mp hf with hf | hf
      · exact h.lost f hf
      · obtain rfl := List.mem_singleton.mp hf
        rintro rfl
        exact hdetached (h.attached f hheld rfl)
  | complete _ _ hworker | completeDetached _ _ hworker | reset hworker =>
    exact h.of_eq (List.Subset.refl _) rfl (by rw [hworker]; rfl) rfl rfl
  | nothing => exact h
  | _ => exact h.of_eq (List.Subset.refl _) rfl rfl rfl rfl

end Kept

/-- A run in which the object is never detached. -/
theorem kept_of_run (objectId id : ℕ) (labels : List (Label F))
    (h : Transition.run step (init F objectId) labels = some s)
    (hlabels : ∀ label ∈ labels, ¬ label.Detaches id) : Kept id s := by
  refine Transition.run_history
    (P := fun labels s => (∀ label ∈ labels, ¬ label.Detaches id) → Kept id s)
    (fun _ => Kept.init objectId id) ?_ h hlabels
  intro past u label v hkept hstep hnone
  refine (hkept fun label hmem => hnone label (List.mem_append_left _ hmem)).step ?_ (stepCase hstep)
  exact hnone label (List.mem_append_right _ List.mem_cons_self)

theorem orderInv_of_run (objectId : ℕ) (labels : List (Label F))
    (h : Transition.run step (init F objectId) labels = some s) : OrderInv s :=
  Transition.run_invariant (OrderInv.init objectId)
    (fun _ _ _ hinv hstep => hinv.step (queueStep (stepCase hstep))) h

theorem fateInv_of_run (objectId : ℕ) (labels : List (Label F))
    (h : Transition.run step (init F objectId) labels = some s) : FateInv s :=
  Transition.run_invariant (FateInv.init objectId)
    (fun _ _ _ hinv hstep => hinv.step (fateStep (stepCase hstep))) h

/-- In every run: no entry is taken twice; each is taken when it is due, before all that were
queued at the time and are due later, or as late and were enqueued later; the functions are called
in that order, one after the other; and none is lost whose object is not detached. -/
theorem functions_run_in_order (objectId : ℕ) (labels : List (Label F))
    (h : Transition.run step (init F objectId) labels = some s) :
    ((s.taken.map (·.entry) ++ (s.queue ++ s.erased)).map (·.ticket)).Perm (List.range s.tickets) ∧
    (s.taken.Pairwise fun a b => a.entry.Before b.entry ∨ a.tickets ≤ b.entry.ticket) ∧
    (∀ a ∈ s.taken, a.entry.when ≤ a.now) ∧
    (s.started ++ s.worker.held).Sublist (s.taken.map (·.entry)) ∧
    s.started = s.completed ++ s.worker.runs ∧
    ∀ id, (∀ label ∈ labels, ¬ label.Detaches id) →
      (∀ e ∈ s.erased, e.objectIdValue ≠ id) ∧
      ∀ a ∈ s.taken, a.entry.objectIdValue = id → a.entry ∈ s.started ++ s.worker.held := by
  have horder := orderInv_of_run objectId labels h
  have hfate := fateInv_of_run objectId labels h
  refine ⟨horder.tickets, horder.taken, fun a ha => (horder.seen a ha).1, hfate.order,
    hfate.started, fun id hlabels => ?_⟩
  have hkept := kept_of_run objectId id labels h hlabels
  refine ⟨fun e he => hkept.lost e (List.mem_append_left _ he), fun a ha hid => ?_⟩
  have htaken := hfate.taken.subset (List.mem_map_of_mem ha)
  rcases List.mem_append.mp htaken with htaken | hskipped
  · exact htaken
  · exact absurd hid (hkept.lost _ (List.mem_append_right _ hskipped))

/-- A function without delay is enqueued after a delayed one, and runs first. -/
def delayedRun : List (Label ℕ) :=
  [.attach 5, .enqueue 5 8 100, .enqueue 5 7 whenImmediately, .notify, .loop none none none,
    .announce, .check, .complete, .reset, .loop (some 100) none (some 100), .announce, .check]

/-- In that run the later one is first. -/
theorem functions_run_in_order_delayed :
    ∃ s, Transition.run step (init ℕ 1) delayedRun = some s ∧
      s.started.map (·.function) = [.function 7, .function 8] ∧
      ∀ a ∈ s.taken, a.entry.when ≤ a.now :=
  ⟨_, rfl, rfl, (functions_run_in_order 1 delayedRun rfl).2.2.1⟩

end VirtualHidDevice.DispatcherThread
