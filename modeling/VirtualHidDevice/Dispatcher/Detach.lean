import VirtualHidDevice.Dispatcher.Order

/-!
# Detaching an object from a dispatcher

An object is detached before it is destroyed, so no function of it may run any more when `detach`
has returned on a thread other than the worker, though the worker may have taken one out of the
queue before. A function that was given to `detach` has then run.

* `RunningInv` — what `running_function_object_id_` says about the worker.
* `Gone` — no function of the object runs, and none is called until it is attached again.
* `CleanupInv` — where the function of a `detach` is while the call waits for it.
* `Leaving` — what is true of an object from the moment its id is erased.

`detached_function_does_not_run` is the result for all runs.
-/

namespace VirtualHidDevice.DispatcherThread

universe u

variable {F : Type u} {s t : State F} {label : Label F}

/-! ## The calls of `detach` -/

/-- A call that ends is not one of another thread. -/
theorem lookup_filter {calls : List (ℕ × Call F)} {thread other : ℕ} (h : other ≠ thread) :
    (calls.filter (·.1 ≠ thread)).lookup other = calls.lookup other := by
  induction calls with
  | nil => rfl
  | cons entry calls ih =>
    obtain ⟨owner, call⟩ := entry
    by_cases howner : owner = thread
    · subst howner
      rw [List.filter_cons_of_neg (by simp), ih, List.lookup_cons, beq_false_of_ne h]
    · rw [List.filter_cons_of_pos (by simpa using howner), List.lookup_cons, List.lookup_cons, ih]

/-- A thread that is removed has no call. -/
theorem lookup_filter_self (calls : List (ℕ × Call F)) (thread : ℕ) :
    (calls.filter (·.1 ≠ thread)).lookup thread = none := by
  rw [List.lookup_eq_none_iff]
  intro entry hentry
  have hne : entry.1 ≠ thread := of_decide_eq_true (List.mem_filter.mp hentry).2
  exact bne_iff_ne.mpr hne.symm

/-- The calls after one has returned. -/
theorem call_dropCall (s : State F) (thread other : ℕ) :
    (s.dropCall thread).call other = if other = thread then none else s.call other := by
  split
  next h =>
    subst h
    exact lookup_filter_self s.calls other
  next h => exact lookup_filter h

/-- The calls after one has gone on. -/
theorem call_setCall (s : State F) (thread other : ℕ) (call : Call F) :
    (s.setCall thread call).call other = if other = thread then some call else s.call other := by
  split
  next h =>
    subst h
    exact List.lookup_cons_self
  next h =>
    rw [State.call, State.setCall, List.lookup_cons, beq_false_of_ne h]
    exact lookup_filter h

/-! ## The function that runs -/

/-- From before a function is called until after it has returned, `running_function_object_id_` is
the id of its object; without an entry the worker has reset it. -/
def RunningInv (s : State F) : Prop :=
  match s.worker with
  | .announced e | .executing e => s.runningFunctionObjectId = some e.objectIdValue
  | .returned => True
  | _ => s.runningFunctionObjectId = none

/-- An idle worker has announced nothing. -/
theorem RunningInv.of_idle (h : RunningInv s) (hidle : s.worker.Idle) :
    s.runningFunctionObjectId = none := by
  rw [RunningInv] at h
  cases hworker : s.worker with
  | looping | waiting | waitingFor =>
    rw [hworker] at h
    exact h
  | _ =>
    rw [hworker] at hidle
    exact hidle.elim

theorem RunningInv.notifyAll (h : RunningInv s) : RunningInv s.notifyAll := by
  rw [State.notifyAll]
  split
  next hworker => exact h.of_idle (hworker ▸ trivial)
  next hworker => exact h.of_idle (hworker ▸ trivial)
  next => exact h

/-- One step keeps it. -/
theorem RunningInv.step (h : RunningInv s) (hstep : StepCase s label t) : RunningInv t := by
  cases hstep with
  | notify | invoke => exact h.notifyAll
  | locked _ _ hidle hlocked =>
    have hnone := h.of_idle hidle
    cases hlocked with
    | waits worker hwaits => cases hwaits <;> exact hnone
    | _ => exact hnone
  | announce | reset => exact rfl
  | start e hworker =>
    rw [RunningInv, hworker] at h
    exact h
  | skip | complete | completeDetached => exact trivial
  | _ => exact h

/-- While a function runs, `running_function_object_id_` is the id of its object. -/
theorem RunningInv.runs (h : RunningInv s) {e : Entry F} (he : e ∈ s.worker.runs) :
    s.runningFunctionObjectId = some e.objectIdValue := by
  rw [RunningInv] at h
  cases hworker : s.worker with
  | executing f =>
    rw [hworker] at h he
    rw [List.mem_singleton.mp he]
    exact h
  | _ =>
    rw [hworker] at he
    exact absurd he List.not_mem_nil

/-! ## An object that is detached -/

/-- The object is not attached, and no function of it runs. -/
def Gone (objectId : ℕ) (s : State F) : Prop :=
  objectId ∉ s.objectIds ∧ ∀ e ∈ s.worker.runs, e.objectIdValue ≠ objectId

/-- What a step does to the attached objects. -/
theorem mem_objectIds_step (hstep : StepCase s label t) {objectId : ℕ}
    (h : objectId ∈ t.objectIds) : objectId ∈ s.objectIds ∨ label = .attach objectId := by
  cases hstep with
  | attach id =>
    rcases List.mem_insert_iff.mp h with rfl | h
    · exact .inr rfl
    · exact .inl h
  | detach | detachInFunction => exact .inl (List.mem_of_mem_filter h)
  | notify | invoke =>
    obtain ⟨worker, hworker⟩ := notifyAll_eq s
    rw [hworker] at h
    exact .inl h
  | locked _ _ _ hlocked => cases hlocked <;> exact .inl h
  | _ => exact .inl h

/-- Which functions are called, and which object must be attached for it. -/
theorem runs_step (hstep : StepCase s label t) :
    t.worker.runs = s.worker.runs ∧ t.started = s.started ∨
      (∃ e, t.worker.runs = [e] ∧ t.started = s.started ++ [e] ∧ e.objectIdValue ∈ s.objectIds) ∨
      t.worker.runs = [] ∧ t.started = s.started := by
  cases hstep with
  | start e _ hattached => exact .inr (.inl ⟨e, rfl, rfl, hattached⟩)
  | skip | complete | completeDetached | announce | reset => exact .inr (.inr ⟨rfl, rfl⟩)
  | notify | invoke =>
    have hruns := (notifyAll_worker s).2
    obtain ⟨worker, hworker⟩ := notifyAll_eq s
    rw [hworker] at hruns ⊢
    exact .inl ⟨hruns, rfl⟩
  | locked _ _ hidle hlocked =>
    cases hlocked with
    | waits worker hwaits => cases hwaits <;> exact .inr (.inr ⟨rfl, rfl⟩)
    | _ => exact .inr (.inr ⟨rfl, rfl⟩)
  | _ => exact .inl ⟨rfl, rfl⟩

/-- Until it is attached again, an object that is gone stays so, and none of its functions is
called. -/
theorem Gone.step {objectId : ℕ} (h : Gone objectId s) (hlabel : label ≠ .attach objectId)
    (hstep : StepCase s label t) :
    Gone objectId t ∧ t.started.filter (·.objectIdValue = objectId) =
      s.started.filter (·.objectIdValue = objectId) := by
  have hids : objectId ∉ t.objectIds := fun hmem =>
    (mem_objectIds_step hstep hmem).elim h.1 hlabel
  rcases runs_step hstep with ⟨hruns, hstarted⟩ | ⟨e, hruns, hstarted, hattached⟩ | ⟨hruns, hstarted⟩
  · rw [Gone, hruns, hstarted]
    exact ⟨⟨hids, h.2⟩, rfl⟩
  · have hne : e.objectIdValue ≠ objectId := fun heq => h.1 (heq ▸ hattached)
    rw [Gone, hruns, hstarted, List.filter_append, List.filter_singleton]
    refine ⟨⟨hids, fun f hf => ?_⟩, by simp [hne]⟩
    rw [List.mem_singleton.mp hf]
    exact hne
  · rw [Gone, hruns, hstarted]
    exact ⟨⟨hids, fun e he => absurd he List.not_mem_nil⟩, rfl⟩

/-- Until it is attached again, the object stays gone and no function of it is called. -/
theorem gone_run {objectId : ℕ} (h : Gone objectId s) {labels : List (Label F)}
    (hlabels : .attach objectId ∉ labels) (hrun : Transition.run step s labels = some t) :
    Gone objectId t ∧ t.started.filter (·.objectIdValue = objectId) =
      s.started.filter (·.objectIdValue = objectId) := by
  refine Transition.run_history (P := fun labels t => .attach objectId ∉ labels →
    Gone objectId t ∧ t.started.filter (·.objectIdValue = objectId) =
      s.started.filter (·.objectIdValue = objectId)) (fun _ => ⟨h, rfl⟩) ?_ hrun hlabels
  intro past u label v hgone hstep hnone
  rw [List.mem_append, not_or, List.mem_singleton] at hnone
  obtain ⟨hgone, hstarted⟩ := hgone hnone.1
  obtain ⟨hgone', hstarted'⟩ := hgone.step (Ne.symm hnone.2) (stepCase hstep)
  exact ⟨hgone', hstarted'.trans hstarted⟩

/-! ## The function of a `detach` -/

/-- The tickets of the queue are not those of what was taken. -/
theorem OrderInv.ticket_ne (h : OrderInv s) {e f : Entry F} (he : e ∈ s.taken.map (·.entry))
    (hf : f ∈ s.queue) : e.ticket ≠ f.ticket := by
  have hnodup := h.tickets.symm.nodup List.nodup_range
  rw [List.map_append] at hnodup
  refine (List.nodup_append.mp hnodup).2.2 _ (List.mem_map_of_mem he) _ (List.mem_map_of_mem ?_)
  exact List.mem_append_left _ hf

/-- What runs was taken. -/
theorem FateInv.mem_taken (h : FateInv s) {e : Entry F} (he : e ∈ s.worker.runs) :
    e ∈ s.taken.map (·.entry) := by
  refine h.order.subset (List.mem_append_left _ ?_)
  rw [h.started]
  exact List.mem_append_right _ he

/-- An entry that waits or runs. -/
def State.pending (s : State F) : List (Entry F) := s.queue ++ s.worker.held ++ s.worker.runs

/-- While a `detach` waits for its function, that is in the queue, or taken, or run, and the
notice is given when it has returned. It belongs to the dispatcher itself, which is never
detached. -/
structure CleanupInv (s : State F) : Prop where
  attached : s.objectId ∈ s.objectIds
  notices : ∀ ticket ∈ s.notices, ∃ e ∈ s.completed, e.ticket = ticket
  cleanup : ∀ thread objectId f ticket, s.call thread = some (.noticing objectId f ticket) →
    ∃ e : Entry F, e.ticket = ticket ∧ e.function = .detached f ∧ e.objectIdValue = s.objectId ∧
      (e ∈ s.pending ∧ ticket ∉ s.notices ∨ e ∈ s.completed ∧ ticket ∈ s.notices)

/-- No call waits at first. -/
theorem CleanupInv.init (objectId : ℕ) : CleanupInv (init F objectId) where
  attached := List.mem_cons_self
  notices _ h := absurd h List.not_mem_nil
  cleanup _ _ _ _ h := absurd h (Option.some_ne_none _).symm

/-- A step that leaves the notices and what was completed alone, and does not lose an entry of
the dispatcher itself. -/
theorem CleanupInv.of_pending (h : CleanupInv s) (hobject : t.objectId = s.objectId)
    (hids : s.objectId ∈ t.objectIds) (hnotices : t.notices = s.notices)
    (hcompleted : t.completed = s.completed)
    (hcalls : ∀ thread objectId f ticket, t.call thread = some (.noticing objectId f ticket) →
      s.call thread = some (.noticing objectId f ticket))
    (hpending : ∀ e ∈ s.pending, e.objectIdValue = s.objectId → e ∈ t.pending) :
    CleanupInv t := by
  refine ⟨hobject ▸ hids, ?_, fun thread objectId f ticket hcall => ?_⟩
  · rw [hnotices, hcompleted]
    exact h.notices
  · obtain ⟨e, hticket, hfunction, hid, hplace⟩ := h.cleanup _ _ _ _ (hcalls _ _ _ _ hcall)
    refine ⟨e, hticket, hfunction, hobject ▸ hid, ?_⟩
    rw [hnotices, hcompleted]
    exact hplace.imp_left fun hplace => ⟨hpending e hplace.1 hid, hplace.2⟩

/-- A call that waits for its function was not the one that returned. -/
theorem noticing_of_dropCall {thread other objectId ticket : ℕ} {f : F}
    (h : (s.dropCall thread).call other = some (.noticing objectId f ticket)) :
    s.call other = some (.noticing objectId f ticket) := by
  rw [call_dropCall] at h
  split at h
  next => cases h
  next => exact h

/-- Nor the one that went on to something else. -/
theorem noticing_of_setCall {thread other objectId ticket : ℕ} {f : F} {call : Call F}
    (hcall : ∀ objectId f ticket, call ≠ .noticing objectId f ticket)
    (h : (s.setCall thread call).call other = some (.noticing objectId f ticket)) :
    s.call other = some (.noticing objectId f ticket) := by
  rw [call_setCall] at h
  split at h
  next => exact absurd (Option.some.inj h) (hcall _ _ _)
  next => exact h

/-- Queuing loses nothing. -/
theorem mem_pending_push {e f : Entry F} (h : f ∈ s.pending) : f ∈ (s.push e).pending := by
  rcases List.mem_append.mp h with h | h
  · rcases List.mem_append.mp h with h | h
    · exact List.mem_append_left _ (List.mem_append_left _ (mem_insert.mpr (.inr h)))
    · exact List.mem_append_left _ (List.mem_append_right _ h)
  · exact List.mem_append_right _ h

/-- Detaching another object does not lose the entry. -/
theorem mem_pending_erase {e : Entry F} {objectId : ℕ} (hne : objectId ≠ e.objectIdValue)
    (h : e ∈ s.pending) : e ∈ (s.erase objectId).pending := by
  rcases List.mem_append.mp h with h | h
  · rcases List.mem_append.mp h with h | h
    · refine List.mem_append_left _ (List.mem_append_left _ (List.mem_filter.mpr ⟨h, ?_⟩))
      exact decide_eq_true hne.symm
    · exact List.mem_append_left _ (List.mem_append_right _ h)
  · exact List.mem_append_right _ h

/-- An entry that is pending while the worker runs another one is in the queue. -/
theorem mem_pending_executing {e f : Entry F} (hworker : s.worker = .executing f)
    (h : e ∈ s.pending) : e ∈ s.queue ∨ e = f := by
  rw [State.pending, hworker] at h
  rcases List.mem_append.mp h with h | h
  · exact .inl (List.append_nil s.queue ▸ h)
  · exact .inr (List.mem_singleton.mp h)

/-- A function returns that nobody waits for. -/
theorem CleanupInv.complete (h : CleanupInv s) {e : Entry F} {f : F}
    (hworker : s.worker = .executing e) (hfunction : e.function = .function f) :
    CleanupInv { s with worker := .returned, completed := s.completed ++ [e] } := by
  refine ⟨h.attached, fun ticket hticket => ?_, fun thread objectId g ticket hcall => ?_⟩
  · obtain ⟨d, hd, heq⟩ := h.notices ticket hticket
    exact ⟨d, List.mem_append_left _ hd, heq⟩
  · obtain ⟨d, hticket, hdetached, hid, hplace⟩ := h.cleanup thread objectId g ticket hcall
    refine ⟨d, hticket, hdetached, hid, ?_⟩
    rcases hplace with ⟨hpending, hnotice⟩ | ⟨hcompleted, hnotice⟩
    · rcases mem_pending_executing hworker hpending with hqueue | rfl
      · exact .inl ⟨List.mem_append_left _ (List.mem_append_left _ hqueue), hnotice⟩
      · rw [hdetached] at hfunction
        cases hfunction
    · exact .inr ⟨List.mem_append_left _ hcompleted, hnotice⟩

/-- The function of a `detach` returns, and its notice is given. -/
theorem CleanupInv.completeDetached (h : CleanupInv s) (horder : OrderInv s) (hfate : FateInv s)
    {e : Entry F} (hworker : s.worker = .executing e) :
    CleanupInv { s with
      worker := .returned, completed := s.completed ++ [e], notices := s.notices ++ [e.ticket] } := by
  have htaken : e ∈ s.taken.map (·.entry) :=
    hfate.mem_taken (by rw [hworker]; exact List.mem_cons_self)
  refine ⟨h.attached, fun ticket hticket => ?_, fun thread objectId g ticket hcall => ?_⟩
  · rcases List.mem_append.mp hticket with hticket | hticket
    · obtain ⟨d, hd, heq⟩ := h.notices ticket hticket
      exact ⟨d, List.mem_append_left _ hd, heq⟩
    · exact ⟨e, List.mem_append_right _ List.mem_cons_self, (List.mem_singleton.mp hticket).symm⟩
  · obtain ⟨d, hticket, hdetached, hid, hplace⟩ := h.cleanup thread objectId g ticket hcall
    refine ⟨d, hticket, hdetached, hid, ?_⟩
    rcases hplace with ⟨hpending, hnotice⟩ | ⟨hcompleted, hnotice⟩
    · rcases mem_pending_executing hworker hpending with hqueue | rfl
      · left
        refine ⟨List.mem_append_left _ (List.mem_append_left _ hqueue), ?_⟩
        rw [List.mem_append, not_or, List.mem_singleton]
        -- the tickets differ, so it is another `detach` that is notified
        exact ⟨hnotice, fun heq => horder.ticket_ne htaken hqueue (heq.symm.trans hticket.symm)⟩
      · right
        refine ⟨List.mem_append_right _ List.mem_cons_self, List.mem_append_right _ ?_⟩
        exact hticket ▸ List.mem_cons_self
    · exact .inr ⟨List.mem_append_left _ hcompleted, List.mem_append_left _ hnotice⟩

/-- A `detach` has its function queued, and begins to wait for it. -/
theorem CleanupInv.detachEnqueue (h : CleanupInv s) (horder : OrderInv s) (hfate : FateInv s)
    (thread objectId : ℕ) (f : F) :
    CleanupInv ((s.push ⟨s.objectId, .detached f, whenInternalDetached, s.tickets⟩).setCall thread
      (.noticing objectId f s.tickets)) := by
  refine ⟨h.attached, h.notices, fun other id g ticket hcall => ?_⟩
  rw [call_setCall] at hcall
  split at hcall
  next =>
    obtain ⟨rfl, rfl, rfl⟩ := Call.noticing.inj (Option.some.inj hcall)
    refine ⟨⟨s.objectId, .detached f, whenInternalDetached, s.tickets⟩, rfl, rfl, rfl, .inl ⟨?_, ?_⟩⟩
    · exact List.mem_append_left _ (List.mem_append_left _ (mem_insert.mpr (.inl rfl)))
    · -- the ticket is new
      intro hnotice
      obtain ⟨e, he, heq⟩ := h.notices _ hnotice
      have hstarted : e ∈ s.started := hfate.started ▸ List.mem_append_left _ he
      have htaken := hfate.order.subset (List.mem_append_left _ hstarted)
      have hlt := List.mem_range.mp
        (horder.tickets.subset (List.mem_map_of_mem (List.mem_append_left _ htaken)))
      exact absurd heq hlt.ne
  next =>
    obtain ⟨e, hticket, hfunction, hid, hplace⟩ := h.cleanup other id g ticket hcall
    refine ⟨e, hticket, hfunction, hid, hplace.imp_left fun hplace => ⟨?_, hplace.2⟩⟩
    exact mem_pending_push (e := ⟨s.objectId, .detached f, whenInternalDetached, s.tickets⟩) hplace.1

/-- One step keeps the invariant. -/
theorem CleanupInv.step (h : CleanupInv s) (horder : OrderInv s) (hfate : FateInv s)
    (hstep : StepCase s label t) : CleanupInv t := by
  have hsame : ∀ thread objectId f ticket, s.call thread = some (.noticing objectId f ticket) →
      s.call thread = some (.noticing objectId f ticket) := fun _ _ _ _ => id
  cases hstep with
  | nothing => exact h
  | attach =>
    exact h.of_pending rfl (List.mem_insert_of_mem h.attached) rfl rfl hsame fun _ he _ => he
  | enqueue => exact h.of_pending rfl h.attached rfl rfl hsame fun _ he _ => mem_pending_push he
  | detachEnqueue thread objectId f => exact h.detachEnqueue horder hfate thread objectId f
  | notify | invoke =>
    have hworkers := notifyAll_worker s
    obtain ⟨worker, hworker⟩ := notifyAll_eq s
    rw [hworker] at hworkers ⊢
    refine h.of_pending rfl h.attached rfl rfl hsame fun e he _ => ?_
    rw [State.pending, ← hworkers.1, ← hworkers.2] at he
    exact he
  | detach thread objectId function hne =>
    refine h.of_pending rfl (List.mem_filter.mpr ⟨h.attached, decide_eq_true hne.symm⟩) rfl rfl ?_ ?_
    · exact fun _ _ _ _ => noticing_of_setCall (s := s.erase objectId) (by rintro _ _ _ ⟨⟩)
    · exact fun e he hid => mem_pending_erase (hid ▸ hne) he
  | detachInFunction objectId _ _ hne =>
    refine h.of_pending rfl (List.mem_filter.mpr ⟨h.attached, decide_eq_true hne.symm⟩) rfl rfl hsame ?_
    exact fun e he hid => mem_pending_erase (hid ▸ hne) he
  | detachWaited =>
    refine h.of_pending rfl h.attached rfl rfl ?_ fun _ he _ => he
    exact fun _ _ _ _ => noticing_of_setCall (by rintro _ _ _ ⟨⟩)
  | detachDone | detachRefused | detachNoticed =>
    refine h.of_pending rfl h.attached rfl rfl ?_ fun _ he _ => he
    exact fun _ _ _ _ => noticing_of_dropCall
  | terminate => exact h.of_pending rfl h.attached rfl rfl hsame fun _ he _ => he
  | locked _ _ hidle hlocked =>
    have hqueue : ∀ e ∈ s.pending, e ∈ s.queue := by
      intro e he
      rw [State.pending, hidle.held, hidle.runs, List.append_nil, List.append_nil] at he
      exact he
    have hmem : ∀ worker, ∀ e ∈ s.pending, e ∈ s.queue ++ Worker.held worker ++ Worker.runs worker :=
      fun worker e he => List.mem_append_left _ (List.mem_append_left _ (hqueue e he))
    cases hlocked with
    | takes e queue now _ heq _ =>
      refine h.of_pending rfl h.attached rfl rfl hsame fun f hf _ => ?_
      refine List.mem_append_left _ ((List.perm_append_singleton e queue).symm.subset ?_)
      exact heq ▸ hqueue f hf
    | waits worker => exact h.of_pending rfl h.attached rfl rfl hsame fun e he _ => hmem worker e he
    | loops | finishes => exact h.of_pending rfl h.attached rfl rfl hsame fun e he _ => hmem _ e he
  | announce e hworker =>
    refine h.of_pending rfl h.attached rfl rfl hsame fun f hf _ => ?_
    rw [State.pending, hworker] at hf
    exact hf
  | start e hworker =>
    refine h.of_pending rfl h.attached rfl rfl hsame fun f hf _ => ?_
    rw [State.pending, hworker] at hf
    rw [State.pending]
    simpa [Worker.held, Worker.runs] using hf
  | skip e hworker hdetached =>
    refine h.of_pending rfl h.attached rfl rfl hsame fun f hf hid => ?_
    rw [State.pending, hworker] at hf
    -- the entry that is skipped does not belong to the dispatcher
    have hne : f ≠ e := by
      rintro rfl
      exact hdetached (hid ▸ h.attached)
    rw [State.pending]
    simpa [Worker.held, Worker.runs, hne] using hf
  | complete e f hworker hfunction => exact h.complete hworker hfunction
  | completeDetached e f hworker => exact h.completeDetached horder hfate hworker
  | reset hworker =>
    refine h.of_pending rfl h.attached rfl rfl hsame fun f hf _ => ?_
    rw [State.pending, hworker] at hf
    exact hf

theorem cleanupInv_of_run (objectId : ℕ) (labels : List (Label F))
    (h : Transition.run step (init F objectId) labels = some s) : CleanupInv s := by
  have hall : OrderInv s ∧ FateInv s ∧ CleanupInv s := by
    refine Transition.run_invariant (I := fun s => OrderInv s ∧ FateInv s ∧ CleanupInv s)
      ⟨OrderInv.init objectId, FateInv.init objectId, CleanupInv.init objectId⟩ ?_ h
    rintro u label v ⟨horder, hfate, hcleanup⟩ hstep
    have hcase := stepCase hstep
    exact ⟨horder.step (queueStep hcase), hfate.step (fateStep hcase),
      hcleanup.step horder hfate hcase⟩
  exact hall.2.2

theorem runningInv_of_run (objectId : ℕ) (labels : List (Label F))
    (h : Transition.run step (init F objectId) labels = some s) : RunningInv s := by
  have hinit : RunningInv (init F objectId) := rfl
  exact Transition.run_invariant hinit (fun _ _ _ hinv hstep => hinv.step (stepCase hstep)) h

/-! ## A call of `detach`, from the beginning to the end -/

/-- What a step does to the call of a thread. -/
inductive CallStep (thread : ℕ) (s t : State F) : Prop where
  | same (h : t.call thread = s.call thread)
  | begins (h : s.call thread = none)
  | done (objectId : ℕ) (h : s.call thread = some (.running objectId none))
      (hrunning : s.runningFunctionObjectId ≠ some objectId) (h' : t.call thread = none)
  | waited (objectId : ℕ) (f : F) (h : s.call thread = some (.running objectId (some f)))
      (hrunning : s.runningFunctionObjectId ≠ some objectId)
      (h' : t.call thread = some (.enqueuing objectId f))
  | refused (objectId : ℕ) (f : F) (h : s.call thread = some (.enqueuing objectId f))
      (hrefused : s.objectId ∉ s.objectIds ∨ s.exit = true) (h' : t.call thread = none)
  | enqueued (objectId : ℕ) (f : F) (h : s.call thread = some (.enqueuing objectId f))
      (h' : t.call thread = some (.noticing objectId f s.tickets))
  | noticed (objectId : ℕ) (f : F) (ticket : ℕ)
      (h : s.call thread = some (.noticing objectId f ticket)) (hnotice : ticket ∈ s.notices)
      (h' : t.call thread = none)

theorem call_dropCall_self (s : State F) (thread : ℕ) : (s.dropCall thread).call thread = none := by
  rw [call_dropCall, if_pos rfl]

theorem call_setCall_self (s : State F) (thread : ℕ) (call : Call F) :
    (s.setCall thread call).call thread = some call := by
  rw [call_setCall, if_pos rfl]

/-- Another call returns. -/
theorem CallStep.of_dropCall (s : State F) {thread other : ℕ} (h : thread ≠ other) :
    CallStep thread s (s.dropCall other) :=
  .same (by rw [call_dropCall, if_neg h])

/-- Another call goes on. -/
theorem CallStep.of_setCall {s t : State F} {thread other : ℕ} (h : thread ≠ other)
    (call : Call F) (hcalls : t.calls = s.calls) : CallStep thread s (t.setCall other call) :=
  .same (by rw [call_setCall, if_neg h, State.call, hcalls]; rfl)

/-- What any step does to the call of a thread. -/
theorem callStep (h : StepCase s label t) (thread : ℕ) : CallStep thread s t := by
  cases h with
  | detach other objectId function _ hcall =>
    by_cases hne : thread = other
    · subst hne
      exact .begins hcall
    · exact .of_setCall hne _ rfl
  | detachDone other objectId hcall hrunning =>
    by_cases hne : thread = other
    · subst hne
      exact .done objectId hcall hrunning (call_dropCall_self s thread)
    · exact .of_dropCall s hne
  | detachWaited other objectId f hcall hrunning =>
    by_cases hne : thread = other
    · subst hne
      exact .waited objectId f hcall hrunning (call_setCall_self s thread _)
    · exact .of_setCall hne _ rfl
  | detachRefused other objectId f hcall hrefused =>
    by_cases hne : thread = other
    · subst hne
      exact .refused objectId f hcall hrefused (call_dropCall_self s thread)
    · exact .of_dropCall s hne
  | detachEnqueue other objectId f hcall =>
    by_cases hne : thread = other
    · subst hne
      exact .enqueued objectId f hcall (call_setCall_self _ thread _)
    · exact .of_setCall hne _ rfl
  | detachNoticed other objectId f ticket hcall hnotice =>
    by_cases hne : thread = other
    · subst hne
      exact .noticed objectId f ticket hcall hnotice (call_dropCall_self s thread)
    · exact .of_dropCall s hne
  | notify | invoke =>
    obtain ⟨worker, hworker⟩ := notifyAll_eq s
    rw [hworker]
    exact .same rfl
  | locked _ _ _ hlocked => cases hlocked <;> exact .same rfl
  | _ => exact .same rfl

/-- What happened stays so. -/
theorem history_step (h : StepCase s label t) :
    s.completed ⊆ t.completed ∧ s.tickets ≤ t.tickets ∧ (s.exit = true → t.exit = true) := by
  cases h with
  | enqueue | detachEnqueue => exact ⟨List.Subset.refl _, Nat.le_succ _, id⟩
  | complete | completeDetached => exact ⟨List.subset_append_left _ _, le_rfl, id⟩
  | terminate => exact ⟨List.Subset.refl _, le_rfl, fun _ => rfl⟩
  | notify | invoke =>
    obtain ⟨worker, hworker⟩ := notifyAll_eq s
    rw [hworker]
    exact ⟨List.Subset.refl _, le_rfl, id⟩
  | locked _ _ _ hlocked => cases hlocked <;> exact ⟨List.Subset.refl _, le_rfl, id⟩
  | _ => exact ⟨List.Subset.refl _, le_rfl, id⟩

/-- The function has run since a given time, or the dispatcher is terminated. -/
def Cleaned (tickets : ℕ) (f : F) (s : State F) : Prop :=
  (∃ e ∈ s.completed, e.function = .detached f ∧ tickets ≤ e.ticket) ∨ s.exit = true

/-- What was run stays run, and a dispatcher stays terminated. -/
theorem Cleaned.step {tickets : ℕ} {f : F} (h : Cleaned tickets f s)
    (hstep : StepCase s label t) : Cleaned tickets f t := by
  obtain ⟨hcompleted, -, hexit⟩ := history_step hstep
  rcases h with ⟨e, he, hfunction, hticket⟩ | h
  · exact .inl ⟨e, hcompleted he, hfunction, hticket⟩
  · exact .inr (hexit h)

/-- An object whose id was erased by a call of `detach`: first that call waits for the function
that runs; then the object is gone, and what is left to do is to run the function of the call. -/
def Leaving (thread objectId tickets : ℕ) (function : Option F) (s : State F) : Prop :=
  objectId ∉ s.objectIds ∧ s.call thread = some (.running objectId function) ∨
    Gone objectId s ∧ ∀ f, function = some f →
      s.call thread = some (.enqueuing objectId f) ∨
      (∃ ticket, tickets ≤ ticket ∧ s.call thread = some (.noticing objectId f ticket)) ∨
      Cleaned tickets f s

/-- One step, unless it attaches the object again. -/
theorem Leaving.step {thread objectId tickets : ℕ} {function : Option F}
    (h : Leaving thread objectId tickets function s) (htickets : tickets ≤ s.tickets)
    (hrunning : RunningInv s) (hcleanup : CleanupInv s) (hlabel : label ≠ .attach objectId)
    (hstep : StepCase s label t) : Leaving thread objectId tickets function t := by
  have hids : objectId ∉ s.objectIds → objectId ∉ t.objectIds := fun hnot hmem =>
    (mem_objectIds_step hstep hmem).elim hnot hlabel
  rcases h with ⟨hnot, hcall⟩ | ⟨hgone, hfunction⟩
  · -- the call waits for the function that runs
    have hgone : s.runningFunctionObjectId ≠ some objectId → Gone objectId s := by
      intro hne
      refine ⟨hnot, fun e he heq => hne ?_⟩
      rw [hrunning.runs he, heq]
    cases callStep hstep thread with
    | same h => exact .inl ⟨hids hnot, h.trans hcall⟩
    | done id h hne h' =>
      obtain ⟨rfl, rfl⟩ := Call.running.inj (Option.some.inj (h.symm.trans hcall))
      exact .inr ⟨((hgone hne).step hlabel hstep).1, fun f hf => absurd hf (Option.some_ne_none f).symm⟩
    | waited id f h hne h' =>
      obtain ⟨rfl, rfl⟩ := Call.running.inj (Option.some.inj (h.symm.trans hcall))
      refine .inr ⟨((hgone hne).step hlabel hstep).1, fun g hg => .inl ?_⟩
      rw [h', Option.some.inj hg]
    | begins h | refused _ _ h | enqueued _ _ h | noticed _ _ _ h =>
      have := h.symm.trans hcall
      cases this
  · refine .inr ⟨(hgone.step hlabel hstep).1, fun f hf => ?_⟩
    rcases hfunction f hf with hcall | ⟨ticket, hle, hcall⟩ | hcleaned
    · -- the function is about to be enqueued
      cases callStep hstep thread with
      | same h => exact .inl (h.trans hcall)
      | refused id g h hrefused =>
        have hexit := hrefused.resolve_left fun hnot => hnot hcleanup.attached
        exact .inr (.inr (.inr ((history_step hstep).2.2 hexit)))
      | enqueued id g h h' =>
        obtain ⟨rfl, rfl⟩ := Call.enqueuing.inj (Option.some.inj (h.symm.trans hcall))
        exact .inr (.inl ⟨s.tickets, htickets, h'⟩)
      | begins h | done _ h | waited _ _ h | noticed _ _ _ h =>
        have := h.symm.trans hcall
        cases this
    · -- it was enqueued
      cases callStep hstep thread with
      | same h => exact .inr (.inl ⟨ticket, hle, h.trans hcall⟩)
      | noticed id g ticket' h hnotice =>
        obtain ⟨rfl, rfl, rfl⟩ := Call.noticing.inj (Option.some.inj (h.symm.trans hcall))
        obtain ⟨e, hticket, hdetached, -, ⟨-, hnot⟩ | ⟨hcompleted, -⟩⟩ := hcleanup.cleanup _ _ _ _ h
        · exact absurd hnotice hnot
        · have hcleaned : Cleaned tickets g s := .inl ⟨e, hcompleted, hdetached, hticket ▸ hle⟩
          exact .inr (.inr (hcleaned.step hstep))
      | begins h | done _ h | waited _ _ h | refused _ _ h | enqueued _ _ h =>
        have := h.symm.trans hcall
        cases this
    · exact .inr (.inr (hcleaned.step hstep))

/-- A call of `detach` for an object that is attached begins. -/
theorem leaving_begins {thread objectId : ℕ} {function : Option F}
    (hattached : objectId ∈ s.objectIds)
    (hstep : step s (.detach thread objectId function) = some t) :
    Leaving thread objectId s.tickets function t ∧ s.tickets ≤ t.tickets := by
  rw [step] at hstep
  split at hstep
  next => cases hstep
  next =>
    obtain rfl := Option.some.inj hstep
    refine ⟨.inl ⟨?_, call_setCall_self _ thread _⟩, le_rfl⟩
    exact fun hmem => absurd rfl (of_decide_eq_true (List.mem_filter.mp hmem).2)

/-- An object is attached, and a thread other than the worker detaches it. When that call has
returned, in whatever order the threads take their steps, no function of the object runs, and none
is called until it is attached again. If a function was given to `detach`, it has run, unless the
dispatcher was terminated. -/
theorem detached_function_does_not_run (dispatcherId : ℕ) {before during after : List (Label F)}
    {thread objectId : ℕ} {function : Option F} {r : State F}
    (hbefore : Transition.run step (init F dispatcherId) before = some r)
    (hattached : objectId ∈ r.objectIds)
    (hduring : Transition.run step r (.detach thread objectId function :: during) = some s)
    (hreturned : s.call thread = none)
    (hafter : Transition.run step s after = some t)
    (hattach : .attach objectId ∉ during ++ after) :
    (∀ e ∈ t.worker.runs, e.objectIdValue ≠ objectId) ∧
    t.started.filter (·.objectIdValue = objectId) =
      s.started.filter (·.objectIdValue = objectId) ∧
    ∀ f, function = some f →
      (∃ e ∈ s.completed, e.function = .detached f ∧ r.tickets ≤ e.ticket) ∨ s.exit = true := by
  rw [List.mem_append, not_or] at hattach
  obtain ⟨u, hbegin, hrun⟩ := Transition.run_cons_eq_some hduring
  have hleaving : Leaving thread objectId r.tickets function s := by
    have hinv : ∀ past v, Transition.run step u past = some v → RunningInv v ∧ CleanupInv v := by
      intro past v hv
      have hall : Transition.run step (init F dispatcherId)
          (before ++ .detach thread objectId function :: past) = some v := by
        rw [Transition.run_append, hbefore, Option.bind_some, Transition.run_cons, hbegin]
        exact hv
      exact ⟨runningInv_of_run dispatcherId _ hall, cleanupInv_of_run dispatcherId _ hall⟩
    obtain ⟨hfirst, htickets⟩ := leaving_begins hattached hbegin
    refine (Transition.run_history (P := fun past v => .attach objectId ∉ past →
      Transition.run step u past = some v ∧ Leaving thread objectId r.tickets function v ∧
        r.tickets ≤ v.tickets) (fun _ => ⟨rfl, hfirst, htickets⟩) ?_ hrun hattach.1).2.1
    intro past v label w hpast hstep hnone
    rw [List.mem_append, not_or, List.mem_singleton] at hnone
    obtain ⟨hv, hleaving, hle⟩ := hpast hnone.1
    obtain ⟨hrunning, hcleanup⟩ := hinv past v hv
    refine ⟨?_, hleaving.step hle hrunning hcleanup (Ne.symm hnone.2) (stepCase hstep),
      hle.trans (history_step (stepCase hstep)).2.1⟩
    rw [Transition.run_append, hv, Option.bind_some, Transition.run_cons, hstep]
    rfl
  rcases hleaving with ⟨-, hcall⟩ | ⟨hgone, hcleaned⟩
  · exact absurd (hreturned.symm.trans hcall) (Option.some_ne_none _).symm
  · obtain ⟨hgone', hstarted⟩ := gone_run hgone hattach.2 hafter
    refine ⟨hgone'.2, hstarted, fun f hf => ?_⟩
    rcases hcleaned f hf with hcall | ⟨ticket, -, hcall⟩ | hcleaned
    · exact absurd (hreturned.symm.trans hcall) (Option.some_ne_none _).symm
    · exact absurd (hreturned.symm.trans hcall) (Option.some_ne_none _).symm
    · exact hcleaned

/-- The worker runs a function of the object. -/
def runsFunction : List (Label ℕ) :=
  [.attach 5, .enqueue 5 7 whenImmediately, .notify, .loop none none none, .announce, .check]

/-- The call waits for it and has its own function run. -/
def waitsAndCleans : List (Label ℕ) :=
  [.complete, .reset, .detachWaited 0, .detachEnqueue 0, .loop none none none, .announce, .check,
    .complete, .detachNoticed 0]

/-- When the call has returned, the function does not run any more. -/
theorem detached_function_does_not_run_while_running :
    ∃ r s, Transition.run step (init ℕ 1) runsFunction = some r ∧
      Transition.run step r (.detach 0 5 (some 9) :: waitsAndCleans) = some s ∧
      (∀ e ∈ s.worker.runs, e.objectIdValue ≠ 5) := by
  refine ⟨_, _, rfl, rfl, ?_⟩
  exact (@detached_function_does_not_run ℕ _ _ 1 runsFunction waitsAndCleans [] 0 5 (some 9) _ rfl
    (by decide) rfl rfl rfl (by decide)).1

end VirtualHidDevice.DispatcherThread
