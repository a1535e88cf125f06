import VirtualHidDevice.Dispatcher.Detach

/-!
# Why the worker sleeps and `detach` waits

The worker sleeps on a condition variable, `detach` waits for the worker. Each of them waits for a
reason, but it is not said that every wait comes to its end: after `terminate` a `detach` whose
function is still queued waits for ever.

* `WakeInv` — when the worker sleeps and nobody is about to notify it, no function without delay is
  queued, and none at all if it sleeps without a time limit. A limit is the time at which the first
  function was due when the worker fell asleep. A function that was enqueued since may be due
  earlier: it does not shorten the sleep.
* `Worker.Busy` — the worker is between announcing a function and resetting
  `running_function_object_id_`.

`waiting_has_a_reason` is the result for all runs.
-/

namespace VirtualHidDevice.DispatcherThread

universe u

variable {F : Type u} {s t : State F} {label : Label F}

/-- Why the worker sleeps. -/
def WakeInv (s : State F) : Prop :=
  match s.worker with
  | .waiting notified =>
    notified = false → s.notifiers = 0 → s.exit = false ∧ s.queue = []
  | .waitingFor notified deadline since =>
    since ≤ s.tickets ∧ (∀ e ∈ s.queue, e.ticket < since → deadline ≤ e.when) ∧
      (notified = false → s.notifiers = 0 →
        s.exit = false ∧ ∀ e ∈ s.queue, whenImmediately < e.when)
  | _ => True

/-- A step of another thread that does not touch the queue. -/
theorem WakeInv.of_eq (h : WakeInv s) (hworker : t.worker = s.worker) (hqueue : t.queue = s.queue)
    (hexit : t.exit = s.exit) (hnotifiers : t.notifiers = s.notifiers)
    (htickets : t.tickets = s.tickets) : WakeInv t := by
  rw [WakeInv, hworker, hqueue, hexit, hnotifiers, htickets]
  exact h

/-- Whoever enqueues something, or terminates the dispatcher, has still to notify the worker. -/
theorem WakeInv.of_notifiers (h : WakeInv s) (hworker : t.worker = s.worker)
    (hnew : ∀ e ∈ t.queue, e ∈ s.queue ∨ e.ticket = s.tickets)
    (hnotifiers : t.notifiers = s.notifiers + 1) (htickets : s.tickets ≤ t.tickets) :
    WakeInv t := by
  have hpositive : t.notifiers ≠ 0 := hnotifiers ▸ Nat.succ_ne_zero _
  rw [WakeInv] at h ⊢
  rw [hworker]
  cases hs : s.worker with
  | waiting notified => exact fun _ hzero => absurd hzero hpositive
  | waitingFor notified deadline since =>
    rw [hs] at h
    refine ⟨h.1.trans htickets, fun e he hlt => ?_, fun _ hzero => absurd hzero hpositive⟩
    rcases hnew e he with he | heq
    · exact h.2.1 e he hlt
    · exact absurd (heq ▸ hlt) (Nat.not_lt.mpr h.1)
  | _ => trivial

/-- Detaching an object only drops entries of the queue. -/
theorem WakeInv.erase (h : WakeInv s) (objectId : ℕ) : WakeInv (s.erase objectId) := by
  have hsub : ∀ e ∈ (s.erase objectId).queue, e ∈ s.queue := fun e he => List.mem_of_mem_filter he
  rw [WakeInv] at h ⊢
  cases hs : s.worker with
  | waiting notified =>
    rw [hs] at h
    have hworker : (s.erase objectId).worker = .waiting notified := hs
    rw [hworker]
    intro hnotified hzero
    obtain ⟨hexit, hqueue⟩ := h hnotified hzero
    refine ⟨hexit, List.eq_nil_iff_forall_not_mem.mpr fun e he => ?_⟩
    exact List.not_mem_nil (hqueue ▸ hsub e he)
  | waitingFor notified deadline since =>
    rw [hs] at h
    have hworker : (s.erase objectId).worker = .waitingFor notified deadline since := hs
    rw [hworker]
    refine ⟨h.1, fun e he => h.2.1 e (hsub e he), fun hnotified hzero => ?_⟩
    obtain ⟨hexit, hlate⟩ := h.2.2 hnotified hzero
    exact ⟨hexit, fun e he => hlate e (hsub e he)⟩
  | _ =>
    have hworker : (s.erase objectId).worker = s.worker := rfl
    rw [hworker, hs]
    trivial

/-- A worker that is notified needs no reason to sleep. -/
theorem WakeInv.notifyAll (h : WakeInv s) (notifiers : ℕ) :
    WakeInv { s.notifyAll with notifiers } := by
  rw [State.notifyAll]
  cases hs : s.worker with
  | waiting notified => exact Bool.noConfusion
  | waitingFor notified deadline since =>
    rw [WakeInv, hs] at h
    exact ⟨h.1, h.2.1, Bool.noConfusion⟩
  | _ =>
    simp only [WakeInv, hs]

/-- The worker falls asleep, or goes on sleeping. -/
theorem WakeInv.waits (h : WakeInv s) (horder : OrderInv s) {worker : Worker F}
    (hwaits : State.Waits s worker) : WakeInv { s with worker } := by
  cases hwaits with
  | waiting hexit hqueue => exact fun _ _ => ⟨hexit, hqueue⟩
  | begins e queue hexit hqueue hlate =>
    have hfirst : ∀ f ∈ s.queue, e.when ≤ f.when := by
      have hpairwise := horder.queue
      rw [hqueue] at hpairwise ⊢
      intro f hf
      rcases List.mem_cons.mp hf with rfl | hf
      · exact le_rfl
      · exact ((List.pairwise_cons.mp hpairwise).1 f hf).le
    exact ⟨le_rfl, fun f hf _ => hfirst f hf,
      fun _ _ => ⟨hexit, fun f hf => hlate.trans_le (hfirst f hf)⟩⟩
  | goesOn notified deadline since hexit hworker hlate =>
    rw [WakeInv, hworker] at h
    refine ⟨h.1, h.2.1, fun _ _ => ⟨hexit, ?_⟩⟩
    have hpairwise := horder.queue
    intro f hf
    cases hqueue : s.queue with
    | nil => exact absurd (hqueue ▸ hf) List.not_mem_nil
    | cons e queue =>
      have hfirst := hlate e queue hqueue
      rw [hqueue] at hpairwise hf
      rcases List.mem_cons.mp hf with rfl | hf
      · exact hfirst
      · exact hfirst.trans_le ((List.pairwise_cons.mp hpairwise).1 f hf).le

/-- One step keeps the invariant. -/
theorem WakeInv.step (h : WakeInv s) (horder : OrderInv s) (hstep : StepCase s label t) :
    WakeInv t := by
  have hpush : ∀ e : Entry F, e.ticket = s.tickets → ∀ f ∈ e.insert s.queue,
      f ∈ s.queue ∨ f.ticket = s.tickets := by
    intro e hticket f hf
    rcases mem_insert.mp hf with rfl | hf
    · exact .inr hticket
    · exact .inl hf
  cases hstep with
  | enqueue => exact h.of_notifiers rfl (hpush _ rfl) rfl (Nat.le_succ _)
  | detachEnqueue _ _ f =>
    exact h.of_notifiers rfl (hpush ⟨s.objectId, .detached f, whenInternalDetached, s.tickets⟩ rfl)
      rfl (Nat.le_succ _)
  | terminate => exact h.of_notifiers rfl (fun _ he => .inl he) rfl le_rfl
  | notify => exact h.notifyAll _
  | invoke => exact h.notifyAll s.notifyAll.notifiers
  | detach _ objectId => exact (h.erase objectId).of_eq rfl rfl rfl rfl rfl
  | detachInFunction objectId => exact h.erase objectId
  | locked _ _ _ hlocked =>
    cases hlocked with
    | waits worker hwaits => exact h.waits horder hwaits
    | _ => trivial
  | announce | start | skip | complete | completeDetached | reset => trivial
  | _ => exact h.of_eq rfl rfl rfl rfl rfl

/-- A function was announced, and `running_function_object_id_` is not reset. -/
def Worker.Busy : Worker F → Prop
  | .announced _ | .executing _ | .returned => True
  | _ => False

/-- While an object is announced, the worker is busy with it. -/
theorem RunningInv.busy (h : RunningInv s) {objectId : ℕ}
    (hrunning : s.runningFunctionObjectId = some objectId) : s.worker.Busy := by
  rw [RunningInv] at h
  cases hworker : s.worker with
  | announced | executing | returned => trivial
  | _ =>
    rw [hworker] at h
    exact absurd (h.symm.trans hrunning) (Option.some_ne_none _).symm

/-- In every run: when the worker sleeps and nobody is about to notify it, the dispatcher is not
terminated and no function without delay is queued, and none at all without a time limit; nothing
that was queued when it fell asleep is due before the limit. A `detach` that waits for a function
waits while the worker runs one, and then for one that is queued, or runs, or was run. A function
that is enqueued during the sleep may be due before the limit; and a worker that has finished
leaves in the queue what a `detach` waits for. -/
theorem waiting_has_a_reason (objectId : ℕ) (labels : List (Label F))
    (h : Transition.run step (init F objectId) labels = some s) :
    (s.worker = .waiting false → s.notifiers = 0 → s.exit = false ∧ s.queue = []) ∧
    (∀ notified deadline since, s.worker = .waitingFor notified deadline since →
      (∀ e ∈ s.queue, e.ticket < since → deadline ≤ e.when) ∧
      (notified = false → s.notifiers = 0 →
        s.exit = false ∧ ∀ e ∈ s.queue, whenImmediately < e.when)) ∧
    (∀ thread id function, s.call thread = some (.running id function) →
      step s (.detachWaited thread) ≠ none ∨ s.worker.Busy) ∧
    ∀ thread id f ticket, s.call thread = some (.noticing id f ticket) →
      step s (.detachNoticed thread) ≠ none ∨
        ∃ e ∈ s.pending, e.ticket = ticket ∧ e.function = .detached f := by
  have hwake : OrderInv s ∧ WakeInv s := by
    refine Transition.run_invariant (I := fun s => OrderInv s ∧ WakeInv s)
      ⟨OrderInv.init objectId, trivial⟩ ?_ h
    rintro u label v ⟨horder, hwake⟩ hstep
    have hcase := stepCase hstep
    exact ⟨horder.step (queueStep hcase), hwake.step horder hcase⟩
  have hrunning := runningInv_of_run objectId labels h
  have hcleanup := cleanupInv_of_run objectId labels h
  obtain ⟨-, hwake⟩ := hwake
  rw [WakeInv] at hwake
  refine ⟨fun hworker => ?_, fun notified deadline since hworker => ?_, ?_, ?_⟩
  · rw [hworker] at hwake
    exact hwake rfl
  · rw [hworker] at hwake
    exact hwake.2
  · intro thread id function hcall
    by_cases hid : s.runningFunctionObjectId = some id
    · exact .inr (hrunning.busy hid)
    · left
      simp only [step, hcall, if_neg hid]
      exact Option.some_ne_none _
  · intro thread id f ticket hcall
    obtain ⟨e, hticket, hfunction, -, ⟨hpending, -⟩ | ⟨-, hnotice⟩⟩ :=
      hcleanup.cleanup thread id f ticket hcall
    · exact .inr ⟨e, hpending, hticket, hfunction⟩
    · left
      simp only [step, hcall, if_pos hnotice]
      exact Option.some_ne_none _

/-- The worker falls asleep until a function is due. -/
def sleepingRun : List (Label ℕ) :=
  [.attach 5, .enqueue 5 8 100, .notify, .loop none none none]

/-- It sleeps until then. -/
theorem waiting_has_a_reason_asleep :
    ∃ s, Transition.run step (init ℕ 1) sleepingRun = some s ∧
      s.worker = .waitingFor false 100 1 ∧ ∀ e ∈ s.queue, e.ticket < 1 → 100 ≤ e.when :=
  ⟨_, rfl, rfl, ((waiting_has_a_reason 1 sleepingRun rfl).2.1 false 100 1 rfl).1⟩

end VirtualHidDevice.DispatcherThread
