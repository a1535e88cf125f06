import VirtualHidDevice.Dispatcher
import VirtualHidDevice.Transition
import Mathlib.Data.List.Sort

/-!
# The dispatcher and its worker thread

`pqrs::dispatcher::dispatcher` runs the functions of many objects on one thread, the worker. Any
thread may attach and detach objects and enqueue functions meanwhile; a function may do so too.
A step of the model is what one thread does while it holds the mutexes, or between two of them.

* `Entry`, `Entry.insert` — an entry, and where it goes in the queue.
* `Worker`, `Call`, `State` — where the worker is, the calls of `detach` that have not returned,
  and everything together. The history of a run is kept in the state.
* `Label`, `step` — the steps. Time is read anew each time: a label that reads it carries what was
  read, so nothing is assumed about the time source.
* `StepCase`, `stepCase` — everything a step can do.
-/

namespace VirtualHidDevice.DispatcherThread

universe u

/-- `time_point(duration::zero())` -/
def whenInternalDetached : ℕ := 0

/-- `time_point(duration(1))` -/
def whenImmediately : ℕ := 1

/-- What an entry runs. -/
inductive Body (F : Type u) where
  /-- a function that was given to `enqueue` -/
  | function (f : F)
  /-- the function of a `detach`; afterwards that call is notified -/
  | detached (f : F)
  deriving DecidableEq, Repr

/-- An entry of `queue_`. The ticket counts the entries from the first one; it also stands for the
`thread_wait` that a detached function notifies. -/
structure Entry (F : Type u) where
  objectIdValue : ℕ
  function : Body F
  when : ℕ
  ticket : ℕ
  deriving DecidableEq, Repr

/-- Where the worker is. -/
inductive Worker (F : Type u) where
  /-- at the top of the loop -/
  | looping
  /-- in `cv_.wait` -/
  | waiting (notified : Bool)
  /-- in `cv_.wait_for`, until the time at which the first entry was due when the worker began to
  wait; `since` is the ticket of the next entry then -/
  | waitingFor (notified : Bool) (deadline since : ℕ)
  /-- an entry was taken out of the queue -/
  | popped (e : Entry F)
  /-- `running_function_object_id_` is set, the wrapper has not checked the id yet -/
  | announced (e : Entry F)
  /-- the wrapper has called the function -/
  | executing (e : Entry F)
  /-- `call_function` is done -/
  | returned
  /-- out of the loop -/
  | finished
  deriving DecidableEq, Repr

/-- Where a call of `detach` is, on a thread other than the worker, once the id is erased. -/
inductive Call (F : Type u) where
  /-- waits until no function of the object runs -/
  | running (objectId : ℕ) (function : Option F)
  /-- is about to enqueue its function -/
  | enqueuing (objectId : ℕ) (function : F)
  /-- `w->wait_notice()` -/
  | noticing (objectId : ℕ) (function : F) (ticket : ℕ)
  deriving DecidableEq, Repr

/-- The worker has no entry. -/
def Worker.Idle {F : Type u} : Worker F → Prop
  | .looping | .waiting _ | .waitingFor _ _ _ => True
  | _ => False

/-- An entry that the worker has taken out of the queue: the time that it read, and the ticket that
the next entry would have got. -/
structure Taken (F : Type u) where
  entry : Entry F
  now : ℕ
  tickets : ℕ
  deriving DecidableEq, Repr

/-- A dispatcher, the calls of `detach` of other threads, and what happened so far. -/
structure State (F : Type u) where
  /-- `object_id_`, which nobody else knows -/
  objectId : ℕ
  objectIds : List ℕ
  queue : List (Entry F) := []
  exit : Bool := false
  runningFunctionObjectId : Option ℕ := none
  worker : Worker F := .looping
  /-- the threads that have released `mutex_` and have not called `cv_.notify_all` yet -/
  notifiers : ℕ := 0
  /-- the calls of `detach` by thread -/
  calls : List (ℕ × Call F) := []
  /-- the tickets whose `thread_wait` was notified -/
  notices : List ℕ := []
  tickets : ℕ := 0
  /-- entries taken by the worker -/
  taken : List (Taken F) := []
  /-- entries whose function was called -/
  started : List (Entry F) := []
  /-- entries whose function returned -/
  completed : List (Entry F) := []
  /-- entries whose object was not attached any more when they were taken -/
  skipped : List (Entry F) := []
  /-- entries that `detach` erased from the queue -/
  erased : List (Entry F) := []
  deriving DecidableEq, Repr

/-- A dispatcher whose constructor has returned. -/
def init (F : Type u) (objectId : ℕ) : State F :=
  { objectId, objectIds := [objectId] }

variable {F : Type u}

/-- A detached function goes to the front, every other one behind those that are due at the same
time or before (`upper_bound`). -/
def Entry.insert (e : Entry F) (queue : List (Entry F)) : List (Entry F) :=
  if e.when = whenInternalDetached then e :: queue
  else queue.takeWhile (·.when ≤ e.when) ++ e :: queue.dropWhile (·.when ≤ e.when)

namespace State

/-- The time as the worker sees it; `none` if there is no time source any more. -/
def now : Option ℕ → ℕ
  | none => whenImmediately
  | some n => max whenImmediately n

/-- `calculate_duration` -/
def calculateDuration (s : State F) (reading : Option ℕ) : ℕ :=
  match s.queue with
  | [] => whenImmediately - now reading
  | e :: _ => e.when - now reading

/-- What the worker does when it is done with waiting, still under `mutex_`. -/
def checkCondition (s : State F) (reading : Option ℕ) : State F :=
  if s.exit then { s with worker := .finished }
  else if 0 < s.calculateDuration reading then { s with worker := .looping }
  else match s.queue with
    | [] => { s with worker := .looping }
    | e :: queue =>
      { s with queue, worker := .popped e, taken := s.taken ++ [⟨e, now reading, s.tickets⟩] }

/-- The condition of `cv_.wait` -/
def waited (s : State F) : Bool := s.exit || !s.queue.isEmpty

/-- The condition of `cv_.wait_for` -/
def waitedFor (s : State F) (reading : Option ℕ) : Bool :=
  s.exit || (!s.queue.isEmpty && s.calculateDuration reading == 0)

/-- The worker locks `mutex_` and waits if there is nothing to do. The time is read up to three
times. -/
def loop (s : State F) (r₁ r₂ r₃ : Option ℕ) : State F :=
  if s.calculateDuration r₁ = 0 then
    if s.waited then s.checkCondition r₃ else { s with worker := .waiting false }
  else
    if s.waitedFor r₂ then s.checkCondition r₃
    else { s with worker := .waitingFor false (now r₁ + s.calculateDuration r₁) s.tickets }

/-- The worker wakes up, for whatever reason, and has `mutex_` again. -/
def wake (s : State F) (timeout : Bool) (r₂ r₃ : Option ℕ) : Option (State F) :=
  match s.worker with
  | .waiting _ =>
    some (if s.waited then s.checkCondition r₃ else { s with worker := .waiting false })
  | .waitingFor _ deadline since =>
    some (if s.waitedFor r₂ || timeout then s.checkCondition r₃
      else { s with worker := .waitingFor false deadline since })
  | _ => none

/-- `cv_.notify_all()` -/
def notifyAll (s : State F) : State F :=
  match s.worker with
  | .waiting _ => { s with worker := .waiting true }
  | .waitingFor _ deadline since => { s with worker := .waitingFor true deadline since }
  | _ => s

/-- An entry is queued; `mutex_` is released before `cv_` is notified. -/
def push (s : State F) (e : Entry F) : State F :=
  { s with queue := e.insert s.queue, tickets := s.tickets + 1, notifiers := s.notifiers + 1 }

/-- The part of `enqueue` under the mutexes; `none` if it returns false. -/
def enqueue (s : State F) (objectId : ℕ) (function : Body F) (when : ℕ) : Option (State F) :=
  if objectId ∈ s.objectIds ∧ s.exit = false then
    some (s.push ⟨objectId, function, when, s.tickets⟩)
  else none

/-- The part of `attach` under the mutexes -/
def attach (s : State F) (objectId : ℕ) : State F :=
  if s.exit then s else { s with objectIds := s.objectIds.insert objectId }

/-- The part of `detach` under the mutexes, for an id that is attached -/
def erase (s : State F) (objectId : ℕ) : State F :=
  { s with
    objectIds := s.objectIds.filter (· ≠ objectId)
    queue := s.queue.filter (·.objectIdValue ≠ objectId)
    erased := s.erased ++ s.queue.filter (·.objectIdValue = objectId) }

/-- The call of a thread, if it is in `detach` -/
def call (s : State F) (thread : ℕ) : Option (Call F) := s.calls.lookup thread

/-- The call of a thread is over -/
def dropCall (s : State F) (thread : ℕ) : State F :=
  { s with calls := s.calls.filter (·.1 ≠ thread) }

/-- The call of a thread goes on -/
def setCall (s : State F) (thread : ℕ) (call : Call F) : State F :=
  { s with calls := (thread, call) :: s.calls.filter (·.1 ≠ thread) }

end State

/-- What happens next. -/
inductive Label (F : Type u) where
  /-- any thread attaches an object -/
  | attach (objectId : ℕ)
  /-- any thread, the worker in a function included, enqueues a function -/
  | enqueue (objectId : ℕ) (function : F) (when : ℕ)
  /-- a thread that has enqueued something, or called `invoke` or `terminate`, notifies `cv_` -/
  | notify
  | invoke
  /-- a thread other than the worker calls one of the two `detach` -/
  | detach (thread objectId : ℕ) (function : Option F)
  /-- no function of the object runs any more -/
  | detachWaited (thread : ℕ)
  /-- the function of a `detach` is enqueued -/
  | detachEnqueue (thread : ℕ)
  /-- the function of a `detach` has run -/
  | detachNoticed (thread : ℕ)
  /-- a function that the worker runs calls `detach` -/
  | detachInFunction (objectId : ℕ)
  | terminate
  /-- the worker, in the order in which it goes through its loop -/
  | loop (r₁ r₂ r₃ : Option ℕ)
  | wake (timeout : Bool) (r₂ r₃ : Option ℕ)
  | announce
  | check
  | complete
  | reset
  deriving DecidableEq, Repr

open State in
/-- One step. -/
def step (s : State F) : Label F → Option (State F)
  | .attach objectId => if objectId = s.objectId then none else some (s.attach objectId)
  | .enqueue objectId function when =>
    if objectId = s.objectId then none
    else some ((s.enqueue objectId (.function function) when).getD s)
  | .notify =>
    if s.notifiers = 0 then none else some { s.notifyAll with notifiers := s.notifiers - 1 }
  | .invoke => some s.notifyAll
  | .detach thread objectId function =>
    if objectId = s.objectId ∨ s.call thread ≠ none then none
    -- `detach` returns false at once
    else if objectId ∉ s.objectIds then some s
    else some ((s.erase objectId).setCall thread (.running objectId function))
  | .detachWaited thread => match s.call thread with
    | some (.running objectId function) =>
      if s.runningFunctionObjectId = some objectId then none
      else some (match function with
        | none => s.dropCall thread
        | some f => s.setCall thread (.enqueuing objectId f))
    | _ => none
  | .detachEnqueue thread => match s.call thread with
    | some (.enqueuing objectId f) =>
      some (match s.enqueue s.objectId (.detached f) whenInternalDetached with
        | none => s.dropCall thread
        | some t => t.setCall thread (.noticing objectId f s.tickets))
    | _ => none
  | .detachNoticed thread => match s.call thread with
    | some (.noticing _ _ ticket) => if ticket ∈ s.notices then some (s.dropCall thread) else none
    | _ => none
  | .detachInFunction objectId => match s.worker with
    | .executing _ =>
      if objectId = s.objectId then none
      else some (if objectId ∈ s.objectIds then s.erase objectId else s)
    | _ => none
  | .terminate => some { s with exit := true, notifiers := s.notifiers + 1 }
  | .loop r₁ r₂ r₃ => match s.worker with
    | .looping => some (s.loop r₁ r₂ r₃)
    | _ => none
  | .wake timeout r₂ r₃ => s.wake timeout r₂ r₃
  | .announce => match s.worker with
    | .popped e =>
      some { s with worker := .announced e, runningFunctionObjectId := some e.objectIdValue }
    | _ => none
  | .check => match s.worker with
    | .announced e =>
      some (if e.objectIdValue ∈ s.objectIds then
          { s with worker := .executing e, started := s.started ++ [e] }
        else { s with worker := .returned, skipped := s.skipped ++ [e] })
    | _ => none
  | .complete => match s.worker with
    | .executing e =>
      some { s with
        worker := .returned
        completed := s.completed ++ [e]
        notices := match e.function with
          | .function _ => s.notices
          | .detached _ => s.notices ++ [e.ticket] }
    | _ => none
  | .reset => match s.worker with
    | .returned => some { s with worker := .looping, runningFunctionObjectId := none }
    | _ => none

/-! ## What a step can do -/

namespace State

/-- The worker waits: what made it do so, and since when. -/
inductive Waits (s : State F) : Worker F → Prop where
  | waiting (hexit : s.exit = false) (hqueue : s.queue = []) : Waits s (.waiting false)
  | begins (e : Entry F) (queue : List (Entry F)) (hexit : s.exit = false)
      (hqueue : s.queue = e :: queue) (hlate : whenImmediately < e.when) :
      Waits s (.waitingFor false e.when s.tickets)
  | goesOn (notified : Bool) (deadline since : ℕ) (hexit : s.exit = false)
      (hworker : s.worker = .waitingFor notified deadline since)
      (hlate : ∀ e queue, s.queue = e :: queue → whenImmediately < e.when) :
      Waits s (.waitingFor false deadline since)

/-- What the worker does under `mutex_`. -/
inductive Locked (s : State F) : State F → Prop where
  | waits (worker : Worker F) (h : Waits s worker) : Locked s { s with worker }
  | loops : Locked s { s with worker := .looping }
  | finishes (hexit : s.exit = true) : Locked s { s with worker := .finished }
  | takes (e : Entry F) (queue : List (Entry F)) (now : ℕ) (hexit : s.exit = false)
      (hqueue : s.queue = e :: queue) (hdue : e.when ≤ now) :
      Locked s { s with
        queue, worker := .popped e, taken := s.taken ++ [⟨e, now, s.tickets⟩] }

/-- What is due immediately is due at any time. -/
theorem whenImmediately_le_now (reading : Option ℕ) : whenImmediately ≤ now reading := by
  cases reading with
  | none => exact le_rfl
  | some n => exact le_max_left _ _

/-- The end of the critical section: the worker finishes, goes round, or takes the first entry,
which is due. -/
theorem locked_checkCondition (s : State F) (reading : Option ℕ) :
    Locked s (s.checkCondition reading) := by
  rw [checkCondition]
  split
  next hexit => exact .finishes hexit
  next hexit =>
    split
    next => exact .loops
    next hdue =>
      split
      next => exact .loops
      next e queue hqueue =>
        refine .takes e queue _ (Bool.eq_false_of_not_eq_true hexit) hqueue ?_
        rw [calculateDuration, hqueue, Nat.not_lt, Nat.le_zero] at hdue
        exact Nat.sub_eq_zero_iff_le.mp hdue

/-- The predicate of the wait without a limit is false. -/
theorem not_waited {s : State F} (h : ¬ s.waited) : s.exit = false ∧ s.queue = [] := by
  rw [waited, Bool.or_eq_true, not_or, Bool.not_eq_true, Bool.not_eq_true,
    Bool.not_eq_false', List.isEmpty_iff] at h
  exact h

/-- The predicate of the wait with a limit is false: what is first is not due immediately. -/
theorem not_waitedFor {s : State F} {reading : Option ℕ} (h : ¬ s.waitedFor reading) :
    s.exit = false ∧ ∀ e queue, s.queue = e :: queue → whenImmediately < e.when := by
  rw [waitedFor, Bool.or_eq_true, not_or, Bool.not_eq_true] at h
  refine ⟨h.1, fun e queue hqueue => ?_⟩
  have hlate : ¬ e.when - now reading = 0 := by
    simpa [hqueue, calculateDuration] using h.2
  have := whenImmediately_le_now reading
  omega

/-- The worker enters the critical section: it falls asleep until the first entry is due, or goes on
to the end. -/
theorem locked_loop (s : State F) (r₁ r₂ r₃ : Option ℕ) : Locked s (s.loop r₁ r₂ r₃) := by
  rw [loop]
  split
  next =>
    split
    next => exact locked_checkCondition s r₃
    next hwaited =>
      obtain ⟨hexit, hqueue⟩ := not_waited hwaited
      exact .waits _ (.waiting hexit hqueue)
  next hlate =>
    split
    next => exact locked_checkCondition s r₃
    next hwaited =>
      obtain ⟨hexit, -⟩ := not_waitedFor hwaited
      have himmediately := whenImmediately_le_now r₁
      rw [calculateDuration] at hlate ⊢
      cases hqueue : s.queue with
      | nil =>
        rw [hqueue] at hlate
        exact absurd (Nat.sub_eq_zero_of_le himmediately) hlate
      | cons e queue =>
        rw [hqueue] at hlate
        have hnow : now r₁ < e.when := Nat.lt_of_sub_ne_zero hlate
        have hdeadline : now r₁ + (e.when - now r₁) = e.when := Nat.add_sub_cancel' hnow.le
        dsimp only
        rw [hdeadline, ← hqueue]
        exact .waits _ (.begins e queue hexit hqueue (himmediately.trans_lt hnow))

/-- A sleeping worker wakes up: it goes on sleeping, or goes on to the end. -/
theorem locked_wake {s t : State F} {timeout : Bool} {r₂ r₃ : Option ℕ}
    (h : s.wake timeout r₂ r₃ = some t) : Locked s t := by
  rw [wake] at h
  split at h
  next =>
    obtain rfl := Option.some.inj h
    split
    next => exact locked_checkCondition s r₃
    next hwaited =>
      obtain ⟨hexit, hqueue⟩ := not_waited hwaited
      exact .waits _ (.waiting hexit hqueue)
  next notified deadline since hworker =>
    obtain rfl := Option.some.inj h
    split
    next => exact locked_checkCondition s r₃
    next hwaited =>
      rw [Bool.or_eq_true, not_or] at hwaited
      obtain ⟨hexit, hlate⟩ := not_waitedFor hwaited.1
      exact .waits _ (.goesOn notified deadline since hexit hworker hlate)
  next => cases h

end State

/-- One case for each thing a step can do, with all that was checked. -/
inductive StepCase (s : State F) : Label F → State F → Prop where
  /-- the call returns false, or changes nothing -/
  | nothing (label : Label F) : StepCase s label s
  | attach (objectId : ℕ) :
      StepCase s (.attach objectId) { s with objectIds := s.objectIds.insert objectId }
  | enqueue (objectId : ℕ) (function : F) (when : ℕ) (hne : objectId ≠ s.objectId)
      (hattached : objectId ∈ s.objectIds) (hexit : s.exit = false) :
      StepCase s (.enqueue objectId function when)
        (s.push ⟨objectId, .function function, when, s.tickets⟩)
  | notify (hnotifiers : s.notifiers ≠ 0) :
      StepCase s .notify { s.notifyAll with notifiers := s.notifiers - 1 }
  | invoke : StepCase s .invoke s.notifyAll
  | detach (thread objectId : ℕ) (function : Option F) (hne : objectId ≠ s.objectId)
      (hcall : s.call thread = none) (hattached : objectId ∈ s.objectIds) :
      StepCase s (.detach thread objectId function)
        ((s.erase objectId).setCall thread (.running objectId function))
  | detachDone (thread objectId : ℕ) (hcall : s.call thread = some (.running objectId none))
      (hrunning : s.runningFunctionObjectId ≠ some objectId) :
      StepCase s (.detachWaited thread) (s.dropCall thread)
  | detachWaited (thread objectId : ℕ) (f : F)
      (hcall : s.call thread = some (.running objectId (some f)))
      (hrunning : s.runningFunctionObjectId ≠ some objectId) :
      StepCase s (.detachWaited thread) (s.setCall thread (.enqueuing objectId f))
  | detachRefused (thread objectId : ℕ) (f : F)
      (hcall : s.call thread = some (.enqueuing objectId f))
      (hrefused : s.objectId ∉ s.objectIds ∨ s.exit = true) :
      StepCase s (.detachEnqueue thread) (s.dropCall thread)
  | detachEnqueue (thread objectId : ℕ) (f : F)
      (hcall : s.call thread = some (.enqueuing objectId f))
      (hattached : s.objectId ∈ s.objectIds) (hexit : s.exit = false) :
      StepCase s (.detachEnqueue thread)
        ((s.push ⟨s.objectId, .detached f, whenInternalDetached, s.tickets⟩).setCall thread
          (.noticing objectId f s.tickets))
  | detachNoticed (thread objectId : ℕ) (f : F) (ticket : ℕ)
      (hcall : s.call thread = some (.noticing objectId f ticket)) (hnotice : ticket ∈ s.notices) :
      StepCase s (.detachNoticed thread) (s.dropCall thread)
  | detachInFunction (objectId : ℕ) (e : Entry F) (hworker : s.worker = .executing e)
      (hne : objectId ≠ s.objectId) :
      StepCase s (.detachInFunction objectId) (s.erase objectId)
  | terminate : StepCase s .terminate { s with exit := true, notifiers := s.notifiers + 1 }
  | locked (label : Label F) (t : State F) (hidle : s.worker.Idle) (h : State.Locked s t) :
      StepCase s label t
  | announce (e : Entry F) (hworker : s.worker = .popped e) :
      StepCase s .announce
        { s with worker := .announced e, runningFunctionObjectId := some e.objectIdValue }
  | start (e : Entry F) (hworker : s.worker = .announced e)
      (hattached : e.objectIdValue ∈ s.objectIds) :
      StepCase s .check { s with worker := .executing e, started := s.started ++ [e] }
  | skip (e : Entry F) (hworker : s.worker = .announced e)
      (hdetached : e.objectIdValue ∉ s.objectIds) :
      StepCase s .check { s with worker := .returned, skipped := s.skipped ++ [e] }
  | complete (e : Entry F) (f : F) (hworker : s.worker = .executing e)
      (hfunction : e.function = .function f) :
      StepCase s .complete { s with worker := .returned, completed := s.completed ++ [e] }
  | completeDetached (e : Entry F) (f : F) (hworker : s.worker = .executing e)
      (hfunction : e.function = .detached f) :
      StepCase s .complete
        { s with
          worker := .returned, completed := s.completed ++ [e], notices := s.notices ++ [e.ticket] }
  | reset (hworker : s.worker = .returned) :
      StepCase s .reset { s with worker := .looping, runningFunctionObjectId := none }

/-- A step is one of these. -/
theorem stepCase {s t : State F} {label : Label F} (h : step s label = some t) :
    StepCase s label t := by
  cases label with
  | attach objectId =>
    obtain ⟨-, rfl⟩ := by simpa [step] using h
    rw [State.attach]
    split
    · exact .nothing _
    · exact .attach objectId
  | enqueue objectId function when =>
    obtain ⟨hne, rfl⟩ := by simpa [step] using h
    rw [State.enqueue]
    split
    next hok => exact .enqueue objectId function when hne hok.1 hok.2
    next => exact .nothing _
  | notify =>
    obtain ⟨hnotifiers, rfl⟩ := by simpa [step] using h
    exact .notify hnotifiers
  | invoke =>
    obtain rfl := Option.some.inj h
    exact .invoke
  | detach thread objectId function =>
    rw [step] at h
    split at h
    next => cases h
    next hne =>
      rw [not_or, not_not] at hne
      split at h
      next =>
        obtain rfl := Option.some.inj h
        exact .nothing _
      next hattached =>
        obtain rfl := Option.some.inj h
        exact .detach thread objectId function hne.1 hne.2 (not_not.mp hattached)
  | detachWaited thread =>
    rw [step] at h
    split at h
    next objectId function hcall =>
      split at h
      next => cases h
      next hrunning =>
        obtain rfl := Option.some.inj h
        cases function with
        | none => exact .detachDone thread objectId hcall hrunning
        | some f => exact .detachWaited thread objectId f hcall hrunning
    next => cases h
  | detachEnqueue thread =>
    rw [step] at h
    split at h
    next objectId f hcall =>
      obtain rfl := Option.some.inj h
      rw [State.enqueue]
      by_cases hok : s.objectId ∈ s.objectIds ∧ s.exit = false
      · rw [if_pos hok]
        exact .detachEnqueue thread objectId f hcall hok.1 hok.2
      · rw [if_neg hok]
        rw [not_and_or, Bool.not_eq_false] at hok
        exact .detachRefused thread objectId f hcall hok
    next => cases h
  | detachNoticed thread =>
    rw [step] at h
    split at h
    next objectId f ticket hcall =>
      split at h
      next hnotice =>
        obtain rfl := Option.some.inj h
        exact .detachNoticed thread objectId f ticket hcall hnotice
      next => cases h
    next => cases h
  | detachInFunction objectId =>
    rw [step] at h
    split at h
    next e hworker =>
      split at h
      next => cases h
      next hne =>
        obtain rfl := Option.some.inj h
        split
        next => exact .detachInFunction objectId e hworker hne
        next => exact .nothing _
    next => cases h
  | terminate =>
    obtain rfl := Option.some.inj h
    exact .terminate
  | loop r₁ r₂ r₃ =>
    rw [step] at h
    split at h
    next hworker =>
      obtain rfl := Option.some.inj h
      exact .locked _ _ (by rw [hworker]; trivial) (State.locked_loop s r₁ r₂ r₃)
    next => cases h
  | wake timeout r₂ r₃ =>
    have hidle : s.worker.Idle := by
      rw [step, State.wake] at h
      cases hworker : s.worker <;> first | trivial | (rw [hworker] at h; cases h)
    exact .locked _ _ hidle (State.locked_wake h)
  | announce =>
    rw [step] at h
    split at h
    next e hworker =>
      obtain rfl := Option.some.inj h
      exact .announce e hworker
    next => cases h
  | check =>
    rw [step] at h
    split at h
    next e hworker =>
      obtain rfl := Option.some.inj h
      split
      next hattached => exact .start e hworker hattached
      next hdetached => exact .skip e hworker hdetached
    next => cases h
  | complete =>
    rw [step] at h
    split at h
    next e hworker =>
      obtain rfl := Option.some.inj h
      cases hfunction : e.function with
      | function f => exact .complete e f hworker hfunction
      | detached f => exact .completeDetached e f hworker hfunction
    next => cases h
  | reset =>
    rw [step] at h
    split at h
    next hworker =>
      obtain rfl := Option.some.inj h
      exact .reset hworker
    next => cases h

end VirtualHidDevice.DispatcherThread
