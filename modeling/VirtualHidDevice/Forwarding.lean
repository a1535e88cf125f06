import VirtualHidDevice.Manager

/-!
# Reports reach the driver in order

Every report and every reset that a program asks for passes through the client's
queue, the socket, the daemon's queue as a request, and the daemon's queue again as
a closure of an io service client, which makes the call of the driver.

* `ClientCall.input`, `EntryCall.input`, `Task.input`, `DriverRecord.input` — the
  same report or reset at each stage, as the call of the driver it stands for.
* `Session.pipeline` — what has reached the driver, followed by what is on its way.
  It is never out of order (`Peer.step_pipeline`): a step moves its items on, or
  drops some of them.
* `Session.Steady` — both devices have the same clients, connected to a driver of
  the right version; then nothing is dropped.
-/

namespace VirtualHidDevice

open Dispatcher (enqueued)

/-! ## Reports and resets -/

/-- The calls of the driver that are reports and resets. -/
def DriverCall.isInput : DriverCall → Bool
  | reset _ => true
  | postReport _ _ => true
  | _ => false

/-- The report or reset that a closure of an io service client passes on. -/
def IoTask.input (task : IoTask) : Option DriverCall := task.driverCall.filter DriverCall.isInput

/-- The report or reset that a task passes on. -/
def Task.input : Task → Option DriverCall
  | io _ task => task.input
  | _ => none

/-- The report or reset that the entry is asked for. -/
def EntryCall.input : EntryCall → Option DriverCall
  | reset kind => some (.reset kind)
  | postReport _ method buffer reportOffset => (IoTask.postReport method buffer reportOffset).input
  | _ => none

/-- The method of the driver that takes the reports of a device. -/
def DeviceKind.postReportMethod : DeviceKind → UserClientMethod
  | keyboard => .virtualHidKeyboardPostReport
  | pointing => .virtualHidPointingPostReport

/-- The report or reset that the program asks for. -/
def ClientCall.input : ClientCall → Option DriverCall
  | keyboardReset => some (.reset .keyboard)
  | pointingReset => some (.reset .pointing)
  | postReport r => some (.postReport r.kind.postReportMethod r.bytes)
  | _ => none

/-- A report or reset that has reached the driver. -/
def DriverRecord.input (record : DriverRecord) : Option DriverCall :=
  (some record.call).filter DriverCall.isInput

/-- The program's report or reset is what its request asks the entry for. -/
theorem ClientCall.input_entryCall (call : ClientCall) :
    call.operation.entryCall.input = call.input := by
  cases call with
  | postReport r => cases r <;> rfl
  | _ => rfl

/-- The closures of a call on the entry pass on what it asks for, if the client of the
device is there. -/
theorem entryCallTasks_input (e : ClientEntry) (call : EntryCall) :
    ((Run.entryCallTasks e call).filterMap Task.input).Sublist call.input.toList ∧
      ((∀ kind, (e.slots kind).client.isSome) →
        (Run.entryCallTasks e call).filterMap Task.input = call.input.toList) := by
  cases call with
  | reset kind =>
    rcases hc : (e.slots kind).client with _ | c
    · refine ⟨by simp [Run.entryCallTasks, hc], fun h => ?_⟩
      have := h kind
      rw [hc] at this
      cases this
    · have heq : (Run.entryCallTasks e (.reset kind)).filterMap Task.input =
          (EntryCall.reset kind).input.toList := by
        rw [Run.entryCallTasks, hc]
        rfl
      exact ⟨heq ▸ List.Sublist.refl _, fun _ => heq⟩
  | postReport kind method buffer offset =>
    rcases hc : (e.slots kind).client with _ | c
    · refine ⟨by simp [Run.entryCallTasks, hc], fun h => ?_⟩
      have := h kind
      rw [hc] at this
      cases this
    · have heq : (Run.entryCallTasks e (.postReport kind method buffer offset)).filterMap
          Task.input = (EntryCall.postReport kind method buffer offset).input.toList := by
        rcases hi : (IoTask.postReport method buffer offset).input with _ | x <;>
          simp [Run.entryCallTasks, hc, Task.input, EntryCall.input, hi]
      exact ⟨heq ▸ List.Sublist.refl _, fun _ => heq⟩
  | _ => exact ⟨List.Sublist.refl _, fun _ => rfl⟩

/-- The same for all closures of a request. -/
theorem requestTasks_input (e : ClientEntry) (buffer : Bytes) :
    ((Run.requestTasks e buffer).filterMap Task.input).Sublist
        ((Run.requestCalls buffer).filterMap EntryCall.input) ∧
      ((∀ kind, (e.slots kind).client.isSome) → (Run.requestTasks e buffer).filterMap Task.input =
        (Run.requestCalls buffer).filterMap EntryCall.input) := by
  rw [Run.requestTasks_eq]
  induction Run.requestCalls buffer with
  | nil => exact ⟨List.Sublist.refl _, fun _ => rfl⟩
  | cons call calls ih =>
    have hcons : (call :: calls).filterMap EntryCall.input =
        call.input.toList ++ calls.filterMap EntryCall.input := by
      rcases hi : call.input with _ | x <;> simp [hi]
    obtain ⟨hsub, heq⟩ := entryCallTasks_input e call
    rw [List.flatMap_cons, List.filterMap_append, hcons]
    exact ⟨hsub.append ih.1, fun h => by rw [heq h, ih.2 h]⟩

/-! ## The daemon -/

/-- Both devices have the clients that they had, connected to a driver of the right
version. -/
def ClientEntry.Steady (ids : DeviceKind → ℕ) (e : ClientEntry) : Prop :=
  ∀ kind, ∃ c, (e.slots kind).client = some c ∧ c.objectId = ids kind ∧
    c.connection.isSome ∧ c.driverVersion = some embeddedDriverVersion

instance (ids : DeviceKind → ℕ) (e : ClientEntry) : Decidable (e.Steady ids) :=
  let ready (kind : DeviceKind) : Prop := ∃ c, (e.slots kind).client = some c ∧
    c.objectId = ids kind ∧ c.connection.isSome ∧ c.driverVersion = some embeddedDriverVersion
  decidable_of_iff (ready .keyboard ∧ ready .pointing)
    ⟨fun h kind => match kind with | .keyboard => h.1 | .pointing => h.2,
      fun h => ⟨h .keyboard, h .pointing⟩⟩

namespace Peer

/-- The reports and resets that have reached the driver. -/
def reached (p : Peer) : List DriverCall := p.calls.filterMap DriverRecord.input

/-- Those that have become closures of the io service clients. -/
def queuedInputs (p : Peer) : List DriverCall := p.queue.filterMap Task.input

/-- Those that are requests. -/
def requestedInputs (p : Peer) : List DriverCall :=
  (p.requests.flatMap Run.requestCalls).filterMap EntryCall.input

/-- All of them, in order. -/
def pipeline (p : Peer) : List DriverCall := p.reached ++ p.queuedInputs ++ p.requestedInputs

/-- Queued reports and resets belong to clients that are there. -/
def Targets (p : Peer) : Prop :=
  ∀ o task, .io o task ∈ p.queue → task.input ≠ none →
    ∃ kind c, (p.entry.slots kind).client = some c ∧ c.objectId = o

/-- What has reached the driver and what is on its way in the daemon. -/
theorem pipeline_congr {p q : Peer} (hreached : q.calls = p.calls)
    (hqueued : q.queuedInputs = p.queuedInputs) (hreq : q.requests = p.requests) :
    q.pipeline = p.pipeline := by
  rw [pipeline, pipeline, reached, reached, hreached, hqueued, requestedInputs, requestedInputs,
    hreq]

/-- A step that changes nothing but closures in the queue that are no reports. -/
theorem pipeline_of_quiet {p q : Peer} {queue tasks : List Task} (hcalls : q.calls = p.calls)
    (hp : p.queue = queue ∨
      ∃ t, t.input = none ∧ t.asRequest = none ∧ p.queue = t :: queue)
    (hq : q.queue = queue ++ tasks) (htasks : ∀ t ∈ tasks, t.input = none ∧ t.asRequest = none) :
    q.pipeline = p.pipeline := by
  have hnone : tasks.filterMap Task.input = [] ∧ tasks.filterMap Task.asRequest = [] :=
    ⟨List.filterMap_eq_nil_iff.mpr fun t ht => (htasks t ht).1,
      List.filterMap_eq_nil_iff.mpr fun t ht => (htasks t ht).2⟩
  refine pipeline_congr hcalls ?_ ?_
  · rw [queuedInputs, queuedInputs, hq, List.filterMap_append, hnone.1, List.append_nil]
    rcases hp with rfl | ⟨t, hin, -, hp⟩
    · rfl
    · rw [hp, List.filterMap_cons_none hin]
  · rw [requests, requests, hq, List.filterMap_append, hnone.2, List.append_nil]
    rcases hp with rfl | ⟨t, -, hreq, hp⟩
    · rfl
    · rw [hp, List.filterMap_cons_none hreq]

/-- Clients are created and destroyed: only closures of clients are dropped. -/
theorem Replaces.pipeline_finish {p : Peer} {kind : DeviceKind} {client : Option IoServiceClient}
    {r : Run} (hr : p.Replaces kind client r) {queue : List Task}
    (hqueued : p.queuedInputs = queue.filterMap Task.input)
    (hreq : p.requests = queue.filterMap Task.asRequest) :
    (finish queue r).pipeline.Sublist p.pipeline := by
  have hreq' : (finish queue r).requests = p.requests := by
    rw [hreq]
    exact (hr.finish_requests queue).1
  rw [pipeline, pipeline, requestedInputs, requestedInputs, hreq', reached, reached]
  refine List.Sublist.append (List.Sublist.append ?_ ?_) (List.Sublist.refl _)
  · rw [← hr.calls]
    exact List.Sublist.refl _
  · rw [hqueued]
    refine Dispatcher.filterMap_applyAll_sublist Task.owner _ fun t ht => ?_
    rw [hr.started t ht]
    rfl

/-- A client that is steady takes calls. -/
theorem callTarget_of_steady {c : IoServiceClient} (hconn : c.connection.isSome)
    (hver : c.driverVersion = some embeddedDriverVersion) :
    ∃ handle, c.callTarget = some handle := by
  obtain ⟨handle, hhandle⟩ := Option.isSome_iff_exists.mp hconn
  refine ⟨handle, ?_⟩
  simp [IoServiceClient.callTarget, hhandle, IoServiceClient.driverConnected,
    IoServiceClient.driverVersionMismatched, hver]

/-- The calls that a closure makes, as reports and resets. -/
theorem input_of_outcome {c : IoServiceClient} {task : IoTask} {r : IoRun}
    (h : TaskOutcome c task r) (objectId : ℕ) :
    ((r.effects.filterMap IoEffect.called).map fun call =>
        (⟨objectId, call.1, call.2⟩ : DriverRecord)).filterMap DriverRecord.input =
      if c.callTarget.isSome then task.input.toList else [] := by
  rw [h.calls, IoTask.input]
  rcases task.driverCall with _ | call
  · simp
  · rcases c.callTarget with _ | handle
    · simp
    · rcases hi : call.isInput with _ | _ <;>
        simp [DriverRecord.input, Option.filter, hi]

/-- The closures that a closure of a client queues are no reports. -/
theorem queued_input_of_outcome {c : IoServiceClient} {task : IoTask} {r : IoRun}
    (h : TaskOutcome c task r) (objectId : ℕ) :
    ((r.effects.filterMap IoEffect.queued).map (Task.io objectId)).filterMap Task.input = [] ∧
      ((r.effects.filterMap IoEffect.queued).map (Task.io objectId)).filterMap Task.asRequest =
        [] := by
  refine ⟨List.filterMap_eq_nil_iff.mpr fun t ht => ?_,
    List.filterMap_eq_nil_iff.mpr fun t ht => ?_⟩
  · obtain ⟨io, hio, rfl⟩ := List.mem_map.mp ht
    rcases h.queued io (IoEffect.mem_queued.mp hio) with ⟨s, rfl⟩ | ⟨kind, value, rfl⟩ <;> rfl
  · obtain ⟨io, -, rfl⟩ := List.mem_map.mp ht
    rfl

/-- A closure of a client moves its report to the driver, or drops it if the client
is not connected. -/
theorem pipeline_ioTask {p q : Peer} {c : IoServiceClient} {objectId : ℕ} {task : IoTask}
    {queue : List Task} {r : IoRun} (hout : TaskOutcome c task r)
    (hp : p.queue = .io objectId task :: queue)
    (hq : q.queue = queue ++ (r.effects.filterMap IoEffect.queued).map (.io objectId))
    (hcalls : q.calls = p.calls ++ (r.effects.filterMap IoEffect.called).map fun call =>
      ⟨objectId, call.1, call.2⟩) :
    q.pipeline.Sublist p.pipeline ∧
      ((task.input ≠ none → c.callTarget.isSome) → q.pipeline = p.pipeline) := by
  obtain ⟨hinput, hrequest⟩ := queued_input_of_outcome hout objectId
  have hpq : p.pipeline = p.reached ++ (task.input.toList ++ queue.filterMap Task.input) ++
      ((queue.filterMap Task.asRequest).flatMap Run.requestCalls).filterMap EntryCall.input := by
    rw [pipeline, queuedInputs, requestedInputs, requests, hp]
    rcases hi : task.input with _ | x <;> simp [Task.input, Task.asRequest, hi, List.filterMap_cons]
  have hqq : q.pipeline = p.reached ++ ((if c.callTarget.isSome then task.input.toList else []) ++
      queue.filterMap Task.input) ++
      ((queue.filterMap Task.asRequest).flatMap Run.requestCalls).filterMap EntryCall.input := by
    rw [pipeline, reached, queuedInputs, requestedInputs, requests, hq, hcalls,
      List.filterMap_append, List.filterMap_append, List.filterMap_append, hinput, hrequest,
      input_of_outcome hout, List.append_nil, List.append_nil, reached, List.append_assoc
        (p.calls.filterMap DriverRecord.input)]
  rw [hpq, hqq]
  rcases hc : c.callTarget.isSome with _ | _
  · refine ⟨?_, fun h => ?_⟩
    · refine ((List.Sublist.refl _).append ?_).append (List.Sublist.refl _)
      exact (List.nil_sublist _).append (List.Sublist.refl _)
    · have hnone : task.input = none := by
        by_contra hne
        cases h hne
      simp [hnone]
  · exact ⟨List.Sublist.refl _, fun _ => rfl⟩

/-- A client that is replaced is not steady. -/
theorem Creates.not_steady {p : Peer} {kind : DeviceKind} {r : Run} (hr : p.Creates kind r)
    (hobj : p.Objects) {ids : DeviceKind → ℕ} (hp : p.entry.Steady ids)
    (hq : r.entry.Steady ids) : False := by
  obtain ⟨c, hc, hid, -⟩ := hp kind
  obtain ⟨d, hd, hid', -⟩ := hq kind
  have hclient := hr.clients (.device kind)
  rw [if_pos rfl] at hclient
  obtain rfl := Option.some.inj (hclient.symm.trans hd)
  have hlt := hobj.live (.device kind) c hc
  rw [hid, ← hid'] at hlt
  exact absurd hlt (lt_irrefl _)

/-- A request is handled: its reports and resets go on as closures, for those devices that
have a client. -/
theorem pipeline_request {p q : Peer} {buffer : Bytes} {queue : List Task}
    (hq : p.queue = .request buffer :: queue) (hcalls : q.calls = p.calls)
    (hqueue : q.queue = queue ++ Run.requestTasks p.entry buffer) :
    q.pipeline.Sublist p.pipeline ∧
      ((∀ kind, (p.entry.slots kind).client.isSome) → q.pipeline = p.pipeline) := by
  have hbefore : p.pipeline = p.reached ++ queue.filterMap Task.input ++
      (Run.requestCalls buffer).filterMap EntryCall.input ++
      ((queue.filterMap Task.asRequest).flatMap Run.requestCalls).filterMap EntryCall.input := by
    rw [pipeline, queuedInputs, requestedInputs, requests, hq,
      List.filterMap_cons_none (f := Task.input) rfl,
      List.filterMap_cons_some (f := Task.asRequest) rfl, List.flatMap_cons,
      List.filterMap_append, List.append_assoc, List.append_assoc, List.append_assoc]
  have hafter : q.pipeline = p.reached ++ queue.filterMap Task.input ++
      (Run.requestTasks p.entry buffer).filterMap Task.input ++
      ((queue.filterMap Task.asRequest).flatMap Run.requestCalls).filterMap EntryCall.input := by
    simp only [pipeline, reached, queuedInputs, requestedInputs, requests, hcalls, hqueue,
      List.filterMap_append, Run.requestTasks_asRequest, List.append_nil, List.append_assoc]
  obtain ⟨hsub, heq⟩ := requestTasks_input p.entry buffer
  rw [hbefore, hafter]
  refine ⟨((List.Sublist.refl _).append hsub).append (List.Sublist.refl _), fun hsome => ?_⟩
  rw [heq hsome]

/-- A step of the daemon keeps the reports and resets in order, and loses none while
both devices are steady. -/
theorem step_pipeline {p q : Peer} {label : PeerLabel} (hlife : Lifecycle p.entry p.recreates)
    (hobj : p.Objects) (htargets : p.Targets) (hlabel : ∀ buffer, label ≠ .request buffer)
    (hstep : p.step label = some q) (ids : DeviceKind → ℕ) :
    q.pipeline.Sublist p.pipeline ∧
      (p.entry.Steady ids → q.entry.Steady ids → q.pipeline = p.pipeline) := by
  have equal : ∀ {q : Peer}, q.pipeline = p.pipeline → q.pipeline.Sublist p.pipeline ∧
      (p.entry.Steady ids → q.entry.Steady ids → q.pipeline = p.pipeline) :=
    fun h => ⟨h ▸ List.Sublist.refl _, fun _ _ => h⟩
  have single : ∀ (o : ℕ) (io : IoTask), io.input = none →
      ∀ t ∈ [Task.io o io], t.input = none ∧ t.asRequest = none := by
    intro o io hio t ht
    obtain rfl := List.mem_singleton.mp ht
    exact ⟨hio, rfl⟩
  -- an entry task at the head of the queue is no report and no request
  have head : ∀ {task : EntryTask} {queue : List Task}, p.queue = .entry task :: queue →
      p.queuedInputs = queue.filterMap Task.input ∧
        p.requests = queue.filterMap Task.asRequest := by
    intro task queue hq
    rw [queuedInputs, requests, hq]
    exact ⟨rfl, rfl⟩
  have hfresh : ∀ queue, (finish queue p.fresh.checkStatusChanged).calls = p.calls := by
    intro queue
    simp [finish, fresh]
  cases step_cases hlife hstep with
  | arrive buffer => exact absurd rfl (hlabel buffer)
  | event role e c hc =>
    refine equal (pipeline_of_quiet rfl (Or.inl rfl) rfl (single _ _ ?_))
    cases e <;> rfl
  | activated value e =>
    refine equal (pipeline_of_quiet rfl (Or.inl rfl) rfl (single _ _ ?_))
    cases e <;> rfl
  | poll tasks htasks =>
    refine equal (pipeline_of_quiet rfl (Or.inl rfl) rfl fun t ht => ?_)
    obtain ⟨k, c, -, rfl⟩ := htasks t ht
    exact ⟨rfl, rfl⟩
  | request answers buffer queue hq =>
    refine And.imp_right (fun heq h _ => heq fun kind => ?_) (pipeline_request hq rfl rfl)
    obtain ⟨c, hc, -⟩ := h kind
    rw [hc]
    rfl
  | keep answers task queue hq htask =>
    refine equal (pipeline_of_quiet (hfresh queue) (Or.inr ⟨_, rfl, rfl, hq⟩) ?_
      (List.forall_mem_nil _))
    rw [finish_checkStatusChanged_queue, List.append_nil]
  | newKeyboard answers parameters queue hq hnew =>
    have hr := newKeyboard_creates p parameters
    exact ⟨hr.pipeline_finish (head hq).1 (head hq).2, fun h h' => (hr.not_steady hobj h h').elim⟩
  | newPointing answers queue hq hnone =>
    have hr := newPointing_creates hnone
    exact ⟨hr.pipeline_finish (head hq).1 (head hq).2, fun h h' => (hr.not_steady hobj h h').elim⟩
  | terminate answers k task queue hq htask =>
    have hr := switchedOff_removes p k
    refine ⟨hr.pipeline_finish (head hq).1 (head hq).2, fun _ h => ?_⟩
    obtain ⟨c, hc, -⟩ := h k
    have hnone := hr.clients (.device k)
    rw [if_pos rfl] at hnone
    cases hnone.symm.trans hc
  | stale answers objectId task queue hq hrole =>
    have hinput : task.input = none := by
      by_contra hin
      obtain ⟨kind, c, hc, rfl⟩ := htargets objectId task (hq ▸ List.mem_cons_self) hin
      have hsome := ClientEntry.role_isSome (.device kind) hc
      rw [hrole] at hsome
      cases hsome
    exact equal (pipeline_of_quiet rfl (Or.inr ⟨.io objectId task, hinput, rfl, hq⟩)
      (List.append_nil _).symm (List.forall_mem_nil _))
  | stateChanged answers objectId role queue hq hrole =>
    refine equal (pipeline_of_quiet (hfresh queue) (Or.inr ⟨_, rfl, rfl, hq⟩) ?_
      (List.forall_mem_nil _))
    rw [finish_checkStatusChanged_queue, List.append_nil]
  | opened answers objectId kind queue hq hrole =>
    refine equal (pipeline_of_quiet rfl (Or.inr ⟨_, rfl, rfl, hq⟩) rfl (single _ _ ?_))
    cases kind <;> rfl
  | unheard answers objectId s queue hq hs =>
    exact equal (pipeline_of_quiet rfl (Or.inr ⟨_, rfl, rfl, hq⟩) (List.append_nil _).symm
      (List.forall_mem_nil _))
  | ioTask answers objectId task role c queue hq hrole hc hid htask =>
    obtain ⟨hsub, heq⟩ := pipeline_ioTask (q := { p with
      entry := p.entry.setClient (IoRun.runTask answers ⟨c, []⟩ task).client role
      queue := queue ++ ((IoRun.runTask answers ⟨c, []⟩ task).effects.filterMap
        IoEffect.queued).map (.io objectId)
      userClients := Function.update p.userClients objectId
        ((IoRun.runTask answers ⟨c, []⟩ task).effects.foldl (Run.handleEffect answers.create)
          (p.userClients objectId))
      calls := p.calls ++ ((IoRun.runTask answers ⟨c, []⟩ task).effects.filterMap
        IoEffect.called).map fun call => ⟨objectId, call.1, call.2⟩ })
      (IoRun.runTask_outcome answers c htask) hq rfl rfl
    refine ⟨hsub, fun h _ => heq fun hin => ?_⟩
    -- the closure belongs to the client of a device, which is steady
    obtain ⟨kind, d, hd, hid'⟩ := htargets objectId task (hq ▸ List.mem_cons_self) hin
    have hrole' : p.entry.role d.objectId = some (.device kind) := hobj.role_eq hd
    rw [hid', hrole] at hrole'
    obtain rfl := Option.some.inj hrole'
    obtain rfl := Option.some.inj (hd.symm.trans hc)
    obtain ⟨d', hd', -, hconn, hver⟩ := h kind
    obtain rfl := Option.some.inj (hd.symm.trans hd')
    obtain ⟨handle, hhandle⟩ := callTarget_of_steady hconn hver
    rw [hhandle]
    rfl
  | idle index _ _ _ => exact equal rfl
  | recreate index t ht hgen hen hready =>
    have hr := recreated_creates p index t.kind
    exact ⟨hr.pipeline_finish rfl rfl, fun h h' => (hr.not_steady hobj h h').elim⟩

/-- A step that keeps all clients. -/
theorem Targets.keep {p q : Peer} (h : p.Targets)
    (hids : ∀ role, (q.entry.client role).map (·.objectId) =
      (p.entry.client role).map (·.objectId))
    (hqueue : ∀ o t, .io o t ∈ q.queue → t.input ≠ none → .io o t ∈ p.queue ∨
      ∃ kind c, (p.entry.slots kind).client = some c ∧ c.objectId = o) : q.Targets := by
  intro o t ht hin
  have htarget : ∃ kind c, (p.entry.slots kind).client = some c ∧ c.objectId = o := by
    rcases hqueue o t ht hin with hmem | htarget
    · exact h o t hmem hin
    · exact htarget
  obtain ⟨kind, c, hc, rfl⟩ := htarget
  have hmap := hids (.device kind)
  simp only [ClientEntry.client, hc, Option.map_some] at hmap
  obtain ⟨d, hd, hid⟩ := Option.map_eq_some_iff.mp hmap
  exact ⟨kind, d, hd, hid⟩

/-- A task that empties a slot, or puts a new client into it. -/
theorem Targets.replace {p : Peer} (h : p.Targets) {kind : DeviceKind}
    {client : Option IoServiceClient} {queue : List Task} {r : Run}
    (hr : p.Replaces kind client r) (hsub : ∀ t ∈ queue, t ∈ p.queue) :
    (finish queue r).Targets := by
  intro o t ht hin
  have hnotnew : .io o t ∉ enqueued r.effects := by
    intro hmem
    obtain ⟨-, rfl⟩ := Task.io.inj (hr.started _ hmem)
    exact hin rfl
  have hmem := (mem_finish ht).resolve_right hnotnew
  obtain ⟨k, c, hc, rfl⟩ := h o t (hsub _ hmem) hin
  by_cases hk : k = kind
  · subst hk
    have hdetached := (hr.detached (.io c.objectId)).mpr ⟨c, hc, rfl⟩
    exact absurd (Dispatcher.mem_enqueued_of_detached Task.owner ht hdetached) hnotnew
  · refine ⟨k, c, ?_, rfl⟩
    have hkept := hr.clients (.device k)
    rw [if_neg fun heq => hk (Role.device.inj heq)] at hkept
    exact hkept.trans hc

/-- Queued reports and resets belong to clients that are there. -/
theorem step_targets {p q : Peer} {label : PeerLabel} (hlife : Lifecycle p.entry p.recreates)
    (h : p.Targets) (hstep : p.step label = some q) : q.Targets := by
  have append : ∀ (tasks : List Task), (∀ t ∈ tasks, t.input = none) →
      ({ p with queue := p.queue ++ tasks } : Peer).Targets := by
    intro tasks htasks
    refine h.keep (fun _ => rfl) fun o t ht hin => ?_
    rcases List.mem_append.mp ht with ht | ht
    · exact Or.inl ht
    · exact absurd (htasks _ ht) hin
  have checked : ∀ {t : Task} {queue : List Task}, p.queue = t :: queue →
      (finish queue p.fresh.checkStatusChanged).Targets := by
    intro t queue hq
    refine h.keep (fun role => by simp [fresh]) fun o t ht _ => Or.inl ?_
    rcases mem_finish ht with ht | ht
    · exact hq ▸ List.mem_cons_of_mem _ ht
    · simp [fresh, enqueued] at ht
  have dropped : ∀ {t : Task} {queue : List Task}, p.queue = t :: queue →
      ({ p with queue := queue } : Peer).Targets := by
    intro t queue hq
    exact h.keep (fun _ => rfl) fun o t ht _ => Or.inl (hq ▸ List.mem_cons_of_mem _ ht)
  cases step_cases hlife hstep with
  | arrive buffer => exact append _ (by simp [Task.input])
  | event role e c hc =>
    refine append _ fun t ht => ?_
    obtain rfl := List.mem_singleton.mp ht
    cases e <;> rfl
  | activated value e =>
    refine h.keep (fun _ => rfl) fun o t ht hin => ?_
    rcases List.mem_append.mp ht with ht | ht
    · exact Or.inl ht
    · obtain ⟨-, rfl⟩ := Task.io.inj (List.mem_singleton.mp ht)
      cases e <;> exact absurd rfl hin
  | poll tasks htasks =>
    refine append tasks fun t ht => ?_
    obtain ⟨k, c, -, rfl⟩ := htasks t ht
    rfl
  | request answers buffer queue hq =>
    refine h.keep (fun _ => rfl) fun o t ht _ => ?_
    rcases List.mem_append.mp ht with ht | ht
    · exact Or.inl (hq ▸ List.mem_cons_of_mem _ ht)
    · obtain ⟨kind, c, hc, hid, -⟩ := requestTasks_io ht
      exact Or.inr ⟨kind, c, hc, hid⟩
  | keep answers task queue hq htask => exact checked hq
  | newKeyboard answers parameters queue hq hnew =>
    exact h.replace (newKeyboard_creates p parameters).toReplaces
      fun t ht => hq ▸ List.mem_cons_of_mem _ ht
  | newPointing answers queue hq hnone =>
    exact h.replace (newPointing_creates hnone).toReplaces
      fun t ht => hq ▸ List.mem_cons_of_mem _ ht
  | terminate answers k task queue hq htask =>
    exact h.replace (switchedOff_removes p k).toReplaces
      fun t ht => hq ▸ List.mem_cons_of_mem _ ht
  | stale answers objectId task queue hq hrole => exact dropped hq
  | stateChanged answers objectId role queue hq hrole => exact checked hq
  | opened answers objectId kind queue hq hrole =>
    refine h.keep (fun _ => rfl) fun o t ht hin => ?_
    rcases List.mem_append.mp ht with ht | ht
    · exact Or.inl (hq ▸ List.mem_cons_of_mem _ ht)
    · obtain ⟨-, rfl⟩ := Task.io.inj (List.mem_singleton.mp ht)
      cases kind <;> exact absurd rfl hin
  | unheard answers objectId s queue hq hs => exact dropped hq
  | ioTask answers objectId task role c queue hq hrole hc hid htask =>
    have hout := IoRun.runTask_outcome answers c htask
    refine h.keep (ClientEntry.setClient_client hc hout.objectId) fun o t ht hin => ?_
    rcases List.mem_append.mp ht with ht | ht
    · exact Or.inl (hq ▸ List.mem_cons_of_mem _ ht)
    · have hnone := List.filterMap_eq_nil_iff.mp (queued_input_of_outcome hout objectId).1 _ ht
      exact absurd hnone hin
  | idle index _ _ _ => exact h
  | recreate index t ht hgen hen hready =>
    exact h.replace (recreated_creates p index t.kind).toReplaces fun _ ht => ht

end Peer

/-! ## The session -/

namespace Session

/-- The reports and resets that the client has not handed to the daemon. -/
def unsent (s : Session) : List DriverCall :=
  (s.toClientEnd.requests.flatMap Run.requestCalls).filterMap EntryCall.input

/-- All that are on their way to the driver. -/
def underway (s : Session) : List DriverCall :=
  s.peer.queuedInputs ++ s.peer.requestedInputs ++ s.unsent

/-- What has reached the driver, followed by what is on its way. -/
def pipeline (s : Session) : List DriverCall := s.peer.reached ++ s.underway

/-- The reports and resets that the program has asked for. -/
def made (s : Session) : List DriverCall := s.calls.filterMap ClientCall.input

/-- The connection is up and both devices are steady. -/
def Steady (ids : DeviceKind → ℕ) (s : Session) : Prop := s.up = true ∧ s.peer.entry.Steady ids

instance (ids : DeviceKind → ℕ) (s : Session) : Decidable (s.Steady ids) :=
  inferInstanceAs (Decidable (_ ∧ _))

/-- What reaches the driver is what the program asked for, in order. -/
structure Ordered (s : Session) : Prop where
  /-- the daemon is in order -/
  life : Lifecycle s.peer.entry s.peer.recreates
  /-- its objects are distinct -/
  objects : s.peer.Objects
  /-- its closures belong to them -/
  targets : s.peer.Targets
  /-- nothing is out of order, changed or there twice -/
  pipeline : s.pipeline.Sublist s.made

theorem pipeline_eq (s : Session) : s.pipeline = s.peer.pipeline ++ s.unsent := by
  simp only [pipeline, underway, Peer.pipeline, List.append_assoc]

/-- What a step does to the reports and resets on their way. -/
theorem step_pipeline {s t : Session} {label : SessionLabel} (h : s.Ordered)
    (hcase : StepCase s label t) (ids : DeviceKind → ℕ) :
    ∃ new, t.calls = s.calls ++ new ∧
      t.pipeline.Sublist (s.pipeline ++ new.filterMap ClientCall.input) ∧
      (s.Steady ids → t.Steady ids →
        t.pipeline = s.pipeline ++ new.filterMap ClientCall.input) := by
  have equal : ∀ {t : Session}, t.calls = s.calls → t.pipeline = s.pipeline →
      ∃ new, t.calls = s.calls ++ new ∧
        t.pipeline.Sublist (s.pipeline ++ new.filterMap ClientCall.input) ∧
        (s.Steady ids → t.Steady ids →
          t.pipeline = s.pipeline ++ new.filterMap ClientCall.input) := by
    intro t hcalls hpipe
    refine ⟨[], by rw [hcalls, List.append_nil], ?_, fun _ _ => ?_⟩ <;>
      rw [hpipe, List.filterMap_nil, List.append_nil]
  have same : ∀ {t : Session}, t.peer = s.peer →
      t.toClientEnd.requests = s.toClientEnd.requests → t.pipeline = s.pipeline := by
    intro t hpeer hreq
    rw [pipeline_eq, pipeline_eq, hpeer, unsent, unsent, hreq]
  cases hcase with
  | suppressed request hs =>
    have hinput : [request].filterMap ClientCall.input = [] := by
      cases request <;> first | rfl | cases hs
    refine ⟨[request], rfl, ?_, fun _ _ => ?_⟩
    · rw [hinput, List.append_nil]
      exact List.Sublist.refl _
    · rw [hinput, List.append_nil]
      rfl
  | call request hs =>
    have hnew : [request].filterMap ClientCall.input =
        (Run.requestCalls request.operation.requestBuffer).filterMap EntryCall.input := by
      rw [Run.requestCalls_requestBuffer, List.filterMap_cons, List.filterMap_cons,
        ClientCall.input_entryCall]
      rfl
    have hpipe : ({ s with
        client := s.client.remember request
        clientQueue := s.clientQueue ++ [.request request.operation.requestBuffer]
        calls := s.calls ++ [request] } : Session).pipeline =
        s.pipeline ++ [request].filterMap ClientCall.input := by
      rw [hnew]
      simp [pipeline_eq, unsent, ClientEnd.requests, ClientTask.asRequest]
    exact ⟨[request], rfl, hpipe ▸ List.Sublist.refl _, fun _ _ => hpipe⟩
  | send buffer queue hq =>
    refine equal rfl (same rfl ?_)
    simp [ClientEnd.requests, hq, ClientTask.asRequest]
  | handle buffer queue hq =>
    refine equal rfl (same rfl ?_)
    simp [ClientEnd.requests, hq, ClientTask.asRequest, List.filterMap_cons]
  | closed queue hq =>
    refine equal rfl (same rfl ?_)
    simp [ClientEnd.requests, hq, ClientTask.asRequest, List.filterMap_cons]
  | deliverRequest buffer rest hup hd =>
    refine equal rfl ?_
    simp [pipeline_eq, Peer.pipeline, Peer.reached, Peer.queuedInputs, Peer.requestedInputs,
      Peer.requests, unsent, ClientEnd.requests, hd, Task.asRequest, Task.input]
  | deliverMessage message hm =>
    refine equal rfl (same rfl ?_)
    simp [ClientEnd.requests, ClientTask.asRequest, List.filterMap_cons]
  | daemon label p hup hreq hstep =>
    obtain ⟨hsub, heq⟩ := Peer.step_pipeline h.life h.objects h.targets hreq
      (Peer.step_of_dispatch hstep) ids
    refine ⟨[], (List.append_nil _).symm, ?_, fun hs ht => ?_⟩
    · rw [List.filterMap_nil, List.append_nil, pipeline_eq, pipeline_eq]
      exact hsub.append (List.Sublist.refl _)
    · rw [List.filterMap_nil, List.append_nil, pipeline_eq, pipeline_eq]
      exact congrArg (· ++ s.unsent) (heq hs.2 ht.2)
  | close hup =>
    refine ⟨[], (List.append_nil _).symm, ?_, fun _ ht => by cases ht.1⟩
    rw [List.filterMap_nil, List.append_nil, pipeline, pipeline]
    refine (List.Sublist.refl _).append ?_
    rw [underway, underway]
    refine List.Sublist.append (List.nil_sublist _) ?_
    simp [unsent, ClientEnd.requests, ClientTask.asRequest, List.filterMap_cons]

/-- One step keeps the order. -/
theorem step_ordered {s t : Session} {label : SessionLabel} (h : s.Ordered)
    (hstep : s.step label = some t) : t.Ordered := by
  have hcase := step_cases hstep
  have hpipe : t.pipeline.Sublist t.made := by
    obtain ⟨new, hcalls, hsub, -⟩ := step_pipeline h hcase (fun _ => 0)
    rw [made, hcalls, List.filterMap_append]
    exact hsub.trans (h.pipeline.append (List.Sublist.refl _))
  have hlife := step_lifecycle hcase h.life
  rcases step_peer hcase with heq | ⟨l, hl⟩ | heq
  · exact ⟨hlife, heq ▸ h.objects, heq ▸ h.targets, hpipe⟩
  · exact ⟨hlife, Peer.step_objects h.life h.objects hl, Peer.step_targets h.life h.targets hl,
      hpipe⟩
  -- a closed peer has an empty queue
  · refine ⟨hlife, ?_, ?_, hpipe⟩
    · rw [heq]
      exact h.objects.keep (fun _ => rfl) rfl fun o t ht => by cases ht
    · rw [heq]
      intro objectId task htask
      cases htask

/-- A new connection. -/
theorem init_ordered (activated : Bool) : (init activated).Ordered := by
  obtain ⟨hlife, hobj⟩ := Peer.run_objects activated [] rfl
  refine ⟨hlife, hobj, fun o task htask hin => ?_, List.Sublist.refl _⟩
  have htask' : Task.io o task ∈ [Task.io 0 .start, .entry .checkStatusChanged] := htask
  simp only [List.mem_cons, Task.io.injEq, reduceCtorEq, List.not_mem_nil, or_false] at htask'
  obtain ⟨rfl, rfl⟩ := htask'
  exact absurd rfl hin

end Session

/-! ## All clients -/

namespace World

/-- The connection of a client is up and its devices are steady. -/
def Steady (id : ℕ) (ids : DeviceKind → ℕ) (w : World) : Prop :=
  ∃ s, w.session id = some s ∧ s.Steady ids

instance (id : ℕ) (ids : DeviceKind → ℕ) (w : World) : Decidable (w.Steady id ids) :=
  Transition.decidableExistsSome

/-- A steady session, seen in the world. -/
theorem Steady.of_session {w : World} {id : ℕ} {ids : DeviceKind → ℕ} {s : Session}
    (h : w.Steady id ids) (hs : w.session id = some s) : s.Steady ids := by
  obtain ⟨s', hs', hsteady⟩ := h
  obtain rfl := Option.some.inj (hs.symm.trans hs')
  exact hsteady

/-- What one client asks for in a stretch in which it is steady is not lost. -/
theorem run_lossless {w w' : World} {labels : List WorldLabel} {id : ℕ} {ids : DeviceKind → ℕ}
    {s : Session} (howned : w.manager.Owned)
    (hordered : ∀ id s, w.session id = some s → s.Ordered) (hs : w.session id = some s)
    (hsteady : Transition.Meets World.step (fun w _ => w.Steady id ids) w labels)
    (hend : w'.Steady id ids) (h : Transition.run World.step w labels = some w') :
    ∃ t new, w'.session id = some t ∧ t.calls = s.calls ++ new ∧
      t.pipeline = s.pipeline ++ new.filterMap ClientCall.input := by
  induction labels generalizing w s with
  | nil =>
    obtain rfl := Option.some.inj h
    exact ⟨s, [], hs, by simp, by simp⟩
  | cons label labels ih =>
    obtain ⟨u, hu, hrun⟩ := Transition.run_cons_eq_some h
    obtain ⟨hw, hrest⟩ := hsteady
    -- the state after the step is steady as well: it is the last one, or another step follows
    have hsteady' : u.Steady id ids := by
      cases labels with
      | nil =>
        obtain rfl := Option.some.inj hrun
        exact hend
      | cons label' labels' => exact (hrest u hu).1
    have hnext := fun {s} hs => ih (s := s) (step_owned howned hu)
      (step_sessions Session.init_ordered (fun _ _ _ hI hl => Session.step_ordered hI hl) howned
        hordered hu) hs (hrest u hu) hrun
    cases step_session howned hu id with
    | other heq => exact hnext (heq.trans hs)
    | connected activated hs' _ => cases hs.symm.trans hs'
    | step l s' t hs' ht hl =>
      obtain rfl := Option.some.inj (hs.symm.trans hs')
      obtain ⟨new, hcalls, -, hpipe⟩ :=
        Session.step_pipeline (hordered id s hs) (Session.step_cases hl) ids
      have hpipe' := hpipe (hw.of_session hs) (hsteady'.of_session ht)
      obtain ⟨t', new', ht', hcalls', hpipe''⟩ := hnext ht
      refine ⟨t', new ++ new', ht', ?_, ?_⟩
      · rw [hcalls', hcalls, List.append_assoc]
      · rw [hpipe'', hpipe', List.filterMap_append, List.append_assoc]

end World

/-- Reports and resets are forwarded in order, at most once and unchanged. In every run
with any number of clients, those that have reached the driver through the io service
clients of one peer are a subsequence of those that its client's program has asked for.
And from any state of the run on, as long as the connection is up and the io service
clients of both devices stay the same objects, connected to a driver of the right
version, nothing is lost: what has reached the driver or is on its way then is what had
reached it or was on its way before, followed by all that was asked for since. -/
theorem reports_forwarded (labels : List WorldLabel) (w : World)
    (h : Transition.run World.step {} labels = some w) (id : ℕ) (s : Session)
    (hs : w.session id = some s) :
    s.peer.reached.Sublist s.made ∧
    ∀ (ids : DeviceKind → ℕ) (stretch : List WorldLabel) (w' : World),
      Transition.Meets World.step (fun w _ => w.Steady id ids) w stretch →
      Transition.run World.step w stretch = some w' → w'.Steady id ids →
      ∃ t new, w'.session id = some t ∧ t.calls = s.calls ++ new ∧
        t.peer.reached ++ t.underway =
          s.peer.reached ++ s.underway ++ new.filterMap ClientCall.input := by
  obtain ⟨howned, hordered⟩ :=
    World.run_sessions Session.init_ordered (fun _ _ _ hI hl => Session.step_ordered hI hl) h
  refine ⟨?_, fun ids stretch w' hsteady hrun hend => ?_⟩
  · refine List.Sublist.trans ?_ (hordered id s hs).pipeline
    rw [Session.pipeline]
    exact List.sublist_append_left _ _
  · exact World.run_lossless howned hordered hs hsteady hend hrun

/-- Answers of a system that opens every service, with a driver of the right version. -/
def driverAnswers : Answers :=
  { serviceOpen := fun _ => .opened (some embeddedDriverVersion), create := .created }

/-- A client asks for both devices, and both are connected. -/
def connectedWorld : List WorldLabel :=
  [.connect 1 true, .call 1 (.keyboardInitialize .init false), .call 1 (.pointingInitialize false),
   .clientRun 1, .clientRun 1, .deliverRequest 1, .deliverRequest 1] ++
  List.replicate 8 (.run driverAnswers) ++
  [.peer 1 (.event (.device .keyboard) (.matched 1)),
   .peer 1 (.event (.device .pointing) (.matched 1)), .run driverAnswers, .run driverAnswers]

/-- It posts a report to each of them and resets the keyboard in between, while another
client connects and asks for a keyboard. -/
def twoClients : List WorldLabel :=
  [.call 1 (.postReport (.keyboard .init)), .connect 2 true, .clientRun 1,
   .call 2 (.keyboardInitialize .init false), .call 1 .keyboardReset, .clientRun 2,
   .deliverRequest 1, .deliverRequest 2, .call 1 (.postReport (.pointing .init)), .clientRun 1,
   .deliverRequest 1, .clientRun 1, .deliverRequest 1] ++
  List.replicate 19 (.run driverAnswers)

/-- A run to which the theorem applies: all three reach the driver. -/
theorem two_clients_forwarded : ∃ w w' s t,
    Transition.run World.step {} connectedWorld = some w ∧ w.session 1 = some s ∧
    Transition.run World.step w twoClients = some w' ∧ w'.session 1 = some t ∧
    t.underway = [] ∧
    t.peer.reached = s.peer.reached ++ s.underway ++
      [.postReport .virtualHidKeyboardPostReport KeyboardInput.init.bytes, .reset .keyboard,
       .postReport .virtualHidPointingPostReport PointingInput.init.bytes] := by
  obtain ⟨w, hw, ⟨s, hs, hmade⟩, hsteady, w', hw', hend, t, ht, hunderway, hmade'⟩ : ∃ w,
      Transition.run World.step {} connectedWorld = some w ∧
      (∃ s, w.session 1 = some s ∧ s.made = []) ∧
      Transition.Meets World.step
        (fun w _ => w.Steady 1 fun kind => if kind = .keyboard then 1 else 2) w twoClients ∧
      ∃ w', Transition.run World.step w twoClients = some w' ∧
        (w'.Steady 1 fun kind => if kind = .keyboard then 1 else 2) ∧
        ∃ t, w'.session 1 = some t ∧ t.underway = [] ∧ t.made =
          [.postReport .virtualHidKeyboardPostReport KeyboardInput.init.bytes, .reset .keyboard,
           .postReport .virtualHidPointingPostReport PointingInput.init.bytes] := by
    decide +kernel
  obtain ⟨t', new, ht', hcalls, hpipe⟩ :=
    (reports_forwarded connectedWorld w hw 1 s hs).2 _ twoClients w' hsteady hw' hend
  obtain rfl := Option.some.inj (ht.symm.trans ht')
  have hnew : new.filterMap ClientCall.input = t.made := by
    rw [Session.made, hcalls, List.filterMap_append, ← Session.made, hmade, List.nil_append]
  refine ⟨w, w', s, t, hw, hs, hw', ht, hunderway, ?_⟩
  rw [hunderway, List.append_nil] at hpipe
  rw [hpipe, hnew, hmade']

end VirtualHidDevice
