import VirtualHidDevice.Connection

/-!
# Polling the ready state

`async_virtual_hid_keyboard_ready()` and `async_virtual_hid_pointing_ready()` ask the driver
in one dispatcher task and store the answer in a second one. Services are matched and
terminated in between, and the connection can change to another service within one event.

* `ReadyPoll` — one `io_service_client` with the dispatcher's queue. Each queued closure
  carries the connection that could be called when it was queued, and the log each effect
  with the driver's answer to the ready call of its task.
* `ReadyPoll.Belongs` — a ready value that is true was answered over the connection that is
  open now, after it was opened.
* `ReadyPoll.StoresOwn` — the step does not store an answer of another connection.
* `ready_belongs_to_connection` — the values belong to their connection along exactly the
  runs whose steps all do that.
-/

namespace VirtualHidDevice

/-! ## The system -/

/-- A closure may be queued from outside: by a method, or by the monitor if there is one. -/
def IoTask.requested (serviceMonitor : Bool) : IoTask → Bool
  | serviceMatched _ => serviceMonitor
  | serviceTerminated _ => serviceMonitor
  | signal _ => false
  | setReady _ _ => false
  | _ => true

/-- A client and the dispatcher. -/
structure ReadyPoll where
  /-- the client -/
  client : IoServiceClient
  /-- the closures, with the connection that could be called when they were queued -/
  queue : List (IoTask × Option ℕ) := []
  /-- all effects, with the driver's answer to the ready call of the task -/
  log : List (IoEffect × Option Bool) := []
deriving DecidableEq, Repr

/-- What can happen. -/
inductive PollLabel where
  /-- a method is called, or the monitor reports a service -/
  | request (task : IoTask)
  /-- the dispatcher runs the first closure -/
  | run (answers : Answers)

namespace ReadyPoll

/-- One step. -/
def step (s : ReadyPoll) : PollLabel → Option ReadyPoll
  | .request task =>
    if task.requested s.client.serviceMonitor then
      some { s with queue := s.queue ++ [(task, none)] }
    else none
  | .run answers =>
    match s.queue with
    | [] => none
    | (task, _) :: rest =>
      let r := IoRun.runTask answers ⟨s.client, []⟩ task
      some {
        client := r.client
        queue := rest ++ (r.effects.filterMap IoEffect.queued).map (·, s.client.callTarget)
        log := s.log ++ r.effects.map (·, answers.ready) }

/-- The driver said over connection `handle`, after it was opened, that the device is ready. -/
def Answered (log : List (IoEffect × Option Bool)) (kind : DeviceKind) (handle : ℕ) : Prop :=
  ∃ past rest, log = past ++ (.call handle (.ready kind), some true) :: rest ∧
    ∃ id answer, (.serviceOpen id handle, answer) ∈ past

/-- The getters return true only for the connection that is open now. -/
def Belongs (s : ReadyPoll) : Prop :=
  ∀ kind, s.client.getReady kind = some true →
    ∃ handle, s.client.connection = some handle ∧ Answered s.log kind handle

/-- If the step stores that a device is ready, while the driver can be called, then the driver
that can be called said so: in that very answer, or in a later one that is not stored yet. -/
def StoresOwn (s : ReadyPoll) : PollLabel → Prop
  | .request _ => True
  | .run _ => ∀ kind asked handle, s.queue.head? = some (.setReady kind (some true), asked) →
      s.client.callTarget = some handle →
      asked = some handle ∨ (.call handle (.ready kind), some true) ∈ s.log

/-! ## What a closure does to the ready values -/

theorem openServices_ready (answer : UInt64 → OpenAnswer) (services : List MatchedService)
    (r : IoRun) (kind : DeviceKind) :
    (IoRun.openServices answer services r).2.client.ready kind = r.client.ready kind := by
  induction services generalizing r with
  | nil => rfl
  | cons s services ih =>
    by_cases hinv : s.invalidated = true
    · simpa [IoRun.openServices, hinv] using ih r
    · rcases hans : answer s.registryEntryId with _ | version
      · simpa [IoRun.openServices, hinv, hans, IoRun.emit] using
          ih (r.emit (.openFailed s.registryEntryId))
      · obtain ⟨n, hopen⟩ := IoRun.openService_eq s.registryEntryId version r
        have hready : (r.openService s.registryEntryId version).client.ready kind =
            r.client.ready kind := by
          rw [hopen]
          cases kind <;> rfl
        rcases version with _ | v
        · simpa [IoRun.openServices, hinv, hans, hready] using
            (ih ((r.openService s.registryEntryId none).emit
              (.serviceClose r.client.nextHandle))).trans hready
        · have hset : ({ (r.openService s.registryEntryId (some v)).client with
              connection := some r.client.nextHandle } : IoServiceClient).ready kind =
              r.client.ready kind := by
            rw [← hready]
            cases kind <;> rfl
          simpa [IoRun.openServices, hinv, hans, IoRun.enqueue, IoRun.emit] using hset

/-- `open_connection` forgets the ready values unless there is a connection to keep. -/
theorem openConnection_ready (answer : UInt64 → OpenAnswer) (r : IoRun) :
    r.client.connection.isSome ∧ r.openConnection answer = r ∨
      r.client.connection = none ∧ ∀ kind, (r.openConnection answer).client.ready kind = none := by
  rcases hc : r.client.connection with _ | h
  · refine Or.inr ⟨rfl, fun kind => ?_⟩
    have hopen : r.openConnection answer = _ := if_neg (by simp [hc])
    obtain ⟨n, hforget⟩ := r.forgetDriver_eq
    have hloop := openServices_ready answer r.client.matchedServices r.forgetDriver kind
    rw [hopen]
    cases kind with
    | keyboard => exact hloop.trans (by rw [hforget]; rfl)
    | pointing => exact hloop.trans (by rw [hforget]; rfl)
  · exact Or.inl ⟨rfl, if_pos (by simp [hc])⟩

/-- `close_connection` keeps the connection with its version and its ready values, or leaves
no connection. -/
theorem closeConnection_ready (id : UInt64) (r : IoRun) :
    (r.closeConnection id).client.connection = none ∨
      (r.closeConnection id).client.connection = r.client.connection ∧
      (r.closeConnection id).client.driverVersion = r.client.driverVersion ∧
      ∀ kind, (r.closeConnection id).client.ready kind = r.client.ready kind := by
  rcases hfind : MatchedServices.find r.client.matchedServices id with _ | s
  · simp [IoRun.closeConnection, hfind]
  · by_cases hs : s.opened = true
    · rcases hc : r.client.connection with _ | h
      · simp [IoRun.closeConnection, hfind, hs, hc]
      · obtain ⟨n, hclose⟩ := closeConnection_opened hfind hs hc
        rw [hclose]
        exact Or.inl rfl
    · simp [IoRun.closeConnection, hfind, hs]

/-- The driver that the client talks to is the same, and so is what it said of a device. -/
structure Keeps (c d : IoServiceClient) (kind : DeviceKind) : Prop where
  /-- the connection is the same -/
  connection : d.connection = c.connection
  /-- and so is its version -/
  driverVersion : d.driverVersion = c.driverVersion
  /-- the device was ready before -/
  ready : c.ready kind = some true

theorem Keeps.callTarget {c d : IoServiceClient} {kind : DeviceKind} (h : Keeps c d kind) :
    d.callTarget = c.callTarget := by
  simp only [IoServiceClient.callTarget, IoServiceClient.driverConnected,
    IoServiceClient.driverVersionMismatched, h.connection, h.driverVersion]
  rfl

/-- A device that is ready after a change of the services was ready before, over the same
connection. -/
theorem keeps_of_openConnection {answer : UInt64 → OpenAnswer} {r : IoRun} {kind : DeviceKind}
    (h : (r.openConnection answer).client.ready kind = some true) :
    r.client.connection.isSome ∧ Keeps r.client (r.openConnection answer).client kind := by
  rcases openConnection_ready answer r with ⟨hsome, hsame⟩ | ⟨-, hnone⟩
  · rw [hsame] at h ⊢
    exact ⟨hsome, rfl, rfl, h⟩
  · rw [hnone kind] at h
    cases h

/-- A device that is ready after a closure ran was ready before, over the same connection,
unless the closure is the one that stores it. -/
theorem keeps_of_runTask {answers : Answers} {c : IoServiceClient} {task : IoTask}
    {kind : DeviceKind} (hne : task ≠ .setReady kind (some true))
    (h : (IoRun.runTask answers ⟨c, []⟩ task).client.ready kind = some true) :
    Keeps c (IoRun.runTask answers ⟨c, []⟩ task).client kind := by
  have same : ∀ r : IoRun, r.client = c → r.client.ready kind = some true →
      Keeps c r.client kind := by
    rintro r rfl hr
    exact ⟨rfl, rfl, hr⟩
  have call : ∀ call : DriverCall, (IoRun.callDriver call ⟨c, []⟩).client = c := by
    intro call
    simp only [IoRun.callDriver]
    split <;> rfl
  cases task with
  | start =>
    rw [IoRun.runTask, IoRun.start] at h ⊢
    split at h <;> cases kind <;> exact ⟨by split <;> rfl, by split <;> rfl, h⟩
  | serviceMatched id =>
    have hopen : (IoRun.openConnection answers.serviceOpen ⟨{ c with
        matchedServices := MatchedServices.insert c.matchedServices id }, []⟩).client.ready kind =
        some true := h
    obtain ⟨-, hkeep⟩ := keeps_of_openConnection hopen
    refine ⟨hkeep.connection, hkeep.driverVersion, Eq.trans ?_ hkeep.ready⟩
    cases kind <;> rfl
  | serviceTerminated id =>
    let closed : IoRun := IoRun.closeConnection id ⟨c, []⟩
    have hopen : (IoRun.openConnection answers.serviceOpen { closed with client :=
        { closed.client with matchedServices :=
            MatchedServices.erase closed.client.matchedServices id } }).client.ready kind =
        some true := h
    obtain ⟨hsome, hkeep⟩ := keeps_of_openConnection hopen
    have herased : closed.client.ready kind = some true := by
      refine Eq.trans ?_ hkeep.ready
      cases kind <;> rfl
    rcases closeConnection_ready id ⟨c, []⟩ with hnone | ⟨hconn, hver, hready⟩
    · -- nothing is kept of a connection that the event closes
      have hsome : closed.client.connection.isSome := hsome
      rw [show closed.client.connection = none from hnone] at hsome
      cases hsome
    · exact ⟨hkeep.connection.trans hconn, hkeep.driverVersion.trans hver,
        (hready kind).symm.trans herased⟩
  | signal s => exact same _ rfl h
  | keyboardInitialize parameters => exact same _ (call _) h
  | pointingInitialize => exact same _ (call _) h
  | ready k =>
    refine same _ ?_ h
    simp only [IoRun.runTask, IoRun.callReady]
    split <;> rfl
  | setReady k value =>
    cases k with
    | keyboard =>
      obtain ⟨n, heq, -⟩ := IoRun.setVirtualHidKeyboardReady_eq value ⟨c, []⟩
      rw [IoRun.runTask, IoRun.setReady, heq] at h ⊢
      cases kind with
      | keyboard =>
        obtain rfl : value = some true := h
        exact absurd rfl hne
      | pointing => exact ⟨rfl, rfl, h⟩
    | pointing =>
      obtain ⟨n, heq, -⟩ := IoRun.setVirtualHidPointingReady_eq value ⟨c, []⟩
      rw [IoRun.runTask, IoRun.setReady, heq] at h ⊢
      cases kind with
      | keyboard => exact ⟨rfl, rfl, h⟩
      | pointing =>
        obtain rfl : value = some true := h
        exact absurd rfl hne
  | reset k => exact same _ (call _) h
  | postReport method buffer reportOffset =>
    refine same _ ?_ h
    simp only [IoRun.runTask, IoRun.postReport]
    split
    · rfl
    · exact call _

/-- What `set_virtual_hid_keyboard_ready` and `set_virtual_hid_pointing_ready` store. -/
theorem runTask_setReady (answers : Answers) (c : IoServiceClient) (kind : DeviceKind)
    (value : Option Bool) :
    ∃ n d, IoRun.runTask answers ⟨c, []⟩ (.setReady kind value) = ⟨d, IoRun.notifications n⟩ ∧
      d.ready kind = value ∧ d.callTarget = c.callTarget := by
  cases kind with
  | keyboard =>
    obtain ⟨n, heq, -⟩ := IoRun.setVirtualHidKeyboardReady_eq value ⟨c, []⟩
    exact ⟨n, _, heq, rfl, rfl⟩
  | pointing =>
    obtain ⟨n, heq, -⟩ := IoRun.setVirtualHidPointingReady_eq value ⟨c, []⟩
    exact ⟨n, _, heq, rfl, rfl⟩

/-! ## The invariant -/

/-- A value that the getters return was stored while the driver can be called. -/
theorem getReady_eq_some {c : IoServiceClient} {trace : List IoEffect}
    (core : ConnectionCore c trace) (kind : DeviceKind) (value : Bool) :
    c.getReady kind = some value ↔
      c.ready kind = some value ∧ ∃ handle, c.callTarget = some handle := by
  rcases hc : c.connection with _ | h
  · obtain ⟨-, hver, -⟩ := core.closed hc
    simp [IoServiceClient.getReady, IoServiceClient.callTarget, IoServiceClient.driverConnected,
      hc, hver]
  · by_cases hcall : (!c.driverConnected || c.driverVersionMismatched) = true
    · simp [IoServiceClient.getReady, IoServiceClient.callTarget, hc, hcall]
    · simp [IoServiceClient.getReady, IoServiceClient.callTarget, hc, hcall]

theorem connection_of_callTarget {c : IoServiceClient} {handle : ℕ}
    (h : c.callTarget = some handle) : c.connection = some handle := by
  rw [IoServiceClient.callTarget] at h
  split at h
  · cases h
  · rename_i hc
    split at h
    · cases h
    · rw [hc, h]

theorem Answered.mem {log : List (IoEffect × Option Bool)} {kind : DeviceKind} {handle : ℕ}
    (h : Answered log kind handle) : (.call handle (.ready kind), some true) ∈ log := by
  obtain ⟨past, rest, rfl, -⟩ := h
  simp

theorem Answered.append {log : List (IoEffect × Option Bool)} {kind : DeviceKind} {handle : ℕ}
    (h : Answered log kind handle) (new : List (IoEffect × Option Bool)) :
    Answered (log ++ new) kind handle := by
  obtain ⟨past, rest, rfl, hopened⟩ := h
  exact ⟨past, rest ++ new, by simp, hopened⟩

/-- What holds in every state. -/
structure Invariant (s : ReadyPoll) : Prop where
  /-- the connection is the one that was opened last -/
  core : ConnectionCore s.client (s.log.map Prod.fst)
  /-- a connection is called after it was opened -/
  answered : ∀ kind handle, (.call handle (.ready kind), some true) ∈ s.log →
    Answered s.log kind handle
  /-- an answer that waits to be stored was given over the connection it carries -/
  queued : ∀ kind asked, (.setReady kind (some true), asked) ∈ s.queue →
    ∃ handle, asked = some handle ∧ (.call handle (.ready kind), some true) ∈ s.log

/-- A closure that is not an event opens and closes nothing. -/
theorem runTask_core {answers : Answers} {c : IoServiceClient} {trace : List IoEffect}
    (core : ConnectionCore c trace) (task : IoTask) :
    ConnectionCore (IoRun.runTask answers ⟨c, []⟩ task).client
      (trace ++ (IoRun.runTask answers ⟨c, []⟩ task).effects) := by
  have core₀ : ConnectionCore c (trace ++ []) := (List.append_nil trace).symm ▸ core
  have call : ∀ call : DriverCall, ConnectionCore (IoRun.callDriver call ⟨c, []⟩).client
      (trace ++ (IoRun.callDriver call ⟨c, []⟩).effects) := by
    intro call
    simp only [IoRun.callDriver]
    split
    · exact core₀
    · exact core.frame rfl rfl rfl fun _ => rfl
  cases task with
  | start =>
    rw [IoRun.runTask, IoRun.start]
    split <;> exact core.frame rfl rfl rfl fun _ => rfl
  | serviceMatched id => exact (serviceMatched_core (r := ⟨c, []⟩) _ id core₀).1
  | serviceTerminated id => exact (serviceTerminated_core (r := ⟨c, []⟩) _ id core₀).1
  | signal s => exact core.frame rfl rfl rfl fun _ => rfl
  | keyboardInitialize parameters => exact call _
  | pointingInitialize => exact call _
  | ready kind =>
    simp only [IoRun.runTask, IoRun.callReady]
    split <;> exact core.frame rfl rfl rfl fun _ => rfl
  | setReady kind value =>
    cases kind with
    | keyboard =>
      obtain ⟨n, heq, -⟩ := IoRun.setVirtualHidKeyboardReady_eq value ⟨c, []⟩
      rw [IoRun.runTask, IoRun.setReady, heq]
      exact core.frame rfl rfl rfl fun hs => handlesAfter_notifications hs n
    | pointing =>
      obtain ⟨n, heq, -⟩ := IoRun.setVirtualHidPointingReady_eq value ⟨c, []⟩
      rw [IoRun.runTask, IoRun.setReady, heq]
      exact core.frame rfl rfl rfl fun hs => handlesAfter_notifications hs n
  | reset kind => exact call _
  | postReport method buffer reportOffset =>
    simp only [IoRun.runTask, IoRun.postReport]
    split
    · exact core₀
    · exact call _

/-- A method call goes over the connection that can be called. -/
theorem callTarget_of_call {answers : Answers} {c : IoServiceClient} {task : IoTask}
    {handle : ℕ} {call : DriverCall}
    (h : .call handle call ∈ (IoRun.runTask answers ⟨c, []⟩ task).effects) :
    c.callTarget = some handle := by
  by_cases hsignal : ∃ s, task = .signal s
  · obtain ⟨s, rfl⟩ := hsignal
    simp [IoRun.runTask, IoRun.emit] at h
  · have hout := IoRun.runTask_outcome answers c fun s hs => hsignal ⟨s, hs⟩
    exact (hout.call_mem h).2

/-- The answer that is queued to be stored is the driver's, if there is one to be asked. -/
theorem called_of_queued {answers : Answers} {c : IoServiceClient} {task : IoTask}
    {kind : DeviceKind}
    (h : .enqueue (.setReady kind (some true)) ∈ (IoRun.runTask answers ⟨c, []⟩ task).effects) :
    answers.ready = some true ∧ ∃ handle, c.callTarget = some handle ∧
      .call handle (.ready kind) ∈ (IoRun.runTask answers ⟨c, []⟩ task).effects := by
  have event : ∀ r : IoRun, IoRun.Event ⟨c, []⟩ r →
      .enqueue (.setReady kind (some true)) ∉ r.effects := by
    rintro r ⟨-, -, new, heff, hof, -⟩ hmem
    rw [heff, List.nil_append] at hmem
    obtain ⟨s, hs⟩ := hof _ hmem
    cases hs
  have call : ∀ call : DriverCall, .enqueue (.setReady kind (some true)) ∉
      (IoRun.callDriver call ⟨c, []⟩).effects := by
    intro call hmem
    simp only [IoRun.callDriver] at hmem
    split at hmem <;> simp [IoRun.emit] at hmem
  cases task with
  | start =>
    rw [IoRun.runTask, IoRun.start] at h
    split at h <;> cases h
  | serviceMatched id => exact absurd h (event _ (IoRun.serviceMatched_event _ _ _))
  | serviceTerminated id => exact absurd h (event _ (IoRun.serviceTerminated_event _ _ _))
  | signal s => simp [IoRun.runTask, IoRun.emit] at h
  | keyboardInitialize parameters => exact absurd h (call _)
  | pointingInitialize => exact absurd h (call _)
  -- the poll: without a connection to call, none is stored
  | ready k =>
    rcases hc : c.callTarget with _ | handle
    · simp [IoRun.runTask, IoRun.callReady, hc, IoRun.enqueue, IoRun.emit] at h
    · simp only [IoRun.runTask, IoRun.callReady, hc, IoRun.enqueue, IoRun.emit, List.nil_append,
        List.singleton_append, List.mem_cons, reduceCtorEq, IoEffect.enqueue.injEq,
        IoTask.setReady.injEq, List.not_mem_nil, or_false, false_or] at h
      obtain ⟨rfl, hans⟩ := h
      exact ⟨hans.symm, handle, rfl, by
        simp [IoRun.runTask, IoRun.callReady, hc, IoRun.enqueue, IoRun.emit]⟩
  | setReady k value =>
    obtain ⟨n, d, heq, -⟩ := runTask_setReady answers c k value
    rw [heq] at h
    cases List.eq_of_mem_replicate h
  | reset k => exact absurd h (call _)
  | postReport method buffer reportOffset =>
    rw [IoRun.runTask, IoRun.postReport] at h
    split at h
    · cases h
    · exact absurd h (call _)

/-- Inversion of a dispatcher step. -/
theorem run_cases {s t : ReadyPoll} {answers : Answers} (h : s.step (.run answers) = some t) :
    ∃ task asked rest, s.queue = (task, asked) :: rest ∧
      t.client = (IoRun.runTask answers ⟨s.client, []⟩ task).client ∧
      t.queue = rest ++ ((IoRun.runTask answers ⟨s.client, []⟩ task).effects.filterMap
        IoEffect.queued).map (·, s.client.callTarget) ∧
      t.log = s.log ++ (IoRun.runTask answers ⟨s.client, []⟩ task).effects.map
        (·, answers.ready) := by
  rw [step] at h
  split at h
  · cases h
  · rename_i task asked rest hqueue
    obtain rfl := Option.some.inj h
    exact ⟨task, asked, rest, hqueue, rfl, rfl, rfl⟩

/-- Inversion of a request. -/
theorem request_cases {s t : ReadyPoll} {task : IoTask} (h : s.step (.request task) = some t) :
    (∀ kind value, task ≠ .setReady kind value) ∧
      t = { s with queue := s.queue ++ [(task, none)] } := by
  rw [step] at h
  split at h
  · rename_i hreq
    refine ⟨?_, (Option.some.inj h).symm⟩
    rintro kind value rfl
    cases hreq
  · cases h

/-- Every step keeps the invariant. -/
theorem step_invariant {s t : ReadyPoll} {label : PollLabel} (inv : s.Invariant)
    (h : s.step label = some t) : t.Invariant := by
  cases label with
  | request task =>
    obtain ⟨hreq, rfl⟩ := request_cases h
    refine ⟨inv.core, inv.answered, fun kind asked hmem => ?_⟩
    rcases List.mem_append.mp hmem with hmem | hmem
    · exact inv.queued kind asked hmem
    · obtain ⟨heq, -⟩ := Prod.mk.inj (List.mem_singleton.mp hmem)
      exact absurd heq.symm (hreq kind _)
  | run answers =>
    obtain ⟨task, asked, rest, hqueue, hclient, hq, hlog⟩ := run_cases h
    have hlogs : t.log.map Prod.fst = s.log.map Prod.fst ++
        (IoRun.runTask answers ⟨s.client, []⟩ task).effects := by
      rw [hlog, List.map_append, List.map_map]
      exact congrArg _ (List.map_id _)
    refine ⟨?_, fun kind handle hmem => ?_, fun kind asked' hmem => ?_⟩
    · rw [hclient, hlogs]
      exact runTask_core inv.core task
    · rw [hlog] at hmem ⊢
      rcases List.mem_append.mp hmem with hmem | hmem
      · exact (inv.answered kind handle hmem).append _
      · -- the call of this task goes over the connection that is open
        obtain ⟨e, he, heq⟩ := List.mem_map.mp hmem
        obtain ⟨rfl, hans⟩ := Prod.mk.inj heq
        have hconn := connection_of_callTarget (callTarget_of_call he)
        obtain ⟨service, v, -, hopened, -⟩ := inv.core.connected handle hconn
        obtain ⟨⟨e', answer⟩, hopened, he'⟩ := List.mem_map.mp hopened
        obtain rfl : e' = .serviceOpen service.registryEntryId handle := he'
        obtain ⟨new, more, hsplit⟩ := List.append_of_mem hmem
        exact ⟨s.log ++ new, more, by rw [hsplit, List.append_assoc], service.registryEntryId,
          answer, List.mem_append_left _ hopened⟩
    · rw [hq] at hmem
      rcases List.mem_append.mp hmem with hmem | hmem
      · obtain ⟨handle, rfl, hcall⟩ := inv.queued kind asked'
          (hqueue ▸ List.mem_cons_of_mem _ hmem)
        exact ⟨handle, rfl, hlog ▸ List.mem_append_left _ hcall⟩
      · obtain ⟨t', ht', heq⟩ := List.mem_map.mp hmem
        obtain ⟨rfl, rfl⟩ := Prod.mk.inj heq
        obtain ⟨hready, handle, htarget, hcall⟩ := called_of_queued (IoEffect.mem_queued.mp ht')
        refine ⟨handle, htarget, hlog ▸ List.mem_append_right _ ?_⟩
        exact List.mem_map.mpr ⟨_, hcall, by rw [hready]⟩

/-- What the getters return, in terms of the members. -/
theorem belongs_iff {s : ReadyPoll} (inv : s.Invariant) :
    s.Belongs ↔ ∀ kind handle, s.client.ready kind = some true →
      s.client.callTarget = some handle → (.call handle (.ready kind), some true) ∈ s.log := by
  constructor
  · intro hbelongs kind handle hready htarget
    obtain ⟨handle', hconn, hanswered⟩ := hbelongs kind
      ((getReady_eq_some inv.core kind true).mpr ⟨hready, handle, htarget⟩)
    rw [connection_of_callTarget htarget] at hconn
    obtain rfl := Option.some.inj hconn
    exact hanswered.mem
  · intro hcalled kind hget
    obtain ⟨hready, handle, htarget⟩ := (getReady_eq_some inv.core kind true).mp hget
    exact ⟨handle, connection_of_callTarget htarget,
      inv.answered kind handle (hcalled kind handle hready htarget)⟩

/-- A step keeps the ready values with their connection exactly if it stores no answer of
another one. -/
theorem step_belongs {s t : ReadyPoll} {label : PollLabel} (inv : s.Invariant)
    (hbelongs : s.Belongs) (h : s.step label = some t) : t.Belongs ↔ s.StoresOwn label := by
  have inv' := step_invariant inv h
  have hbefore := (belongs_iff inv).mp hbelongs
  cases label with
  | request task =>
    obtain ⟨-, rfl⟩ := request_cases h
    exact ⟨fun _ => trivial, fun _ => hbelongs⟩
  | run answers =>
    obtain ⟨task, asked, rest, hqueue, hclient, -, hlog⟩ := run_cases h
    rw [belongs_iff inv']
    constructor
    · intro hafter kind asked' handle hhead htarget
      rw [hqueue] at hhead
      obtain ⟨rfl, rfl⟩ := Prod.mk.inj (Option.some.inj hhead)
      obtain ⟨n, d, heq, hready, hsame⟩ := runTask_setReady answers s.client kind (some true)
      rw [heq] at hclient hlog
      have hmem := hafter kind handle (by rw [hclient]; exact hready)
        (by rw [hclient]; exact hsame.trans htarget)
      rw [hlog] at hmem
      rcases List.mem_append.mp hmem with hmem | hmem
      · exact Or.inr hmem
      · -- storing an answer asks nothing
        obtain ⟨e, he, heq⟩ := List.mem_map.mp hmem
        rw [List.eq_of_mem_replicate he] at heq
        cases heq
    · intro hown kind handle hready htarget
      rw [hclient] at hready htarget
      rw [hlog]
      refine List.mem_append_left _ ?_
      by_cases hstore : task = .setReady kind (some true)
      · subst hstore
        obtain ⟨n, d, heq, -, hsame⟩ := runTask_setReady answers s.client kind (some true)
        rw [heq] at htarget
        rcases hown kind asked handle (by rw [hqueue]; rfl) (hsame.symm.trans htarget) with
          rfl | hcall
        · obtain ⟨handle', hsome, hcall⟩ := inv.queued kind (some handle)
            (hqueue ▸ List.mem_cons_self)
          obtain rfl := Option.some.inj hsome
          exact hcall
        · exact hcall
      · have hkeeps := keeps_of_runTask hstore hready
        exact hbefore kind handle hkeeps.ready (hkeeps.callTarget.symm.trans htarget)

end ReadyPoll

/-- In every state of a run the getters return true only if the driver said so over the
connection that is open now, exactly if no step of the run stores the answer of a connection
that was replaced meanwhile. -/
theorem ready_belongs_to_connection (objectId : ℕ) (labels : List PollLabel) :
    Transition.Along ReadyPoll.step ReadyPoll.Belongs { client := { objectId } } labels ↔
      Transition.Meets ReadyPoll.step ReadyPoll.StoresOwn { client := { objectId } } labels := by
  refine Transition.along_iff_meets (I := ReadyPoll.Invariant) ?_ ?_ ?_ ?_ ?_ labels
  · exact ⟨⟨List.nodup_nil, fun _ => ⟨rfl, rfl, rfl⟩, fun _ h => (by cases h)⟩,
      fun _ _ h => (by cases h), fun _ _ h => by cases h⟩
  · intro kind h
    cases h
  · intro s label t inv h
    exact ReadyPoll.step_invariant inv h
  · intro s label t inv hbelongs h
    exact ReadyPoll.step_belongs inv hbelongs h
  · intro s label h
    cases label with
    | request task => trivial
    | run answers =>
      intro kind asked handle hhead
      rw [ReadyPoll.step] at h
      split at h
      · rename_i hqueue
        rw [hqueue] at hhead
        cases hhead
      · cases h

/-- The driver is replaced between the two tasks of a poll: the first service says that its
keyboard is ready, and is terminated before that is stored. -/
def replacedDuringPoll : List PollLabel :=
  [.request .start, .run {},
   .request (.serviceMatched 1), .run { serviceOpen := fun _ => .opened (some 10800) },
   .request (.serviceMatched 2), .run {}, .run {}, .run {}, .run {}, .run {},
   .request (.ready .keyboard), .request (.serviceTerminated 1),
   .run { ready := some true }, .run { serviceOpen := fun _ => .opened (some 10800) },
   .run {}]

/-- The second service never answered, but its keyboard counts as ready. -/
theorem replaced_driver_counts_as_ready :
    ∃ s, Transition.run ReadyPoll.step { client := { objectId := 0 } } replacedDuringPoll =
        some s ∧
      (s.client.getReady .keyboard = some true ∧ s.client.connection = some 1) ∧
      ¬ s.Belongs := by
  have hrun : ∃ s, Transition.run ReadyPoll.step { client := { objectId := 0 } }
      replacedDuringPoll = some s ∧
      ((s.client.getReady .keyboard = some true ∧ s.client.connection = some 1) ∧
        (.call 1 (.ready .keyboard), some true) ∉ s.log) := by
    decide +kernel
  obtain ⟨s, hs, ⟨hready, hconn⟩, hnot⟩ := hrun
  refine ⟨s, hs, ⟨hready, hconn⟩, fun hbelongs => ?_⟩
  obtain ⟨handle, hhandle, hanswered⟩ := hbelongs .keyboard hready
  rw [hconn] at hhandle
  obtain rfl := Option.some.inj hhandle
  exact hnot hanswered.mem

end VirtualHidDevice
