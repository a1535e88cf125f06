import VirtualHidDevice.Lifecycle

/-!
# What a step of a peer can do

`Peer.StepCase` lists what a step can do, with the state after it written out;
`Peer.step_cases` says that the list is complete. Every invariant below is
proved by cases on it, without looking into the closures again.
-/

namespace VirtualHidDevice

open Dispatcher (applyAll)

namespace Peer

/-- The peer at the start of a task. -/
def fresh (p : Peer) : Run := ⟨p.toLocal, []⟩

/-- A new keyboard client with new parameters, in place of the one that was there. -/
def newKeyboard (p : Peer) (parameters : Parameters) : Run :=
  Run.createVirtualHidClient .keyboard (Run.setParameters parameters
    (Run.setEnabled .keyboard true (p.fresh.resetClient .keyboard)))

/-- A pointing client in an empty slot. -/
def newPointing (p : Peer) : Run :=
  Run.createVirtualHidClient .pointing (Run.setEnabled .pointing true p.fresh)

/-- A device that is switched off. -/
def switchedOff (p : Peer) (kind : DeviceKind) : Run :=
  let r := Run.setEnabled kind false p.fresh
  let slot := r.entry.slots kind
  Run.resetClient kind { r with
    entry := r.entry.setSlot kind { slot with generationId := slot.generationId + 1 } }

/-- A new client in place of one that is not ready. -/
def recreated (p : Peer) (index : ℕ) (kind : DeviceKind) : Run :=
  Run.createVirtualHidClient kind (Run.resetClient kind
    ⟨{ p.toLocal with recreates := p.recreates.eraseIdx index }, []⟩)

/-- What a step can do. -/
inductive StepCase (p : Peer) : PeerLabel → Peer → Prop
  /-- a request arrives -/
  | arrive (buffer : Bytes) : StepCase p (.request buffer)
      { p with queue := p.queue ++ [.request buffer] }
  /-- an event arrives for a live client -/
  | event (role : Role) (e : ServiceEvent) (c : IoServiceClient)
      (hc : p.entry.client role = some c) : StepCase p (.event role e)
      { p with queue := p.queue ++ [.io c.objectId e.task] }
  /-- an event arrives with which the driver is activated or deactivated -/
  | activated (value : Bool) (e : ServiceEvent) : StepCase p (.driverActivated value e)
      { p with
        activated := value
        queue := p.queue ++ [.io p.entry.noVirtualDevices.objectId e.task] }
  /-- the ready timer asks the live clients to poll -/
  | poll (tasks : List Task) (htasks : ∀ t ∈ tasks, ∃ kind c,
      (p.entry.slots kind).client = some c ∧ t = .io c.objectId (.ready kind)) :
      StepCase p .readyTimer { p with queue := p.queue ++ tasks }
  /-- a request is handled -/
  | request (answers : Answers) (buffer : Bytes) (queue : List Task)
      (hq : p.queue = .request buffer :: queue) : StepCase p (.run answers)
      { p with
        queue := queue ++ Run.requestTasks p.entry buffer
        sent := p.sent ++ [.response (Run.requestReply p.toLocal buffer)] }
  /-- an entry task finds everything as it should be -/
  | keep (answers : Answers) (task : EntryTask) (queue : List Task)
      (hq : p.queue = .entry task :: queue)
      (htask : task = .checkStatusChanged ∨
        (task = .initializePointing ∧ (p.entry.slots .pointing).client.isSome) ∨
        (task = .initializeKeyboard p.entry.keyboardParameters ∧
          (p.entry.slots .keyboard).client.isSome)) :
      StepCase p (.run answers) (finish queue p.fresh.checkStatusChanged)
  /-- a keyboard client is created, with the old one destroyed if there was one -/
  | newKeyboard (answers : Answers) (parameters : Parameters) (queue : List Task)
      (hq : p.queue = .entry (.initializeKeyboard parameters) :: queue)
      (hnew : (p.entry.slots .keyboard).client = none ∨
        p.entry.keyboardParameters ≠ parameters) : StepCase p (.run answers)
      (finish queue (p.newKeyboard parameters).checkStatusChanged)
  /-- a pointing client is created -/
  | newPointing (answers : Answers) (queue : List Task)
      (hq : p.queue = .entry .initializePointing :: queue)
      (hnone : (p.entry.slots .pointing).client = none) : StepCase p (.run answers)
      (finish queue p.newPointing.checkStatusChanged)
  /-- a device is terminated -/
  | terminate (answers : Answers) (kind : DeviceKind) (task : EntryTask) (queue : List Task)
      (hq : p.queue = .entry task :: queue)
      (htask : task = match kind with
        | .keyboard => .terminateKeyboard
        | .pointing => .terminatePointing) : StepCase p (.run answers)
      (finish queue (p.switchedOff kind).checkStatusChanged)
  /-- a closure of a client that is gone -/
  | stale (answers : Answers) (objectId : ℕ) (task : IoTask) (queue : List Task)
      (hq : p.queue = .io objectId task :: queue) (hrole : p.entry.role objectId = none) :
      StepCase p (.run answers) { p with queue := queue }
  /-- `state_changed()` -/
  | stateChanged (answers : Answers) (objectId : ℕ) (role : Role) (queue : List Task)
      (hq : p.queue = .io objectId (.signal .stateChanged) :: queue)
      (hrole : p.entry.role objectId = some role) : StepCase p (.run answers)
      (finish queue p.fresh.checkStatusChanged)
  /-- `opened()` of a device client -/
  | opened (answers : Answers) (objectId : ℕ) (kind : DeviceKind) (queue : List Task)
      (hq : p.queue = .io objectId (.signal .opened) :: queue)
      (hrole : p.entry.role objectId = some (.device kind)) : StepCase p (.run answers)
      { p with queue := queue ++ [.io objectId (match kind with
        | .keyboard => .keyboardInitialize p.entry.keyboardParameters
        | .pointing => .pointingInitialize)] }
  /-- a signal that the entry does not listen to -/
  | unheard (answers : Answers) (objectId : ℕ) (s : IoSignal) (queue : List Task)
      (hq : p.queue = .io objectId (.signal s) :: queue) (hs : s ≠ .stateChanged) :
      StepCase p (.run answers) { p with queue := queue }
  /-- any other closure of a live client -/
  | ioTask (answers : Answers) (objectId : ℕ) (task : IoTask) (role : Role) (c : IoServiceClient)
      (queue : List Task) (hq : p.queue = .io objectId task :: queue)
      (hrole : p.entry.role objectId = some role) (hc : p.entry.client role = some c)
      (hid : c.objectId = objectId) (htask : ∀ s, task ≠ .signal s) : StepCase p (.run answers)
      { p with
        entry := p.entry.setClient (IoRun.runTask answers ⟨c, []⟩ task).client role
        queue := queue ++ ((IoRun.runTask answers ⟨c, []⟩ task).effects.filterMap
          IoEffect.queued).map (.io objectId)
        userClients := Function.update p.userClients objectId
          ((IoRun.runTask answers ⟨c, []⟩ task).effects.foldl (Run.handleEffect answers.create)
            (p.userClients objectId))
        calls := p.calls ++ ((IoRun.runTask answers ⟨c, []⟩ task).effects.filterMap
          IoEffect.called).map fun call => ⟨objectId, call.1, call.2⟩ }
  /-- a delayed closure that is out of date, or not needed -/
  | idle (index : ℕ) (t : Recreate) (ht : p.recreates[index]? = some t)
      (hidle : t.generationId = (p.entry.slots t.kind).generationId →
        (p.entry.slots t.kind).enabled = true → p.entry.ready t.kind = true) :
      StepCase p (.recreate index) { p with recreates := p.recreates.eraseIdx index }
  /-- a delayed closure replaces the client it was scheduled for -/
  | recreate (index : ℕ) (t : Recreate) (ht : p.recreates[index]? = some t)
      (hgen : t.generationId = (p.entry.slots t.kind).generationId)
      (hen : (p.entry.slots t.kind).enabled = true) (hready : p.entry.ready t.kind = false) :
      StepCase p (.recreate index) (finish p.queue (p.recreated index t.kind))

/-- Effects that only queue tasks. -/
theorem applyAll_map_enqueue (queue tasks : List Task) :
    applyAll Task.owner queue (tasks.map .enqueue) = queue ++ tasks := by
  induction tasks generalizing queue with
  | nil => simp
  | cons t tasks ih =>
    rw [List.map_cons, Dispatcher.applyAll_enqueue, ih, List.append_assoc]
    rfl

/-- The first task in the queue is an entry task. -/
theorem entryTask_cases {p : Peer} (h : Lifecycle p.entry p.recreates) (answers : Answers)
    {task : EntryTask} {queue : List Task} (hq : p.queue = .entry task :: queue) :
    StepCase p (.run answers) (finish queue (p.fresh.entryTask task)) := by
  have hsynced : ∀ kind, p.fresh.entry.Synced kind := fun kind => (h kind).synced
  cases task with
  | initializeKeyboard parameters =>
    rw [Run.entryTask, Run.initializeKeyboard_eq hsynced]
    split
    next hkeep =>
      obtain ⟨hsome, rfl⟩ := hkeep
      exact .keep answers _ queue hq (.inr (.inr ⟨rfl, hsome⟩))
    next hnew =>
      refine .newKeyboard answers parameters queue hq ?_
      rcases hc : (p.entry.slots .keyboard).client with _ | c
      · exact Or.inl rfl
      · exact Or.inr fun hp => hnew ⟨by rw [Peer.fresh, hc]; rfl, hp⟩
  | terminateKeyboard => exact .terminate answers .keyboard _ queue hq rfl
  | initializePointing =>
    rw [Run.entryTask, Run.initializePointing_eq hsynced]
    split
    next hsome => exact .keep answers _ queue hq (.inr (.inl ⟨rfl, hsome⟩))
    next hnone =>
      refine .newPointing answers queue hq ?_
      rcases hc : (p.entry.slots .pointing).client with _ | c
      · rfl
      · exact absurd (by rw [Peer.fresh, hc]; rfl) hnone
  | terminatePointing => exact .terminate answers .pointing _ queue hq rfl
  | checkStatusChanged => exact .keep answers _ queue hq (.inl rfl)

/-- The first task in the queue is a closure of an io service client. -/
theorem ioTask_cases {p : Peer} (answers : Answers) {objectId : ℕ} {task : IoTask}
    {queue : List Task} (hq : p.queue = .io objectId task :: queue) :
    StepCase p (.run answers) (finish queue (p.fresh.ioTask answers objectId task)) := by
  rcases hrole : p.entry.role objectId with _ | role
  -- the client has been destroyed meanwhile
  · rw [Run.ioTask_of_none hrole]
    exact .stale answers objectId task queue hq hrole
  · obtain ⟨c, hc, hid⟩ := ClientEntry.role_eq_some hrole
    by_cases htask : ∃ s, task = .signal s
    · obtain ⟨s, rfl⟩ := htask
      rw [Run.ioTask_signal hrole hc]
      cases s with
      | stateChanged => exact .stateChanged answers objectId role queue hq hrole
      -- the listeners of `closed`, and of `opened` without a device, do nothing
      | closed => exact .unheard answers objectId .closed queue hq (by simp)
      | opened =>
        cases role with
        | noVirtualDevices => exact .unheard answers objectId .opened queue hq (by simp)
        | device kind =>
          have hcase := StepCase.opened (p := p) answers objectId kind queue hq hrole
          cases kind <;> exact hcase
    · have hne : ∀ s, task ≠ .signal s := fun s hs => htask ⟨s, hs⟩
      have hcase := StepCase.ioTask (p := p) answers objectId task role c queue hq hrole hc hid hne
      rw [Run.ioTask_eq hrole hc hne, finish]
      have hqueue : applyAll Task.owner queue (([] : List (Dispatcher.QueueEffect Owner Task)) ++
          ((IoRun.runTask answers ⟨c, []⟩ task).effects.filterMap IoEffect.queued).map
            fun t => .enqueue (.io objectId t)) =
          queue ++ ((IoRun.runTask answers ⟨c, []⟩ task).effects.filterMap
            IoEffect.queued).map (.io objectId) := by
        rw [← applyAll_map_enqueue, List.map_map, List.nil_append]
        rfl
      simp only [Peer.fresh]
      rw [hqueue]
      exact hcase

/-- The list of cases is complete. -/
theorem step_cases {p q : Peer} {label : PeerLabel} (h : Lifecycle p.entry p.recreates)
    (hstep : p.step label = some q) : StepCase p label q := by
  cases label with
  | run answers =>
    rcases hq : p.queue with _ | ⟨task, queue⟩
    · simp [Peer.step, hq] at hstep
    · simp only [Peer.step, hq, Option.some.injEq] at hstep
      obtain rfl := hstep
      cases task with
      | request buffer =>
        have hcase := StepCase.request (p := p) answers buffer queue hq
        rw [Run.task, Run.request_eq, finish]
        simpa only [List.nil_append, applyAll_map_enqueue] using hcase
      | entry t => exact entryTask_cases h answers hq
      | io objectId t => exact ioTask_cases answers hq
  | request buffer =>
    obtain rfl := Option.some.inj hstep
    exact .arrive buffer
  | event role e =>
    rcases hc : p.entry.client role with _ | c
    · simp [Peer.step, hc] at hstep
    · simp only [Peer.step, hc] at hstep
      split at hstep
      · obtain rfl := Option.some.inj hstep
        exact .event role e c hc
      · cases hstep
  | driverActivated value e =>
    rw [Peer.step] at hstep
    split at hstep
    · obtain rfl := Option.some.inj hstep
      exact .activated value e
    · cases hstep
  | readyTimer =>
    obtain rfl := Option.some.inj hstep
    obtain ⟨tasks, heq, htasks⟩ := Run.readyTimer_eq ⟨p.toLocal, []⟩
    rw [heq, finish]
    simpa only [List.nil_append, applyAll_map_enqueue] using StepCase.poll tasks htasks
  | recreate index =>
    rcases ht : p.recreates[index]? with _ | t
    · simp [Peer.step, ht] at hstep
    · simp only [Peer.step, ht, Option.some.injEq] at hstep
      obtain rfl := hstep
      have hsynced : ∀ kind, ClientEntry.Synced p.entry kind := fun kind => (h kind).synced
      rw [Run.recreate_eq hsynced]
      split
      next hcond => exact .recreate index t ht hcond.1 hcond.2.1 hcond.2.2
      next hcond =>
        refine .idle index t ht fun hgen hen => ?_
        rw [← Bool.not_eq_false]
        exact fun hready => hcond ⟨hgen, hen, hready⟩

end Peer

end VirtualHidDevice
