import VirtualHidDevice.Dispatcher
import VirtualHidDevice.UserClient
import Mathlib.Data.List.Induction
import Mathlib.Logic.Function.Basic

/-!
# The daemon's entry of one peer

`client_entry` of `virtual_hid_device_service_clients_manager`: the devices a
peer has asked for, the io service client of each, and the status that was last
published.

* `ClientEntry` — the members of the class. The members that exist once for
  each device are a `Slot`, and the entry has one slot for each `DeviceKind`.
* `Local` — the entry with what it can reach: its pending delayed tasks, the
  driver's user clients, what was sent to the peer and asked of the driver.
* `Run` — a `Local` in the middle of a dispatcher task, with the effects of the
  task on the queue. The methods of the class are functions on it; none of them
  looks at the queue.
* `Run.task` — the body of each closure in the queue; `Run.recreate` and
  `Run.readyTimer` — the delayed ones.
-/

namespace VirtualHidDevice

open Dispatcher (QueueEffect)

/-! ## Members -/

/-- The members that `client_entry` has for one device. -/
structure Slot where
  /-- `virtual_hid_*_io_service_client_` -/
  client : Option IoServiceClient := none
  /-- `virtual_hid_*_client_generation_id_`, taken not to overflow -/
  generationId : ℕ := 0
  /-- `virtual_hid_*_enabled_` -/
  enabled : Bool := false
deriving DecidableEq, Repr

/-- The members of `client_entry`. -/
structure ClientEntry where
  /-- `no_virtual_devices_io_service_client_` -/
  noVirtualDevices : IoServiceClient
  /-- the members of the keyboard and of the pointing device -/
  slots : DeviceKind → Slot := fun _ => {}
  /-- `virtual_hid_keyboard_parameters_` -/
  keyboardParameters : Parameters := .init
  /-- `last_response_` -/
  lastResponse : Option Bytes := none
  /-- the object id that the next io service client gets -/
  nextObjectId : ℕ

/-- Which of the entry's io service clients an object is. -/
inductive Role where
  /-- `no_virtual_devices_io_service_client_` -/
  | noVirtualDevices
  /-- the client of a device -/
  | device (kind : DeviceKind)
deriving DecidableEq, Repr

/-- A closure that `client_entry` has queued. -/
inductive EntryTask where
  /-- `initialize_keyboard(parameters)` -/
  | initializeKeyboard (parameters : Parameters)
  /-- `terminate_keyboard()` -/
  | terminateKeyboard
  /-- `initialize_pointing()` -/
  | initializePointing
  /-- `terminate_pointing()` -/
  | terminatePointing
  /-- `async_check_status_changed()` -/
  | checkStatusChanged
deriving DecidableEq, Repr

/-- A task in the daemon's queue that concerns the peer. -/
inductive Task where
  /-- `request_received` of the server -/
  | request (buffer : Bytes)
  /-- a closure of the entry -/
  | entry (task : EntryTask)
  /-- a closure of one of the io service clients -/
  | io (objectId : ℕ) (task : IoTask)
deriving DecidableEq, Repr

/-- The dispatcher client that owns a task. -/
inductive Owner where
  /-- the server -/
  | server
  /-- the entry -/
  | entry
  /-- an io service client, or its service monitor -/
  | io (objectId : ℕ)
deriving DecidableEq, Repr

/-- The owner of a task. -/
def Task.owner : Task → Owner
  | request _ => .server
  | entry _ => .entry
  | io objectId _ => .io objectId

/-- The delayed closure of `create_virtual_hid_client`. -/
structure Recreate where
  /-- the device, as the two captured pointers -/
  kind : DeviceKind
  /-- `generation_id` -/
  generationId : ℕ
  /-- the object it was scheduled for; the code does not know it -/
  scheduledFor : ℕ
deriving DecidableEq, Repr

/-- What is sent to the peer. -/
inductive Message where
  /-- `async_deliver_status` of a status that `status_changed` carried -/
  | status (buffer : Bytes)
  /-- `async_respond` -/
  | response (buffer : Bytes)
deriving DecidableEq, Repr

/-- A method call that reached the driver: over which client and connection. -/
structure DriverRecord where
  /-- the io service client -/
  objectId : ℕ
  /-- its connection -/
  handle : ℕ
  /-- the call -/
  call : DriverCall
deriving DecidableEq, Repr

/-- The entry and what it can reach, without the queue. -/
structure Local where
  /-- the entry -/
  entry : ClientEntry
  /-- what `driver_activated()` returns -/
  activated : Bool
  /-- the delayed closures that have not run -/
  recreates : List Recreate := []
  /-- the driver's user clients, by io service client and connection -/
  userClients : ℕ → ℕ → Option UserClient := fun _ _ => none
  /-- all that was sent to the peer -/
  sent : List Message := []
  /-- all calls that reached the driver -/
  calls : List DriverRecord := []

/-- A `Local` in the middle of a task, with the effects of the task so far. -/
structure Run extends Local where
  /-- what the task has done to the queue -/
  effects : List (QueueEffect Owner Task) := []

/-! ## Reading the entry -/

namespace ClientEntry

/-- `virtual_hid_keyboard_ready()` and `virtual_hid_pointing_ready()`. -/
def ready (e : ClientEntry) (kind : DeviceKind) : Bool :=
  match (e.slots kind).client with
  | none => false
  | some client => (client.getReady kind).getD false

/-- Store a slot. -/
def setSlot (e : ClientEntry) (kind : DeviceKind) (slot : Slot) : ClientEntry :=
  { e with slots := Function.update e.slots kind slot }

/-- The io service client in a role. -/
def client (e : ClientEntry) : Role → Option IoServiceClient
  | .noVirtualDevices => some e.noVirtualDevices
  | .device kind => (e.slots kind).client

/-- Store the state of the client in a role. -/
def setClient (e : ClientEntry) (c : IoServiceClient) : Role → ClientEntry
  | .noVirtualDevices => { e with noVirtualDevices := c }
  | .device kind => e.setSlot kind { e.slots kind with client := some c }

/-- The role of a live object. -/
def role (e : ClientEntry) (objectId : ℕ) : Option Role :=
  [Role.noVirtualDevices, .device .keyboard, .device .pointing].find? fun role =>
    (e.client role).any fun c => c.objectId == objectId

end ClientEntry

/-- `virtual_hid_device_service::response`, as tags. -/
inductive Response where
  /-- `none` -/
  | none
  /-- `driver_activated` -/
  | driverActivated
  /-- `driver_connected` -/
  | driverConnected
  /-- `driver_version_mismatched` -/
  | driverVersionMismatched
  /-- `virtual_hid_keyboard_ready` -/
  | virtualHidKeyboardReady
  /-- `virtual_hid_pointing_ready` -/
  | virtualHidPointingReady
deriving DecidableEq, Repr

namespace Response

/-- `std::to_underlying(response)`. -/
def tag : Response → UInt8
  | none => 0
  | driverActivated => 1
  | driverConnected => 2
  | driverVersionMismatched => 3
  | virtualHidKeyboardReady => 4
  | virtualHidPointingReady => 5

/-- The `case` a byte selects in `handle_message`, none for `default`. -/
def ofTag (byte : UInt8) : Option Response :=
  [none, driverActivated, driverConnected, driverVersionMismatched, virtualHidKeyboardReady,
    virtualHidPointingReady][byte.toNat]?

/-- A byte selects the case whose underlying value it is. -/
theorem ofTag_eq_some {byte : UInt8} {response : Response} :
    ofTag byte = some response ↔ byte = response.tag := by
  constructor
  · intro h
    obtain ⟨hlt, hget⟩ := List.getElem?_eq_some_iff.mp h
    rw [← UInt8.toNat_inj]
    generalize byte.toNat = n at hlt hget
    match n, hlt, hget with
    | 0, _, hget | 1, _, hget | 2, _, hget | 3, _, hget | 4, _, hget | 5, _, hget =>
      obtain rfl := hget
      rfl
  · rintro rfl
    cases response <;> rfl

end Response

/-- `append_response`. -/
def appendResponse (buffer : Bytes) (response : Response) (value : Bool) : Bytes :=
  buffer ++ [response.tag, value.toUInt8]

/-- `make_response()`. -/
def Local.makeResponse (l : Local) : Bytes :=
  [(Response.driverActivated, l.activated),
   (.driverConnected, l.entry.noVirtualDevices.driverConnected),
   (.driverVersionMismatched, l.entry.noVirtualDevices.driverVersionMismatched),
   (.virtualHidKeyboardReady, l.entry.ready .keyboard),
   (.virtualHidPointingReady, l.entry.ready .pointing)].foldl
    (fun buffer pair => appendResponse buffer pair.1 pair.2) []

/-! ## The methods -/

namespace Run

/-- `enqueue_to_dispatcher`. -/
def enqueue (task : Task) (r : Run) : Run := { r with effects := r.effects ++ [.enqueue task] }

/-- `detach_from_dispatcher`. -/
def detach (objectId : ℕ) (r : Run) : Run :=
  { r with effects := r.effects ++ [.detach (.io objectId)] }

/-- Send a message to the peer. -/
def send (message : Message) (r : Run) : Run := { r with sent := r.sent ++ [message] }

/-- `check_status_changed()`: publish the status if it is not the last one. -/
def checkStatusChanged (r : Run) : Run :=
  if r.entry.lastResponse = some r.makeResponse then r
  else send (.status r.makeResponse)
    { r with entry := { r.entry with lastResponse := some r.makeResponse } }

/-- Set the state that the driver keeps for a connection. -/
def setUserClient (objectId handle : ℕ) (u : Option UserClient) (r : Run) : Run :=
  { r with
    userClients := Function.update r.userClients objectId
      (Function.update (r.userClients objectId) handle u) }

/-- A call reaches the user client of a connection. -/
def callUserClient (answer : CreateAnswer) (objectId handle : ℕ) (call : DriverCall) (r : Run) :
    Run :=
  { setUserClient objectId handle
      ((r.userClients objectId handle).map fun u => u.externalMethod answer call) r with
    calls := r.calls ++ [⟨objectId, handle, call⟩] }

/-- `initialize_client`, which the entry connects to a device client's `opened`. -/
def initializeClient (objectId : ℕ) (kind : DeviceKind) (r : Run) : Run :=
  match kind with
  | .keyboard => r.enqueue (.io objectId (.keyboardInitialize r.entry.keyboardParameters))
  | .pointing => r.enqueue (.io objectId .pointingInitialize)

/-- The listeners that the entry connects to the signals of its clients. -/
def signal (role : Role) (objectId : ℕ) (r : Run) : IoSignal → Run
  | .stateChanged => r.checkStatusChanged
  | .opened => match role with
    | .noVirtualDevices => r
    | .device kind => r.initializeClient objectId kind
  | .closed => r

/-- What an effect of an io service client means for the entry and the driver. -/
def ioEffect (create : CreateAnswer) (role : Role) (objectId : ℕ) (r : Run) : IoEffect → Run
  | .enqueue task => r.enqueue (.io objectId task)
  | .signal s => r.signal role objectId s
  | .openFailed _ => r
  | .serviceOpen _ handle => r.setUserClient objectId handle (some {})
  | .serviceClose handle => r.setUserClient objectId handle none
  | .driverVersion _ _ => r
  | .call handle call => r.callUserClient create objectId handle call

/-- The destruction of an io service client: the queue forgets its tasks, and
what its destructor closes is closed. What it queues is dropped. -/
def destroyIoServiceClient (c : IoServiceClient) (r : Run) : Run :=
  (IoRun.destroy ⟨c, []⟩).effects.foldl (fun r e => match e with
    | .serviceClose handle => r.setUserClient c.objectId handle none
    | _ => r) (r.detach c.objectId)

/-- `virtual_hid_*_io_service_client_ = nullptr`. -/
def resetClient (kind : DeviceKind) (r : Run) : Run :=
  match (r.entry.slots kind).client with
  | none => r
  | some c => destroyIoServiceClient c
      { r with entry := r.entry.setSlot kind { r.entry.slots kind with client := none } }

/-- `create_virtual_hid_client` for one of the two devices; the slot is empty
when it is called. -/
def createVirtualHidClient (kind : DeviceKind) (r : Run) : Run :=
  let slot := r.entry.slots kind
  let objectId := r.entry.nextObjectId
  enqueue (.io objectId .start)
    { r with
      entry := { r.entry.setSlot kind { slot with
          client := some { objectId }
          generationId := slot.generationId + 1 } with
        nextObjectId := objectId + 1 }
      recreates := r.recreates ++ [⟨kind, slot.generationId + 1, objectId⟩] }

/-- The half of `setup_virtual_hid_devices` for one device. -/
def setupVirtualHidDevice (kind : DeviceKind) (r : Run) : Run :=
  if (r.entry.slots kind).enabled then
    if !r.entry.ready kind && (r.entry.slots kind).client.isNone then r.createVirtualHidClient kind
    else r
  else r.resetClient kind

/-- `setup_virtual_hid_devices()`. -/
def setupVirtualHidDevices (r : Run) : Run :=
  setupVirtualHidDevice .pointing (setupVirtualHidDevice .keyboard r)

/-- `virtual_hid_*_enabled_ = value`. -/
def setEnabled (kind : DeviceKind) (value : Bool) (r : Run) : Run :=
  { r with entry := r.entry.setSlot kind { r.entry.slots kind with enabled := value } }

/-- The closure of `initialize_keyboard(parameters)`. -/
def initializeKeyboard (parameters : Parameters) (r : Run) : Run :=
  -- changed parameters need a new client, but the old one is kept for equal ones
  let r := if (r.entry.slots .keyboard).client.isSome &&
      r.entry.keyboardParameters ≠ parameters then r.resetClient .keyboard else r
  let r := r.setEnabled .keyboard true
  let r := { r with entry := { r.entry with keyboardParameters := parameters } }
  checkStatusChanged (setupVirtualHidDevices r)

/-- The closure of `initialize_pointing()`. -/
def initializePointing (r : Run) : Run :=
  checkStatusChanged (setupVirtualHidDevices (r.setEnabled .pointing true))

/-- The closures of `terminate_keyboard()` and `terminate_pointing()`. -/
def terminate (kind : DeviceKind) (r : Run) : Run :=
  let r := r.setEnabled kind false
  let slot := r.entry.slots kind
  let r := { r with
    entry := r.entry.setSlot kind { slot with generationId := slot.generationId + 1 } }
  checkStatusChanged (r.resetClient kind)

/-- The delayed closure of `create_virtual_hid_client`. -/
def recreate (task : Recreate) (r : Run) : Run :=
  -- a later client has a closure of its own
  if task.generationId ≠ (r.entry.slots task.kind).generationId then r
  else if (r.entry.slots task.kind).enabled && !r.entry.ready task.kind then
    setupVirtualHidDevices (r.resetClient task.kind)
  else r

/-- The function of `ready_timer_`. -/
def readyTimer (r : Run) : Run :=
  let poll (kind : DeviceKind) (r : Run) : Run :=
    match (r.entry.slots kind).client with
    | none => r
    | some c => r.enqueue (.io c.objectId (.ready kind))
  poll .pointing (poll .keyboard r)

/-! ## Requests -/

/-- What the methods of the clients manager do with the peer's entry. -/
def entryCall (r : Run) : EntryCall → Run
  | .initializeKeyboard p => r.enqueue (.entry (.initializeKeyboard p))
  | .terminateKeyboard => r.enqueue (.entry .terminateKeyboard)
  | .initializePointing => r.enqueue (.entry .initializePointing)
  | .terminatePointing => r.enqueue (.entry .terminatePointing)
  | .reset kind => match (r.entry.slots kind).client with
    | none => r
    | some c => r.enqueue (.io c.objectId (.reset kind))
  | .postReport kind method buffer reportOffset => match (r.entry.slots kind).client with
    | none => r
    | some c => r.enqueue (.io c.objectId (.postReport method buffer reportOffset))

/-- What the handler of the server does with the peer's entry. The checks of
the manager never fault (`request_format`). -/
def serverCall (r : Run) : ServerCall → Run
  | .manager call => match call.onEntry with
    | .ok (some e) => r.entryCall e
    | _ => r
  | .respond .empty => r.send (.response [])
  | .respond .status => r.send (.response r.makeResponse)

/-- The handler of `request_received`, with `server_` set. It never faults
(`request_format`). -/
def request (buffer : Bytes) (r : Run) : Run :=
  match requestReceived true buffer with
  | .ok calls => calls.foldl serverCall r
  | .error _ => r

/-! ## Tasks -/

/-- A closure of an io service client, with the entry's listeners. The queue
holds no closures of a destroyed client. -/
def ioTask (answers : Answers) (objectId : ℕ) (task : IoTask) (r : Run) : Run :=
  match r.entry.role objectId with
  | none => r
  | some role => match r.entry.client role with
    | none => r
    | some c =>
      let io := IoRun.runTask answers ⟨c, []⟩ task
      io.effects.foldl (ioEffect answers.create role objectId)
        { r with entry := r.entry.setClient io.client role }

/-- A closure of the entry. -/
def entryTask (r : Run) : EntryTask → Run
  | .initializeKeyboard parameters => r.initializeKeyboard parameters
  | .terminateKeyboard => r.terminate .keyboard
  | .initializePointing => r.initializePointing
  | .terminatePointing => r.terminate .pointing
  | .checkStatusChanged => r.checkStatusChanged

/-- The body of a task in the queue. -/
def task (answers : Answers) (r : Run) : Task → Run
  | .request buffer => r.request buffer
  | .entry t => r.entryTask t
  | .io objectId t => r.ioTask answers objectId t

end Run

/-! ## Construction -/

/-- The constructor of `client_entry`; the object ids of its io service clients
start with that of `no_virtual_devices_io_service_client_`. -/
def ClientEntry.init : ClientEntry := { noVirtualDevices := { objectId := 0 }, nextObjectId := 1 }

/-- What `create_client` and the constructor queue. -/
def ClientEntry.initTasks : List Task := [.io 0 .start]

/-! ## What the methods do -/

namespace ClientEntry

@[simp] theorem setSlot_slots_self (e : ClientEntry) (kind : DeviceKind) (slot : Slot) :
    (e.setSlot kind slot).slots kind = slot := Function.update_self ..

@[simp] theorem setSlot_slots_of_ne {kind k : DeviceKind} (h : k ≠ kind) (e : ClientEntry)
    (slot : Slot) : (e.setSlot kind slot).slots k = e.slots k := Function.update_of_ne h ..

@[simp] theorem setSlot_noVirtualDevices (e : ClientEntry) (kind : DeviceKind) (slot : Slot) :
    (e.setSlot kind slot).noVirtualDevices = e.noVirtualDevices := rfl

@[simp] theorem setSlot_keyboardParameters (e : ClientEntry) (kind : DeviceKind) (slot : Slot) :
    (e.setSlot kind slot).keyboardParameters = e.keyboardParameters := rfl

@[simp] theorem setSlot_lastResponse (e : ClientEntry) (kind : DeviceKind) (slot : Slot) :
    (e.setSlot kind slot).lastResponse = e.lastResponse := rfl

@[simp] theorem setSlot_nextObjectId (e : ClientEntry) (kind : DeviceKind) (slot : Slot) :
    (e.setSlot kind slot).nextObjectId = e.nextObjectId := rfl

/-- Storing the slot that is there changes nothing. -/
@[simp] theorem setSlot_self (e : ClientEntry) (kind : DeviceKind) :
    e.setSlot kind (e.slots kind) = e := by
  rw [setSlot, Function.update_eq_self]

/-- A device has an io service client exactly while it is enabled. -/
def Synced (e : ClientEntry) (kind : DeviceKind) : Prop :=
  (e.slots kind).client.isSome = (e.slots kind).enabled

theorem ready_of_client_none {e : ClientEntry} {kind : DeviceKind}
    (h : (e.slots kind).client = none) : e.ready kind = false := by
  rw [ready, h]

end ClientEntry

namespace Run

/-- Destroying an io service client drops its tasks and closes connections of
its own; nothing else changes. -/
theorem destroyIoServiceClient_eq (c : IoServiceClient) (r : Run) :
    ∃ userClients : ℕ → ℕ → Option UserClient,
      r.destroyIoServiceClient c = { r.detach c.objectId with userClients } ∧
      (∀ o h, o ≠ c.objectId → userClients o h = r.userClients o h) ∧
      ∀ h, userClients c.objectId h = r.userClients c.objectId h ∨
        userClients c.objectId h = none := by
  rw [destroyIoServiceClient]
  generalize (IoRun.destroy ⟨c, []⟩).effects = effects
  induction effects using List.reverseRecOn with
  | nil => exact ⟨r.userClients, rfl, fun _ _ _ => rfl, fun _ => Or.inl rfl⟩
  | append_singleton effects e ih =>
    obtain ⟨userClients, heq, hother, hown⟩ := ih
    rw [List.foldl_append, heq]
    cases e with
    | serviceClose handle =>
      refine ⟨_, rfl, ?_, ?_⟩
      · intro o h ho
        simp only [Function.update_of_ne ho]
        exact hother o h ho
      · intro h
        simp only [Function.update_self]
        by_cases hh : h = handle
        · rw [hh, Function.update_self]
          exact Or.inr rfl
        · rw [Function.update_of_ne hh]
          exact hown h
    | _ => exact ⟨userClients, rfl, hother, hown⟩

section Destroy

variable (c : IoServiceClient) (r : Run)

@[simp] theorem destroyIoServiceClient_entry : (r.destroyIoServiceClient c).entry = r.entry := by
  obtain ⟨_, heq, -⟩ := destroyIoServiceClient_eq c r
  rw [heq]
  rfl

@[simp] theorem destroyIoServiceClient_activated :
    (r.destroyIoServiceClient c).activated = r.activated := by
  obtain ⟨_, heq, -⟩ := destroyIoServiceClient_eq c r
  rw [heq]
  rfl

@[simp] theorem destroyIoServiceClient_recreates :
    (r.destroyIoServiceClient c).recreates = r.recreates := by
  obtain ⟨_, heq, -⟩ := destroyIoServiceClient_eq c r
  rw [heq]
  rfl

@[simp] theorem destroyIoServiceClient_sent : (r.destroyIoServiceClient c).sent = r.sent := by
  obtain ⟨_, heq, -⟩ := destroyIoServiceClient_eq c r
  rw [heq]
  rfl

@[simp] theorem destroyIoServiceClient_calls : (r.destroyIoServiceClient c).calls = r.calls := by
  obtain ⟨_, heq, -⟩ := destroyIoServiceClient_eq c r
  rw [heq]
  rfl

@[simp] theorem destroyIoServiceClient_effects :
    (r.destroyIoServiceClient c).effects = r.effects ++ [.detach (.io c.objectId)] := by
  obtain ⟨_, heq, -⟩ := destroyIoServiceClient_eq c r
  rw [heq]
  rfl

end Destroy

section ResetClient

variable (kind : DeviceKind) (r : Run)

theorem resetClient_of_none {r : Run} {kind : DeviceKind}
    (h : (r.entry.slots kind).client = none) : r.resetClient kind = r := by
  rw [resetClient, h]

theorem resetClient_of_some {r : Run} {kind : DeviceKind} {c : IoServiceClient}
    (h : (r.entry.slots kind).client = some c) : r.resetClient kind = destroyIoServiceClient c
      { r with entry := r.entry.setSlot kind { r.entry.slots kind with client := none } } := by
  rw [resetClient, h]

@[simp] theorem resetClient_entry : (r.resetClient kind).entry =
    r.entry.setSlot kind { r.entry.slots kind with client := none } := by
  rcases h : (r.entry.slots kind).client with _ | c
  · rw [resetClient_of_none h]
    have hslot : { r.entry.slots kind with client := none } = r.entry.slots kind := by
      rw [← h]
    rw [hslot, ClientEntry.setSlot_self]
  · rw [resetClient_of_some h, destroyIoServiceClient_entry]

@[simp] theorem resetClient_activated : (r.resetClient kind).activated = r.activated := by
  rcases h : (r.entry.slots kind).client with _ | c
  · rw [resetClient_of_none h]
  · rw [resetClient_of_some h, destroyIoServiceClient_activated]

@[simp] theorem resetClient_recreates : (r.resetClient kind).recreates = r.recreates := by
  rcases h : (r.entry.slots kind).client with _ | c
  · rw [resetClient_of_none h]
  · rw [resetClient_of_some h, destroyIoServiceClient_recreates]

@[simp] theorem resetClient_sent : (r.resetClient kind).sent = r.sent := by
  rcases h : (r.entry.slots kind).client with _ | c
  · rw [resetClient_of_none h]
  · rw [resetClient_of_some h, destroyIoServiceClient_sent]

@[simp] theorem resetClient_calls : (r.resetClient kind).calls = r.calls := by
  rcases h : (r.entry.slots kind).client with _ | c
  · rw [resetClient_of_none h]
  · rw [resetClient_of_some h, destroyIoServiceClient_calls]

/-- What resetting a slot does to the queue. -/
@[simp] theorem resetClient_effects : (r.resetClient kind).effects = r.effects ++
    ((r.entry.slots kind).client.map fun c => .detach (.io c.objectId)).toList := by
  rcases h : (r.entry.slots kind).client with _ | c
  · simp [resetClient_of_none h]
  · rw [resetClient_of_some h, destroyIoServiceClient_effects]
    rfl

end ResetClient

section CheckStatusChanged

variable (r : Run)

theorem checkStatusChanged_eq : ∃ sent, r.checkStatusChanged =
    { r with entry := { r.entry with lastResponse := some r.makeResponse }, sent } := by
  rw [checkStatusChanged]
  split
  next h => exact ⟨r.sent, by rw [← h]⟩
  next => exact ⟨_, rfl⟩

@[simp] theorem checkStatusChanged_slots :
    r.checkStatusChanged.entry.slots = r.entry.slots := by
  obtain ⟨_, heq⟩ := checkStatusChanged_eq r
  rw [heq]

@[simp] theorem checkStatusChanged_noVirtualDevices :
    r.checkStatusChanged.entry.noVirtualDevices = r.entry.noVirtualDevices := by
  obtain ⟨_, heq⟩ := checkStatusChanged_eq r
  rw [heq]

@[simp] theorem checkStatusChanged_keyboardParameters :
    r.checkStatusChanged.entry.keyboardParameters = r.entry.keyboardParameters := by
  obtain ⟨_, heq⟩ := checkStatusChanged_eq r
  rw [heq]

@[simp] theorem checkStatusChanged_nextObjectId :
    r.checkStatusChanged.entry.nextObjectId = r.entry.nextObjectId := by
  obtain ⟨_, heq⟩ := checkStatusChanged_eq r
  rw [heq]

@[simp] theorem checkStatusChanged_recreates : r.checkStatusChanged.recreates = r.recreates := by
  obtain ⟨_, heq⟩ := checkStatusChanged_eq r
  rw [heq]

@[simp] theorem checkStatusChanged_userClients :
    r.checkStatusChanged.userClients = r.userClients := by
  obtain ⟨_, heq⟩ := checkStatusChanged_eq r
  rw [heq]

@[simp] theorem checkStatusChanged_calls : r.checkStatusChanged.calls = r.calls := by
  obtain ⟨_, heq⟩ := checkStatusChanged_eq r
  rw [heq]

@[simp] theorem checkStatusChanged_effects : r.checkStatusChanged.effects = r.effects := by
  obtain ⟨_, heq⟩ := checkStatusChanged_eq r
  rw [heq]

end CheckStatusChanged

section Create

variable (kind : DeviceKind) (r : Run)

@[simp] theorem createVirtualHidClient_slots_self :
    (r.createVirtualHidClient kind).entry.slots kind = { r.entry.slots kind with
      client := some { objectId := r.entry.nextObjectId }
      generationId := (r.entry.slots kind).generationId + 1 } := Function.update_self ..

@[simp] theorem createVirtualHidClient_slots_of_ne {k kind : DeviceKind} (h : k ≠ kind) (r : Run) :
    (r.createVirtualHidClient kind).entry.slots k = r.entry.slots k := Function.update_of_ne h ..

@[simp] theorem createVirtualHidClient_noVirtualDevices :
    (r.createVirtualHidClient kind).entry.noVirtualDevices = r.entry.noVirtualDevices := rfl

@[simp] theorem createVirtualHidClient_keyboardParameters :
    (r.createVirtualHidClient kind).entry.keyboardParameters = r.entry.keyboardParameters := rfl

@[simp] theorem createVirtualHidClient_nextObjectId :
    (r.createVirtualHidClient kind).entry.nextObjectId = r.entry.nextObjectId + 1 := rfl

@[simp] theorem createVirtualHidClient_lastResponse :
    (r.createVirtualHidClient kind).entry.lastResponse = r.entry.lastResponse := rfl

@[simp] theorem createVirtualHidClient_activated :
    (r.createVirtualHidClient kind).activated = r.activated := rfl

@[simp] theorem createVirtualHidClient_sent :
    (r.createVirtualHidClient kind).sent = r.sent := rfl

@[simp] theorem createVirtualHidClient_userClients :
    (r.createVirtualHidClient kind).userClients = r.userClients := rfl

@[simp] theorem createVirtualHidClient_calls :
    (r.createVirtualHidClient kind).calls = r.calls := rfl

@[simp] theorem createVirtualHidClient_recreates : (r.createVirtualHidClient kind).recreates =
    r.recreates ++
      [⟨kind, (r.entry.slots kind).generationId + 1, r.entry.nextObjectId⟩] := rfl

@[simp] theorem createVirtualHidClient_effects : (r.createVirtualHidClient kind).effects =
    r.effects ++ [.enqueue (.io r.entry.nextObjectId .start)] := rfl

end Create

/-! ### Setting up the devices -/

theorem setupVirtualHidDevice_of_synced {r : Run} {kind : DeviceKind}
    (h : r.entry.Synced kind) : r.setupVirtualHidDevice kind = r := by
  rw [ClientEntry.Synced] at h
  by_cases he : (r.entry.slots kind).enabled = true
  · rw [he, Option.isSome_iff_exists] at h
    obtain ⟨c, hc⟩ := h
    simp [setupVirtualHidDevice, he, hc]
  · rw [Bool.not_eq_true] at he
    rw [he, Option.isSome_eq_false_iff, Option.isNone_iff_eq_none] at h
    rw [setupVirtualHidDevice, he, resetClient_of_none h]
    rfl

theorem setupVirtualHidDevice_of_missing {r : Run} {kind : DeviceKind}
    (he : (r.entry.slots kind).enabled = true) (hc : (r.entry.slots kind).client = none) :
    r.setupVirtualHidDevice kind = r.createVirtualHidClient kind := by
  simp [setupVirtualHidDevice, he, hc, ClientEntry.ready_of_client_none hc]

/-- With both devices in order there is nothing to set up. -/
theorem setupVirtualHidDevices_of_synced {r : Run} (h : ∀ kind, r.entry.Synced kind) :
    r.setupVirtualHidDevices = r := by
  rw [setupVirtualHidDevices, setupVirtualHidDevice_of_synced (h .keyboard),
    setupVirtualHidDevice_of_synced (h .pointing)]

/-- With one device missing, and the other in order, exactly that one is created:
`setup_virtual_hid_devices` runs over both, but touches one. -/
theorem setupVirtualHidDevices_of_missing {r : Run} {kind : DeviceKind}
    (he : (r.entry.slots kind).enabled = true) (hc : (r.entry.slots kind).client = none)
    (hother : ∀ k, k ≠ kind → r.entry.Synced k) :
    r.setupVirtualHidDevices = r.createVirtualHidClient kind := by
  cases kind with
  | keyboard =>
    have hp : (r.createVirtualHidClient .keyboard).entry.Synced .pointing :=
      hother .pointing (by decide)
    rw [setupVirtualHidDevices, setupVirtualHidDevice_of_missing he hc,
      setupVirtualHidDevice_of_synced hp]
  | pointing =>
    rw [setupVirtualHidDevices, setupVirtualHidDevice_of_synced (hother .keyboard (by decide)),
      setupVirtualHidDevice_of_missing he hc]

/-- `virtual_hid_keyboard_parameters_ = parameters`. -/
def setParameters (parameters : Parameters) (r : Run) : Run :=
  { r with entry := { r.entry with keyboardParameters := parameters } }

/-- `initialize_keyboard`: keep the client, or put a new one in its place. -/
theorem initializeKeyboard_eq {r : Run} (h : ∀ kind, r.entry.Synced kind)
    (parameters : Parameters) : r.initializeKeyboard parameters = checkStatusChanged
      (if (r.entry.slots .keyboard).client.isSome ∧ r.entry.keyboardParameters = parameters then r
      else createVirtualHidClient .keyboard
        (setParameters parameters (setEnabled .keyboard true (r.resetClient .keyboard)))) := by
  have hother : ∀ k, k ≠ DeviceKind.keyboard →
      (setParameters parameters (setEnabled .keyboard true
        (r.resetClient .keyboard))).entry.Synced k := by
    intro k hk
    have hkeep : (setParameters parameters (setEnabled .keyboard true
        (r.resetClient .keyboard))).entry.slots k = r.entry.slots k := by
      simp [setParameters, setEnabled, hk]
    rw [ClientEntry.Synced, hkeep]
    exact h k
  have hmissing : setupVirtualHidDevices (setParameters parameters (setEnabled .keyboard true
      (r.resetClient .keyboard))) = createVirtualHidClient .keyboard
        (setParameters parameters (setEnabled .keyboard true (r.resetClient .keyboard))) :=
    setupVirtualHidDevices_of_missing (by simp [setParameters, setEnabled])
      (by simp [setParameters, setEnabled]) hother
  rcases hc : (r.entry.slots .keyboard).client with _ | c
  · have hreset := resetClient_of_none hc
    rw [hreset] at hmissing ⊢
    rw [if_neg (by simp)]
    simp only [initializeKeyboard, hc, Option.isSome_none, Bool.false_and]
    exact congrArg checkStatusChanged hmissing
  · by_cases hp : r.entry.keyboardParameters = parameters
    · rw [if_pos ⟨rfl, hp⟩]
      have henabled : (r.entry.slots .keyboard).enabled = true := by
        have := h .keyboard
        rwa [ClientEntry.Synced, hc, eq_comm] at this
      have hsame : setParameters parameters (setEnabled .keyboard true r) = r := by
        have hslot : { r.entry.slots .keyboard with enabled := true } =
            r.entry.slots .keyboard := by rw [← henabled]
        rw [setEnabled, hslot, ClientEntry.setSlot_self, setParameters, ← hp]
      have hsetup := setupVirtualHidDevices_of_synced h
      rw [← hsame] at hsetup
      simp only [initializeKeyboard, hc, hp, ne_eq, not_true_eq_false, decide_false,
        Bool.and_false]
      exact congrArg checkStatusChanged (hsetup.trans hsame)
    · rw [if_neg (fun h => hp h.2)]
      simp only [initializeKeyboard, hc, Option.isSome_some, ne_eq, hp, not_false_eq_true,
        decide_true, Bool.and_true]
      exact congrArg checkStatusChanged hmissing

/-- `initialize_pointing`: keep the client, or create one. -/
theorem initializePointing_eq {r : Run} (h : ∀ kind, r.entry.Synced kind) :
    r.initializePointing = checkStatusChanged
      (if (r.entry.slots .pointing).client.isSome then r
      else createVirtualHidClient .pointing (setEnabled .pointing true r)) := by
  rcases hc : (r.entry.slots .pointing).client with _ | c
  · have hother : ∀ k, k ≠ DeviceKind.pointing →
        (setEnabled .pointing true r).entry.Synced k := by
      intro k hk
      have hkeep : (setEnabled .pointing true r).entry.slots k = r.entry.slots k := by
        simp [setEnabled, hk]
      rw [ClientEntry.Synced, hkeep]
      exact h k
    rw [if_neg (by simp), initializePointing, setupVirtualHidDevices_of_missing
      (by simp [setEnabled]) (by simp [setEnabled, hc]) hother]
  · have henabled : (r.entry.slots .pointing).enabled = true := by
      have := h .pointing
      rwa [ClientEntry.Synced, hc, eq_comm] at this
    have hsame : setEnabled .pointing true r = r := by
      have hslot : { r.entry.slots .pointing with enabled := true } =
          r.entry.slots .pointing := by rw [← henabled]
      rw [setEnabled, hslot, ClientEntry.setSlot_self]
    rw [if_pos (Option.isSome_some), initializePointing, hsame, setupVirtualHidDevices_of_synced h]

/-- The delayed closure: nothing, or a new client in place of the old one. -/
theorem recreate_eq {r : Run} (h : ∀ kind, r.entry.Synced kind) (task : Recreate) :
    r.recreate task =
      if task.generationId = (r.entry.slots task.kind).generationId ∧
          (r.entry.slots task.kind).enabled = true ∧ r.entry.ready task.kind = false then
        createVirtualHidClient task.kind (r.resetClient task.kind)
      else r := by
  by_cases hgen : task.generationId = (r.entry.slots task.kind).generationId
  · by_cases hready : (r.entry.slots task.kind).enabled = true ∧ r.entry.ready task.kind = false
    · have hother : ∀ k, k ≠ task.kind → (r.resetClient task.kind).entry.Synced k := by
        intro k hk
        have hkeep : (r.resetClient task.kind).entry.slots k = r.entry.slots k := by
          simp [hk]
        rw [ClientEntry.Synced, hkeep]
        exact h k
      have hsetup : (r.resetClient task.kind).setupVirtualHidDevices =
          createVirtualHidClient task.kind (r.resetClient task.kind) :=
        setupVirtualHidDevices_of_missing (by simp [hready.1]) (by simp) hother
      rw [if_pos ⟨hgen, hready⟩, recreate, if_neg (not_not.mpr hgen), if_pos (by simp [hready]),
        hsetup]
    · rw [if_neg (fun h => hready h.2), recreate, if_neg (not_not.mpr hgen), if_neg]
      simpa using hready
  · rw [if_neg (fun h => hgen h.1), recreate, if_pos hgen]

end Run

/-! ### Requests -/

namespace Run

/-- The tasks that a call on the entry queues. -/
def entryCallTasks (e : ClientEntry) : EntryCall → List Task
  | .initializeKeyboard p => [.entry (.initializeKeyboard p)]
  | .terminateKeyboard => [.entry .terminateKeyboard]
  | .initializePointing => [.entry .initializePointing]
  | .terminatePointing => [.entry .terminatePointing]
  | .reset kind => ((e.slots kind).client.map fun c => .io c.objectId (.reset kind)).toList
  | .postReport kind method buffer reportOffset => ((e.slots kind).client.map fun c =>
      .io c.objectId (.postReport method buffer reportOffset)).toList

theorem entryCall_eq (r : Run) (call : EntryCall) : r.entryCall call =
    { r with effects := r.effects ++ (entryCallTasks r.entry call).map .enqueue } := by
  cases call with
  | reset kind =>
    rcases hc : (r.entry.slots kind).client with _ | c
    · simp [entryCall, entryCallTasks, hc]
    · simp [entryCall, entryCallTasks, hc, enqueue]
  | postReport kind method buffer reportOffset =>
    rcases hc : (r.entry.slots kind).client with _ | c
    · simp [entryCall, entryCallTasks, hc]
    · simp [entryCall, entryCallTasks, hc, enqueue]
  | _ => rfl

/-- The tasks that a request leads to. -/
def requestTasks (e : ClientEntry) (buffer : Bytes) : List Task :=
  match requestReceived true buffer with
  | .ok calls => calls.flatMap fun
    | .manager call => match call.onEntry with
      | .ok (some entryCall) => entryCallTasks e entryCall
      | _ => []
    | .respond _ => []
  | .error _ => []

/-- The buffer that a request is answered with. -/
def requestReply (l : Local) (buffer : Bytes) : Bytes :=
  match requestReceived true buffer with
  | .ok calls => if replies calls = [.status] then l.makeResponse else []
  | .error _ => []

/-- A request queues its tasks and is answered; nothing else happens at once. -/
theorem request_eq (buffer : Bytes) (r : Run) : r.request buffer =
    { r with
      effects := r.effects ++ (requestTasks r.entry buffer).map .enqueue
      sent := r.sent ++ [.response (requestReply r.toLocal buffer)] } := by
  obtain ⟨call, reply, hcalls⟩ := requestReceived_calls true buffer
  have hreply : ∀ r : Run, (respondIf true reply).foldl serverCall r =
      { r with
        sent := r.sent ++ [.response (if reply = .status then r.makeResponse else [])] } := by
    intro r
    cases reply <;> rfl
  have hanswer : requestReply r.toLocal buffer =
      if reply = .status then r.makeResponse else [] := by
    rw [requestReply, hcalls]
    rcases call with _ | call <;> cases reply <;> rfl
  rw [request, requestTasks, hcalls, hanswer]
  rcases call with _ | call
  · simp only [Option.map_none, Option.toList_none, List.nil_append, hreply]
    simp [respondIf]
  · simp only [Option.map_some, Option.toList_some, List.cons_append, List.nil_append,
      List.foldl_cons, hreply, List.flatMap_cons]
    rcases hon : call.onEntry with _ | e
    · simp [serverCall, hon, respondIf]
    · rcases e with _ | e
      · simp [serverCall, hon, respondIf]
      · simp [serverCall, hon, respondIf, entryCall_eq, Local.makeResponse]

/-! ### Closures of the io service clients -/

/-- What an effect of a client does to the driver's state for its connections. -/
def handleEffect (create : CreateAnswer) (f : ℕ → Option UserClient) :
    IoEffect → ℕ → Option UserClient
  | .serviceOpen _ handle => Function.update f handle (some {})
  | .serviceClose handle => Function.update f handle none
  | .call handle call =>
    Function.update f handle ((f handle).map fun u => u.externalMethod create call)
  | _ => f

/-- The effects of a closure that invokes no signal, all at once. -/
theorem foldl_ioEffect (create : CreateAnswer) (role : Role) (objectId : ℕ) (r : Run)
    (effects : List IoEffect) (h : ∀ s, .signal s ∉ effects) :
    effects.foldl (ioEffect create role objectId) r = { r with
      effects := r.effects ++
        (effects.filterMap IoEffect.queued).map fun t => .enqueue (.io objectId t)
      userClients := Function.update r.userClients objectId
        (effects.foldl (handleEffect create) (r.userClients objectId))
      calls := r.calls ++
        (effects.filterMap IoEffect.called).map fun p => ⟨objectId, p.1, p.2⟩ } := by
  induction effects generalizing r with
  | nil => simp
  | cons e effects ih =>
    have hrest : ∀ s, .signal s ∉ effects := fun s hs => h s (List.mem_cons_of_mem _ hs)
    rw [List.foldl_cons, ih _ hrest]
    cases e with
    | signal s => exact absurd List.mem_cons_self (h s)
    | enqueue t =>
      simp [ioEffect, enqueue, IoEffect.queued, IoEffect.called, handleEffect, List.filterMap_cons]
    | serviceOpen id handle =>
      simp [ioEffect, setUserClient, IoEffect.queued, IoEffect.called, handleEffect,
        List.filterMap_cons]
    | serviceClose handle =>
      simp [ioEffect, setUserClient, IoEffect.queued, IoEffect.called, handleEffect,
        List.filterMap_cons]
    | call handle call =>
      simp [ioEffect, callUserClient, setUserClient, IoEffect.queued, IoEffect.called,
        handleEffect, List.filterMap_cons]
    | _ => simp [ioEffect, IoEffect.queued, IoEffect.called, handleEffect, List.filterMap_cons]

end Run

namespace ClientEntry

/-- The role of an object is the role of a live client with its id. -/
theorem role_eq_some {e : ClientEntry} {objectId : ℕ} {role : Role}
    (h : e.role objectId = some role) : ∃ c, e.client role = some c ∧ c.objectId = objectId := by
  rw [ClientEntry.role] at h
  have hany := List.find?_some h
  rcases hc : e.client role with _ | c
  · rw [hc] at hany
    cases hany
  · rw [hc] at hany
    exact ⟨c, rfl, by simpa using hany⟩

/-- Storing the client that is there changes nothing. -/
theorem setClient_self {e : ClientEntry} {role : Role} {c : IoServiceClient}
    (h : e.client role = some c) : e.setClient c role = e := by
  cases role with
  | noVirtualDevices =>
    obtain rfl := Option.some.inj h
    rfl
  | device kind =>
    have hslot : { e.slots kind with client := some c } = e.slots kind := by
      rw [← h]
      rfl
    rw [setClient, hslot, setSlot_self]

end ClientEntry

namespace Run

/-- A closure of an object that is gone. -/
theorem ioTask_of_none {answers : Answers} {objectId : ℕ} {task : IoTask} {r : Run}
    (h : r.entry.role objectId = none) : r.ioTask answers objectId task = r := by
  rw [ioTask, h]

/-- A closure that invokes a signal. -/
theorem ioTask_signal {answers : Answers} {objectId : ℕ} {s : IoSignal} {r : Run} {role : Role}
    {c : IoServiceClient} (hrole : r.entry.role objectId = some role)
    (hc : r.entry.client role = some c) :
    r.ioTask answers objectId (.signal s) = r.signal role objectId s := by
  rw [ioTask, hrole]
  simp only [hc, IoRun.runTask, IoRun.emit, List.nil_append, List.foldl_cons, List.foldl_nil]
  rw [ClientEntry.setClient_self hc]
  rfl

/-- Any other closure. -/
theorem ioTask_eq {answers : Answers} {objectId : ℕ} {task : IoTask} {r : Run} {role : Role}
    {c : IoServiceClient} (hrole : r.entry.role objectId = some role)
    (hc : r.entry.client role = some c) (htask : ∀ s, task ≠ .signal s) :
    r.ioTask answers objectId task = { r with
      entry := r.entry.setClient (IoRun.runTask answers ⟨c, []⟩ task).client role
      effects := r.effects ++ ((IoRun.runTask answers ⟨c, []⟩ task).effects.filterMap
        IoEffect.queued).map fun t => .enqueue (.io objectId t)
      userClients := Function.update r.userClients objectId
        ((IoRun.runTask answers ⟨c, []⟩ task).effects.foldl (handleEffect answers.create)
          (r.userClients objectId))
      calls := r.calls ++ ((IoRun.runTask answers ⟨c, []⟩ task).effects.filterMap
        IoEffect.called).map fun p => ⟨objectId, p.1, p.2⟩ } := by
  rw [ioTask, hrole]
  simp only [hc]
  rw [foldl_ioEffect _ _ _ _ _ (IoRun.runTask_outcome answers c htask).silent]

end Run

end VirtualHidDevice
