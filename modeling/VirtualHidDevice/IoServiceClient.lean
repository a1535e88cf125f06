import VirtualHidDevice.Protocol

/-!
# The connection to the driver

`io_service_client`: one client of the driver, with the services the monitor
has matched, the connection it holds and what it remembers of the driver.

* `IoTask` — the closures the class queues on the dispatcher.
* `IoRun` — a client in the middle of a dispatcher task, with the effects of
  the task so far: what it queued, opened, closed and asked of the driver.
  The methods of the class are functions on it, in the order of the source.
* `Answers` — what the system answers during one task.
* `runTask` — the body of each queued closure.

The lemmas at the end say what the setters do, once and for all: they store the
value and queue a notification if that changed anything.
-/

namespace VirtualHidDevice

/-- `driver_version::embedded_driver_version`. -/
def embeddedDriverVersion : UInt64 := 10800

/-! ## `matched_services` -/

/-- `matched_service`, identified by its registry entry. -/
structure MatchedService where
  /-- `registry_entry_id_` -/
  registryEntryId : UInt64
  /-- `opened_` -/
  opened : Bool
  /-- `invalidated_`: the driver version could not be retrieved -/
  invalidated : Bool
deriving DecidableEq, Repr

namespace MatchedServices

/-- `insert`: nothing if the registry entry is known. -/
def insert (services : List MatchedService) (id : UInt64) : List MatchedService :=
  if services.any fun s => s.registryEntryId == id then services
  else services ++ [⟨id, false, false⟩]

/-- `erase`. -/
def erase (services : List MatchedService) (id : UInt64) : List MatchedService :=
  services.filter fun s => s.registryEntryId != id

/-- `find`. -/
def find (services : List MatchedService) (id : UInt64) : Option MatchedService :=
  services.find? fun s => s.registryEntryId == id

/-- `find_opened`. -/
def findOpened (services : List MatchedService) : Option MatchedService :=
  services.find? (·.opened)

/-- `set_opened(false)` on the service that `find` returns. -/
def setClosed (id : UInt64) : List MatchedService → List MatchedService
  | [] => []
  | s :: services =>
    if s.registryEntryId == id then { s with opened := false } :: services
    else s :: setClosed id services

end MatchedServices

/-! ## Tasks, answers and effects -/

/-- The signals of `io_service_client`. -/
inductive IoSignal where
  /-- `opened` -/
  | opened
  /-- `closed` -/
  | closed
  /-- `state_changed` -/
  | stateChanged
deriving DecidableEq, Repr

/-- A closure that `io_service_client` or its service monitor has queued. -/
inductive IoTask where
  /-- the body of `async_start` -/
  | start
  /-- `service_matched` of the monitor -/
  | serviceMatched (id : UInt64)
  /-- `service_terminated` of the monitor -/
  | serviceTerminated (id : UInt64)
  /-- a closure that only invokes a signal -/
  | signal (signal : IoSignal)
  /-- `async_virtual_hid_keyboard_initialize(parameters)` -/
  | keyboardInitialize (parameters : Parameters)
  /-- `async_virtual_hid_pointing_initialize()` -/
  | pointingInitialize
  /-- the outer closure of `async_virtual_hid_*_ready()`, which asks the driver -/
  | ready (kind : DeviceKind)
  /-- the inner closure, which stores the answer -/
  | setReady (kind : DeviceKind) (value : Option Bool)
  /-- `async_virtual_hid_*_reset()` -/
  | reset (kind : DeviceKind)
  /-- `async_post_report(method, buffer, offset, name)` -/
  | postReport (method : UserClientMethod) (buffer : Bytes) (reportOffset : ℕ)
deriving DecidableEq, Repr

/-- A call of a method of the driver's user client. -/
inductive DriverCall where
  /-- `virtual_hid_keyboard_initialize` with three scalars -/
  | keyboardInitialize (input : Parameters)
  /-- `virtual_hid_pointing_initialize` -/
  | pointingInitialize
  /-- `virtual_hid_keyboard_ready` or `virtual_hid_pointing_ready` -/
  | ready (kind : DeviceKind)
  /-- `virtual_hid_keyboard_reset` or `virtual_hid_pointing_reset` -/
  | reset (kind : DeviceKind)
  /-- a post report method with the report's bytes -/
  | postReport (method : UserClientMethod) (report : Bytes)
deriving DecidableEq, Repr

/-- What `IOServiceOpen` and, if it succeeds, the first `driver_version` call
over the new connection return. -/
inductive OpenAnswer where
  /-- `IOServiceOpen` failed -/
  | failed
  /-- a new connection, and the driver's version if the call succeeded -/
  | opened (version : Option UInt64)
deriving DecidableEq, Repr

/-- How the driver's attempt to create a device ends. -/
inductive CreateAnswer where
  /-- the call does not get through to the user client -/
  | callFailed
  /-- `Create` or the cast of its result failed -/
  | createFailed
  /-- the device was created -/
  | created
deriving DecidableEq, Repr

/-- What the system answers to the calls of one dispatcher task. -/
structure Answers where
  /-- `IOServiceNameMatching` returned a dictionary -/
  matchingDictionary : Bool := true
  /-- what opening a service leads to -/
  serviceOpen : UInt64 → OpenAnswer := fun _ => .failed
  /-- the driver's answer to a ready call, none if the call failed -/
  ready : Option Bool := none
  /-- what an initialize call leads to -/
  create : CreateAnswer := .callFailed

/-- A step a client takes towards the dispatcher or the system. Connections are
numbered in the order in which a client opens them. -/
inductive IoEffect where
  /-- `enqueue_to_dispatcher` -/
  | enqueue (task : IoTask)
  /-- one of the signals is invoked -/
  | signal (signal : IoSignal)
  /-- `IOServiceOpen` on a service failed -/
  | openFailed (id : UInt64)
  /-- `IOServiceOpen` on a service gave a connection -/
  | serviceOpen (id : UInt64) (handle : ℕ)
  /-- `IOServiceClose` -/
  | serviceClose (handle : ℕ)
  /-- the driver's answer to `driver_version` over a connection -/
  | driverVersion (handle : ℕ) (version : Option UInt64)
  /-- a method call over a connection -/
  | call (handle : ℕ) (call : DriverCall)
deriving DecidableEq, Repr

/-! ## The client -/

/-- The members of `io_service_client`. -/
structure IoServiceClient where
  /-- the dispatcher's object id -/
  objectId : ℕ
  /-- `service_monitor_` is set -/
  serviceMonitor : Bool := false
  /-- `matched_services_` -/
  matchedServices : List MatchedService := []
  /-- `connection_` -/
  connection : Option ℕ := none
  /-- `driver_version_` -/
  driverVersion : Option UInt64 := none
  /-- `virtual_hid_keyboard_ready_` -/
  keyboardReady : Option Bool := none
  /-- `virtual_hid_pointing_ready_` -/
  pointingReady : Option Bool := none
  /-- how many connections `IOServiceOpen` has given so far -/
  nextHandle : ℕ := 0
deriving DecidableEq, Repr

namespace IoServiceClient

/-- `driver_connected()`. -/
def driverConnected (c : IoServiceClient) : Bool := c.driverVersion.isSome

/-- `driver_version_mismatched()`: false until a driver is loaded. -/
def driverVersionMismatched (c : IoServiceClient) : Bool :=
  match c.driverVersion with
  | none => false
  | some v => v != embeddedDriverVersion

/-- The member that remembers a device's ready state. -/
def ready (c : IoServiceClient) : DeviceKind → Option Bool
  | .keyboard => c.keyboardReady
  | .pointing => c.pointingReady

/-- `get_virtual_hid_keyboard_ready()` and `get_virtual_hid_pointing_ready()`. -/
def getReady (c : IoServiceClient) (kind : DeviceKind) : Option Bool :=
  if !c.driverConnected || c.driverVersionMismatched then none else c.ready kind

/-- The connection a method call goes over: the checks at the top of `call`,
`call_scalar_method`, `call_ready` and `post_report`. -/
def callTarget (c : IoServiceClient) : Option ℕ :=
  match c.connection with
  | none => none
  | some handle => if !c.driverConnected || c.driverVersionMismatched then none else some handle

end IoServiceClient

/-- A client in the middle of a task, with the effects of the task so far. -/
structure IoRun where
  /-- the client -/
  client : IoServiceClient
  /-- what the task has done -/
  effects : List IoEffect := []
deriving DecidableEq, Repr

namespace IoRun

/-- Record an effect. -/
def emit (effect : IoEffect) (r : IoRun) : IoRun := { r with effects := r.effects ++ [effect] }

/-- `enqueue_to_dispatcher`. -/
def enqueue (task : IoTask) (r : IoRun) : IoRun := r.emit (.enqueue task)

/-- `set_driver_version`. -/
def setDriverVersion (value : Option UInt64) (r : IoRun) : IoRun :=
  if r.client.driverVersion = value then r
  else enqueue (.signal .stateChanged) { r with client := { r.client with driverVersion := value } }

/-- `set_virtual_hid_keyboard_ready`. -/
def setVirtualHidKeyboardReady (value : Option Bool) (r : IoRun) : IoRun :=
  if r.client.keyboardReady = value then r
  else enqueue (.signal .stateChanged) { r with client := { r.client with keyboardReady := value } }

/-- `set_virtual_hid_pointing_ready`. -/
def setVirtualHidPointingReady (value : Option Bool) (r : IoRun) : IoRun :=
  if r.client.pointingReady = value then r
  else enqueue (.signal .stateChanged) { r with client := { r.client with pointingReady := value } }

/-- The three resets that `open_connection` and `close_connection` share. -/
def forgetDriver (r : IoRun) : IoRun :=
  setVirtualHidPointingReady none (setVirtualHidKeyboardReady none (setDriverVersion none r))

/-- A successful `IOServiceOpen` and the version check over the new connection. -/
def openService (id : UInt64) (version : Option UInt64) (r : IoRun) : IoRun :=
  let handle := r.client.nextHandle
  let opened := emit (.serviceOpen id handle)
    { r with client := { r.client with nextHandle := handle + 1 } }
  setDriverVersion version (opened.emit (.driverVersion handle version))

/-- The loop of `open_connection`: the services after the loop, and the run. -/
def openServices (answer : UInt64 → OpenAnswer) :
    List MatchedService → IoRun → List MatchedService × IoRun
  | [], r => ([], r)
  | s :: services, r =>
    if s.invalidated then
      ((s :: (openServices answer services r).1), (openServices answer services r).2)
    else match answer s.registryEntryId with
      | .failed =>
        let rest := openServices answer services (r.emit (.openFailed s.registryEntryId))
        (s :: rest.1, rest.2)
      | .opened version =>
        let handle := r.client.nextHandle
        let opened := r.openService s.registryEntryId version
        match version with
        | none =>
          -- the service stays in the list, but is never tried again
          let rest := openServices answer services (opened.emit (.serviceClose handle))
          ({ s with invalidated := true } :: rest.1, rest.2)
        | some _ =>
          ({ s with opened := true } :: services, enqueue (.signal .opened)
            { opened with client := { opened.client with connection := some handle } })

/-- `open_connection`. -/
def openConnection (answer : UInt64 → OpenAnswer) (r : IoRun) : IoRun :=
  if r.client.connection.isSome then r
  else
    let result := openServices answer r.client.matchedServices r.forgetDriver
    { result.2 with client := { result.2.client with matchedServices := result.1 } }

/-- `close_connection`. -/
def closeConnection (id : UInt64) (r : IoRun) : IoRun :=
  match MatchedServices.find r.client.matchedServices id with
  | none => r
  | some s =>
    if !s.opened then r
    else
      let r := { r with client := { r.client with
        matchedServices := MatchedServices.setClosed id r.client.matchedServices } }
      match r.client.connection with
      | none => r
      | some handle =>
        forgetDriver (enqueue (.signal .closed) (emit (.serviceClose handle)
          { r with client := { r.client with connection := none } }))

/-- The listener of `service_matched`. -/
def serviceMatched (answer : UInt64 → OpenAnswer) (id : UInt64) (r : IoRun) : IoRun :=
  enqueue (.signal .stateChanged) (openConnection answer { r with client := { r.client with
    matchedServices := MatchedServices.insert r.client.matchedServices id } })

/-- The listener of `service_terminated`. -/
def serviceTerminated (answer : UInt64 → OpenAnswer) (id : UInt64) (r : IoRun) : IoRun :=
  let closed := r.closeConnection id
  enqueue (.signal .stateChanged) (openConnection answer { closed with client := { closed.client with
    matchedServices := MatchedServices.erase closed.client.matchedServices id } })

/-- The destructor: its body, then the destruction of the members. What it
queues is dropped, since the object is detached from the dispatcher first. -/
def destroy (r : IoRun) : IoRun :=
  let r := match MatchedServices.findOpened r.client.matchedServices with
    | none => r
    | some s => r.closeConnection s.registryEntryId
  { r with client := { r.client with serviceMonitor := false, matchedServices := [] } }

/-! ### The queued closures -/

/-- The calls of the driver that return nothing the class keeps. -/
def callDriver (call : DriverCall) (r : IoRun) : IoRun :=
  match r.client.callTarget with
  | none => r
  | some handle => r.emit (.call handle call)

/-- `call_ready` and the queuing of its result. -/
def callReady (answer : Option Bool) (kind : DeviceKind) (r : IoRun) : IoRun :=
  match r.client.callTarget with
  | none => r.enqueue (.setReady kind none)
  | some handle => enqueue (.setReady kind answer) (r.emit (.call handle (.ready kind)))

/-- The setter of a device's ready state. -/
def setReady (kind : DeviceKind) (value : Option Bool) (r : IoRun) : IoRun :=
  match kind with
  | .keyboard => r.setVirtualHidKeyboardReady value
  | .pointing => r.setVirtualHidPointingReady value

/-- The task of `async_post_report`: nothing if the offset is behind the end. -/
def postReport (method : UserClientMethod) (buffer : Bytes) (reportOffset : ℕ) (r : IoRun) :
    IoRun :=
  if reportOffset > buffer.length then r
  else r.callDriver (.postReport method (buffer.drop reportOffset))

/-- The body of `async_start`: a monitor, if there is a dictionary to match. -/
def start (matchingDictionary : Bool) (r : IoRun) : IoRun :=
  if matchingDictionary then { r with client := { r.client with serviceMonitor := true } } else r

/-- Run a queued closure. -/
def runTask (answers : Answers) (r : IoRun) : IoTask → IoRun
  | .start => r.start answers.matchingDictionary
  | .serviceMatched id => r.serviceMatched answers.serviceOpen id
  | .serviceTerminated id => r.serviceTerminated answers.serviceOpen id
  | .signal signal => r.emit (.signal signal)
  | .keyboardInitialize parameters => r.callDriver (.keyboardInitialize parameters)
  | .pointingInitialize => r.callDriver .pointingInitialize
  | .ready kind => r.callReady answers.ready kind
  | .setReady kind value => r.setReady kind value
  | .reset kind => r.callDriver (.reset kind)
  | .postReport method buffer reportOffset => r.postReport method buffer reportOffset

end IoRun

/-! ## What the setters do -/

namespace IoRun

/-- The closures a setter queues, once for each change. -/
def notifications (n : ℕ) : List IoEffect := List.replicate n (.enqueue (.signal .stateChanged))

theorem setDriverVersion_eq (value : Option UInt64) (r : IoRun) :
    ∃ n, r.setDriverVersion value =
      ⟨{ r.client with driverVersion := value }, r.effects ++ notifications n⟩ ∧
      (n = 0 → r.client.driverVersion = value) := by
  by_cases h : r.client.driverVersion = value
  · refine ⟨0, ?_, fun _ => h⟩
    rw [setDriverVersion, if_pos h, ← h]
    simp [notifications]
  · refine ⟨1, ?_, fun h0 => by cases h0⟩
    rw [setDriverVersion, if_neg h]
    rfl

theorem setVirtualHidKeyboardReady_eq (value : Option Bool) (r : IoRun) :
    ∃ n, r.setVirtualHidKeyboardReady value =
      ⟨{ r.client with keyboardReady := value }, r.effects ++ notifications n⟩ ∧
      (n = 0 → r.client.keyboardReady = value) := by
  by_cases h : r.client.keyboardReady = value
  · refine ⟨0, ?_, fun _ => h⟩
    rw [setVirtualHidKeyboardReady, if_pos h, ← h]
    simp [notifications]
  · refine ⟨1, ?_, fun h0 => by cases h0⟩
    rw [setVirtualHidKeyboardReady, if_neg h]
    rfl

theorem setVirtualHidPointingReady_eq (value : Option Bool) (r : IoRun) :
    ∃ n, r.setVirtualHidPointingReady value =
      ⟨{ r.client with pointingReady := value }, r.effects ++ notifications n⟩ ∧
      (n = 0 → r.client.pointingReady = value) := by
  by_cases h : r.client.pointingReady = value
  · refine ⟨0, ?_, fun _ => h⟩
    rw [setVirtualHidPointingReady, if_pos h, ← h]
    simp [notifications]
  · refine ⟨1, ?_, fun h0 => by cases h0⟩
    rw [setVirtualHidPointingReady, if_neg h]
    rfl

theorem notifications_append (m n : ℕ) :
    notifications m ++ notifications n = notifications (m + n) := by
  simp [notifications]

/-- A new connection has the next number, and its version is remembered. -/
theorem openService_eq (id : UInt64) (version : Option UInt64) (r : IoRun) :
    ∃ n, r.openService id version = ⟨{ r.client with
      nextHandle := r.client.nextHandle + 1, driverVersion := version },
      r.effects ++ [.serviceOpen id r.client.nextHandle,
        .driverVersion r.client.nextHandle version] ++ notifications n⟩ := by
  obtain ⟨n, hset, -⟩ := setDriverVersion_eq version
    ⟨{ r.client with nextHandle := r.client.nextHandle + 1 },
      r.effects ++ [.serviceOpen id r.client.nextHandle] ++
        [.driverVersion r.client.nextHandle version]⟩
  refine ⟨n, hset.trans ?_⟩
  simp

/-- Forgetting the driver clears the three members and queues notifications. -/
theorem forgetDriver_eq (r : IoRun) :
    ∃ n, r.forgetDriver = ⟨{ r.client with
      driverVersion := none, keyboardReady := none, pointingReady := none },
      r.effects ++ notifications n⟩ := by
  obtain ⟨n₁, h₁, -⟩ := setDriverVersion_eq none r
  obtain ⟨n₂, h₂, -⟩ := setVirtualHidKeyboardReady_eq none (r.setDriverVersion none)
  obtain ⟨n₃, h₃, -⟩ := setVirtualHidPointingReady_eq none
    (setVirtualHidKeyboardReady none (r.setDriverVersion none))
  refine ⟨n₁ + n₂ + n₃, ?_⟩
  rw [forgetDriver, h₃, h₂, h₁]
  simp only [List.append_assoc, notifications_append, Nat.add_assoc]

end IoRun

/-! ## What the queued closures do -/

namespace IoEffect

/-- The closure an effect queues. -/
def queued : IoEffect → Option IoTask
  | enqueue task => some task
  | _ => none

/-- The method call an effect makes. -/
def called : IoEffect → Option (ℕ × DriverCall)
  | call handle c => some (handle, c)
  | _ => none

theorem mem_queued {effects : List IoEffect} {task : IoTask} :
    task ∈ effects.filterMap queued ↔ .enqueue task ∈ effects := by
  rw [List.mem_filterMap]
  constructor
  · rintro ⟨e, he, hqueued⟩
    cases e with
    | enqueue t => exact Option.some.inj hqueued ▸ he
    | _ => cases hqueued
  · intro h
    exact ⟨_, h, rfl⟩

/-- The effects that a change of the matched services can have: no signal is
invoked and no device is touched. -/
def OfEvent : IoEffect → Prop
  | enqueue task => ∃ s, task = .signal s
  | signal _ => False
  | call _ _ => False
  | _ => True

end IoEffect

namespace IoRun

/-- Effects of an event, and connections with new numbers only. -/
structure Event (r r' : IoRun) : Prop where
  /-- the client stays the same object -/
  objectId : r'.client.objectId = r.client.objectId
  /-- connections are numbered upwards -/
  nextHandle : r.client.nextHandle ≤ r'.client.nextHandle
  /-- what happened -/
  effects : ∃ new, r'.effects = r.effects ++ new ∧ (∀ e ∈ new, e.OfEvent) ∧
    ∀ id h, .serviceOpen id h ∈ new → r.client.nextHandle ≤ h ∧ h < r'.client.nextHandle

namespace Event

theorem refl (r : IoRun) : Event r r :=
  ⟨rfl, le_rfl, [], (List.append_nil _).symm, by simp, by simp⟩

theorem trans {r r' r'' : IoRun} (h₁ : Event r r') (h₂ : Event r' r'') : Event r r'' := by
  obtain ⟨ho₁, hn₁, new₁, he₁, hof₁, hnum₁⟩ := h₁
  obtain ⟨ho₂, hn₂, new₂, he₂, hof₂, hnum₂⟩ := h₂
  refine ⟨ho₂.trans ho₁, hn₁.trans hn₂, new₁ ++ new₂, ?_, ?_, ?_⟩
  · rw [he₂, he₁, List.append_assoc]
  · intro e he
    rcases List.mem_append.mp he with he | he
    · exact hof₁ e he
    · exact hof₂ e he
  · intro id h hmem
    rcases List.mem_append.mp hmem with hmem | hmem
    · exact ⟨(hnum₁ id h hmem).1, lt_of_lt_of_le (hnum₁ id h hmem).2 hn₂⟩
    · exact ⟨hn₁.trans (hnum₂ id h hmem).1, (hnum₂ id h hmem).2⟩

/-- One effect that opens nothing, and any change of the other members. -/
theorem emit {r : IoRun} {c : IoServiceClient} {e : IoEffect} (he : e.OfEvent)
    (hopen : ∀ id h, e ≠ .serviceOpen id h) (ho : c.objectId = r.client.objectId)
    (hn : c.nextHandle = r.client.nextHandle) : Event r ⟨c, r.effects ++ [e]⟩ := by
  refine ⟨ho, hn.ge, [e], rfl, by simpa using he, ?_⟩
  intro id h hmem
  exact absurd (List.mem_singleton.mp hmem).symm (hopen id h)

/-- A change of the other members alone. -/
theorem set {r : IoRun} {c : IoServiceClient} (ho : c.objectId = r.client.objectId)
    (hn : c.nextHandle = r.client.nextHandle) : Event r ⟨c, r.effects⟩ :=
  ⟨ho, hn.ge, [], (List.append_nil _).symm, by simp, by simp⟩

theorem notify {r : IoRun} {c : IoServiceClient} (n : ℕ) (ho : c.objectId = r.client.objectId)
    (hn : c.nextHandle = r.client.nextHandle) : Event r ⟨c, r.effects ++ notifications n⟩ := by
  refine ⟨ho, hn.ge, notifications n, rfl, ?_, ?_⟩
  · intro e he
    rw [List.eq_of_mem_replicate he]
    exact ⟨_, rfl⟩
  · intro id h hmem
    cases List.eq_of_mem_replicate hmem

end Event

theorem forgetDriver_event (r : IoRun) : Event r r.forgetDriver := by
  obtain ⟨n, heq⟩ := r.forgetDriver_eq
  rw [heq]
  exact Event.notify n rfl rfl

theorem openService_event (id : UInt64) (version : Option UInt64) (r : IoRun) :
    Event r (r.openService id version) := by
  obtain ⟨n, heq⟩ := openService_eq id version r
  rw [heq]
  let opened : IoRun := ⟨{ r.client with nextHandle := r.client.nextHandle + 1 },
    r.effects ++ [.serviceOpen id r.client.nextHandle,
      .driverVersion r.client.nextHandle version]⟩
  refine (show Event r opened from ?_).trans ?_
  · refine ⟨rfl, Nat.le_succ _, _, rfl, ?_, ?_⟩
    · intro e he
      simp only [List.mem_cons, List.not_mem_nil, or_false] at he
      rcases he with rfl | rfl <;> trivial
    · intro id h hmem
      simp only [List.mem_cons, IoEffect.serviceOpen.injEq, reduceCtorEq, List.not_mem_nil,
        or_false] at hmem
      obtain ⟨-, rfl⟩ := hmem
      exact ⟨le_rfl, Nat.lt_succ_self _⟩
  · refine Event.notify n ?_ ?_ <;> rfl

theorem openServices_event (answer : UInt64 → OpenAnswer) (services : List MatchedService)
    (r : IoRun) : Event r (openServices answer services r).2 := by
  induction services generalizing r with
  | nil => exact Event.refl r
  | cons s services ih =>
    by_cases hinv : s.invalidated = true
    · simpa [openServices, hinv] using ih r
    · rcases hans : answer s.registryEntryId with _ | version
      · simpa [openServices, hinv, hans] using
          (Event.emit (e := .openFailed s.registryEntryId) trivial (by simp) rfl rfl).trans
            (ih (r.emit (.openFailed s.registryEntryId)))
      · have hopen := openService_event s.registryEntryId version r
        rcases version with _ | v
        · have hclose := hopen.trans (Event.emit (c := _) (e := .serviceClose r.client.nextHandle)
            trivial (by simp) rfl rfl)
          simpa [openServices, hinv, hans, IoRun.emit] using hclose.trans (ih _)
        · have hopened := hopen.trans (Event.emit
            (c := { (r.openService s.registryEntryId (some v)).client with
              connection := some r.client.nextHandle })
            (e := .enqueue (.signal .opened)) ⟨_, rfl⟩ (by simp) rfl rfl)
          simpa [openServices, hinv, hans, IoRun.emit, IoRun.enqueue] using hopened

theorem openConnection_event (answer : UInt64 → OpenAnswer) (r : IoRun) :
    Event r (r.openConnection answer) := by
  by_cases hc : r.client.connection.isSome = true
  · rw [openConnection, if_pos hc]
    exact Event.refl r
  · rw [openConnection, if_neg hc]
    have hloop := r.forgetDriver_event.trans
      (openServices_event answer r.client.matchedServices r.forgetDriver)
    exact hloop.trans (Event.set rfl rfl)

theorem closeConnection_event (id : UInt64) (r : IoRun) : Event r (r.closeConnection id) := by
  rcases hfind : MatchedServices.find r.client.matchedServices id with _ | s
  · simpa [closeConnection, hfind] using Event.refl r
  · by_cases hs : s.opened = true
    · rcases hc : r.client.connection with _ | h
      · simpa [closeConnection, hfind, hs, hc] using Event.set (r := r)
          (c := { r.client with
            matchedServices := MatchedServices.setClosed id r.client.matchedServices }) rfl rfl
      · have hclose : Event r ⟨{ r.client with
            matchedServices := MatchedServices.setClosed id r.client.matchedServices,
            connection := none }, r.effects ++ [.serviceClose h]⟩ :=
          Event.emit trivial (by simp) rfl rfl
        have hclosed := (hclose.trans (Event.emit (c := _) (e := .enqueue (.signal .closed))
          ⟨_, rfl⟩ (by simp) rfl rfl)).trans (forgetDriver_event _)
        simpa [closeConnection, hfind, hs, hc, IoRun.enqueue, IoRun.emit] using hclosed
    · simpa [closeConnection, hfind, hs] using Event.refl r

theorem serviceMatched_event (answer : UInt64 → OpenAnswer) (id : UInt64) (r : IoRun) :
    Event r (r.serviceMatched answer id) := by
  have hins : Event r { r with client := { r.client with
      matchedServices := MatchedServices.insert r.client.matchedServices id } } :=
    Event.set rfl rfl
  exact (hins.trans (openConnection_event answer _)).trans
    (Event.emit (e := .enqueue (.signal .stateChanged)) ⟨_, rfl⟩ (by simp) rfl rfl)

theorem serviceTerminated_event (answer : UInt64 → OpenAnswer) (id : UInt64) (r : IoRun) :
    Event r (r.serviceTerminated answer id) := by
  have herase := (closeConnection_event id r).trans (Event.set (c := { (r.closeConnection id).client
    with matchedServices :=
      MatchedServices.erase (r.closeConnection id).client.matchedServices id }) rfl rfl)
  exact (herase.trans (openConnection_event answer _)).trans
    (Event.emit (e := .enqueue (.signal .stateChanged)) ⟨_, rfl⟩ (by simp) rfl rfl)

end IoRun

/-- The method call that a queued closure is there to make. -/
def IoTask.driverCall : IoTask → Option DriverCall
  | keyboardInitialize parameters => some (.keyboardInitialize parameters)
  | pointingInitialize => some .pointingInitialize
  | ready kind => some (.ready kind)
  | reset kind => some (.reset kind)
  | postReport method buffer reportOffset =>
    if reportOffset > buffer.length then none
    else some (.postReport method (buffer.drop reportOffset))
  | _ => none

/-- What a closure that is not a signal can do to the client `c`. -/
structure TaskOutcome (c : IoServiceClient) (task : IoTask) (r : IoRun) : Prop where
  /-- the client stays the same object -/
  objectId : r.client.objectId = c.objectId
  /-- connections are numbered upwards -/
  nextHandle : c.nextHandle ≤ r.client.nextHandle
  /-- no signal is invoked -/
  silent : ∀ s, .signal s ∉ r.effects
  /-- what the status depends on changes only with a notification -/
  status : .enqueue (.signal .stateChanged) ∈ r.effects ∨
    r.client.driverVersion = c.driverVersion ∧ ∀ kind, r.client.ready kind = c.ready kind
  /-- the closures queued are signals and answers of the driver -/
  queued : ∀ t, .enqueue t ∈ r.effects → (∃ s, t = .signal s) ∨ ∃ kind value, t = .setReady kind value
  /-- new connections have new numbers -/
  opens : ∀ id h, .serviceOpen id h ∈ r.effects → c.nextHandle ≤ h ∧ h < r.client.nextHandle
  /-- the method call is made if the connection allows it -/
  calls : r.effects.filterMap IoEffect.called =
    (task.driverCall.bind fun call => c.callTarget.map fun handle => (handle, call)).toList

/-- A closure makes no call but the one it is there to make, over the connection that is open. -/
theorem TaskOutcome.call_mem {c : IoServiceClient} {task : IoTask} {r : IoRun}
    (h : TaskOutcome c task r) {handle : ℕ} {call : DriverCall}
    (hmem : .call handle call ∈ r.effects) :
    task.driverCall = some call ∧ c.callTarget = some handle := by
  have hin : (handle, call) ∈ r.effects.filterMap IoEffect.called :=
    List.mem_filterMap.mpr ⟨_, hmem, rfl⟩
  rw [h.calls, Option.mem_toList] at hin
  obtain ⟨d, hd, hmap⟩ := Option.bind_eq_some_iff.mp hin
  obtain ⟨target, htarget, heq⟩ := Option.map_eq_some_iff.mp hmap
  obtain ⟨rfl, rfl⟩ := Prod.mk.inj heq
  exact ⟨hd, htarget⟩

namespace IoRun

/-- The two events of the monitor. -/
theorem TaskOutcome.of_event {c : IoServiceClient} {task : IoTask} {r : IoRun}
    (h : Event ⟨c, []⟩ r) (hstate : .enqueue (.signal .stateChanged) ∈ r.effects)
    (htask : task.driverCall = none) : TaskOutcome c task r := by
  obtain ⟨hid, hnext, new, heff, hof, hopens⟩ := h
  rw [List.nil_append] at heff
  rw [← heff] at hof hopens
  exact {
    objectId := hid
    nextHandle := hnext
    silent := fun s hs => hof _ hs
    status := Or.inl hstate
    queued := fun t ht => Or.inl (hof _ ht)
    opens := hopens
    calls := by
      rw [htask, Option.bind_none, Option.toList_none, List.filterMap_eq_nil_iff]
      intro e he
      have := hof e he
      cases e <;> first | rfl | exact this.elim }

/-- The closures that only make a method call. -/
theorem TaskOutcome.of_callDriver {c : IoServiceClient} {task : IoTask} {call : DriverCall}
    (htask : task.driverCall = some call) : TaskOutcome c task (callDriver call ⟨c, []⟩) := by
  rcases hc : c.callTarget with _ | handle
  · have heq : callDriver call ⟨c, []⟩ = ⟨c, []⟩ := by simp [callDriver, hc]
    rw [heq]
    exact ⟨rfl, le_rfl, by simp, Or.inr ⟨rfl, fun _ => rfl⟩, by simp, by simp, by simp [htask, hc]⟩
  · have heq : callDriver call ⟨c, []⟩ = ⟨c, [.call handle call]⟩ := by
      simp [callDriver, hc, emit]
    rw [heq]
    exact ⟨rfl, le_rfl, by simp, Or.inr ⟨rfl, fun _ => rfl⟩, by simp, by simp,
      by simp [htask, hc, IoEffect.called]⟩

theorem TaskOutcome.of_callReady {c : IoServiceClient} (answer : Option Bool)
    (kind : DeviceKind) : TaskOutcome c (.ready kind) (callReady answer kind ⟨c, []⟩) := by
  rcases hc : c.callTarget with _ | handle
  · have heq : callReady answer kind ⟨c, []⟩ = ⟨c, [.enqueue (.setReady kind none)]⟩ := by
      simp [callReady, hc, enqueue, emit]
    rw [heq]
    exact ⟨rfl, le_rfl, by simp, Or.inr ⟨rfl, fun _ => rfl⟩, by simp, by simp,
      by simp [IoTask.driverCall, hc, IoEffect.called]⟩
  · have heq : callReady answer kind ⟨c, []⟩ =
        ⟨c, [.call handle (.ready kind), .enqueue (.setReady kind answer)]⟩ := by
      simp [callReady, hc, enqueue, emit]
    rw [heq]
    exact ⟨rfl, le_rfl, by simp, Or.inr ⟨rfl, fun _ => rfl⟩, by simp, by simp,
      by simp [IoTask.driverCall, hc, IoEffect.called]⟩

/-- The closure that stores an answer notifies if the answer is a new one. -/
theorem TaskOutcome.of_setReady {c : IoServiceClient} (kind : DeviceKind) (value : Option Bool) :
    TaskOutcome c (.setReady kind value) (setReady kind value ⟨c, []⟩) := by
  have notified : ∀ (n : ℕ) (d : IoServiceClient), d.objectId = c.objectId →
      d.nextHandle = c.nextHandle → (n = 0 → d = c) →
      TaskOutcome c (.setReady kind value) ⟨d, notifications n⟩ := by
    intro n d hid hnext hzero
    refine ⟨hid, hnext.ge, ?_, ?_, ?_, ?_, ?_⟩
    · intro s hs
      cases List.eq_of_mem_replicate hs
    · rcases n with _ | n
      · exact Or.inr ⟨by rw [hzero rfl], fun _ => by rw [hzero rfl]⟩
      · exact Or.inl List.mem_cons_self
    · intro t ht
      have heq := List.eq_of_mem_replicate ht
      exact Or.inl ⟨.stateChanged, IoEffect.enqueue.inj heq⟩
    · intro id h hmem
      cases List.eq_of_mem_replicate hmem
    · simp [notifications, IoTask.driverCall, IoEffect.called]
  cases kind with
  | keyboard =>
    obtain ⟨n, heq, hzero⟩ := setVirtualHidKeyboardReady_eq value ⟨c, []⟩
    rw [setReady, heq, List.nil_append]
    refine notified n _ rfl rfl fun h0 => ?_
    rw [← hzero h0]
  | pointing =>
    obtain ⟨n, heq, hzero⟩ := setVirtualHidPointingReady_eq value ⟨c, []⟩
    rw [setReady, heq, List.nil_append]
    refine notified n _ rfl rfl fun h0 => ?_
    rw [← hzero h0]

/-- One case for each kind of closure. -/
theorem runTask_outcome (answers : Answers) (c : IoServiceClient) {task : IoTask}
    (htask : ∀ s, task ≠ .signal s) : TaskOutcome c task (runTask answers ⟨c, []⟩ task) := by
  cases task with
  | start =>
    rw [runTask, start]
    split <;> exact ⟨rfl, le_rfl, by simp, Or.inr ⟨rfl, fun _ => rfl⟩, by simp, by simp, rfl⟩
  | serviceMatched id =>
    refine TaskOutcome.of_event (serviceMatched_event _ _ _) ?_ rfl
    exact List.mem_append_right _ List.mem_cons_self
  | serviceTerminated id =>
    refine TaskOutcome.of_event (serviceTerminated_event _ _ _) ?_ rfl
    exact List.mem_append_right _ List.mem_cons_self
  | signal s => exact absurd rfl (htask s)
  | keyboardInitialize parameters => exact TaskOutcome.of_callDriver rfl
  | pointingInitialize => exact TaskOutcome.of_callDriver rfl
  | ready kind => exact TaskOutcome.of_callReady answers.ready kind
  | setReady kind value => exact TaskOutcome.of_setReady kind value
  | reset kind => exact TaskOutcome.of_callDriver rfl
  | postReport method buffer reportOffset =>
    by_cases hoff : reportOffset > buffer.length
    · rw [runTask, postReport, if_pos hoff]
      exact ⟨rfl, le_rfl, by simp, Or.inr ⟨rfl, fun _ => rfl⟩, by simp, by simp,
        by simp [IoTask.driverCall, hoff]⟩
    · rw [runTask, postReport, if_neg hoff]
      exact TaskOutcome.of_callDriver (if_neg hoff)

end IoRun

end VirtualHidDevice
