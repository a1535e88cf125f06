import VirtualHidDevice.Manager

/-!
# The server and the entries of its peers

`virtual_hid_device_service_server`: the socket server that numbers the peers, the
clients manager that keeps an entry for each of them, and the replacement of the
socket server when its directory cannot be prepared.

* `UnixDomainServer` — one instance of `unix_domain_stream::server`. Each instance
  numbers its peers from 1, and its queued closures are dropped with it.
* `RetryTimer` — the members of `create_server_retry_timer_`. Starting it, stopping
  it and calling its function are closures of their own.
* `Server.step` — sockets are accepted, become ready and are closed, requests
  arrive, binding fails, time passes; the dispatcher runs the closures of the server
  in order, and the steps of the clients manager anywhere in between.
  `Server.step_cases` is its inversion.
* `Server.Drained` — the socket server is destroyed without entries only.
* `Server.Registered` — what holds then: each entry belongs to a connected peer of
  the current instance, and each peer that is about to be connected has none yet.
-/

namespace VirtualHidDevice

/-! ## The state -/

/-- An instance of `unix_domain_stream::server`. -/
structure UnixDomainServer where
  /-- `next_peer_id_`, 64 bits taken not to wrap -/
  nextPeerId : ℕ := 0
  /-- `stopped_` -/
  stopped : Bool := true
  /-- `exposed_peer_ids_` -/
  exposed : List ℕ := []
  /-- the peers for which `peer_connected` was emitted and `peer_closed` was not -/
  connected : List ℕ := []
  /-- the peers whose socket has become ready -/
  ready : List ℕ := []
deriving DecidableEq, Repr

/-- An instance of `pqrs::dispatcher::extra::timer`. -/
structure RetryTimer where
  /-- `current_function_id_`, an `int` taken not to overflow -/
  currentFunctionId : ℕ := 0
  /-- `function_` is set -/
  function : Bool := false
  /-- `interval_`, in milliseconds -/
  interval : ℕ := 0
deriving DecidableEq, Repr

/-- A closure in the dispatcher's queue that is not one of the clients manager. -/
inductive ServerTask where
  /-- `async_start` of the socket server -/
  | start
  /-- the listener of a peer's `ready` -/
  | ready (id : ℕ)
  /-- the listener of a peer's `closed` -/
  | closed (id : ℕ)
  /-- the closure of `handle_bind_failed` -/
  | bindFailed
  /-- `async_stop` of the socket server -/
  | stop
  /-- the closure that `bind_failed` queues when the directory cannot be prepared -/
  | dropServer
  /-- the closure of `start` of the retry timer -/
  | timerStart
  /-- the closure of `stop` of the retry timer -/
  | timerStop
  /-- the function of the retry timer -/
  | createServer
deriving DecidableEq, Repr

/-- `virtual_hid_device_service_server`. -/
structure Server where
  /-- `server_` -/
  server : Option UnixDomainServer := none
  /-- `create_server_retry_timer_` -/
  timer : RetryTimer := {}
  /-- the clock of the dispatcher, in milliseconds -/
  clock : ℕ := 0
  /-- the queue of the dispatcher, without the tasks of the clients manager -/
  queue : List ServerTask := []
  /-- the delayed calls of `call_function`, by the time at which they are due -/
  delayed : List (ℕ × ℕ) := []
  /-- the calls of `create_server`: when, and whether the directories were prepared -/
  attempts : List (ℕ × Bool) := []
  /-- `virtual_hid_device_service_clients_manager_` -/
  manager : Manager := {}

/-- What the system answers while a closure of the server runs. -/
structure ServerAnswers where
  /-- `prepare_socket_directories()` -/
  prepared : Bool := true
  /-- `driver_activated()` -/
  activated : Bool := true

/-- A step of the server. -/
inductive ServerLabel where
  /-- the dispatcher runs the first closure of the server -/
  | run (answers : ServerAnswers)
  /-- a socket is accepted -/
  | accept
  /-- a peer's socket becomes ready -/
  | peerReady (id : ℕ)
  /-- a peer's socket is closed -/
  | peerClosed (id : ℕ)
  /-- a request of a peer arrives -/
  | request (id : ℕ) (buffer : Bytes)
  /-- binding the socket fails -/
  | bindFailed
  /-- time passes -/
  | tick (milliseconds : ℕ)
  /-- the dispatcher runs the first delayed closure, which is due -/
  | delayed
  /-- the dispatcher runs a task of the clients manager -/
  | managerRun (answers : Answers)
  /-- the surroundings of a peer act on its entry -/
  | peer (id : ℕ) (label : PeerLabel)

namespace ServerTask

/-- The closures that belong to the socket server. -/
def ofSocketServer : ServerTask → Bool
  | start | ready _ | closed _ | bindFailed | stop => true
  | dropServer | timerStart | timerStop | createServer => false

/-- The peer that a closure is about to connect. -/
def readyId : ServerTask → Option ℕ
  | ready id => some id
  | _ => none

end ServerTask

/-- Requests that the socket server has not handed over are dropped with it. -/
def Manager.dropRequests (m : Manager) : Manager :=
  { m with queue := m.queue.filter fun task => task.2.asRequest.isNone }

namespace Server

/-- The interval with which `create_server_retry_timer_` is started. -/
def retryInterval : ℕ := 1000

/-- The destruction of the socket server, if there is one. -/
def dropServer (s : Server) : Server :=
  match s.server with
  | none => s
  | some _ => { s with
      server := none
      queue := s.queue.filter fun task => !task.ofSocketServer
      manager := s.manager.dropRequests }

/-- `create_server_retry_timer_.start` and `stop` only queue their closures. -/
def startCreateServerRetryTimer (s : Server) : Server :=
  { s with queue := s.queue ++ [.timerStart] }

/-- `call_function` of the retry timer. -/
def callFunction (functionId : ℕ) (s : Server) : Server :=
  if s.timer.currentFunctionId ≠ functionId then s
  else
    let s := if s.timer.function then { s with queue := s.queue ++ [.createServer] } else s
    -- `enqueue(function_id)`, at `when_now() + interval_`
    { s with
      delayed := Dispatcher.enqueueAt (s.clock + s.timer.interval) functionId s.delayed }

/-- `create_server`. -/
def createServer (prepared : Bool) (s : Server) : Server :=
  let s : Server := { s with
    queue := s.queue ++ [.timerStop]
    attempts := s.attempts ++ [(s.clock, prepared)] }
  if prepared then
    let s := s.dropServer
    { s with server := some {}, queue := s.queue ++ [.start] }
  else s.startCreateServerRetryTimer

/-- The constructor. -/
def init (answers : ServerAnswers) : Server := createServer answers.prepared {}

/-- The listener of `peer_connected`. -/
def peerConnected (activated : Bool) (id : ℕ) (s : Server) : Server :=
  { s with manager := (s.manager.createClient id activated).asyncCheckStatusChanged id }

/-- The listener of `peer_closed`. -/
def peerClosed (id : ℕ) (s : Server) : Server := { s with manager := s.manager.eraseClient id }

/-- The listener of `bind_failed`. -/
def bindFailed (prepared : Bool) (s : Server) : Server :=
  if prepared then s
  else
    -- the socket server is destroyed later, in a closure behind its own `async_stop`
    let stop := if s.server.isSome then [ServerTask.stop] else []
    { s with queue := s.queue ++ stop ++ [.dropServer] }

/-- The body of a closure. -/
def task (answers : ServerAnswers) (s : Server) : ServerTask → Server
  | .start => { s with server := s.server.map fun u => { u with stopped := false } }
  | .ready id => peerConnected answers.activated id { s with
      server := s.server.map fun u => { u with
        exposed := id :: u.exposed
        connected := id :: u.connected } }
  | .closed id => match s.server with
    | none => s
    | some u =>
      if id ∈ u.exposed then peerClosed id { s with
        server := some { u with
          exposed := u.exposed.filter (· ≠ id)
          connected := u.connected.filter (· ≠ id) } }
      else s
  | .bindFailed => s.bindFailed answers.prepared
  -- `stop` forgets the exposed peers, so `peer_closed` is not signalled for them any more
  | .stop => { s with
      server := s.server.map fun u => { u with stopped := true, exposed := [] }
      manager := s.manager.dropRequests }
  | .dropServer => s.dropServer.startCreateServerRetryTimer
  -- `start` calls the function at once, and not after the first interval
  | .timerStart =>
    let currentFunctionId := s.timer.currentFunctionId + 1
    callFunction currentFunctionId
      { s with timer := { currentFunctionId, function := true, interval := retryInterval } }
  | .timerStop => { s with
      timer := { currentFunctionId := s.timer.currentFunctionId + 1 } }
  | .createServer => s.createServer answers.prepared

/-- One step. -/
def step (s : Server) : ServerLabel → Option Server
  | .run answers => match s.queue with
    | [] => none
    | t :: queue => some (task answers { s with queue } t)
  | .accept => match s.server with
    | none => none
    | some u =>
      if u.stopped then none
      else some { s with server := some { u with nextPeerId := u.nextPeerId + 1 } }
  | .peerReady id => match s.server with
    | none => none
    | some u =>
      if 0 < id ∧ id ≤ u.nextPeerId ∧ id ∉ u.ready then
        some { s with
          server := some { u with ready := id :: u.ready }
          queue := s.queue ++ [.ready id] }
      else none
  | .peerClosed id => match s.server with
    | none => none
    | some u =>
      if 0 < id ∧ id ≤ u.nextPeerId then some { s with queue := s.queue ++ [.closed id] } else none
  -- `request_received` is passed on for exposed peers only
  | .request id buffer => match s.server with
    | none => none
    | some u =>
      if id ∈ u.exposed then
        (s.manager.dispatch (.peer id (.request buffer))).map fun m => { s with manager := m }
      else none
  | .bindFailed => match s.server with
    | none => none
    | some u => if u.stopped then none else some { s with queue := s.queue ++ [.bindFailed] }
  | .tick milliseconds => some { s with clock := s.clock + milliseconds }
  | .delayed => match s.queue, s.manager.queue, s.delayed with
    | [], [], (when, functionId) :: delayed =>
      if when ≤ s.clock then some (callFunction functionId { s with delayed }) else none
    | _, _, _ => none
  | .managerRun answers =>
    (s.manager.dispatch (.run answers)).map fun m => { s with manager := m }
  | .peer id label => match label with
    | .request _ => none
    | label => (s.manager.dispatch (.peer id label)).map fun m => { s with manager := m }

end Server

/-! ## What a step does -/

namespace Server

/-- Inversion for a closure of the queue. -/
theorem run_cases {s t : Server} {answers : ServerAnswers} (h : s.step (.run answers) = some t) :
    ∃ task queue, s.queue = task :: queue ∧ t = Server.task answers { s with queue } task := by
  rcases hq : s.queue with _ | ⟨task, queue⟩
  · simp [step, hq] at h
  · simp only [step, hq, Option.some.injEq] at h
    exact ⟨task, queue, rfl, h.symm⟩

/-- What a step of the server does. -/
inductive StepCase (s : Server) : ServerLabel → Server → Prop
  /-- a closure runs -/
  | run (answers : ServerAnswers) (task : ServerTask) (queue : List ServerTask)
      (hq : s.queue = task :: queue) :
      StepCase s (.run answers) (Server.task answers { s with queue } task)
  /-- a socket gets an id -/
  | accept (u : UnixDomainServer) (hu : s.server = some u) (hrunning : u.stopped = false) :
      StepCase s .accept { s with server := some { u with nextPeerId := u.nextPeerId + 1 } }
  /-- a socket is ready, and its peer will be connected -/
  | peerReady (id : ℕ) (u : UnixDomainServer) (hu : s.server = some u)
      (hid : 0 < id ∧ id ≤ u.nextPeerId ∧ id ∉ u.ready) :
      StepCase s (.peerReady id) { s with
        server := some { u with ready := id :: u.ready }
        queue := s.queue ++ [.ready id] }
  /-- a socket is closed -/
  | peerClosed (id : ℕ) (u : UnixDomainServer) (hu : s.server = some u)
      (hid : 0 < id ∧ id ≤ u.nextPeerId) :
      StepCase s (.peerClosed id) { s with queue := s.queue ++ [.closed id] }
  /-- a request is handed to the manager -/
  | request (id : ℕ) (buffer : Bytes) (u : UnixDomainServer) (hu : s.server = some u)
      (hid : id ∈ u.exposed) (m : Manager)
      (hm : s.manager.dispatch (.peer id (.request buffer)) = some m) :
      StepCase s (.request id buffer) { s with manager := m }
  /-- the socket could not be bound -/
  | bindFailed (u : UnixDomainServer) (hu : s.server = some u) (hrunning : u.stopped = false) :
      StepCase s .bindFailed { s with queue := s.queue ++ [.bindFailed] }
  /-- time passes -/
  | tick (milliseconds : ℕ) :
      StepCase s (.tick milliseconds) { s with clock := s.clock + milliseconds }
  /-- a delayed closure is due, and nothing else is queued -/
  | delayed (when functionId : ℕ) (rest : List (ℕ × ℕ)) (hq : s.queue = [])
      (hm : s.manager.queue = []) (hd : s.delayed = (when, functionId) :: rest)
      (hwhen : when ≤ s.clock) :
      StepCase s .delayed (callFunction functionId { s with delayed := rest })
  /-- the manager runs a task of its own -/
  | managerRun (answers : Answers) (m : Manager)
      (hm : s.manager.dispatch (.run answers) = some m) :
      StepCase s (.managerRun answers) { s with manager := m }
  /-- something happens to a peer -/
  | peer (id : ℕ) (label : PeerLabel) (hlabel : ∀ buffer, label ≠ .request buffer) (m : Manager)
      (hm : s.manager.dispatch (.peer id label) = some m) :
      StepCase s (.peer id label) { s with manager := m }

/-- Inversion for a step. -/
theorem step_cases {s t : Server} {label : ServerLabel} (h : s.step label = some t) :
    StepCase s label t := by
  cases label with
  | run answers =>
    obtain ⟨task, queue, hq, rfl⟩ := run_cases h
    exact .run answers task queue hq
  | accept =>
    rw [step] at h
    split at h
    · cases h
    next u hu =>
      split at h
      · cases h
      next hrunning =>
        obtain rfl := Option.some.inj h
        exact .accept u hu (Bool.eq_false_iff.mpr hrunning)
  | peerReady id =>
    rw [step] at h
    split at h
    · cases h
    next u hu =>
      split at h
      next hid =>
        obtain rfl := Option.some.inj h
        exact .peerReady id u hu hid
      next => cases h
  | peerClosed id =>
    rw [step] at h
    split at h
    · cases h
    next u hu =>
      split at h
      next hid =>
        obtain rfl := Option.some.inj h
        exact .peerClosed id u hu hid
      next => cases h
  | request id buffer =>
    rw [step] at h
    split at h
    · cases h
    next u hu =>
      split at h
      next hid =>
        obtain ⟨m, hm, rfl⟩ := Option.map_eq_some_iff.mp h
        exact .request id buffer u hu hid m hm
      next => cases h
  | bindFailed =>
    rw [step] at h
    split at h
    · cases h
    next u hu =>
      split at h
      · cases h
      next hrunning =>
        obtain rfl := Option.some.inj h
        exact .bindFailed u hu (Bool.eq_false_iff.mpr hrunning)
  | tick milliseconds =>
    obtain rfl := Option.some.inj h
    exact .tick milliseconds
  | delayed =>
    rw [step] at h
    split at h
    next when functionId rest hq hm hd =>
      split at h
      next hwhen =>
        obtain rfl := Option.some.inj h
        exact .delayed when functionId rest hq hm hd hwhen
      next => cases h
    next => cases h
  | managerRun answers =>
    obtain ⟨m, hm, rfl⟩ := Option.map_eq_some_iff.mp h
    exact .managerRun answers m hm
  | peer id label =>
    cases label with
    | request buffer => cases h
    | _ =>
      obtain ⟨m, hm, rfl⟩ := Option.map_eq_some_iff.mp h
      exact .peer id _ (fun _ heq => by cases heq) m hm

end Server

/-! ## What the manager leaves alone -/

/-- A task of the manager creates and erases no entries. -/
theorem Manager.run_keys {m n : Manager} {answers : Answers}
    (h : m.dispatch (.run answers) = some n) : n.keys = m.keys := by
  have hstep := step_of_dispatch h
  rw [step] at hstep
  split at hstep
  · cases hstep
  · split at hstep
    · obtain rfl := Option.some.inj hstep
      rfl
    · obtain rfl := Option.some.inj hstep
      rfl

/-- Neither do the surroundings of a peer. -/
theorem Manager.peer_keys {m n : Manager} {id : ℕ} {label : PeerLabel}
    (h : m.dispatch (.peer id label) = some n) : n.keys = m.keys := by
  obtain ⟨l, r, -, -, -, rfl⟩ := react_cases (step_of_dispatch h)
  rfl

/-- `peer_connected` adds the entry of its peer only. -/
theorem Manager.mem_keys_of_connected {m : Manager} {id j : ℕ} {activated : Bool}
    (h : j ∈ ((m.createClient id activated).asyncCheckStatusChanged id).keys) :
    j = id ∨ j ∈ m.keys := by
  have hkeys : ((m.createClient id activated).asyncCheckStatusChanged id).keys =
      (m.createClient id activated).keys := by
    rw [asyncCheckStatusChanged]
    split <;> rfl
  rw [hkeys, createClient] at h
  split at h
  · exact Or.inr h
  · exact List.mem_cons.mp h

/-- A peer without an entry gets a new one. -/
theorem Manager.entries_of_connected {m : Manager} {id : ℕ} (hlive : m.live id = false)
    (activated : Bool) :
    ((m.createClient id activated).asyncCheckStatusChanged id).live id = true ∧
    ((m.createClient id activated).asyncCheckStatusChanged id).entries id =
      some { entry := ClientEntry.init, activated } := by
  simp [createClient, hlive, asyncCheckStatusChanged, live_cons]

/-! ## Entries of connected peers -/

/-- An entry as its constructor leaves it: both devices are disabled, neither has an io
service client, and no status was published. -/
def ClientEntry.Fresh (e : ClientEntry) : Prop :=
  (∀ kind, (e.slots kind).enabled = false ∧ (e.slots kind).client = none) ∧ e.lastResponse = none

theorem ClientEntry.init_fresh : ClientEntry.init.Fresh := ⟨fun _ => ⟨rfl, rfl⟩, rfl⟩

namespace Server

/-- The peers whose `peer_connected` is queued. -/
def connecting (s : Server) : List ℕ := s.queue.filterMap ServerTask.readyId

/-- Every key is a peer that the socket server has connected and not closed. -/
def Current (s : Server) : Prop :=
  ∀ id ∈ s.manager.keys, ∃ u, s.server = some u ∧ id ∈ u.connected

/-- The step destroys a socket server: the closure that `bind_failed` has queued runs, or
`create_server` puts another socket server in its place. -/
def Destroys (s : Server) : ServerLabel → Prop
  | .run answers => s.server.isSome = true ∧ (s.queue.head? = some .dropServer ∨
      s.queue.head? = some .createServer ∧ answers.prepared = true)
  | _ => False

/-- A socket server is destroyed when no entries are left. -/
def Drained (s : Server) (label : ServerLabel) : Prop := s.Destroys label → s.manager.keys = []

instance (s : Server) : ∀ label, Decidable (s.Destroys label)
  | .run _ => inferInstanceAs (Decidable (_ ∧ _))
  | .accept | .peerReady _ | .peerClosed _ | .request _ _ | .bindFailed | .tick _ | .delayed
  | .managerRun _ | .peer _ _ => isFalse id

instance (s : Server) (label : ServerLabel) : Decidable (s.Drained label) :=
  inferInstanceAs (Decidable (_ → _))

/-- What holds along runs that destroy socket servers without entries only. -/
structure Registered (s : Server) : Prop where
  /-- entries belong to connected peers -/
  keys : s.Current
  /-- peers that will be connected are ready and not connected yet -/
  pending : ∀ id ∈ s.connecting, ∃ u, s.server = some u ∧ id ∈ u.ready ∧ id ∉ u.connected
  /-- each of them will be connected once -/
  once : s.connecting.Nodup
  /-- connected peers were ready -/
  connected : ∀ u, s.server = some u → ∀ id ∈ u.connected, id ∈ u.ready

/-- Without a socket server there are no entries. -/
theorem Current.keys_eq_nil {s : Server} (h : s.Current) (hs : s.server = none) :
    s.manager.keys = [] := by
  refine List.eq_nil_iff_forall_not_mem.mpr fun id hid => ?_
  obtain ⟨u, hu, -⟩ := h id hid
  cases hs.symm.trans hu

/-- A step of the manager alone. -/
theorem Registered.setManager {s : Server} (h : s.Registered) {m : Manager}
    (hm : m.keys = s.manager.keys) : Registered { s with manager := m } :=
  { h with keys := fun id hid => h.keys id (hm ▸ hid) }

/-- A closure that connects no peer is queued. -/
theorem Registered.enqueue {s : Server} (h : s.Registered) (tasks : List ServerTask)
    (ht : tasks.filterMap ServerTask.readyId = []) :
    Registered { s with queue := s.queue ++ tasks } := by
  have hp : connecting { s with queue := s.queue ++ tasks } = s.connecting := by
    simp [connecting, ht]
  exact { h with pending := by rw [hp]; exact h.pending, once := by rw [hp]; exact h.once }

/-- The socket server changes, with the same peers connected and ready. -/
theorem Registered.setServer {s : Server} (h : s.Registered)
    {f : UnixDomainServer → UnixDomainServer}
    (hc : ∀ u, (f u).connected = u.connected) (hr : ∀ u, (f u).ready = u.ready) :
    Registered { s with server := s.server.map f } := by
  refine ⟨fun id hid => ?_, fun id hid => ?_, h.once, fun u hu id hid => ?_⟩
  · obtain ⟨u, hu, hmem⟩ := h.keys id hid
    exact ⟨f u, by simp [hu], by rw [hc]; exact hmem⟩
  · obtain ⟨u, hu, hready, hmem⟩ := h.pending id hid
    exact ⟨f u, by simp [hu], by rw [hr]; exact hready, by rw [hc]; exact hmem⟩
  · obtain ⟨v, hv, rfl⟩ := Option.map_eq_some_iff.mp hu
    rw [hc] at hid
    rw [hr]
    exact h.connected v hv id hid

/-- The first closure of the queue that connects no peer is taken from it. -/
theorem Registered.dequeue {s : Server} (h : s.Registered) {t : ServerTask}
    {queue : List ServerTask} (hq : s.queue = t :: queue) (ht : t.readyId = none) :
    Registered { s with queue } := by
  have hp : connecting { s with queue } = s.connecting := by
    rw [connecting, connecting, hq, List.filterMap_cons_none ht]
  exact { h with pending := by rw [hp]; exact h.pending, once := by rw [hp]; exact h.once }

/-- A peer is connected. -/
theorem Registered.ready {s : Server} (h : s.Registered) {id : ℕ} {queue : List ServerTask}
    (hq : s.queue = .ready id :: queue) (answers : ServerAnswers) :
    Registered (task answers { s with queue } (.ready id)) := by
  have hp : s.connecting = id :: connecting { s with queue } := by
    rw [connecting, hq]
    rfl
  -- the peer is ready and not connected, and no second closure connects it
  obtain ⟨u, hu, hready, hnew⟩ := h.pending id (hp ▸ List.mem_cons_self)
  have honce := h.once
  rw [hp, List.nodup_cons] at honce
  simp only [task, peerConnected, hu, Option.map_some]
  refine ⟨fun j hj => ⟨_, rfl, ?_⟩, fun j hj => ⟨_, rfl, ?_, ?_⟩, honce.2,
    fun v hv j hj => ?_⟩
  · rcases Manager.mem_keys_of_connected hj with rfl | hj
    · exact List.mem_cons_self
    · obtain ⟨v, hv, hmem⟩ := h.keys j hj
      obtain rfl := Option.some.inj (hu.symm.trans hv)
      exact List.mem_cons_of_mem _ hmem
  · obtain ⟨v, hv, hready, -⟩ := h.pending j (hp ▸ List.mem_cons_of_mem _ hj)
    obtain rfl := Option.some.inj (hu.symm.trans hv)
    exact hready
  · obtain ⟨v, hv, -, hmem⟩ := h.pending j (hp ▸ List.mem_cons_of_mem _ hj)
    obtain rfl := Option.some.inj (hu.symm.trans hv)
    rw [List.mem_cons, not_or]
    exact ⟨fun heq => honce.1 (heq ▸ hj), hmem⟩
  · obtain rfl := Option.some.inj hv
    rcases List.mem_cons.mp hj with rfl | hj
    · exact hready
    · exact h.connected u hu j hj

/-- A peer is closed. -/
theorem Registered.closed {s : Server} (h : s.Registered) {id : ℕ} (answers : ServerAnswers) :
    Registered (task answers s (.closed id)) := by
  rcases hu : s.server with _ | u
  · simpa only [task, hu] using h
  · by_cases hid : id ∈ u.exposed
    · simp only [task, hu, hid, if_true, peerClosed]
      refine ⟨fun j hj => ⟨_, rfl, ?_⟩, fun j hj => ?_, h.once, fun v hv j hj => ?_⟩
      · obtain ⟨hj, hne⟩ := List.mem_filter.mp hj
        obtain ⟨v, hv, hmem⟩ := h.keys j hj
        obtain rfl := Option.some.inj (hu.symm.trans hv)
        exact List.mem_filter.mpr ⟨hmem, hne⟩
      · obtain ⟨v, hv, hready, hmem⟩ := h.pending j hj
        obtain rfl := Option.some.inj (hu.symm.trans hv)
        exact ⟨_, rfl, hready, fun hj => hmem (List.mem_of_mem_filter hj)⟩
      · obtain rfl := Option.some.inj hv
        exact h.connected u hu j (List.mem_of_mem_filter hj)
    · simpa only [task, hu, hid, if_false] using h

theorem dropServer_server (s : Server) : s.dropServer.server = none := by
  rcases hu : s.server with _ | u <;> simp [dropServer, hu]

/-- The socket server is dropped, and no entries are left. -/
theorem Registered.dropServer {s : Server} (h : s.Registered)
    (hkeys : s.server.isSome = true → s.manager.keys = []) : Registered s.dropServer := by
  rcases hu : s.server with _ | u
  · rw [Server.dropServer, hu]
    exact h
  · have hp : connecting s.dropServer = [] := by
      rw [Server.dropServer, hu, connecting]
      refine List.filterMap_eq_nil_iff.mpr fun t ht => ?_
      have hkept := (List.mem_filter.mp ht).2
      cases t with
      | ready id => cases hkept
      | _ => rfl
    have hk : s.dropServer.manager.keys = [] := by
      rw [Server.dropServer, hu]
      exact hkeys (by rw [hu]; rfl)
    refine ⟨fun id hid => ?_, fun id hid => ?_, ?_, fun v hv => ?_⟩
    · rw [hk] at hid
      cases hid
    · rw [hp] at hid
      cases hid
    · rw [hp]
      exact List.nodup_nil
    · rw [dropServer_server] at hv
      cases hv

/-- A new socket server takes the place of none. -/
theorem Registered.newServer {s : Server} (h : s.Registered) (hs : s.server = none) :
    Registered { s with server := some {} } := by
  refine ⟨fun id hid => ?_, fun id hid => ?_, h.once, fun v hv id hid => ?_⟩
  · change id ∈ s.manager.keys at hid
    rw [h.keys.keys_eq_nil hs] at hid
    cases hid
  · obtain ⟨u, hu, -⟩ := h.pending id hid
    cases hs.symm.trans hu
  · obtain rfl := Option.some.inj hv
    cases hid

/-- `create_server`, with no entries if there is a socket server to destroy. -/
theorem Registered.createServer {s : Server} (h : s.Registered) {prepared : Bool}
    (hkeys : s.server.isSome = true → prepared = true → s.manager.keys = []) :
    Registered (s.createServer prepared) := by
  have hbegun : Registered { s with
      queue := s.queue ++ [.timerStop]
      attempts := s.attempts ++ [(s.clock, prepared)] } := { h.enqueue _ rfl with }
  cases prepared with
  | false => exact hbegun.enqueue [.timerStart] rfl
  | true =>
    have hdropped := hbegun.dropServer fun hs => hkeys hs rfl
    exact (hdropped.newServer (dropServer_server _)).enqueue [.start] rfl

/-- `call_function` of the retry timer. -/
theorem Registered.callFunction {s : Server} (h : s.Registered) (functionId : ℕ) :
    Registered (s.callFunction functionId) := by
  rw [Server.callFunction]
  split
  · exact h
  · split
    · exact { h.enqueue _ rfl with }
    · exact { h with }

/-! ## Steps and runs -/

/-- Each closure keeps the invariant. -/
theorem run_registered {s t : Server} {answers : ServerAnswers} (h : s.Registered)
    (hdrained : s.Drained (.run answers)) (hstep : s.step (.run answers) = some t) :
    t.Registered := by
  obtain ⟨task, queue, hq, rfl⟩ := run_cases hstep
  cases task with
  | ready id => exact h.ready hq answers
  | start => exact (h.dequeue hq rfl).setServer (fun _ => rfl) (fun _ => rfl)
  | closed id => exact (h.dequeue hq rfl).closed answers
  | bindFailed =>
    cases hprepared : answers.prepared with
    | true =>
      simp only [task, Server.bindFailed, hprepared, if_true]
      exact h.dequeue hq rfl
    | false =>
      simp only [task, Server.bindFailed, hprepared, Bool.false_eq_true, if_false,
        List.append_assoc]
      refine (h.dequeue hq rfl).enqueue _ ?_
      split <;> rfl
  | stop =>
    have hstopped := (h.dequeue hq rfl).setServer
      (f := fun u => { u with stopped := true, exposed := [] }) (fun _ => rfl) (fun _ => rfl)
    exact hstopped.setManager (m := s.manager.dropRequests) rfl
  | dropServer =>
    refine Registered.enqueue ((h.dequeue hq rfl).dropServer fun hs => ?_) _ rfl
    exact hdrained ⟨hs, Or.inl (by rw [hq]; rfl)⟩
  | timerStart =>
    have hstarted : Registered { s with
        queue
        timer := { currentFunctionId := s.timer.currentFunctionId + 1, function := true,
                   interval := retryInterval } } := { h.dequeue hq rfl with }
    exact hstarted.callFunction _
  | timerStop => exact { h.dequeue hq rfl with }
  | createServer =>
    refine (h.dequeue hq rfl).createServer fun hs hprepared => ?_
    exact hdrained ⟨hs, Or.inr ⟨by rw [hq]; rfl, hprepared⟩⟩

/-- A peer's socket becomes ready. -/
theorem Registered.peerReady {s : Server} (h : s.Registered) {u : UnixDomainServer}
    (hu : s.server = some u) {id : ℕ} (hid : id ∉ u.ready) :
    Registered { s with
      server := some { u with ready := id :: u.ready }
      queue := s.queue ++ [.ready id] } := by
  have hp : (s.queue ++ [ServerTask.ready id]).filterMap ServerTask.readyId =
      s.connecting ++ [id] := by
    simp [connecting, ServerTask.readyId]
  have hready : ∀ j ∈ s.connecting, j ∈ u.ready ∧ j ∉ u.connected := by
    intro j hj
    obtain ⟨v, hv, hready, hnew⟩ := h.pending j hj
    obtain rfl := Option.some.inj (hu.symm.trans hv)
    exact ⟨hready, hnew⟩
  refine ⟨fun j hj => ⟨_, rfl, ?_⟩, fun j hj => ⟨_, rfl, ?_⟩, ?_, fun v hv j hj => ?_⟩
  · obtain ⟨v, hv, hmem⟩ := h.keys j hj
    obtain rfl := Option.some.inj (hu.symm.trans hv)
    exact hmem
  · rw [connecting, hp, List.mem_append, List.mem_singleton] at hj
    rcases hj with hj | rfl
    · exact ⟨List.mem_cons_of_mem _ (hready j hj).1, (hready j hj).2⟩
    · exact ⟨List.mem_cons_self, fun hmem => hid (h.connected u hu j hmem)⟩
  · rw [connecting, hp]
    -- a peer becomes ready once, so it is not among those that are about to be connected
    refine List.nodup_append.mpr ⟨h.once, by simp, fun j hj k hk heq => ?_⟩
    rw [List.mem_singleton] at hk
    exact hid (hk ▸ heq ▸ (hready j hj).1)
  · obtain rfl := Option.some.inj hv
    exact List.mem_cons_of_mem _ (h.connected u hu j hj)

/-- Each step keeps the invariant. -/
theorem step_registered {s t : Server} {label : ServerLabel} (h : s.Registered)
    (hdrained : s.Drained label) (hstep : s.step label = some t) : t.Registered := by
  cases step_cases hstep with
  | run answers task queue hq => exact run_registered h hdrained hstep
  | accept u hu hrunning =>
    have hset := h.setServer (f := fun u => { u with nextPeerId := u.nextPeerId + 1 })
      (fun _ => rfl) (fun _ => rfl)
    rwa [hu] at hset
  | peerReady id u hu hid => exact h.peerReady hu hid.2.2
  | peerClosed id u hu hid => exact h.enqueue _ rfl
  | request id buffer u hu hid m hm => exact h.setManager (Manager.peer_keys hm)
  | bindFailed u hu hrunning => exact h.enqueue _ rfl
  | tick milliseconds => exact { h with }
  | delayed when functionId rest hq hm hd hwhen =>
    have hfirst : Registered { s with delayed := rest } := { h with }
    exact hfirst.callFunction functionId
  | managerRun answers m hm => exact h.setManager (Manager.run_keys hm)
  | peer id label hlabel m hm => exact h.setManager (Manager.peer_keys hm)

/-- The constructor establishes the invariant. -/
theorem init_registered (answers : ServerAnswers) : (init answers).Registered := by
  have h : Registered {} :=
    ⟨fun _ hid => (by cases hid), List.forall_mem_nil _, List.nodup_nil, fun _ hs => by cases hs⟩
  exact h.createServer fun hs => by cases hs

/-- Under the invariant, a peer that is connected gets a new entry. -/
theorem Registered.fresh {s t : Server} (h : s.Registered) {id : ℕ} {answers : ServerAnswers}
    (hq : s.queue.head? = some (.ready id)) (hstep : s.step (.run answers) = some t) :
    t.manager.live id = true ∧
      ∃ l, t.manager.entries id = some l ∧ l.entry.Fresh := by
  obtain ⟨queue, hq⟩ : ∃ queue, s.queue = .ready id :: queue := List.head?_eq_some_iff.mp hq
  obtain ⟨u, hu, -, hnew⟩ := h.pending id (by simp [Server.connecting, hq, ServerTask.readyId])
  have hlive : s.manager.live id = false := by
    rw [Manager.live, decide_eq_false_iff_not]
    intro hid
    obtain ⟨v, hv, hmem⟩ := h.keys id hid
    obtain rfl := Option.some.inj (hu.symm.trans hv)
    exact hnew hmem
  simp only [step, hq, Option.some.injEq] at hstep
  subst hstep
  obtain ⟨hlive', hentry⟩ := Manager.entries_of_connected hlive answers.activated
  exact ⟨hlive', _, hentry, ClientEntry.init_fresh⟩

end Server

/-- Entries belong to live connections: as long as socket servers are destroyed without
entries only, each key is a peer that the current socket server has connected and not
closed, and a peer that is connected is served by a fresh entry. -/
theorem entries_of_connected_peers (answers : ServerAnswers) (labels : List ServerLabel)
    (s : Server) (hdrained : Transition.Meets Server.step Server.Drained (.init answers) labels)
    (h : Transition.run Server.step (.init answers) labels = some s) :
    s.Current ∧ (s.server = none → s.manager.keys = []) ∧
    ∀ id answers t, s.queue.head? = some (.ready id) → s.step (.run answers) = some t →
      t.manager.live id = true ∧ ∃ l, t.manager.entries id = some l ∧ l.entry.Fresh := by
  have hregistered : s.Registered := Transition.run_invariant_of_meets
    (Server.init_registered answers) (fun _ _ _ hI hc => Server.step_registered hI hc) hdrained h
  exact ⟨hregistered.keys, hregistered.keys.keys_eq_nil, fun id answers t hq hstep =>
    hregistered.fresh hq hstep⟩

/-- A peer is connected and asks for a keyboard. -/
def servedPeer : List ServerLabel :=
  [.run {}, .run {}, .accept, .peerReady 1, .run {}, .managerRun {}, .managerRun {},
   .request 1 (ClientOperation.keyboardInitialize .init).requestBuffer] ++
  List.replicate 3 (.managerRun {})

/-- The directory of the socket cannot be prepared, and the socket server is dropped. -/
def droppedServer : List ServerLabel :=
  [.bindFailed, .run { prepared := false }, .run {}, .run {}]

/-- The retry timer creates a new socket server, which accepts a socket. -/
def nextServer : List ServerLabel :=
  [.run {}, .run {}, .run {}, .run {}, .accept, .peerReady 1]

/-- The socket server is dropped with a peer connected: its entry stays, and the first
peer of the next socket server is served by it. -/
theorem entry_outlives_server :
    (∃ s, Transition.run Server.step (.init {}) (servedPeer ++ droppedServer) = some s ∧
      s.server = none ∧ s.manager.keys = [1]) ∧
    ∃ s, Transition.run Server.step (.init {}) (servedPeer ++ droppedServer ++ nextServer) =
        some s ∧ s.queue.head? = some (.ready 1) ∧
      ∃ t, s.step (.run {}) = some t ∧ t.manager.live 1 = true ∧
        ∃ l, t.manager.entries 1 = some l ∧ (l.entry.slots .keyboard).enabled = true := by
  decide +kernel

/-- A run to which the theorem applies: the peer is closed before the socket server is
dropped, and the first peer of the next one gets a fresh entry. -/
theorem closed_peer_served_afresh : ∃ s t,
    Transition.run Server.step (.init {}) (servedPeer ++ [.peerClosed 1, .run {}] ++
      droppedServer ++ nextServer) = some s ∧
    s.step (.run {}) = some t ∧
    s.Current ∧ ∃ l, t.manager.entries 1 = some l ∧ l.entry.Fresh := by
  have hdrained : Transition.Meets Server.step Server.Drained (.init {})
      (servedPeer ++ [.peerClosed 1, .run {}] ++ droppedServer ++ nextServer) := by
    decide +kernel
  obtain ⟨s, hs, hhead, hstep⟩ : ∃ s,
      Transition.run Server.step (.init {}) (servedPeer ++ [.peerClosed 1, .run {}] ++
        droppedServer ++ nextServer) = some s ∧
      s.queue.head? = some (.ready 1) ∧ (s.step (.run {})).isSome := by
    decide +kernel
  obtain ⟨t, ht⟩ := Option.isSome_iff_exists.mp hstep
  obtain ⟨hcurrent, -, hfresh⟩ := entries_of_connected_peers {} _ s hdrained hs
  exact ⟨s, t, hs, ht, hcurrent, (hfresh 1 {} t hhead ht).2⟩

end VirtualHidDevice
