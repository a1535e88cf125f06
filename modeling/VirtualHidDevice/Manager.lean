import VirtualHidDevice.Session

/-!
# All peers of the daemon

`virtual_hid_device_service_clients_manager`: the entries of all peers, whose tasks
share the queue of one dispatcher.

* `Manager.step` — the dispatcher runs the first task of the queue, whoever owns
  it; peers come and go; the surroundings of each peer act on it.
* `Manager.peer` — one peer of the manager, with its part of the queue;
  `Manager.dispatch_peer` says what a step of the manager is for it: a step of
  its own, or nothing.
* `World` — the clients of all peers as well, with `World.step_cases` as the
  inversion of its steps; `World.session` is one client with its peer, and
  `World.step_session` says that nothing else is going on in it.
-/

namespace VirtualHidDevice

open Dispatcher (applyAll memberOwner tag project)

/-! ## One entry -/

/-- What a step other than running a task does to an entry, and to the queue. -/
def Local.react (l : Local) : PeerLabel → Option Run
  | .run _ => none
  | .request buffer => some ⟨l, [.enqueue (.request buffer)]⟩
  | .event role event => match l.entry.client role with
    | none => none
    | some c =>
      if c.serviceMonitor then some ⟨l, [.enqueue (.io c.objectId event.task)]⟩ else none
  | .driverActivated value event =>
    if l.entry.noVirtualDevices.serviceMonitor then
      some ⟨{ l with activated := value },
        [.enqueue (.io l.entry.noVirtualDevices.objectId event.task)]⟩
    else none
  | .readyTimer => some (Run.readyTimer ⟨l, []⟩)
  | .recreate index => match l.recreates[index]? with
    | none => none
    | some task => some (Run.recreate task
        ⟨{ l with recreates := l.recreates.eraseIdx index }, []⟩)

/-- A peer on its own reacts in the same way. -/
theorem Peer.step_eq_react (p : Peer) {label : PeerLabel} (h : ∀ answers, label ≠ .run answers) :
    p.step label = (p.toLocal.react label).map (finish p.queue) := by
  cases label with
  | run answers => exact absurd rfl (h answers)
  | request buffer => rfl
  | event role e =>
    rcases hc : p.entry.client role with _ | c
    · simp [step, Local.react, hc]
    · by_cases hm : c.serviceMonitor = true <;> simp [step, Local.react, hc, hm, finish]
  | driverActivated value e =>
    by_cases hm : p.entry.noVirtualDevices.serviceMonitor = true <;>
      simp [step, Local.react, hm, finish]
  | readyTimer => rfl
  | recreate index => rcases hr : p.recreates[index]? with _ | t <;> simp [step, Local.react, hr]

/-! ## The manager -/

/-- The clients manager and the queue of the dispatcher. -/
structure Manager where
  /-- the entries by peer, also those that were erased, with all that they did -/
  entries : ℕ → Option Local := fun _ => none
  /-- the keys of `client_entries_` -/
  keys : List ℕ := []
  /-- the queue of the dispatcher -/
  queue : List (ℕ × Task) := []

/-- A step of the manager. -/
inductive ManagerLabel where
  /-- the dispatcher runs the first task of the queue -/
  | run (answers : Answers)
  /-- the listener of `peer_connected`, with the result of `driver_activated()` -/
  | peerConnected (id : ℕ) (activated : Bool)
  /-- the listener of `peer_closed` -/
  | peerClosed (id : ℕ)
  /-- any other step of a peer -/
  | peer (id : ℕ) (label : PeerLabel)

/-- The peer that a step is about; the queue decides whose task is run. -/
def ManagerLabel.addressee : ManagerLabel → Option ℕ
  | run _ => none
  | peerConnected id _ => some id
  | peerClosed id => some id
  | peer id _ => some id

namespace Manager

/-- `client_entries_.contains(id)`. -/
def live (m : Manager) (id : ℕ) : Bool := decide (id ∈ m.keys)

/-- The end of a task of a peer: its effects reach the queue. -/
def finish (m : Manager) (id : ℕ) (queue : List (ℕ × Task)) (r : Run) : Manager :=
  { m with
    entries := Function.update m.entries id (some r.toLocal)
    queue := applyAll (memberOwner Task.owner) queue (r.effects.map (tag id)) }

/-- `create_client`. -/
def createClient (m : Manager) (id : ℕ) (activated : Bool) : Manager :=
  if m.live id then m
  else
    { entries := Function.update m.entries id (some { entry := ClientEntry.init, activated })
      keys := id :: m.keys
      queue := m.queue ++ ClientEntry.initTasks.map (id, ·) }

/-- `async_check_status_changed`. -/
def asyncCheckStatusChanged (m : Manager) (id : ℕ) : Manager :=
  if m.live id then { m with queue := m.queue ++ [(id, .entry .checkStatusChanged)] } else m

/-- `erase_client`: the entry and its io service clients are destroyed, and a
request of the peer that is still queued finds no peer. -/
def eraseClient (m : Manager) (id : ℕ) : Manager :=
  { m with
    keys := m.keys.filter (· ≠ id)
    queue := m.queue.filter fun task => task.1 ≠ id }

/-- One step. -/
def step (m : Manager) : ManagerLabel → Option Manager
  | .run answers => match m.queue with
    | [] => none
    | (id, task) :: queue => match m.live id, m.entries id with
      | true, some l => some (m.finish id queue (Run.task answers ⟨l, []⟩ task))
      | _, _ => some { m with queue }
  | .peerConnected id activated => some ((m.createClient id activated).asyncCheckStatusChanged id)
  | .peerClosed id => some (m.eraseClient id)
  | .peer id label => match m.live id, m.entries id with
    | true, some l => (l.react label).map (m.finish id m.queue)
    | _, _ => none

/-- One step in the order of the dispatcher: a delayed closure waits until no task
of any peer is queued. -/
def dispatch (m : Manager) (label : ManagerLabel) : Option Manager :=
  match label with
  | .peer _ (.recreate _) => if m.queue.isEmpty then m.step label else none
  | _ => m.step label

theorem live_cons (entries : ℕ → Option Local) (keys : List ℕ) (queue : List (ℕ × Task))
    (id j : ℕ) : live ⟨entries, id :: keys, queue⟩ j = (decide (j = id) || decide (j ∈ keys)) := by
  simp [live]

theorem live_eraseClient (m : Manager) (id j : ℕ) :
    (m.eraseClient id).live j = (decide (j ≠ id) && m.live j) := by
  by_cases hj : j = id <;> simp [live, eraseClient, hj]

/-- One peer of the manager. -/
def peer (m : Manager) (id : ℕ) : Option Peer :=
  (m.entries id).map fun l => { l with queue := project id m.queue }

/-- Queued tasks belong to peers that are there. -/
structure Owned (m : Manager) : Prop where
  /-- a key has an entry -/
  entries : ∀ id, m.live id = true → (m.entries id).isSome
  /-- tasks of other peers have been dropped -/
  queue : ∀ task ∈ m.queue, m.live task.1 = true

/-! ## One peer of many -/

theorem finish_peer_self (m : Manager) (id : ℕ) (queue : List (ℕ × Task)) (r : Run) :
    (m.finish id queue r).peer id = some (Peer.finish (project id queue) r) := by
  simp only [peer, finish, Function.update_self, Option.map_some, Dispatcher.project_applyAll]
  rfl

theorem finish_peer_of_ne {m : Manager} {id j : ℕ} (h : j ≠ id) {queue : List (ℕ × Task)}
    (hqueue : project j queue = project j m.queue) (r : Run) :
    (m.finish id queue r).peer j = m.peer j := by
  simp only [peer, finish, Function.update_of_ne h, Dispatcher.project_applyAll_of_ne _ h, hqueue]

/-- What a step of the manager is for one peer. -/
inductive PeerCase (m n : Manager) (id : ℕ) : ManagerLabel → Prop
  /-- nothing -/
  | other (label : ManagerLabel) (hlabel : label.addressee ≠ some id)
      (hpeer : n.peer id = m.peer id) (hlive : n.live id = m.live id) : PeerCase m n id label
  /-- the dispatcher runs its task -/
  | run (answers : Answers) (p q : Peer) (hp : m.peer id = some p) (hq : n.peer id = some q)
      (hmlive : m.live id = true) (hnlive : n.live id = true)
      (hstep : p.dispatch (.run answers) = some q) : PeerCase m n id (.run answers)
  /-- its surroundings act on it -/
  | react (label : PeerLabel) (p q : Peer) (hp : m.peer id = some p) (hq : n.peer id = some q)
      (hmlive : m.live id = true) (hnlive : n.live id = true)
      (hstep : p.dispatch label = some q) : PeerCase m n id (.peer id label)
  /-- it is connected -/
  | connected (activated : Bool) (hmlive : m.live id = false) (hnlive : n.live id = true)
      (hq : n.peer id = some (Peer.init activated)) : PeerCase m n id (.peerConnected id activated)
  /-- it is connected under the id of an entry that is there -/
  | found (activated : Bool) (p : Peer) (hp : m.peer id = some p) (hmlive : m.live id = true)
      (hnlive : n.live id = true)
      (hq : n.peer id = some { p with queue := p.queue ++ [.entry .checkStatusChanged] }) :
      PeerCase m n id (.peerConnected id activated)
  /-- it is closed -/
  | closed (hnlive : n.live id = false)
      (hq : n.peer id = (m.peer id).map fun p => { p with queue := [] }) :
      PeerCase m n id (.peerClosed id)

/-- The tasks of a peer that is not there have been dropped. -/
theorem Owned.project_eq_nil {m : Manager} (h : m.Owned) {id : ℕ} (hlive : m.live id = false) :
    project id m.queue = [] := by
  refine List.eq_nil_iff_forall_not_mem.mpr fun task htask => ?_
  have := h.queue _ (Dispatcher.mem_project.mp htask)
  rw [hlive] at this
  cases this

/-- What `peer_connected` is for one peer. -/
theorem peerConnected_peer {m : Manager} (howned : m.Owned) (id : ℕ) (activated : Bool) (j : ℕ) :
    PeerCase m ((m.createClient id activated).asyncCheckStatusChanged id) j
      (.peerConnected id activated) := by
  by_cases hlive : m.live id = true
  · have heq : (m.createClient id activated).asyncCheckStatusChanged id =
        { m with queue := m.queue ++ [(id, .entry .checkStatusChanged)] } := by
      rw [createClient, if_pos hlive, asyncCheckStatusChanged, if_pos hlive]
    rw [heq]
    by_cases hj : j = id
    · subst hj
      obtain ⟨l, hl⟩ := Option.isSome_iff_exists.mp (howned.entries j hlive)
      refine .found activated { l with queue := project j m.queue } ?_ hlive hlive ?_
      · simp [peer, hl]
      · simp [peer, hl]
    · refine .other _ (by simp [ManagerLabel.addressee, Ne.symm hj]) ?_ rfl
      simp [peer, Dispatcher.project_cons_of_ne (Ne.symm hj)]
  · rw [Bool.not_eq_true] at hlive
    have heq : (m.createClient id activated).asyncCheckStatusChanged id =
        { entries := Function.update m.entries id (some { entry := ClientEntry.init, activated })
          keys := id :: m.keys
          queue := m.queue ++ ClientEntry.initTasks.map (id, ·) ++
            [(id, .entry .checkStatusChanged)] } := by
      simp [createClient, hlive, asyncCheckStatusChanged, live_cons]
    rw [heq]
    by_cases hj : j = id
    · subst hj
      refine .connected activated hlive (by simp [live_cons]) ?_
      simp [peer, howned.project_eq_nil hlive, ClientEntry.initTasks, Peer.init]
    · refine .other _ (by simp [ManagerLabel.addressee, Ne.symm hj]) ?_
        (by simp [live, hj])
      simp [peer, hj, ClientEntry.initTasks, Dispatcher.project_cons_of_ne (Ne.symm hj)]

/-- The tasks that are left after `erase_client`. -/
theorem project_eraseClient (m : Manager) (id j : ℕ) :
    project j (m.eraseClient id).queue = if j = id then [] else project j m.queue := by
  rw [eraseClient, project, project, List.filterMap_filter]
  split
  next hj =>
    refine List.filterMap_eq_nil_iff.mpr fun task _ => ?_
    by_cases ht : task.1 = id <;> simp [hj, ht]
  next hj =>
    refine List.filterMap_congr fun task _ => ?_
    by_cases ht : task.1 = j
    · simp [ht, hj]
    · simp [ht]

/-- What `peer_closed` is for one peer. -/
theorem peerClosed_peer (m : Manager) (id j : ℕ) :
    PeerCase m (m.eraseClient id) j (.peerClosed id) := by
  have hproject := project_eraseClient m id j
  by_cases hj : j = id
  · subst hj
    refine .closed (by simp [live_eraseClient]) ?_
    rw [if_pos rfl] at hproject
    rw [peer, peer, hproject, Option.map_map]
    rfl
  · rw [if_neg hj] at hproject
    refine .other _ (by simp [ManagerLabel.addressee, Ne.symm hj]) ?_
      (by simp [live_eraseClient, hj])
    rw [peer, hproject]
    rfl

/-- The dispatcher's order only leaves steps out. -/
theorem step_of_dispatch {m n : Manager} {label : ManagerLabel} (h : m.dispatch label = some n) :
    m.step label = some n := by
  unfold dispatch at h
  split at h
  · split at h
    · exact h
    · cases h
  · exact h

/-- Inversion for the first task of the queue. -/
theorem run_cases {m n : Manager} {answers : Answers} (howned : m.Owned)
    (h : m.step (.run answers) = some n) : ∃ id task queue l,
      m.queue = (id, task) :: queue ∧ m.live id = true ∧ m.entries id = some l ∧
        n = m.finish id queue (Run.task answers ⟨l, []⟩ task) := by
  rcases hq : m.queue with _ | ⟨⟨id, task⟩, queue⟩
  · simp [step, hq] at h
  · have hlive : m.live id = true := howned.queue (id, task) (hq ▸ List.mem_cons_self)
    obtain ⟨l, hl⟩ := Option.isSome_iff_exists.mp (howned.entries id hlive)
    simp only [step, hq, hlive, hl, Option.some.injEq] at h
    exact ⟨id, task, queue, l, rfl, hlive, hl, h.symm⟩

/-- Inversion for a step of the surroundings. -/
theorem react_cases {m n : Manager} {id : ℕ} {label : PeerLabel}
    (h : m.step (.peer id label) = some n) : ∃ l r, m.live id = true ∧ m.entries id = some l ∧
      l.react label = some r ∧ n = m.finish id m.queue r := by
  rcases hlive : m.live id with _ | _
  · simp [step, hlive] at h
  · rcases hl : m.entries id with _ | l
    · simp [step, hlive, hl] at h
    · simp only [step, hlive, hl] at h
      obtain ⟨r, hr, rfl⟩ := Option.map_eq_some_iff.mp h
      exact ⟨l, r, rfl, rfl, hr, rfl⟩

/-- A step of the manager is, for each peer, a step of that peer or nothing. -/
theorem dispatch_peer {m n : Manager} {label : ManagerLabel} (howned : m.Owned)
    (h : m.dispatch label = some n) (j : ℕ) : PeerCase m n j label := by
  have hstep := step_of_dispatch h
  cases label with
  | peerConnected id activated =>
    obtain rfl := Option.some.inj hstep
    exact peerConnected_peer howned id activated j
  | peerClosed id =>
    obtain rfl := Option.some.inj hstep
    exact peerClosed_peer m id j
  | run answers =>
    obtain ⟨id, task, queue, l, hq, hlive, hl, rfl⟩ := run_cases howned hstep
    by_cases hj : j = id
    · subst hj
      have hp : m.peer j = some { l with queue := task :: project j queue } := by
        simp [peer, hl, hq]
      exact .run answers _ _ hp (finish_peer_self m j queue _) hlive hlive rfl
    · refine .other _ (Option.some_ne_none j).symm (finish_peer_of_ne hj ?_ _) rfl
      rw [hq, Dispatcher.project_cons_of_ne (Ne.symm hj)]
  | peer id label =>
    obtain ⟨l, r, hlive, hl, hr, rfl⟩ := react_cases hstep
    by_cases hj : j = id
    · subst hj
      have hp : m.peer j = some { l with queue := project j m.queue } := by
        simp [peer, hl]
      have hlabel : ∀ answers, label ≠ .run answers := by
        rintro answers rfl
        cases hr
      have hpeer : Peer.step { l with queue := project j m.queue } label =
          some (Peer.finish (project j m.queue) r) := by
        rw [Peer.step_eq_react _ hlabel, hr]
        rfl
      refine .react label _ _ hp (finish_peer_self m j m.queue r) hlive hlive ?_
      cases label with
      | recreate index =>
        -- the queue of all peers is empty, and so is the part of this one
        have hempty : m.queue.isEmpty = true := by
          by_contra hne
          rw [dispatch, if_neg hne] at h
          cases h
        rw [List.isEmpty_iff.mp hempty] at hpeer ⊢
        exact hpeer
      | _ => exact hpeer
    · exact .other _ (by simp [ManagerLabel.addressee, Ne.symm hj]) (finish_peer_of_ne hj rfl r) rfl

/-- A new entry queues tasks of its own. -/
theorem createClient_owned {m : Manager} (h : m.Owned) (id : ℕ) (activated : Bool) :
    (m.createClient id activated).Owned := by
  rw [createClient]
  split
  · exact h
  · refine ⟨fun j hj => ?_, fun task htask => ?_⟩
    · by_cases hji : j = id
      · subst hji
        simp
      · simp only [Function.update_of_ne hji]
        exact h.entries j (by simpa [live, hji] using hj)
    · by_cases hid : task.1 = id
      · simp [live_cons, hid]
      · simp only [live_cons, hid, decide_false, Bool.false_or]
        rcases List.mem_append.mp htask with htask | htask
        · exact h.queue task htask
        · obtain ⟨t, -, rfl⟩ := List.mem_map.mp htask
          exact absurd rfl hid

/-- A check is queued for an entry that is there. -/
theorem asyncCheckStatusChanged_owned {m : Manager} (h : m.Owned) (id : ℕ) :
    (m.asyncCheckStatusChanged id).Owned := by
  rw [asyncCheckStatusChanged]
  split
  next hlive =>
    refine ⟨h.entries, fun task htask => ?_⟩
    rcases List.mem_append.mp htask with htask | htask
    · exact h.queue task htask
    · obtain rfl := List.mem_singleton.mp htask
      exact hlive
  next => exact h

/-- A task of a peer that is there queues tasks of its own. -/
theorem finish_owned {m : Manager} (h : m.Owned) {id : ℕ} (hlive : m.live id = true)
    {queue : List (ℕ × Task)} (hsub : ∀ task ∈ queue, task ∈ m.queue) (r : Run) :
    (m.finish id queue r).Owned := by
  refine ⟨fun j hj => ?_, fun task htask => ?_⟩
  · by_cases hji : j = id
    · subst hji
      simp [finish]
    · simp only [finish, Function.update_of_ne hji]
      exact h.entries j hj
  · by_cases hid : task.1 = id
    · exact hid ▸ hlive
    · have hmem : task.2 ∈ project task.1
          (applyAll (memberOwner Task.owner) queue (r.effects.map (tag id))) :=
        Dispatcher.mem_project.mpr htask
      rw [Dispatcher.project_applyAll_of_ne _ hid, Dispatcher.mem_project] at hmem
      exact h.queue _ (hsub _ hmem)

/-- The tasks of an entry are dropped with it. -/
theorem eraseClient_owned {m : Manager} (h : m.Owned) (id : ℕ) : (m.eraseClient id).Owned := by
  refine ⟨fun j hj => ?_, fun task htask => ?_⟩
  · by_cases hji : j = id
    · subst hji
      simp [live_eraseClient] at hj
    · simp only [live_eraseClient, hji, ne_eq, not_false_eq_true, decide_true,
        Bool.true_and] at hj
      exact h.entries j hj
  · obtain ⟨hmem, hne⟩ := List.mem_filter.mp htask
    have hne' : task.1 ≠ id := by simpa using hne
    rw [live_eraseClient, h.queue task hmem, Bool.and_true, decide_eq_true_eq]
    exact hne'

/-- Tasks are queued by peers that are there. -/
theorem dispatch_owned {m n : Manager} {label : ManagerLabel} (howned : m.Owned)
    (h : m.dispatch label = some n) : n.Owned := by
  have hstep := step_of_dispatch h
  cases label with
  | run answers =>
    obtain ⟨id, task, queue, l, hq, hlive, -, rfl⟩ := run_cases howned hstep
    exact finish_owned howned hlive (fun t ht => hq ▸ List.mem_cons_of_mem _ ht) _
  | peer id label =>
    obtain ⟨l, r, hlive, -, -, rfl⟩ := react_cases hstep
    exact finish_owned howned hlive (fun t ht => ht) r
  | peerConnected id activated =>
    obtain rfl := Option.some.inj hstep
    exact asyncCheckStatusChanged_owned (createClient_owned howned id activated) id
  | peerClosed id =>
    obtain rfl := Option.some.inj hstep
    exact eraseClient_owned howned id

end Manager

/-! ## The clients of all peers -/

/-- The daemon and the clients of its peers. -/
structure World where
  /-- the daemon -/
  manager : Manager := {}
  /-- the client's side of each connection -/
  ends : ℕ → ClientEnd := fun _ => {}

/-- A step of the world. -/
inductive WorldLabel where
  /-- a client connects, as a peer with a new id -/
  | connect (id : ℕ) (activated : Bool)
  /-- a connection is closed -/
  | close (id : ℕ)
  /-- a program calls its client -/
  | call (id : ℕ) (request : ClientCall)
  /-- the dispatcher of a client runs a task -/
  | clientRun (id : ℕ)
  /-- a socket delivers a request -/
  | deliverRequest (id : ℕ)
  /-- a socket delivers a message -/
  | deliverMessage (id : ℕ)
  /-- the dispatcher of the daemon runs the first task of the queue -/
  | run (answers : Answers)
  /-- the surroundings of a peer act on it -/
  | peer (id : ℕ) (label : PeerLabel)

namespace World

/-- Store the client's side of a connection. -/
def setEnd (w : World) (id : ℕ) (c : ClientEnd) : World :=
  { w with ends := Function.update w.ends id c }

/-- One step. -/
def step (w : World) : WorldLabel → Option World
  | .connect id activated =>
    if (w.manager.entries id).isNone then
      (w.manager.dispatch (.peerConnected id activated)).map fun m =>
        setEnd { w with manager := m } id {}
    else none
  | .close id =>
    if w.manager.live id then (w.manager.dispatch (.peerClosed id)).map fun m =>
      setEnd { w with manager := m } id
        { w.ends id with clientQueue := (w.ends id).clientQueue ++ [.closed] }
    else none
  | .call id request =>
    if (w.manager.entries id).isSome then some (w.setEnd id ((w.ends id).call request)) else none
  | .clientRun id =>
    if (w.manager.entries id).isSome then (w.ends id).run.map (w.setEnd id) else none
  | .deliverRequest id => match (w.ends id).toDaemon with
    | [] => none
    | buffer :: rest => (w.manager.dispatch (.peer id (.request buffer))).map fun m =>
      setEnd { w with manager := m } id { w.ends id with toDaemon := rest }
  | .deliverMessage id => match w.manager.entries id with
    | none => none
    | some l => (l.sent[(w.ends id).received]?).map fun message => w.setEnd id
      { w.ends id with
        clientQueue := (w.ends id).clientQueue ++ [.message message.buffer]
        received := (w.ends id).received + 1 }
  | .run answers => (w.manager.dispatch (.run answers)).map fun m => { w with manager := m }
  | .peer id label => match label with
    | .request _ => none
    | label => (w.manager.dispatch (.peer id label)).map fun m => { w with manager := m }

/-- What a step of the world does. -/
inductive StepCase (w : World) : WorldLabel → World → Prop
  /-- a peer with a new id is connected -/
  | connect (id : ℕ) (activated : Bool) (hnew : w.manager.entries id = none) (m : Manager)
      (hm : w.manager.dispatch (.peerConnected id activated) = some m) :
      StepCase w (.connect id activated) (setEnd { w with manager := m } id {})
  /-- a peer is closed, and its client will hear of it -/
  | close (id : ℕ) (hlive : w.manager.live id = true) (m : Manager)
      (hm : w.manager.dispatch (.peerClosed id) = some m) :
      StepCase w (.close id) (setEnd { w with manager := m } id
        { w.ends id with clientQueue := (w.ends id).clientQueue ++ [.closed] })
  /-- a program calls its client -/
  | call (id : ℕ) (request : ClientCall) (hsome : (w.manager.entries id).isSome) :
      StepCase w (.call id request) (w.setEnd id ((w.ends id).call request))
  /-- a client runs a task -/
  | clientRun (id : ℕ) (hsome : (w.manager.entries id).isSome) (c : ClientEnd)
      (hc : (w.ends id).run = some c) : StepCase w (.clientRun id) (w.setEnd id c)
  /-- a request arrives in the daemon -/
  | deliverRequest (id : ℕ) (buffer : Bytes) (rest : List Bytes)
      (hd : (w.ends id).toDaemon = buffer :: rest) (m : Manager)
      (hm : w.manager.dispatch (.peer id (.request buffer)) = some m) :
      StepCase w (.deliverRequest id)
        (setEnd { w with manager := m } id { w.ends id with toDaemon := rest })
  /-- a message arrives in the client -/
  | deliverMessage (id : ℕ) (l : Local) (hl : w.manager.entries id = some l) (message : Message)
      (hmessage : l.sent[(w.ends id).received]? = some message) :
      StepCase w (.deliverMessage id) (w.setEnd id
        { w.ends id with
          clientQueue := (w.ends id).clientQueue ++ [.message message.buffer]
          received := (w.ends id).received + 1 })
  /-- the daemon runs a task -/
  | run (answers : Answers) (m : Manager) (hm : w.manager.dispatch (.run answers) = some m) :
      StepCase w (.run answers) { w with manager := m }
  /-- something happens to a peer in the daemon -/
  | peer (id : ℕ) (label : PeerLabel) (hlabel : ∀ buffer, label ≠ .request buffer) (m : Manager)
      (hm : w.manager.dispatch (.peer id label) = some m) :
      StepCase w (.peer id label) { w with manager := m }

/-- Inversion for a step. -/
theorem step_cases {w w' : World} {label : WorldLabel} (h : w.step label = some w') :
    StepCase w label w' := by
  cases label with
  | connect id activated =>
    rw [step] at h
    split at h
    next hnew =>
      obtain ⟨m, hm, rfl⟩ := Option.map_eq_some_iff.mp h
      exact .connect id activated (Option.isNone_iff_eq_none.mp hnew) m hm
    next => cases h
  | close id =>
    rw [step] at h
    split at h
    next hlive =>
      obtain ⟨m, hm, rfl⟩ := Option.map_eq_some_iff.mp h
      exact .close id hlive m hm
    next => cases h
  | call id request =>
    rw [step] at h
    split at h
    next hsome =>
      obtain rfl := Option.some.inj h
      exact .call id request hsome
    next => cases h
  | clientRun id =>
    rw [step] at h
    split at h
    next hsome =>
      obtain ⟨c, hc, rfl⟩ := Option.map_eq_some_iff.mp h
      exact .clientRun id hsome c hc
    next => cases h
  | deliverRequest id =>
    rw [step] at h
    split at h
    next => cases h
    next buffer rest hd =>
      obtain ⟨m, hm, rfl⟩ := Option.map_eq_some_iff.mp h
      exact .deliverRequest id buffer rest hd m hm
  | deliverMessage id =>
    rw [step] at h
    split at h
    next => cases h
    next l hl =>
      obtain ⟨message, hmessage, rfl⟩ := Option.map_eq_some_iff.mp h
      exact .deliverMessage id l hl message hmessage
  | run answers =>
    obtain ⟨m, hm, rfl⟩ := Option.map_eq_some_iff.mp h
    exact .run answers m hm
  | peer id label =>
    cases label with
    | request buffer => cases h
    | _ =>
      obtain ⟨m, hm, rfl⟩ := Option.map_eq_some_iff.mp h
      exact .peer id _ (fun _ heq => by cases heq) m hm

/-- One client with its peer. -/
def session (w : World) (id : ℕ) : Option Session :=
  (w.manager.peer id).map fun p => { w.ends id with peer := p, up := w.manager.live id }

/-- What a step of the world is for one client and its peer. -/
inductive SessionCase (w w' : World) (id : ℕ) : Prop
  /-- nothing -/
  | other (h : w'.session id = w.session id)
  /-- a step of their own -/
  | step (label : SessionLabel) (s t : Session) (hs : w.session id = some s)
      (ht : w'.session id = some t) (hstep : s.step label = some t)
  /-- a new connection -/
  | connected (activated : Bool) (hs : w.session id = none)
      (ht : w'.session id = some (Session.init activated))

theorem session_setEnd_of_ne {w : World} {id j : ℕ} (h : j ≠ id) (c : ClientEnd) :
    (w.setEnd id c).session j = w.session j := by
  simp [session, setEnd, h]

theorem session_setEnd_self {w : World} {id : ℕ} {s : Session} (h : w.session id = some s)
    (c : ClientEnd) : (w.setEnd id c).session id = some { s with toClientEnd := c } := by
  obtain ⟨p, hp, rfl⟩ := Option.map_eq_some_iff.mp h
  simp [session, setEnd, hp]

/-- A known peer has a session. -/
theorem session_of_entries {w : World} {id : ℕ} (h : (w.manager.entries id).isSome) :
    ∃ s, w.session id = some s ∧ s.toClientEnd = w.ends id ∧ s.up = w.manager.live id ∧
      w.manager.peer id = some s.peer := by
  obtain ⟨l, hl⟩ := Option.isSome_iff_exists.mp h
  exact ⟨_, by simp [session, Manager.peer, hl]; rfl, rfl, rfl, by simp [Manager.peer, hl]⟩

/-- A step of another peer and its client. -/
theorem SessionCase.of_other {w : World} {n : Manager} {id i : ℕ} (hne : id ≠ i)
    (hpeer : n.peer id = w.manager.peer id) (hlive : n.live id = w.manager.live id)
    (c : ClientEnd) : SessionCase w (setEnd { w with manager := n } i c) id := by
  refine .other ?_
  rw [session_setEnd_of_ne hne]
  simp [session, hpeer, hlive]

/-- A step of the daemon that is about no peer of its own, seen from one session. -/
theorem session_of_dispatch {w : World} {n : Manager} {label : ManagerLabel}
    (howned : w.manager.Owned) (h : w.manager.dispatch label = some n)
    (hlabel : (∃ answers, label = .run answers) ∨
      ∃ id l, label = .peer id l ∧ ∀ buffer, l ≠ .request buffer) (id : ℕ) :
    SessionCase w { w with manager := n } id := by
  have daemonStep : ∀ (p q : Peer) (l : PeerLabel), (∀ buffer, l ≠ .request buffer) →
      w.manager.peer id = some p → n.peer id = some q → w.manager.live id = true →
      n.live id = true → p.dispatch l = some q → SessionCase w { w with manager := n } id := by
    intro p q l hl hp hq hm hn hstep
    refine .step (.daemon l) { w.ends id with peer := p, up := true }
      { w.ends id with peer := q, up := true } ?_ ?_ ?_
    · simp [session, hp, hm]
    · simp [session, hq, hn]
    · cases l with
      | request buffer => exact absurd rfl (hl buffer)
      | _ => simp [Session.step, hstep]
  cases Manager.dispatch_peer howned h id with
  | other _ hl hpeer hlive => exact .other (by simp [session, hpeer, hlive])
  | run answers p q hp hq hm hn hstep =>
    exact daemonStep p q (.run answers) (fun _ heq => by cases heq) hp hq hm hn hstep
  | react l p q hp hq hm hn hstep =>
    refine daemonStep p q l ?_ hp hq hm hn hstep
    rcases hlabel with ⟨answers, heq⟩ | ⟨id', l', heq, hl'⟩
    · cases heq
    · obtain ⟨-, rfl⟩ := ManagerLabel.peer.inj heq
      exact hl'
  -- peers come and go in other steps only
  | connected activated hm hn hq => rcases hlabel with ⟨_, heq⟩ | ⟨_, _, heq, -⟩ <;> cases heq
  | found activated p hp hm hn hq => rcases hlabel with ⟨_, heq⟩ | ⟨_, _, heq, -⟩ <;> cases heq
  | closed hn hq => rcases hlabel with ⟨_, heq⟩ | ⟨_, _, heq, -⟩ <;> cases heq

/-- A step of the world is, for each client and its peer, a step of theirs or nothing. -/
theorem step_session {w w' : World} {label : WorldLabel} (howned : w.manager.Owned)
    (h : w.step label = some w') (id : ℕ) : SessionCase w w' id := by
  cases step_cases h with
  | connect i activated hnew n hn =>
    cases Manager.dispatch_peer howned hn id with
    | other _ hl hpeer hlive =>
      exact .of_other (fun heq => hl (by rw [heq]; rfl)) hpeer hlive _
    | connected a hm hlive hq =>
      refine .connected activated ?_ ?_
      · simp [session, Manager.peer, hnew]
      · simp [session, setEnd, hq, hlive, Session.init]
    -- ids of peers are not used again
    | found a p hp hm hlive hq => simp [Manager.peer, hnew] at hp
  | close i hlive n hn =>
    cases Manager.dispatch_peer howned hn id with
    | other _ hl hpeer hlive' =>
      exact .of_other (fun heq => hl (by rw [heq]; rfl)) hpeer hlive' _
    | closed hn' hq =>
      obtain ⟨s, hs, hend, hup, hpeer⟩ := session_of_entries (howned.entries _ hlive)
      refine .step .close s _ hs ?_ (by rw [Session.step, if_pos (hup.trans hlive)])
      rw [hpeer] at hq
      simp [session, setEnd, hq, hn', ← hend]
  | call i request hsome =>
    by_cases hne : id = i
    · subst hne
      obtain ⟨s, hs, hend, -, -⟩ := session_of_entries hsome
      exact .step (.call request) s _ hs (session_setEnd_self hs _) (by rw [← hend]; rfl)
    · exact .other (session_setEnd_of_ne hne _)
  | clientRun i hsome c hc =>
    by_cases hne : id = i
    · subst hne
      obtain ⟨s, hs, hend, -, -⟩ := session_of_entries hsome
      refine .step .clientRun s _ hs (session_setEnd_self hs _) ?_
      rw [Session.step, hend, hc]
      rfl
    · exact .other (session_setEnd_of_ne hne _)
  | deliverRequest i buffer rest hd n hn =>
    cases Manager.dispatch_peer howned hn id with
    | other _ hl hpeer hlive =>
      exact .of_other (fun heq => hl (by rw [heq]; rfl)) hpeer hlive _
    | react l p q hp hq hm hn' hstep =>
      refine .step .deliverRequest { w.ends id with peer := p, up := true } _ ?_
        (session_setEnd_self (s := { w.ends id with peer := q, up := true }) ?_ _) ?_
      · simp [session, hp, hm]
      · simp [session, hq, hn']
      · simp [Session.step, hd, hstep]
  | deliverMessage i l hl message hm =>
    by_cases hne : id = i
    · subst hne
      have hs : w.session id = some { w.ends id with
          peer := { l with queue := project id w.manager.queue }
          up := w.manager.live id } := by
        simp [session, Manager.peer, hl]
      exact .step .deliverMessage _ _ hs (session_setEnd_self hs _) (by simp [Session.step, hm])
    · exact .other (session_setEnd_of_ne hne _)
  | run answers n hn => exact session_of_dispatch howned hn (Or.inl ⟨answers, rfl⟩) id
  | peer i label hlabel n hn =>
    exact session_of_dispatch howned hn (Or.inr ⟨i, label, rfl, hlabel⟩) id

/-- Tasks are queued by peers that are there, along every run. -/
theorem step_owned {w w' : World} {label : WorldLabel} (howned : w.manager.Owned)
    (h : w.step label = some w') : w'.manager.Owned := by
  cases step_cases h with
  | call i request hsome => exact howned
  | clientRun i hsome c hc => exact howned
  | deliverMessage i l hl message hm => exact howned
  | connect i activated hnew n hn => exact Manager.dispatch_owned howned hn
  | close i hlive n hn => exact Manager.dispatch_owned howned hn
  | deliverRequest i buffer rest hd n hn => exact Manager.dispatch_owned howned hn
  | run answers n hn => exact Manager.dispatch_owned howned hn
  | peer i label hlabel n hn => exact Manager.dispatch_owned howned hn

/-- At the beginning there are no peers. -/
theorem init_owned : ({} : World).manager.Owned :=
  ⟨fun _ hlive => (by cases hlive), List.forall_mem_nil _⟩

theorem init_session (id : ℕ) : ({} : World).session id = none := rfl

/-- What holds for new sessions, and is kept by their steps, is kept by the steps of the
world for all clients and peers. -/
theorem step_sessions {I : Session → Prop} (init : ∀ activated, I (Session.init activated))
    (next : ∀ s label t, I s → s.step label = some t → I t) {w w' : World} {label : WorldLabel}
    (howned : w.manager.Owned) (hI : ∀ id s, w.session id = some s → I s)
    (h : w.step label = some w') : ∀ id t, w'.session id = some t → I t := by
  intro id t ht
  cases step_session howned h id with
  | other heq => exact hI id t (heq ▸ ht)
  | step l s t' hs ht' hl =>
    obtain rfl := Option.some.inj (ht'.symm.trans ht)
    exact next s l t' (hI id s hs) hl
  | connected activated hs ht' =>
    obtain rfl := Option.some.inj (ht'.symm.trans ht)
    exact init activated

/-- And so it holds along every run of the world. -/
theorem run_sessions {I : Session → Prop} (init : ∀ activated, I (Session.init activated))
    (next : ∀ s label t, I s → s.step label = some t → I t) {labels : List WorldLabel} {w : World}
    (h : Transition.run World.step {} labels = some w) :
    w.manager.Owned ∧ ∀ id s, w.session id = some s → I s := by
  refine Transition.run_invariant (I := fun w : World => w.manager.Owned ∧
    ∀ id s, w.session id = some s → I s) ⟨init_owned, fun id s hs => ?_⟩ ?_ h
  · rw [init_session] at hs
    cases hs
  · rintro w label w' ⟨howned, hI⟩ hstep
    exact ⟨step_owned howned hstep, step_sessions init next howned hI hstep⟩

end World

end VirtualHidDevice
