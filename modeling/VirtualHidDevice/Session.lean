import VirtualHidDevice.Status
import VirtualHidDevice.ServiceClient

/-!
# A client and its peer in the daemon

The client's dispatcher, the two directions of the socket and the peer's part of
the daemon as one transition system, from the moment the connection is up.

* `Session.step` — the program calls the client, the client's dispatcher runs a
  task, the socket delivers a frame (in order, once, in each direction), the
  daemon makes a step in dispatcher order, the connection is closed.
* `Session.StepCase`, `Session.step_cases` — what a step can do.
* `Peer.requests`, `ClientEnd.requests` — the requests that are on their way, in
  the order in which they will be handled.
* `Run.requestCalls` — what handling a request asks of the entry.
* `Peer.step_sent` — what a step of the daemon sends to the client.
-/

namespace VirtualHidDevice

/-! ## The state -/

/-- A closure in the queue of the client. -/
inductive ClientTask where
  /-- the closure of `async_request` -/
  | request (buffer : Bytes)
  /-- the closure that calls `handle_message` -/
  | message (buffer : Bytes)
  /-- the closure of `closed` -/
  | closed
deriving DecidableEq, Repr

/-- The client's side of a connection. -/
structure ClientEnd where
  /-- the cache -/
  client : ServiceClient := {}
  /-- the queue of the client's dispatcher -/
  clientQueue : List ClientTask := []
  /-- requests in the socket -/
  toDaemon : List Bytes := []
  /-- how many of the messages that the daemon sent have been delivered -/
  received : ℕ := 0
  /-- all calls that were made, in order -/
  calls : List ClientCall := []

namespace ClientEnd

/-- A public method is called. -/
def call (c : ClientEnd) (request : ClientCall) : ClientEnd :=
  { c with
    client := (c.client.call request).1
    clientQueue := c.clientQueue ++ ((c.client.call request).2.map .request).toList
    calls := c.calls ++ [request] }

/-- `clear_state()`. -/
def clearState (c : ClientEnd) : ClientEnd := { c with client := {} }

/-- The body of a closure. -/
def task (c : ClientEnd) : ClientTask → ClientEnd
  | .request buffer => { c with toDaemon := c.toDaemon ++ [buffer] }
  | .message buffer => { c with client := c.client.handle buffer }
  | .closed => c.clearState

/-- The dispatcher of the client runs the first task. -/
def run (c : ClientEnd) : Option ClientEnd :=
  match c.clientQueue with
  | [] => none
  | t :: queue => some (task { c with clientQueue := queue } t)

end ClientEnd

/-- The buffer that a message carries. -/
def Message.buffer : Message → Bytes
  | status buffer => buffer
  | response buffer => buffer

/-- A client and its peer. -/
structure Session extends ClientEnd where
  /-- the peer's part of the daemon; what it has done, once the connection is closed -/
  peer : Peer
  /-- the connection is up -/
  up : Bool := true

/-- A step of a session. -/
inductive SessionLabel where
  /-- a call of the program -/
  | call (request : ClientCall)
  /-- the dispatcher of the client runs a task -/
  | clientRun
  /-- the socket delivers a request -/
  | deliverRequest
  /-- the socket delivers a message -/
  | deliverMessage
  /-- a step of the daemon -/
  | daemon (label : PeerLabel)
  /-- the connection is closed: the peer's entry is erased and its tasks are dropped -/
  | close

namespace Session

/-- A new connection. -/
def init (activated : Bool) : Session := { peer := Peer.init activated }

/-- One step. -/
def step (s : Session) : SessionLabel → Option Session
  | .call request => some { s with toClientEnd := s.toClientEnd.call request }
  | .clientRun => s.toClientEnd.run.map fun c => { s with toClientEnd := c }
  | .deliverRequest =>
    if s.up then match s.toDaemon with
      | [] => none
      | buffer :: rest => (s.peer.dispatch (.request buffer)).map fun p =>
        { s with toDaemon := rest, peer := p }
    else none
  | .deliverMessage => (s.peer.sent[s.received]?).map fun message =>
    { s with
      clientQueue := s.clientQueue ++ [.message message.buffer]
      received := s.received + 1 }
  | .daemon label => match label with
    | .request _ => none
    | label => if s.up then (s.peer.dispatch label).map fun p => { s with peer := p } else none
  | .close =>
    if s.up then
      some { s with
        clientQueue := s.clientQueue ++ [.closed]
        peer := { s.peer with queue := [] }
        up := false }
    else none

end Session

/-! ## What is on its way -/

/-- The request that a task of the daemon handles. -/
def Task.asRequest : Task → Option Bytes
  | request buffer => some buffer
  | _ => none

/-- The entry's own closure. -/
def Task.asEntry : Task → Option EntryTask
  | entry task => some task
  | _ => none

/-- The request that a task of the client sends. -/
def ClientTask.asRequest : ClientTask → Option Bytes
  | request buffer => some buffer
  | _ => none

/-- The message that a task of the client handles. -/
def ClientTask.asMessage : ClientTask → Option Bytes
  | message buffer => some buffer
  | _ => none

/-- The requests that have arrived and are not handled yet. -/
def Peer.requests (p : Peer) : List Bytes := p.queue.filterMap Task.asRequest

/-- The closures of the entry that are queued. -/
def Peer.entryTasks (p : Peer) : List EntryTask := p.queue.filterMap Task.asEntry

/-- Starting and destroying clients leaves the requests and the entry's closures alone. -/
theorem Peer.Replaces.finish_requests {p : Peer} {kind : DeviceKind}
    {client : Option IoServiceClient} {r : Run} (hr : p.Replaces kind client r)
    (queue : List Task) :
    (finish queue r).requests = queue.filterMap Task.asRequest ∧
      (finish queue r).entryTasks = queue.filterMap Task.asEntry := by
  refine ⟨Dispatcher.filterMap_applyAll Task.owner (fun t ht => ?_) (fun o ho t hto => ?_),
    Dispatcher.filterMap_applyAll Task.owner (fun t ht => ?_) (fun o ho t hto => ?_)⟩
  · rw [hr.started t ht]
    rfl
  · obtain ⟨c, -, rfl⟩ := (hr.detached o).mp ho
    cases t with
    | request buffer => cases hto
    | _ => rfl
  · rw [hr.started t ht]
    rfl
  · obtain ⟨c, -, rfl⟩ := (hr.detached o).mp ho
    cases t with
    | entry task => cases hto
    | _ => rfl

/-- The requests that have not arrived. -/
def ClientEnd.requests (c : ClientEnd) : List Bytes :=
  c.toDaemon ++ c.clientQueue.filterMap ClientTask.asRequest

/-- Nothing is queued for immediate execution, and nothing is in flight. -/
structure Session.Quiescent (s : Session) : Prop where
  /-- the dispatcher of the client -/
  clientQueue : s.clientQueue = []
  /-- requests in the socket -/
  toDaemon : s.toDaemon = []
  /-- messages in the socket -/
  received : s.peer.sent.length ≤ s.received
  /-- the daemon's dispatcher -/
  queue : s.peer.queue = []

instance (s : Session) : Decidable s.Quiescent :=
  decidable_of_iff (s.clientQueue = [] ∧ s.toDaemon = [] ∧ s.peer.sent.length ≤ s.received ∧
      s.peer.queue = [])
    ⟨fun ⟨h₁, h₂, h₃, h₄⟩ => ⟨h₁, h₂, h₃, h₄⟩, fun ⟨h₁, h₂, h₃, h₄⟩ => ⟨h₁, h₂, h₃, h₄⟩⟩

/-! ## What a step can do -/

namespace Session

/-- What a step can do. -/
inductive StepCase (s : Session) : SessionLabel → Session → Prop
  /-- a call is left out -/
  | suppressed (request : ClientCall) (h : s.client.suppresses request = true) :
      StepCase s (.call request) { s with calls := s.calls ++ [request] }
  /-- a call queues its request -/
  | call (request : ClientCall) (h : s.client.suppresses request = false) :
      StepCase s (.call request) { s with
        client := s.client.remember request
        clientQueue := s.clientQueue ++ [.request request.operation.requestBuffer]
        calls := s.calls ++ [request] }
  /-- a request is sent -/
  | send (buffer : Bytes) (queue : List ClientTask) (h : s.clientQueue = .request buffer :: queue) :
      StepCase s .clientRun { s with
        clientQueue := queue
        toDaemon := s.toDaemon ++ [buffer] }
  /-- a message is handled -/
  | handle (buffer : Bytes) (queue : List ClientTask)
      (h : s.clientQueue = .message buffer :: queue) :
      StepCase s .clientRun { s with clientQueue := queue, client := s.client.handle buffer }
  /-- the client learns that the connection is closed -/
  | closed (queue : List ClientTask) (h : s.clientQueue = .closed :: queue) :
      StepCase s .clientRun { s with clientQueue := queue, client := {} }
  /-- a request arrives -/
  | deliverRequest (buffer : Bytes) (rest : List Bytes) (hup : s.up = true)
      (h : s.toDaemon = buffer :: rest) :
      StepCase s .deliverRequest { s with
        toDaemon := rest
        peer := { s.peer with queue := s.peer.queue ++ [.request buffer] } }
  /-- a message arrives -/
  | deliverMessage (message : Message) (h : s.peer.sent[s.received]? = some message) :
      StepCase s .deliverMessage { s with
        clientQueue := s.clientQueue ++ [.message message.buffer]
        received := s.received + 1 }
  /-- the daemon makes a step -/
  | daemon (label : PeerLabel) (p : Peer) (hup : s.up = true)
      (hlabel : ∀ buffer, label ≠ .request buffer) (h : s.peer.dispatch label = some p) :
      StepCase s (.daemon label) { s with peer := p }
  /-- the connection is closed -/
  | close (hup : s.up = true) :
      StepCase s .close { s with
        clientQueue := s.clientQueue ++ [.closed]
        peer := { s.peer with queue := [] }
        up := false }

/-- The list of cases is complete. -/
theorem step_cases {s t : Session} {label : SessionLabel} (h : s.step label = some t) :
    StepCase s label t := by
  cases label with
  | call request =>
    obtain rfl := Option.some.inj h
    by_cases hs : s.client.suppresses request = true
    · have hcase := StepCase.suppressed request hs
      simpa [ClientEnd.call, ServiceClient.call, hs] using hcase
    · rw [Bool.not_eq_true] at hs
      have hcase := StepCase.call request hs
      simpa [ClientEnd.call, ServiceClient.call, hs] using hcase
  | clientRun =>
    rcases hq : s.clientQueue with _ | ⟨t, queue⟩
    · simp [step, ClientEnd.run, hq] at h
    · simp only [step, ClientEnd.run, hq, Option.map_some, Option.some.injEq] at h
      obtain rfl := h
      cases t with
      | request buffer => exact .send buffer queue hq
      | message buffer => exact .handle buffer queue hq
      | closed => exact .closed queue hq
  | deliverRequest =>
    rw [step] at h
    split at h
    next hup =>
      rcases hd : s.toDaemon with _ | ⟨buffer, rest⟩
      · simp [hd] at h
      · simp only [hd, Peer.dispatch, Peer.step, Option.map_some, Option.some.injEq] at h
        obtain rfl := h
        exact .deliverRequest buffer rest hup hd
    next => cases h
  | deliverMessage =>
    obtain ⟨message, hm, rfl⟩ := Option.map_eq_some_iff.mp h
    exact .deliverMessage message hm
  | daemon label =>
    have daemonStep : (∀ buffer, label ≠ .request buffer) →
        (if s.up then (s.peer.dispatch label).map fun p => { s with peer := p } else none) =
          some t → StepCase s (.daemon label) t := by
      intro hlabel h
      split at h
      next hup =>
        obtain ⟨p, hp, rfl⟩ := Option.map_eq_some_iff.mp h
        exact .daemon label p hup hlabel hp
      next => cases h
    cases label with
    | request buffer => cases h
    | _ => exact daemonStep (fun _ heq => by cases heq) h
  | close =>
    rw [step] at h
    split at h
    next hup =>
      obtain rfl := Option.some.inj h
      exact .close hup
    next => cases h

/-- The daemon's part of a session makes a step of its own, or loses its queue. -/
theorem step_peer {s t : Session} {label : SessionLabel} (hcase : StepCase s label t) :
    t.peer = s.peer ∨ (∃ l, s.peer.step l = some t.peer) ∨
      t.peer = { s.peer with queue := [] } := by
  cases hcase with
  | deliverRequest buffer rest hup hd => exact Or.inr (Or.inl ⟨.request buffer, rfl⟩)
  | daemon label p hup hreq hstep => exact Or.inr (Or.inl ⟨label, Peer.step_of_dispatch hstep⟩)
  | close hup => exact Or.inr (Or.inr rfl)
  | _ => exact Or.inl rfl

/-- The lifecycle of the devices goes on, whatever happens to the session. -/
theorem step_lifecycle {s t : Session} {label : SessionLabel} (hcase : StepCase s label t)
    (h : Lifecycle s.peer.entry s.peer.recreates) : Lifecycle t.peer.entry t.peer.recreates := by
  rcases step_peer hcase with heq | ⟨l, hl⟩ | heq
  · rw [heq]
    exact h
  · exact (Peer.step_lifecycle h hl).1
  · rw [heq]
    exact h

/-- A closed connection stays closed. -/
theorem up_of_step {s t : Session} {label : SessionLabel} (h : s.step label = some t)
    (hup : t.up = true) : s.up = true := by
  cases step_cases h with
  | close _ => cases hup
  | _ => exact hup

end Session

/-! ## What a request asks of the entry -/

namespace Run

/-- The calls on the entry that handling a request makes. -/
def requestCalls (buffer : Bytes) : List EntryCall :=
  match requestReceived true buffer with
  | .ok calls => calls.flatMap fun
    | .manager call => match call.onEntry with
      | .ok (some entryCall) => [entryCall]
      | _ => []
    | .respond _ => []
  | .error _ => []

/-- The tasks of a request are the tasks of its calls. -/
theorem requestTasks_eq (e : ClientEntry) (buffer : Bytes) :
    requestTasks e buffer = (requestCalls buffer).flatMap (entryCallTasks e) := by
  rw [requestTasks, requestCalls]
  rcases requestReceived true buffer with fault | calls
  · rfl
  · simp only [List.flatMap_assoc]
    congr 1
    funext call
    cases call with
    | manager call =>
      rcases hon : call.onEntry with fault | e
      · simp [hon]
      · rcases e with _ | e
        · simp [hon]
        · simp [hon]
    | respond reply => rfl

/-- A request does not queue requests. -/
theorem requestTasks_asRequest (e : ClientEntry) (buffer : Bytes) :
    (requestTasks e buffer).filterMap Task.asRequest = [] := by
  refine List.filterMap_eq_nil_iff.mpr fun t ht => ?_
  rw [requestTasks_eq] at ht
  obtain ⟨call, -, hmem⟩ := List.mem_flatMap.mp ht
  cases call with
  | reset kind =>
    obtain ⟨c, -, rfl⟩ := Option.map_eq_some_iff.mp (Option.mem_toList.mp hmem)
    rfl
  | postReport kind method data offset =>
    obtain ⟨c, -, rfl⟩ := Option.map_eq_some_iff.mp (Option.mem_toList.mp hmem)
    rfl
  | _ =>
    obtain rfl := List.mem_singleton.mp hmem
    rfl

/-- An operation asks for its own call, once. -/
theorem requestCalls_requestBuffer (op : ClientOperation) :
    requestCalls op.requestBuffer = [op.entryCall] := by
  rw [requestCalls, requestReceived_requestBuffer]
  simp [managerCall_onEntry, respondIf]

end Run

/-! ## What the daemon sends -/

/-- A check publishes the status or sends nothing. -/
theorem Run.checkStatusChanged_sent (r : Run) : r.checkStatusChanged.sent = r.sent ∨
    r.checkStatusChanged.sent = r.sent ++ [.status r.checkStatusChanged.makeResponse] := by
  rw [checkStatusChanged]
  split
  · exact Or.inl rfl
  · exact Or.inr rfl

/-- A step of the daemon sends at most one message: an answer, with the status
before the step if it has a status at all, or the status after it. -/
theorem Peer.step_sent {p q : Peer} {label : PeerLabel} (hlife : Lifecycle p.entry p.recreates)
    (hstep : p.step label = some q) : q.sent = p.sent ∨
      (∃ buffer, (buffer = [] ∨ buffer = p.makeResponse) ∧
        q.sent = p.sent ++ [.response buffer]) ∨
      q.sent = p.sent ++ [.status q.makeResponse] := by
  have checked : ∀ (queue : List Task) (r : Run), r.sent = p.sent →
      (finish queue r.checkStatusChanged).sent = p.sent ∨
      (∃ buffer, (buffer = [] ∨ buffer = p.makeResponse) ∧
        (finish queue r.checkStatusChanged).sent = p.sent ++ [.response buffer]) ∨
      (finish queue r.checkStatusChanged).sent =
        p.sent ++ [.status (finish queue r.checkStatusChanged).makeResponse] := by
    intro queue r hsent
    rcases r.checkStatusChanged_sent with h | h
    · exact Or.inl (h.trans hsent)
    · exact Or.inr (Or.inr (by rw [hsent] at h; exact h))
  cases step_cases hlife hstep with
  | request answers buffer queue hq =>
    exact Or.inr (Or.inl ⟨_, Run.requestReply_cases p.toLocal buffer, rfl⟩)
  | keep answers task queue hq htask => exact checked queue _ rfl
  | newKeyboard answers parameters queue hq hnew =>
    exact checked queue _ (by simp [newKeyboard, Run.setParameters, Run.setEnabled, fresh])
  | newPointing answers queue hq hnone => exact checked queue _ rfl
  | terminate answers kind task queue hq htask =>
    exact checked queue _ (by simp [switchedOff, Run.setEnabled, fresh])
  | stateChanged answers objectId role queue hq hrole => exact checked queue _ rfl
  | recreate index t ht hgen hen hready => exact Or.inl (by simp [finish, recreated])
  | _ => exact Or.inl rfl

/-! ## Two runs -/

/-- The client asks for a keyboard, and the driver provides one. -/
def keyboardSession : List SessionLabel :=
  [.call (.keyboardInitialize .init false), .clientRun,
   .daemon (.run {}), .daemon (.run {}), .daemon (.event .noVirtualDevices (.matched 1)),
   .daemon (.run { serviceOpen := fun _ => .opened (some 10800) }), .deliverRequest] ++
  List.replicate 6 (.daemon (.run {})) ++
  [.daemon (.event (.device .keyboard) (.matched 1)),
   .daemon (.run { serviceOpen := fun _ => .opened (some 10800) }),
   .daemon (.run {}), .daemon (.run {}), .daemon (.run {}),
   .daemon (.run { create := .created })]

/-- It becomes ready, and the client is told. -/
def readySession : List SessionLabel :=
  keyboardSession ++
  [.daemon .readyTimer, .daemon (.run { ready := some true }), .daemon (.run {}),
   .daemon (.run {})] ++
  List.replicate 4 .deliverMessage ++ List.replicate 4 .clientRun

end VirtualHidDevice
