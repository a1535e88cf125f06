import VirtualHidDevice.ServiceClient
import VirtualHidDevice.Transition

/-!
# Stopping and restarting the client

`virtual_hid_device_service::client` with its `client_`, a `unix_domain_stream::client` that
`async_start` creates and `async_stop` destroys. Whatever the stream client reports is queued
once more on the dispatcher before it is handled, so it can be handled after `client_` is gone.

* `ClientDispatcher` — the client with the dispatcher's queue. The stream clients are numbered.
* `ClientDispatcher.Cleared` — while `client_` is null nothing is remembered of a device, and
  after `async_stop` no device is reported ready before a new connection says so.
* `ClientDispatcher.Current` — the step handles no ready value of a connection that is gone.
* `stopped_client_cleared` — a client stays cleared along exactly the runs whose steps all
  do that.
-/

namespace VirtualHidDevice

/-! ## The stream client -/

/-- What `unix_domain_stream::client` reports: its signals, and the callback of a request. -/
inductive StreamEvent where
  /-- `connected` -/
  | connected
  /-- `connect_failed` -/
  | connectFailed (errorCode : ℕ)
  /-- `closed` -/
  | closed
  /-- `error_occurred` -/
  | errorOccurred (errorCode : ℕ)
  /-- `peer_verification_failed` -/
  | peerVerificationFailed
  /-- `request_received` -/
  | requestReceived (requestId : ℕ) (buffer : Bytes)
  /-- the callback of `async_request`, without an error -/
  | response (buffer : Bytes)
  /-- the callback of `async_request`, with an error -/
  | requestFailed (errorCode : ℕ)
deriving DecidableEq, Repr

namespace StreamEvent

/-- The message that `handle_message` gets. -/
def message : StreamEvent → Option Bytes
  | requestReceived _ buffer => some buffer
  | response buffer => some buffer
  | _ => none

/-- The event ends a request. -/
def endsRequest : StreamEvent → Bool
  | response _ => true
  | requestFailed _ => true
  | _ => false

end StreamEvent

/-- A signal of the client. -/
inductive ServiceSignal where
  /-- `connected` -/
  | connected
  /-- `connect_failed` -/
  | connectFailed (errorCode : ℕ)
  /-- `closed` -/
  | closed
  /-- `error_occurred` -/
  | errorOccurred (errorCode : ℕ)
  /-- `warning_reported("peer_verification_failed")` -/
  | peerVerificationFailed
  /-- a signal that is about a message or a device -/
  | status (signal : ClientSignal)
deriving DecidableEq, Repr

/-- A closure in the queue. -/
inductive ServiceTask where
  /-- `async_start` -/
  | start
  /-- `async_stop` -/
  | stop
  /-- `async_request` -/
  | request (buffer : Bytes)
  /-- a closure of a stream client, which reports an event -/
  | stream (client : ℕ) (event : StreamEvent)
  /-- the closure that the client queues when a stream client reports an event -/
  | handle (client : ℕ) (event : StreamEvent)
deriving DecidableEq, Repr

/-! ## The client -/

/-- The client and the dispatcher. -/
structure ClientDispatcher where
  /-- the members that calls and messages change -/
  cache : ServiceClient := {}
  /-- `client_` -/
  client : Option ℕ := none
  /-- how many stream clients were created -/
  nextClient : ℕ := 0
  /-- the requests of `client_` that have not ended -/
  requests : ℕ := 0
  /-- the queue -/
  queue : List ServiceTask := []
  /-- all requests, with the stream client they went to -/
  requested : List (ℕ × Bytes) := []
  /-- all answers to requests of the daemon, with the stream client they went to -/
  responded : List (ℕ × ℕ) := []
  /-- the first stream client after the last `async_stop`, until it says something -/
  newFrom : Option ℕ := none
  /-- the signals since the last `async_stop` -/
  signals : List ServiceSignal := []

/-- A step of the system. -/
inductive ClientLabel where
  /-- `async_start()` -/
  | start
  /-- `async_stop()` -/
  | stop
  /-- another public method -/
  | call (request : ClientCall)
  /-- `client_` queues a closure that reports an event -/
  | report (event : StreamEvent)
  /-- the dispatcher runs the first closure -/
  | run

namespace ClientDispatcher

/-- Invoke signals. -/
def emit (signals : List ServiceSignal) (s : ClientDispatcher) : ClientDispatcher :=
  { s with signals := s.signals ++ signals }

/-- `enqueue_to_dispatcher`. -/
def enqueue (task : ServiceTask) (s : ClientDispatcher) : ClientDispatcher :=
  { s with queue := s.queue ++ [task] }

/-- `clear_state()`. -/
def clearState (s : ClientDispatcher) : ClientDispatcher :=
  emit [.status (.ready .keyboard false), .status (.ready .pointing false)] { s with cache := {} }

/-- `create_client()`. -/
def createClient (s : ClientDispatcher) : ClientDispatcher :=
  { s with client := some s.nextClient, nextClient := s.nextClient + 1, requests := 0 }

/-- `client_ = nullptr`: the queue forgets the closures of the stream client, but not those
that were queued for it. -/
def resetClient (s : ClientDispatcher) : ClientDispatcher :=
  { s with
    client := none
    requests := 0
    queue := s.queue.filter fun
      | .stream client _ => s.client ≠ some client
      | _ => true }

/-- `handle_message`, which never faults (`handleMessage_spec`). -/
def handleMessage (buffer : Bytes) (s : ClientDispatcher) : ClientDispatcher :=
  match s.cache.handleMessage buffer with
  | .ok (cache, signals) => emit (signals.map .status) { s with cache }
  | .error _ => s

/-- A stream client has said something. -/
def heard (client : ℕ) (buffer : Bytes) (s : ClientDispatcher) : ClientDispatcher :=
  if buffer.isEmpty then s else { s with newFrom := s.newFrom.filter fun n => client < n }

/-- The closures that `create_client()` and `async_request` queue for the events. -/
def handleEvent (client : ℕ) (s : ClientDispatcher) : StreamEvent → ClientDispatcher
  | .connected => s.emit [.connected]
  | .connectFailed errorCode => s.emit [.connectFailed errorCode]
  | .closed => clearState (s.emit [.closed])
  | .errorOccurred errorCode => s.emit [.errorOccurred errorCode]
  | .peerVerificationFailed => s.emit [.peerVerificationFailed]
  | .requestReceived requestId buffer =>
    let s := heard client buffer (s.handleMessage buffer)
    -- the stream client that is there now is not always the one that got the request
    match s.client with
    | none => s
    | some current => { s with responded := s.responded ++ [(current, requestId)] }
  | .response buffer => heard client buffer (s.handleMessage buffer)
  | .requestFailed errorCode => s.emit [.errorOccurred errorCode]

/-- The body of a closure. -/
def runTask (s : ClientDispatcher) : ServiceTask → ClientDispatcher
  | .start => match s.client with
    | some _ => s
    | none => s.createClient
  | .stop => clearState { s.resetClient with newFrom := some s.nextClient, signals := [] }
  | .request buffer => match s.client with
    | none => s
    | some client => { s with
        requests := s.requests + 1
        requested := s.requested ++ [(client, buffer)] }
  | .stream client event => s.enqueue (.handle client event)
  | .handle client event => s.handleEvent client event

/-- One step. -/
def step (s : ClientDispatcher) : ClientLabel → Option ClientDispatcher
  | .start => some (s.enqueue .start)
  | .stop => some (s.enqueue .stop)
  | .call request => some { s with
      cache := (s.cache.call request).1
      queue := s.queue ++ ((s.cache.call request).2.map .request).toList }
  | .report event => match s.client with
    | none => none
    | some client =>
      if event.endsRequest then
        if s.requests = 0 then none
        else some (enqueue (.stream client event) { s with requests := s.requests - 1 })
      else some (s.enqueue (.stream client event))
  | .run => match s.queue with
    | [] => none
    | task :: queue => some (runTask { s with queue } task)

/-- A stopped client stays cleared. -/
structure Cleared (s : ClientDispatcher) : Prop where
  /-- nothing is remembered of a device while there is no connection -/
  lastReady : s.client = none → ∀ kind, s.cache.lastReady kind = none
  /-- no device is reported ready before a new connection says something -/
  silent : s.newFrom.isSome → ∀ kind, .status (.ready kind true) ∉ s.signals
  /-- and a pointing device that is asked for is requested, without force -/
  requests : s.newFrom.isSome → (s.cache.call (.pointingInitialize false)).2 =
    some ClientOperation.pointingInitialize.requestBuffer

/-- If the step handles a message, then it has no ready value if there is no connection, and
reports no device ready if it is of a connection before `async_stop` and a new connection has
not said anything. -/
def Current (s : ClientDispatcher) : ClientLabel → Prop
  | .run => ∀ client event buffer, s.queue.head? = some (.handle client event) →
      event.message = some buffer →
      (s.client = none → ServiceClient.readyValues buffer = []) ∧
      ∀ first, s.newFrom = some first → client < first →
        ∀ kind, (kind, true) ∉ ServiceClient.readyValues buffer
  | _ => True

/-! ## What a step does -/

/-- What the request of a pointing device depends on. -/
theorem call_pointingInitialize (c : ServiceClient) :
    (c.call (.pointingInitialize false)).2 =
        some ClientOperation.pointingInitialize.requestBuffer ↔
      c.lastReady .pointing ≠ some true := by
  by_cases h : c.lastReady .pointing = some true
  · simp [ServiceClient.call, ServiceClient.suppresses, h]
  · simp [ServiceClient.call, ServiceClient.suppresses, h, ClientCall.operation]

/-- A call changes no ready state. -/
theorem call_lastReady (c : ServiceClient) (request : ClientCall) :
    (c.call request).1.lastReady = c.lastReady := by
  rw [ServiceClient.call]
  split
  · rfl
  · cases request <;> rfl

/-- The same members that the property is about, and no device reported ready. -/
theorem Cleared.frame {s t : ClientDispatcher} (h : s.Cleared) (hclient : t.client = s.client)
    (hready : t.cache.lastReady = s.cache.lastReady) (hnew : t.newFrom = s.newFrom)
    {signals : List ServiceSignal} (hsignals : t.signals = s.signals ++ signals)
    (hsilent : ∀ kind, .status (.ready kind true) ∉ signals) : t.Cleared := by
  refine ⟨fun hnone => ?_, fun hsome kind hmem => ?_, fun hsome => ?_⟩
  · rw [hready]
    exact h.lastReady (hclient ▸ hnone)
  · rw [hsignals] at hmem
    rcases List.mem_append.mp hmem with hmem | hmem
    · exact h.silent (hnew ▸ hsome) kind hmem
    · exact hsilent kind hmem
  · rw [call_pointingInitialize, hready]
    exact (call_pointingInitialize _).mp (h.requests (hnew ▸ hsome))

/-- `clear_state()` clears whatever was there. -/
theorem cleared_clearState {s : ClientDispatcher}
    (h : s.newFrom.isSome → ∀ kind, .status (.ready kind true) ∉ s.signals) :
    s.clearState.Cleared := by
  refine ⟨fun _ _ => rfl, fun hsome kind hmem => ?_, fun _ => rfl⟩
  rcases List.mem_append.mp hmem with hmem | hmem
  · exact h hsome kind hmem
  · simp at hmem

/-- A message is handled by a client that is cleared. -/
theorem cleared_handleMessage {s t : ClientDispatcher} (h : s.Cleared) (client : ℕ)
    (buffer : Bytes) (hclient : t.client = s.client)
    (hcache : t.cache = (ServiceClient.readyValues buffer).foldl ServiceClient.storeReady s.cache)
    (hnew : t.newFrom = if buffer.isEmpty then s.newFrom else s.newFrom.filter fun n => client < n)
    (hsignals : t.signals =
      s.signals ++ (ServiceClient.messageSignals buffer).map .status) :
    t.Cleared ↔ (s.client = none → ServiceClient.readyValues buffer = []) ∧
      ∀ first, s.newFrom = some first → client < first →
        ∀ kind, (kind, true) ∉ ServiceClient.readyValues buffer := by
  have hmem : ∀ kind, .status (.ready kind true) ∈
      (ServiceClient.messageSignals buffer).map ServiceSignal.status ↔
        (kind, true) ∈ ServiceClient.readyValues buffer := by
    intro kind
    rw [← ServiceClient.ready_mem_messageSignals]
    simp
  constructor
  · intro ht
    refine ⟨fun hnone => ?_, fun first hfirst hlt kind hvalue => ?_⟩
    · -- a value would be remembered
      rw [List.eq_nil_iff_forall_not_mem]
      rintro ⟨kind, v⟩ hvalue
      have hsome := ServiceClient.foldl_storeReady_isSome s.cache hvalue
      rw [← hcache, ht.lastReady (hclient.trans hnone) kind] at hsome
      cases hsome
    · refine ht.silent ?_ kind ?_
      · rw [hnew, hfirst]
        split
        · rfl
        · rw [Option.filter_some, if_pos (by simpa using hlt)]
          rfl
      · rw [hsignals]
        exact List.mem_append_right _ ((hmem kind).mpr hvalue)
  · rintro ⟨hnone, hold⟩
    -- while a new connection has said nothing, the message is an old one or empty
    have hquiet : t.newFrom.isSome → s.newFrom.isSome ∧
        ∀ kind, (kind, true) ∉ ServiceClient.readyValues buffer := by
      intro hsome
      rw [hnew] at hsome
      split at hsome
      · next hempty =>
        refine ⟨hsome, fun kind hvalue => ?_⟩
        rw [List.isEmpty_iff.mp hempty] at hvalue
        cases hvalue
      · rcases hfirst : s.newFrom with _ | first
        · rw [hfirst] at hsome
          cases hsome
        · refine ⟨rfl, hold first hfirst ?_⟩
          rw [hfirst, Option.filter_some] at hsome
          split at hsome
          · next hlt => simpa using hlt
          · cases hsome
    refine ⟨fun hc => ?_, fun hsome kind hsig => ?_, fun hsome => ?_⟩
    · rw [hcache, hnone (hclient ▸ hc)]
      exact h.lastReady (hclient ▸ hc)
    · rw [hsignals] at hsig
      rcases List.mem_append.mp hsig with hsig | hsig
      · exact h.silent (hquiet hsome).1 kind hsig
      · exact (hquiet hsome).2 kind ((hmem kind).mp hsig)
    · rw [call_pointingInitialize, hcache]
      intro hready
      rcases ServiceClient.mem_of_foldl_storeReady hready with hbefore | hvalue
      · exact (call_pointingInitialize _).mp (h.requests (hquiet hsome).1) hbefore
      · exact (hquiet hsome).2 .pointing hvalue

/-- The closure of an event. -/
theorem cleared_handleEvent {s : ClientDispatcher} (h : s.Cleared) (client : ℕ)
    (event : StreamEvent) :
    (s.handleEvent client event).Cleared ↔ ∀ buffer, event.message = some buffer →
      (s.client = none → ServiceClient.readyValues buffer = []) ∧
      ∀ first, s.newFrom = some first → client < first →
        ∀ kind, (kind, true) ∉ ServiceClient.readyValues buffer := by
  have signalled : ∀ signal : ServiceSignal, (∀ kind, signal ≠ .status (.ready kind true)) →
      (s.emit [signal]).Cleared := by
    intro signal hsignal
    refine h.frame rfl rfl rfl rfl fun kind hmem => ?_
    exact hsignal kind (List.mem_singleton.mp hmem).symm
  have message : ∀ (buffer : Bytes) (responded : List (ℕ × ℕ)),
      ({ heard client buffer (s.handleMessage buffer) with responded } : ClientDispatcher).Cleared ↔
        (s.client = none → ServiceClient.readyValues buffer = []) ∧
        ∀ first, s.newFrom = some first → client < first →
          ∀ kind, (kind, true) ∉ ServiceClient.readyValues buffer := by
    intro buffer responded
    have heq : s.handleMessage buffer =
        emit ((ServiceClient.messageSignals buffer).map .status) { s with
          cache := (ServiceClient.readyValues buffer).foldl ServiceClient.storeReady s.cache } := by
      rw [handleMessage, ServiceClient.handleMessage_spec]
    rw [heq, heard]
    split
    · next hempty =>
      exact cleared_handleMessage h client buffer rfl rfl (by rw [if_pos hempty]; rfl) rfl
    · next hempty =>
      exact cleared_handleMessage h client buffer rfl rfl (by rw [if_neg hempty]; rfl) rfl
  cases event with
  | connected => simpa [handleEvent, StreamEvent.message] using signalled .connected (by simp)
  | connectFailed errorCode =>
    simpa [handleEvent, StreamEvent.message] using signalled (.connectFailed errorCode) (by simp)
  | closed =>
    simpa [handleEvent, StreamEvent.message] using
      cleared_clearState (signalled .closed (by simp)).silent
  | errorOccurred errorCode =>
    simpa [handleEvent, StreamEvent.message] using signalled (.errorOccurred errorCode) (by simp)
  | peerVerificationFailed =>
    simpa [handleEvent, StreamEvent.message] using signalled .peerVerificationFailed (by simp)
  | requestReceived requestId buffer =>
    simp only [StreamEvent.message, Option.some.injEq, forall_eq', handleEvent]
    split
    · exact message buffer _
    · exact message buffer _
  | response buffer =>
    simp only [StreamEvent.message, Option.some.injEq, forall_eq', handleEvent]
    exact message buffer _
  | requestFailed errorCode =>
    simpa [handleEvent, StreamEvent.message] using signalled (.errorOccurred errorCode) (by simp)

/-- A step of a client that is cleared leaves it cleared exactly if it handles no ready value
of a connection that is gone. -/
theorem step_cleared {s t : ClientDispatcher} {label : ClientLabel} (h : s.Cleared)
    (hstep : s.step label = some t) : t.Cleared ↔ s.Current label := by
  have keeps : ∀ t : ClientDispatcher, t.client = s.client →
      t.cache.lastReady = s.cache.lastReady → t.newFrom = s.newFrom → t.signals = s.signals →
      t.Cleared := by
    intro t hclient hready hnew hsignals
    exact h.frame hclient hready hnew (hsignals.trans (List.append_nil _).symm) (by simp)
  cases label with
  | start =>
    obtain rfl := Option.some.inj hstep
    exact iff_of_true (keeps _ rfl rfl rfl rfl) trivial
  | stop =>
    obtain rfl := Option.some.inj hstep
    exact iff_of_true (keeps _ rfl rfl rfl rfl) trivial
  | call request =>
    obtain rfl := Option.some.inj hstep
    exact iff_of_true (keeps _ rfl (call_lastReady _ _) rfl rfl) trivial
  | report event =>
    rw [step] at hstep
    split at hstep
    · cases hstep
    · split at hstep
      · split at hstep
        · cases hstep
        · obtain rfl := Option.some.inj hstep
          exact iff_of_true (keeps _ rfl rfl rfl rfl) trivial
      · obtain rfl := Option.some.inj hstep
        exact iff_of_true (keeps _ rfl rfl rfl rfl) trivial
  | run =>
    rw [step] at hstep
    split at hstep
    · cases hstep
    · next task queue hqueue =>
      obtain rfl := Option.some.inj hstep
      have other : (∀ client event, task ≠ .handle client event) → s.Current .run := by
        intro hne client event buffer hhead
        rw [hqueue] at hhead
        exact absurd (Option.some.inj hhead) (hne client event)
      have hs : ({ s with queue } : ClientDispatcher).Cleared := keeps _ rfl rfl rfl rfl
      cases task with
      | start =>
        refine iff_of_true ?_ (other (by simp))
        simp only [runTask]
        split
        · exact hs
        · exact ⟨fun hc => (by cases hc), h.silent, h.requests⟩
      -- the closure of `async_stop` clears the state together with `client_`
      | stop => exact iff_of_true (cleared_clearState (by simp)) (other (by simp))
      | request buffer =>
        refine iff_of_true ?_ (other (by simp))
        simp only [runTask]
        split
        · exact hs
        · exact keeps _ rfl rfl rfl rfl
      | stream client event =>
        exact iff_of_true (keeps _ rfl rfl rfl rfl) (other (by simp))
      -- the only closure that stores ready values
      | handle client event =>
        rw [runTask, cleared_handleEvent hs]
        constructor
        · intro hcond client' event' buffer hhead hmessage
          rw [hqueue] at hhead
          obtain ⟨rfl, rfl⟩ := ServiceTask.handle.inj (Option.some.inj hhead)
          exact hcond buffer hmessage
        · intro hcond buffer hmessage
          exact hcond client event buffer (by rw [hqueue]; rfl) hmessage

end ClientDispatcher

/-- In every state of a run a stopped client is cleared, exactly if no step of the run handles
a ready value that a connection sent before it was stopped. -/
theorem stopped_client_cleared (labels : List ClientLabel) :
    Transition.Along ClientDispatcher.step ClientDispatcher.Cleared {} labels ↔
      Transition.Meets ClientDispatcher.step ClientDispatcher.Current {} labels := by
  refine Transition.along_iff_meets (I := fun _ => True) trivial ?_ (fun _ _ _ _ _ => trivial)
    ?_ ?_ labels
  · exact ⟨fun _ _ => rfl, fun h => (by cases h), fun h => by cases h⟩
  · intro s label t _ h hstep
    exact ClientDispatcher.step_cleared h hstep
  · intro s label hstep
    cases label with
    | run =>
      intro client event buffer hhead
      rw [ClientDispatcher.step] at hstep
      split at hstep
      · next hqueue =>
        rw [hqueue] at hhead
        cases hhead
      · cases hstep
    | _ => trivial

/-- A status arrives, and the client is stopped before it is handled. -/
def stoppedBeforeStatus : List ClientLabel :=
  [.start, .run, .report (.requestReceived 1 [1, 1, 2, 1, 3, 0, 4, 1, 5, 1]), .stop,
   .run, .run, .run]

/-- The status is handled although there is no connection: both devices count as ready, and
after a restart the pointing device is not requested. -/
theorem stopped_client_remembers_ready :
    (∃ s, Transition.run ClientDispatcher.step {} stoppedBeforeStatus = some s ∧
      s.client = none ∧ s.cache.lastReady .keyboard = some true ∧
      .status (.ready .pointing true) ∈ s.signals ∧ s.newFrom = some 1) ∧
    (∃ s, Transition.run ClientDispatcher.step {} (stoppedBeforeStatus ++
        [.start, .run, .call (.pointingInitialize false)]) = some s ∧
      s.client = some 1 ∧ s.queue = []) ∧
    ¬ Transition.Along ClientDispatcher.step ClientDispatcher.Cleared {} stoppedBeforeStatus := by
  have hrun : ∃ s, Transition.run ClientDispatcher.step {} stoppedBeforeStatus = some s ∧
      s.client = none ∧ s.cache.lastReady .keyboard = some true ∧
      .status (.ready .pointing true) ∈ s.signals ∧ s.newFrom = some 1 := by
    decide +kernel
  refine ⟨hrun, by decide +kernel, fun along => ?_⟩
  obtain ⟨s, hs, hnone, hready, -⟩ := hrun
  have hcleared := along stoppedBeforeStatus [] s (List.append_nil _).symm hs
  rw [hcleared.lastReady hnone .keyboard] at hready
  cases hready

end VirtualHidDevice
