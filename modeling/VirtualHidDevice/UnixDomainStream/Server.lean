import VirtualHidDevice.UnixDomainStream.RequestManager
import VirtualHidDevice.Transition

/-!
# The server of a stream

`pqrs::unix_domain_stream::server`: it binds a socket, again and again while it is not stopped,
accepts connections, and has one peer for each. From time to time it connects to its own socket,
and binds anew if nobody answers. As in the client, the dispatcher runs what the program asks for
and tells it what happens, and the thread of `io_ctx_` does what has to do with sockets.

* `ServerTask`, `ServerIoTask` — the closures in the queues of the two threads.
* `Server` — the members and the queues; the peers are those of `UnixDomainStream.Peer`.
* `Server.step` — one closure, one handler of a socket or a timer, or a call of the program.
-/

namespace VirtualHidDevice.UnixDomainStream

/-! ## Data -/

/-- What the program is told on the dispatcher. A callback of a request is a number. -/
inductive ServerEvent where
  /-- `bound` -/
  | bound
  /-- `bind_failed` -/
  | bindFailed (errorCode : ErrorCode)
  /-- `closed` -/
  | closed
  /-- `peer_connected` -/
  | peerConnected (id : ℕ)
  /-- `peer_closed` -/
  | peerClosed (id : ℕ)
  /-- `peer_error_occurred` -/
  | peerErrorOccurred (id : ℕ) (errorCode : ErrorCode)
  /-- `received` -/
  | received (id : ℕ) (buffer : Bytes)
  /-- `request_received` -/
  | requestReceived (id : ℕ) (requestId : UInt64) (buffer : Bytes)
  /-- the callback of a request -/
  | callback (completion : Completion ℕ)
deriving DecidableEq, Repr

/-- What a peer is there for. -/
inductive PeerKind where
  /-- a connection that was accepted -/
  | accepted (id : ℕ)
  /-- the connection of a health check -/
  | healthCheck (check : ℕ)
deriving DecidableEq, Repr

/-- A closure in the dispatcher's queue. -/
inductive ServerTask where
  /-- `async_start()` -/
  | start
  /-- `async_stop()` -/
  | stop
  /-- `bind_retry_task_.cancel()` -/
  | cancel
  /-- `bind_retry_task_.debounce_after(...)` -/
  | debounce
  /-- `socket_path_health_check_timer_.start(...)` -/
  | startTimer
  /-- `socket_path_health_check_timer_.stop()` -/
  | stopTimer
  /-- `socket_path_health_check()`, enqueued by the timer -/
  | healthCheck
  /-- `bound` is raised, and the timer is started -/
  | bound
  /-- `bind_failed` is raised, and the next attempt is scheduled -/
  | bindFailed (errorCode : ErrorCode)
  /-- `closed` is raised, and the next attempt is scheduled -/
  | closed
  /-- a signal of a peer -/
  | peerSignal (peer : ℕ) (signal : Signal)
  /-- the closure of `ready`: `verify_peer_` -/
  | verify (id : ℕ)
  /-- a signal that is raised if the peer is exposed -/
  | exposed (id : ℕ) (event : ServerEvent)
  /-- the closure of `closed` of a peer -/
  | peerClosed (id : ℕ)
  /-- the callback of a request -/
  | callback (completion : Completion ℕ)
deriving DecidableEq, Repr

/-- A closure in the queue of `io_ctx_`. -/
inductive ServerIoTask where
  /-- the closure of `bind()` -/
  | bind
  /-- the closure of `stop()` -/
  | stop
  /-- `async_send(id, data)` -/
  | send (id : ℕ) (data : Bytes)
  /-- `async_respond(id, request_id_value, data)` -/
  | respond (id : ℕ) (requestId : UInt64) (data : Bytes)
  /-- `async_request(id, data, timeout, callback)` -/
  | request (id : ℕ) (data : Bytes) (callback : ℕ)
  /-- `close_peer(id)` -/
  | closePeer (id : ℕ)
  /-- a closure of a peer -/
  | peer (peer : ℕ) (label : PeerLabel)
  /-- the closure of `response_received` -/
  | responseReceived (id peer : ℕ) (requestId : UInt64) (buffer : Bytes)
  /-- the closure of `error_occurred` -/
  | peerError (id : ℕ) (errorCode : ErrorCode)
  /-- the closure of `closed` of a peer -/
  | peerClosed (id : ℕ)
  /-- the closure of `socket_path_health_check()` -/
  | healthCheck
  /-- the closure of `health_check_response_received` of the peer of a health check -/
  | healthCheckResponse (check : ℕ)
  /-- the closure of its `error_occurred` -/
  | healthCheckError (check : ℕ)
  /-- the closure of its `closed` -/
  | healthCheckClosed (check : ℕ)
deriving DecidableEq, Repr

/-- `server_options`, without the intervals. -/
structure ServerOptions where
  /-- the limits of a peer -/
  common : CommonOptions
  /-- `invalidate_connection_on_request_error` -/
  invalidateConnectionOnRequestError : Bool
deriving DecidableEq, Repr

/-- `socket_path_health_check_timer_`. -/
structure HealthCheckTimer where
  /-- `current_function_id_`, an `int` taken not to overflow -/
  currentFunctionId : ℕ := 0
  /-- `function_` is set -/
  function : Bool := false
  /-- the delayed calls of `call_function`, by their ids -/
  delayed : List ℕ := []
deriving DecidableEq, Repr

/-- The server. -/
structure Server where
  /-- `options_` -/
  options : ServerOptions
  /-- `stopped_` -/
  stopped : Bool := true
  /-- `bind_retry_task_.generation_`, 64 bits taken not to wrap -/
  generation : ℕ := 0
  /-- the delayed closures of `bind_retry_task_`, by their generations -/
  delayed : List ℕ := []
  /-- `socket_path_health_check_timer_` -/
  timer : HealthCheckTimer := {}
  /-- the dispatcher's queue -/
  dispatcher : List ServerTask := []
  /-- the queue of `io_ctx_` -/
  ioCtx : List ServerIoTask := []
  /-- `exposed_peer_ids_` -/
  exposedPeerIds : List ℕ := []
  /-- `acceptor_` -/
  acceptor : Option ℕ := none
  /-- the acceptors that were created -/
  acceptors : ℕ := 0
  /-- the acceptors whose `async_accept` is outstanding, once for each -/
  accepts : List ℕ := []
  /-- the peers that were created -/
  peers : List (PeerKind × Peer) := []
  /-- `peers_` -/
  peerIds : List (ℕ × ℕ) := []
  /-- `next_peer_id_`, 64 bits taken not to wrap -/
  nextPeerId : ℕ := 0
  /-- `request_manager_` -/
  requestManager : RequestManager ℕ := {}
  /-- the requests, with the peer that their `timeout_callback` closes -/
  timeoutCallbacks : List (UInt64 × ℕ) := []
  /-- `socket_path_health_check_peer_` -/
  healthCheckPeer : Option ℕ := none
  /-- `socket_path_health_check_in_progress_` -/
  healthCheckInProgress : Bool := false
  /-- the health checks that were begun -/
  checks : ℕ := 0
  /-- the health checks whose `async_connect` is outstanding -/
  checkConnects : List ℕ := []
  /-- the health checks whose `timeout` is waited for -/
  checkTimers : List ℕ := []
  /-- the ids of the peers that the server has closed itself -/
  closedPeerIds : List ℕ := []
  /-- what the program was told -/
  events : List ServerEvent := []

namespace Server

/-- A server that was constructed. -/
def init (options : ServerOptions) : Server := { options }

/-! ## Methods -/

/-- `enqueue_to_dispatcher(...)`. -/
def enqueue (s : Server) (tasks : List ServerTask) : Server :=
  { s with dispatcher := s.dispatcher ++ tasks }

/-- `asio::post(io_ctx_, ...)`. -/
def post (s : Server) (tasks : List ServerIoTask) : Server := { s with ioCtx := s.ioCtx ++ tasks }

/-- A signal is raised. -/
def raise (s : Server) (event : ServerEvent) : Server := { s with events := s.events ++ [event] }

/-- A manager's step, with the callbacks that it hands to the dispatcher. -/
def complete (s : Server) (result : RequestManager ℕ × List (Completion ℕ)) : Server :=
  { s with requestManager := result.1 }.enqueue (result.2.map .callback)

/-- The id of a peer, as `request_manager` stores it. -/
def managerId (id : ℕ) : UInt64 := UInt64.ofNat id

/-- `peers_.find(id)`. -/
def find (s : Server) (id : ℕ) : Option ℕ := s.peerIds.lookup id

/-- `close_acceptor()`: an `async_accept` will complete with `operation_aborted`. -/
def closeAcceptor (s : Server) : Server := { s with acceptor := none }

/-- `schedule_bind_retry()`. -/
def scheduleBindRetry (s : Server) : Server :=
  let s := s.enqueue [.stopTimer]
  if s.stopped then s else s.enqueue [.debounce]

/-- `start_socket_path_health_check_timer()`. -/
def startHealthCheckTimer (s : Server) : Server :=
  if s.stopped then s else s.enqueue [.startTimer]

/-- `call_function(function_id)` of the timer. -/
def callFunction (s : Server) (functionId : ℕ) : Server :=
  if s.timer.currentFunctionId ≠ functionId then s
  else
    let s := if s.timer.function then s.enqueue [.healthCheck] else s
    { s with timer := { s.timer with delayed := s.timer.delayed ++ [functionId] } }

/-- `handle_bind_failed(error_code)`. -/
def handleBindFailed (s : Server) (errorCode : ErrorCode) : Server :=
  s.closeAcceptor.enqueue [.bindFailed errorCode]

/-- `accept()`. -/
def accept (s : Server) : Server :=
  match s.acceptor with
  | none => s
  | some acceptor => if s.stopped then s else { s with accepts := s.accepts ++ [acceptor] }

/-- The closure of `bind()`; `error` is what `open`, `bind` or `listen` fail with. -/
def bind (s : Server) (error : Option ErrorCode) : Server :=
  if s.stopped || s.acceptor.isSome then s
  else
    let s := { s with acceptor := some s.acceptors, acceptors := s.acceptors + 1 }
    match error with
    | some errorCode => s.handleBindFailed errorCode
    | none => (s.enqueue [.bound]).accept

/-- `handle_accepted_socket(socket)`. -/
def handleAcceptedSocket (s : Server) : Server :=
  if s.stopped then s
  else
    let id := s.nextPeerId + 1
    let peer := s.peers.length
    ({ s with
        nextPeerId := id
        peers := s.peers ++ [(PeerKind.accepted id, Peer.init s.options.common)]
        peerIds := s.peerIds ++ [(id, peer)] }.post [.peer peer .start]).accept

/-- The handler of `async_accept`. -/
def acceptDone (s : Server) (errorCode : Option ErrorCode) : Server :=
  if s.stopped then s
  else match errorCode with
    | some errorCode =>
      if errorCode = .operationAborted then s else s.closeAcceptor.enqueue [.closed]
    | none => s.handleAcceptedSocket

/-- `close_peer(id)`. -/
def closePeer (s : Server) (id : ℕ) : Server :=
  match s.find id with
  | none => s
  | some peer =>
    { (s.complete (s.requestManager.completePeer (managerId id) .operationAborted)).post
        [.peer peer .close] with
      peerIds := s.peerIds.filter (·.1 ≠ id)
      closedPeerIds := s.closedPeerIds ++ [id] }

/-- `close_all_peers()`. -/
def closeAllPeers (s : Server) : Server :=
  { (s.complete (s.requestManager.completeAll .operationAborted)).post
      (s.peerIds.map fun entry => .peer entry.2 .close) with
    peerIds := []
    closedPeerIds := s.closedPeerIds ++ s.peerIds.map Prod.fst }

/-- `close_socket_path_health_check_peer()`. -/
def closeHealthCheckPeer (s : Server) : Server :=
  match s.healthCheckPeer with
  | none => s
  | some peer => { s.post [.peer peer .close] with healthCheckPeer := none }

/-- `handle_socket_path_health_check_failed(error_code)`. -/
def handleHealthCheckFailed (s : Server) : Server :=
  if !s.healthCheckInProgress then s
  else ({ s with healthCheckInProgress := false }.closeHealthCheckPeer.closeAcceptor).enqueue
    [.closed]

/-- The closure of `socket_path_health_check()`. -/
def healthCheck (s : Server) : Server :=
  if s.stopped || s.acceptor.isNone || s.healthCheckInProgress then s
  else
    { s with
      healthCheckInProgress := true
      checks := s.checks + 1
      checkTimers := s.checkTimers ++ [s.checks]
      checkConnects := s.checkConnects ++ [s.checks] }

/-- The handler of `async_connect` of a health check. As with the timers of a peer,
`timeout->cancel()` does not keep a handler from running that is due already. -/
def checkConnectDone (s : Server) (check : ℕ) (errorCode : Option ErrorCode) : Server :=
  match errorCode with
  | some _ => s.handleHealthCheckFailed
  | none =>
    let peer := s.peers.length
    { s with
        peers := s.peers ++ [(PeerKind.healthCheck check, Peer.init s.options.common)]
        healthCheckPeer := some peer }.post [.peer peer .start, .peer peer (.send .healthCheck)]

/-- `send_request(peer_id, peer, data, timeout, callback)`. -/
def sendRequest (s : Server) (id peer : ℕ) (data : Bytes) (callback : ℕ) : Server :=
  let added := s.requestManager.add (some (managerId id)) callback
  { s with
    requestManager := added.1
    timeoutCallbacks := s.timeoutCallbacks ++ [(added.2, id)] }.post
      [.peer peer (.send (.request added.2 data))]

/-- The `timeout_callback` of `send_request`. -/
def timeoutCallback (s : Server) (id : ℕ) : Server :=
  if s.options.invalidateConnectionOnRequestError then s.closePeer id else s

/-- A step of a peer, with the signals that it hands to the dispatcher. -/
def stepPeer (s : Server) (index : ℕ) (label : PeerLabel) : Option Server :=
  match s.peers[index]? with
  | none => none
  | some (kind, p) => (p.step label).map fun q =>
    { s with peers := s.peers.set index (kind, q) }.enqueue
      ((q.signals.drop p.signals.length).map (.peerSignal index))

/-- What the server does with a signal of an accepted peer, on the dispatcher. -/
def acceptedSignal (s : Server) (id peer : ℕ) : Signal → Server
  | .ready => s.enqueue [.verify id]
  | .received buffer => s.enqueue [.exposed id (.received id buffer)]
  | .requestReceived requestId buffer =>
    s.enqueue [.exposed id (.requestReceived id requestId buffer)]
  | .responseReceived requestId buffer => s.post [.responseReceived id peer requestId buffer]
  | .errorOccurred errorCode =>
    (s.post [.peerError id errorCode]).enqueue [.exposed id (.peerErrorOccurred id errorCode)]
  | .closed => (s.post [.peerClosed id]).enqueue [.peerClosed id]
  | .healthCheckResponseReceived => s

/-- What the server does with a signal of the peer of a health check, on the dispatcher. -/
def healthCheckSignal (s : Server) (check : ℕ) : Signal → Server
  | .healthCheckResponseReceived => s.post [.healthCheckResponse check]
  | .errorOccurred _ => s.post [.healthCheckError check]
  | .closed => s.post [.healthCheckClosed check]
  | .ready | .received _ | .requestReceived _ _ | .responseReceived _ _ => s

/-- A signal of a peer. -/
def handleSignal (s : Server) (peer : ℕ) (signal : Signal) : Server :=
  match s.peers[peer]? with
  | none => s
  | some (.accepted id, _) => s.acceptedSignal id peer signal
  | some (.healthCheck check, _) => s.healthCheckSignal check signal

/-- A closure on the dispatcher; `verified` is what `verify_peer_` answers. -/
def runTask (s : Server) (verified : Bool) : ServerTask → Server
  | .start => { s with stopped := false }.post [.bind]
  | .stop =>
    ({ s with stopped := true, exposedPeerIds := [] }.enqueue [.cancel, .stopTimer]).post [.stop]
  | .cancel => { s with generation := s.generation + 1 }
  | .debounce =>
    { s with generation := s.generation + 1, delayed := s.delayed ++ [s.generation + 1] }
  | .startTimer =>
    let functionId := s.timer.currentFunctionId + 1
    { s with
      timer := { s.timer with currentFunctionId := functionId, function := true } }.callFunction
        functionId
  | .stopTimer =>
    { s with
      timer := { s.timer with
        currentFunctionId := s.timer.currentFunctionId + 1, function := false } }
  | .healthCheck => s.post [.healthCheck]
  | .bound => (s.raise .bound).startHealthCheckTimer
  | .bindFailed errorCode => (s.raise (.bindFailed errorCode)).scheduleBindRetry
  | .closed => (s.raise .closed).scheduleBindRetry
  | .peerSignal peer signal => s.handleSignal peer signal
  | .verify id =>
    if verified then
      { s with exposedPeerIds := s.exposedPeerIds.insert id }.raise (.peerConnected id)
    else s.post [.closePeer id]
  | .exposed id event => if id ∈ s.exposedPeerIds then s.raise event else s
  | .peerClosed id =>
    if id ∈ s.exposedPeerIds then
      { s with exposedPeerIds := s.exposedPeerIds.filter (· ≠ id) }.raise (.peerClosed id)
    else s
  | .callback completion => s.raise (.callback completion)

/-- A delayed closure of `bind_retry_task_`. -/
def runDelayed (s : Server) (generation : ℕ) : Server :=
  if s.generation ≠ generation then s else if s.stopped then s else s.post [.bind]

/-- A closure in the thread of `io_ctx_`; `bindError` is the answer to a `bind()`. -/
def runIoTask (s : Server) (bindError : Option ErrorCode) : ServerIoTask → Server
  | .bind => s.bind bindError
  | .stop =>
    { s.closeAcceptor.closeAllPeers.closeHealthCheckPeer with healthCheckInProgress := false }
  | .send id data => match s.find id with
    | none => s
    | some peer => s.post [.peer peer (.send (.userData data))]
  | .respond id requestId data => match s.find id with
    | none => s
    | some peer => s.post [.peer peer (.send (.response requestId data))]
  | .request id data callback => match s.find id with
    | none => s.enqueue [.callback { callback, errorCode := some .notConnected, data := none }]
    | some peer => s.sendRequest id peer data callback
  | .closePeer id => s.closePeer id
  | .peer peer label => (s.stepPeer peer label).getD s
  | .responseReceived id peer requestId buffer =>
    if s.find id = some peer then
      s.complete (s.requestManager.completeOf (managerId id) requestId none (some buffer))
    else s
  | .peerError id errorCode =>
    s.complete (s.requestManager.completePeer (managerId id) errorCode)
  | .peerClosed id =>
    { s.complete (s.requestManager.completePeer (managerId id) .connectionReset) with
      peerIds := s.peerIds.filter (·.1 ≠ id) }
  | .healthCheck => s.healthCheck
  | .healthCheckResponse _ =>
    { s.closeHealthCheckPeer with healthCheckInProgress := false }
  | .healthCheckError _ => s.handleHealthCheckFailed
  | .healthCheckClosed _ => s.handleHealthCheckFailed

/-- The handler of a request's timer that expired. -/
def requestTimer (s : Server) (request : UInt64) (id : ℕ) : Server :=
  (s.complete (s.requestManager.timerExpired request)).timeoutCallback id

end Server

/-! ## Steps -/

/-- What happens next. -/
inductive ServerLabel where
  /-- `async_start()` -/
  | asyncStart
  /-- `async_stop()` -/
  | asyncStop
  /-- `async_send(id, data)` -/
  | asyncSend (id : ℕ) (data : Bytes)
  /-- `async_respond(id, request_id_value, data)` -/
  | asyncRespond (id : ℕ) (requestId : UInt64) (data : Bytes)
  /-- `async_request(id, data, timeout, callback)` -/
  | asyncRequest (id : ℕ) (data : Bytes) (callback : ℕ)
  /-- `async_close_peer(id)` -/
  | asyncClosePeer (id : ℕ)
  /-- the dispatcher runs the first closure -/
  | dispatch (verified : Bool)
  /-- a delayed closure of `bind_retry_task_` is due -/
  | bindRetryTimer (index : ℕ)
  /-- a delayed closure of `socket_path_health_check_timer_` is due -/
  | healthCheckTimer (index : ℕ)
  /-- the thread of `io_ctx_` runs the first closure -/
  | io (bindError : Option ErrorCode)
  /-- an `async_accept` completes -/
  | acceptDone (acceptor : ℕ) (errorCode : Option ErrorCode)
  /-- the `async_connect` of a health check completes -/
  | checkConnectDone (check : ℕ) (errorCode : Option ErrorCode)
  /-- the handler of the `timeout` of a health check, with or without `operation_aborted` -/
  | checkTimeout (check : ℕ) (aborted : Bool)
  /-- a handler of a peer runs, or its socket takes bytes -/
  | peer (peer : ℕ) (label : PeerLabel)
  /-- the timer of a request to a peer expires -/
  | requestTimer (request : UInt64) (id : ℕ)
  /-- a peer that is not used any more is destroyed, which detaches it from the dispatcher -/
  | destroyPeer (peer : ℕ)
deriving DecidableEq, Repr

/-- Whether a closure belongs to a peer. -/
def ServerTask.ownedBy (peer : ℕ) : ServerTask → Bool
  | peerSignal p _ => p = peer
  | _ => false

/-- The steps of a peer that are not closures posted by its owner. -/
def PeerLabel.isSocketHandler : PeerLabel → Bool
  | timer _ _ | readDone _ _ | writeSome _ | writeDone _ => true
  | start | close | send _ => false

namespace Server

/-- Whether a peer's socket is closed. -/
def peerClosed (s : Server) (peer : ℕ) : Bool :=
  match s.peers[peer]? with
  | none => false
  | some (_, p) => !p.isOpen

/-- One step. -/
def step (s : Server) : ServerLabel → Option Server
  | .asyncStart => some (s.enqueue [.start])
  | .asyncStop => some (s.enqueue [.stop])
  | .asyncSend id data => some (s.post [.send id data])
  | .asyncRespond id requestId data => some (s.post [.respond id requestId data])
  | .asyncRequest id data callback => some (s.post [.request id data callback])
  | .asyncClosePeer id => some (s.post [.closePeer id])
  | .dispatch verified => match s.dispatcher with
    | [] => none
    | task :: tasks => some ({ s with dispatcher := tasks }.runTask verified task)
  | .bindRetryTimer index => match s.delayed[index]? with
    | none => none
    | some generation => some ({ s with delayed := s.delayed.eraseIdx index }.runDelayed generation)
  | .healthCheckTimer index => match s.timer.delayed[index]? with
    | none => none
    | some functionId =>
      some ({ s with
        timer := { s.timer with delayed := s.timer.delayed.eraseIdx index } }.callFunction
          functionId)
  | .io bindError => match s.ioCtx with
    | [] => none
    | task :: tasks => some ({ s with ioCtx := tasks }.runIoTask bindError task)
  | .acceptDone acceptor errorCode =>
    -- an acceptor's operations are cancelled only by closing it
    if acceptor ∈ s.accepts ∧
        (errorCode = some .operationAborted → s.acceptor ≠ some acceptor) then
      some ({ s with accepts := s.accepts.erase acceptor }.acceptDone errorCode)
    else none
  | .checkConnectDone check errorCode =>
    if check ∈ s.checkConnects ∧ (errorCode = none → check ∈ s.checkTimers) then
      some ({ s with checkConnects := s.checkConnects.erase check }.checkConnectDone check
        errorCode)
    else none
  | .checkTimeout check aborted =>
    if check ∈ s.checkTimers then
      let s := { s with checkTimers := s.checkTimers.erase check }
      some (if aborted then s else s.handleHealthCheckFailed)
    else none
  | .peer peer label => if label.isSocketHandler then s.stepPeer peer label else none
  | .requestTimer request id =>
    if request ∈ s.requestManager.timers ∧ (request, id) ∈ s.timeoutCallbacks then
      some (s.requestTimer request id)
    else none
  | .destroyPeer peer =>
    if s.peerClosed peer ∧ peer ∉ s.peerIds.map Prod.snd ∧ s.healthCheckPeer ≠ some peer then
      some { s with dispatcher := s.dispatcher.filter fun task => !task.ownedBy peer }
    else none

end Server

end VirtualHidDevice.UnixDomainStream
