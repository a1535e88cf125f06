import VirtualHidDevice.UnixDomainStream.RequestManager
import VirtualHidDevice.Transition

/-!
# The client of a stream

`pqrs::unix_domain_stream::client`: it connects to a socket, again and again while it is not
stopped, and has one peer at a time. Its work is split between two threads: the dispatcher runs
what the program asks for and tells it what happens, the thread of `io_ctx_` does everything that
has to do with sockets. Either thread hands work to the other one by a queue.

* `ClientTask`, `IoTask` — the closures in the queues of the dispatcher and of `io_ctx_`.
* `Client` — the members and the queues; the peers are those of `UnixDomainStream.Peer`.
* `Client.step` — one closure, one handler of a socket or a timer, or a call of the program. The
  threads are interleaved closure by closure.
-/

namespace VirtualHidDevice.UnixDomainStream

/-! ## Data -/

/-- What the program is told on the dispatcher. A callback of a request is a number. -/
inductive ClientEvent where
  /-- `connected` -/
  | connected
  /-- `peer_verification_failed` -/
  | peerVerificationFailed
  /-- `connect_failed` -/
  | connectFailed (errorCode : ErrorCode)
  /-- `closed` -/
  | closed
  /-- `error_occurred` -/
  | errorOccurred (errorCode : ErrorCode)
  /-- `received` -/
  | received (buffer : Bytes)
  /-- `request_received` -/
  | requestReceived (requestId : UInt64) (buffer : Bytes)
  /-- the callback of a request -/
  | callback (completion : Completion ℕ)
deriving DecidableEq, Repr

/-- A closure in the dispatcher's queue. -/
inductive ClientTask where
  /-- `async_start()` -/
  | start
  /-- `async_stop()` -/
  | stop
  /-- `async_invalidate_connection()` -/
  | invalidateConnection
  /-- `reconnect_task_.cancel()` -/
  | cancel
  /-- `reconnect_task_.debounce_after(...)` -/
  | debounce
  /-- the closure of a socket that connected: `verify_peer_` -/
  | verify (socket : ℕ)
  /-- `schedule_reconnect()` -/
  | scheduleReconnect
  /-- a signal of a peer -/
  | peerSignal (peer : ℕ) (signal : Signal)
  /-- the program is told something; after a connection that failed or ended this is followed by
  `schedule_reconnect()` -/
  | event (event : ClientEvent)
deriving DecidableEq, Repr

/-- A closure in the queue of `io_ctx_`. -/
inductive IoTask where
  /-- the closure of `connect()` -/
  | connect
  /-- the closure of `stop()` -/
  | stop
  /-- the closure of `invalidate_connection()` -/
  | invalidateConnection
  /-- `handle_connected_socket(socket, credentials, verified)` -/
  | handleConnectedSocket (socket : ℕ) (verified : Bool)
  /-- a closure of a peer -/
  | peer (peer : ℕ) (label : PeerLabel)
  /-- the closure that a signal of a peer posts -/
  | signal (peer : ℕ) (signal : Signal)
  /-- the last closure of `handle_connected_socket` -/
  | connected (peer : ℕ)
  /-- `async_send(data)` -/
  | send (data : Bytes)
  /-- `async_respond(request_id, data)` -/
  | respond (requestId : UInt64) (data : Bytes)
  /-- `async_request(data, timeout, callback)` -/
  | request (data : Bytes) (callback : ℕ)
deriving DecidableEq, Repr

/-- `client_options`, without the intervals. -/
structure ClientOptions where
  /-- the limits of a peer -/
  common : CommonOptions
  /-- `invalidate_connection_on_request_error` -/
  invalidateConnectionOnRequestError : Bool
deriving DecidableEq, Repr

/-- The client. -/
structure Client where
  /-- `options_` -/
  options : ClientOptions
  /-- `stopped_` -/
  stopped : Bool
  /-- `reconnect_task_.generation_`, 64 bits taken not to wrap -/
  generation : ℕ
  /-- the delayed closures of `reconnect_task_`, by their generations -/
  delayed : List ℕ
  /-- the dispatcher's queue -/
  dispatcher : List ClientTask
  /-- the queue of `io_ctx_` -/
  ioCtx : List IoTask
  /-- `connecting_socket_` -/
  connectingSocket : Option ℕ
  /-- the sockets that were created -/
  sockets : ℕ
  /-- the sockets whose `async_connect` is outstanding -/
  connects : List ℕ
  /-- `peer_` -/
  peer : Option ℕ
  /-- the peers that were created -/
  peers : List Peer
  /-- `request_manager_` -/
  requestManager : RequestManager ℕ
  /-- what the program was told -/
  events : List ClientEvent

namespace Client

/-- A client that was constructed. -/
def init (options : ClientOptions) : Client :=
  { options, stopped := true, generation := 0, delayed := [], dispatcher := [], ioCtx := []
    connectingSocket := none, sockets := 0, connects := [], peer := none, peers := []
    requestManager := {}, events := [] }

/-! ## Methods -/

/-- `enqueue_to_dispatcher(...)`. -/
def enqueue (c : Client) (tasks : List ClientTask) : Client :=
  { c with dispatcher := c.dispatcher ++ tasks }

/-- `asio::post(io_ctx_, ...)`. -/
def post (c : Client) (tasks : List IoTask) : Client := { c with ioCtx := c.ioCtx ++ tasks }

/-- `schedule_reconnect()`. -/
def scheduleReconnect (c : Client) : Client := if c.stopped then c else c.enqueue [.debounce]

/-- A manager's step, with the callbacks that it hands to the dispatcher. -/
def complete (c : Client) (result : RequestManager ℕ × List (Completion ℕ)) : Client :=
  { c with requestManager := result.1 }.enqueue
    (result.2.map fun completion => .event (.callback completion))

/-- `close_connecting_socket()`: its `async_connect` will complete with an error. -/
def closeConnectingSocket (c : Client) : Client := { c with connectingSocket := none }

/-- `close_peer(pending_request_error_code)`, and whether there was a peer. -/
def closePeer (c : Client) (errorCode : ErrorCode) : Client × Bool :=
  match c.peer with
  | none => (c, false)
  | some peer =>
    ({ (c.complete (c.requestManager.completeAll errorCode)).post [.peer peer .close] with
        peer := none }, true)

/-- `send_request(data, timeout, callback)`, for the peer that is there. -/
def sendRequest (c : Client) (peer : ℕ) (data : Bytes) (callback : ℕ) : Client :=
  let added := c.requestManager.add none callback
  { c with requestManager := added.1 }.post [.peer peer (.send (.request added.2 data))]

/-- The `timeout_callback` of `send_request`. -/
def timeoutCallback (c : Client) : Client :=
  if c.options.invalidateConnectionOnRequestError then
    let closed := c.closePeer .connectionReset
    if closed.2 then closed.1.enqueue [.event .closed] else closed.1
  else c

/-- A step of a peer, with the signals that it hands to the dispatcher. A closure that is not
enabled does nothing. -/
def stepPeer (c : Client) (index : ℕ) (label : PeerLabel) : Option Client :=
  match c.peers[index]? with
  | none => none
  | some p => (p.step label).map fun q =>
    { c with peers := c.peers.set index q }.enqueue
      ((q.signals.drop p.signals.length).map (.peerSignal index))

/-- The handler of `async_connect`, for the socket that is connecting. -/
def connectDone (c : Client) (socket : ℕ) (errorCode : Option ErrorCode) : Client :=
  if c.stopped || c.connectingSocket ≠ some socket then c
  else match errorCode with
    | some errorCode =>
      { c with connectingSocket := none }.enqueue [.event (.connectFailed errorCode)]
    | none => c.enqueue [.verify socket]

/-- `handle_connected_socket(socket, credentials, verified)`. -/
def handleConnectedSocket (c : Client) (socket : ℕ) (verified : Bool) : Client :=
  if c.connectingSocket ≠ some socket then c
  else
    let c := { c with connectingSocket := none }
    if c.stopped then c
    else if !verified then c.enqueue [.event .peerVerificationFailed]
    else
      let peer := c.peers.length
      { c with peers := c.peers ++ [Peer.init c.options.common], peer := some peer }.post
        [.peer peer .start, .connected peer]

/-- The closure of `connect()`. -/
def connect (c : Client) : Client :=
  if c.stopped || c.connectingSocket.isSome || c.peer.isSome then c
  else
    { c with
      connectingSocket := some c.sockets
      sockets := c.sockets + 1
      connects := c.connects ++ [c.sockets] }

/-- The closure that a signal of a peer posts: only signals of the current peer count. -/
def handleSignal (c : Client) (peer : ℕ) (signal : Signal) : Client :=
  if c.peer ≠ some peer then c
  else match signal with
    | .received buffer => c.enqueue [.event (.received buffer)]
    | .requestReceived id buffer => c.enqueue [.event (.requestReceived id buffer)]
    | .responseReceived id buffer => c.complete (c.requestManager.complete id none (some buffer))
    | .errorOccurred errorCode =>
      (c.complete (c.requestManager.completeAll errorCode)).enqueue
        [.event (.errorOccurred errorCode)]
    | .closed =>
      { c.complete (c.requestManager.completeAll .connectionReset) with peer := none }.enqueue
        [.event .closed]
    | .ready | .healthCheckResponseReceived => c

/-- The signals that the client listens to. -/
def listensTo : Signal → Bool
  | .received _ | .requestReceived _ _ | .responseReceived _ _ | .errorOccurred _ | .closed => true
  | .ready | .healthCheckResponseReceived => false

end Client

/-- The events that are followed by `schedule_reconnect()`. -/
def ClientEvent.reconnects : ClientEvent → Bool
  | peerVerificationFailed | connectFailed _ | closed => true
  | connected | errorOccurred _ | received _ | requestReceived _ _ | callback _ => false

namespace Client

/-- A closure on the dispatcher; `verified` is what `verify_peer_` answers. -/
def runTask (c : Client) (verified : Bool) : ClientTask → Client
  | .start => { c with stopped := false }.post [.connect]
  | .stop => ({ c with stopped := true }.enqueue [.cancel]).post [.stop]
  | .invalidateConnection => (c.enqueue [.cancel]).post [.invalidateConnection]
  | .cancel => { c with generation := c.generation + 1 }
  | .debounce =>
    { c with generation := c.generation + 1, delayed := c.delayed ++ [c.generation + 1] }
  | .verify socket => c.post [.handleConnectedSocket socket verified]
  | .scheduleReconnect => c.scheduleReconnect
  | .peerSignal peer signal => if listensTo signal then c.post [.signal peer signal] else c
  | .event event =>
    let c := { c with events := c.events ++ [event] }
    if event.reconnects then c.scheduleReconnect else c

/-- A delayed closure of `reconnect_task_`. -/
def runDelayed (c : Client) (generation : ℕ) : Client :=
  if c.generation ≠ generation then c else if c.stopped then c else c.post [.connect]

/-- A closure in the thread of `io_ctx_`. -/
def runIoTask (c : Client) : IoTask → Client
  | .connect => c.connect
  | .stop => (c.closeConnectingSocket.closePeer .operationAborted).1
  | .invalidateConnection =>
    (c.closeConnectingSocket.closePeer .operationAborted).1.enqueue [.scheduleReconnect]
  | .handleConnectedSocket socket verified => c.handleConnectedSocket socket verified
  | .peer peer label => (c.stepPeer peer label).getD c
  | .signal peer signal => c.handleSignal peer signal
  | .connected peer => if c.peer = some peer then c.enqueue [.event .connected] else c
  | .send data => match c.peer with
    | none => c
    | some peer => c.post [.peer peer (.send (.userData data))]
  | .respond requestId data => match c.peer with
    | none => c
    | some peer => c.post [.peer peer (.send (.response requestId data))]
  | .request data callback => match c.peer with
    | none => c.enqueue [.event (.callback
        { callback, errorCode := some .notConnected, data := none })]
    | some peer => c.sendRequest peer data callback

/-- The handler of a request's timer that expired. -/
def requestTimer (c : Client) (id : UInt64) : Client :=
  (c.complete (c.requestManager.timerExpired id)).timeoutCallback

end Client

/-! ## Steps -/

/-- What happens next. -/
inductive ClientLabel where
  /-- `async_start()` -/
  | asyncStart
  /-- `async_stop()` -/
  | asyncStop
  /-- `async_invalidate_connection()` -/
  | asyncInvalidateConnection
  /-- `async_send(data)` -/
  | asyncSend (data : Bytes)
  /-- `async_respond(request_id, data)` -/
  | asyncRespond (requestId : UInt64) (data : Bytes)
  /-- `async_request(data, timeout, callback)` -/
  | asyncRequest (data : Bytes) (callback : ℕ)
  /-- the dispatcher runs the first closure -/
  | dispatch (verified : Bool)
  /-- a delayed closure of `reconnect_task_` is due -/
  | reconnectTimer (index : ℕ)
  /-- the thread of `io_ctx_` runs the first closure -/
  | io
  /-- an `async_connect` completes -/
  | connectDone (socket : ℕ) (errorCode : Option ErrorCode)
  /-- a handler of a peer runs, or its socket takes bytes -/
  | peer (peer : ℕ) (label : PeerLabel)
  /-- the timer of a request expires -/
  | requestTimer (id : UInt64)
  /-- a peer that is not used any more is destroyed, which detaches it from the dispatcher -/
  | destroyPeer (peer : ℕ)
deriving DecidableEq, Repr

/-- The steps of a peer that are not closures posted by its owner. -/
def PeerLabel.isHandler : PeerLabel → Bool
  | timer _ _ | readDone _ _ | writeSome _ | writeDone _ => true
  | start | close | send _ => false

/-- Whether a closure belongs to a peer. -/
def ClientTask.ownedBy (peer : ℕ) : ClientTask → Bool
  | peerSignal p _ => p = peer
  | _ => false

namespace Client

/-- Whether a peer's socket is closed. -/
def peerClosed (c : Client) (peer : ℕ) : Bool :=
  match c.peers[peer]? with
  | none => false
  | some p => !p.isOpen

/-- One step. -/
def step (c : Client) : ClientLabel → Option Client
  | .asyncStart => some (c.enqueue [.start])
  | .asyncStop => some (c.enqueue [.stop])
  | .asyncInvalidateConnection => some (c.enqueue [.invalidateConnection])
  | .asyncSend data => some (c.post [.send data])
  | .asyncRespond requestId data => some (c.post [.respond requestId data])
  | .asyncRequest data callback => some (c.post [.request data callback])
  | .dispatch verified => match c.dispatcher with
    | [] => none
    | task :: tasks => some ({ c with dispatcher := tasks }.runTask verified task)
  | .reconnectTimer index => match c.delayed[index]? with
    | none => none
    | some generation =>
      some ({ c with delayed := c.delayed.eraseIdx index }.runDelayed generation)
  | .io => match c.ioCtx with
    | [] => none
    | task :: tasks => some ({ c with ioCtx := tasks }.runIoTask task)
  | .connectDone socket errorCode =>
    if socket ∈ c.connects then
      some ({ c with connects := c.connects.erase socket }.connectDone socket errorCode)
    else none
  | .peer peer label => if label.isHandler then c.stepPeer peer label else none
  | .requestTimer id => if id ∈ c.requestManager.timers then some (c.requestTimer id) else none
  | .destroyPeer peer =>
    if c.peer ≠ some peer ∧ c.peerClosed peer then
      some { c with dispatcher := c.dispatcher.filter fun task => !task.ownedBy peer }
    else none

/-- A client that connects, gets the response to a request, and loses its peer. -/
def requestRun : List ClientLabel :=
  [.asyncStart, .dispatch true, .io, .connectDone 0 none, .dispatch true, .io, .io, .io,
   .dispatch true, .asyncRequest [7] 5, .io, .io, .peer 0 (.writeSome 14),
   .peer 0 (.writeDone none), .peer 0 (.readDone none [0, 0, 0, 10]),
   .peer 0 (.readDone none [5, 0, 0, 0, 0, 0, 0, 0, 1, 9]), .dispatch true, .dispatch true, .io,
   .dispatch true, .peer 0 (.readDone (some .eof) []), .dispatch true, .io, .dispatch true,
   .dispatch true]

end Client

end VirtualHidDevice.UnixDomainStream
