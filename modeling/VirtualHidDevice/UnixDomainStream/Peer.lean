import VirtualHidDevice.UnixDomainStream.Protocol
import VirtualHidDevice.Transition

/-!
# One end of a stream

`pqrs::unix_domain_stream::impl::peer` as a transition system: it reads frames from its socket,
writes the frames of its queue, and hands what happens to the dispatcher. All of it runs on one
thread; the labels are the handlers that this thread runs and what the socket does in between.

* `Peer` — the members that the handlers use. `reading` and `writing` are the operations of the
  socket that are outstanding, `waits` those of the timers.
* `Peer.readBodyDone` — the `switch` over the type of a message. Reads of the body are checked.
* `Peer.step` — one handler. A handler that was due when the socket was closed still runs, so
  operations can complete with success afterwards. `Peer.step_cases` is what a step can be.
-/

namespace VirtualHidDevice.UnixDomainStream

/-! ## Data -/

/-- The error codes that are raised or looked at, and all others. -/
inductive ErrorCode where
  /-- `asio::error::operation_aborted` -/
  | operationAborted
  /-- `asio::error::eof` -/
  | eof
  /-- `asio::error::timed_out` -/
  | timedOut
  /-- `asio::error::message_size` -/
  | messageSize
  /-- `asio::error::operation_not_supported` -/
  | operationNotSupported
  /-- `asio::error::invalid_argument` -/
  | invalidArgument
  /-- `asio::error::no_buffer_space` -/
  | noBufferSpace
  /-- `asio::error::connection_reset` -/
  | connectionReset
  /-- `asio::error::not_connected` -/
  | notConnected
  /-- any other code of the system -/
  | other (value : ℕ)
deriving DecidableEq, Repr

/-- A signal of a peer that is raised on the dispatcher. -/
inductive Signal where
  /-- `ready` -/
  | ready
  /-- `received` -/
  | received (buffer : Bytes)
  /-- `request_received` -/
  | requestReceived (requestId : UInt64) (buffer : Bytes)
  /-- `response_received` -/
  | responseReceived (requestId : UInt64) (buffer : Bytes)
  /-- `health_check_response_received` -/
  | healthCheckResponseReceived
  /-- `error_occurred` -/
  | errorOccurred (errorCode : ErrorCode)
  /-- `closed` -/
  | closed
deriving DecidableEq, Repr

/-- The timers of a peer. -/
inductive Timer where
  /-- `ready_deadline_` -/
  | readyDeadline
  /-- `heartbeat_timer_` -/
  | heartbeatTimer
  /-- `heartbeat_deadline_` -/
  | heartbeatDeadline
  /-- `read_deadline_` -/
  | readDeadline
  /-- `write_deadline_` -/
  | writeDeadline
deriving DecidableEq, Repr

/-- The outstanding `async_read`, by the buffer it fills. -/
inductive Reading where
  /-- `read_header_` -/
  | header
  /-- `read_body_` -/
  | body (size : ℕ)
deriving DecidableEq, Repr

/-- The size of the buffer. -/
def Reading.size : Reading → ℕ
  | header => headerSize
  | body size => size

/-- The limits in `common_options`. -/
structure CommonOptions where
  /-- `max_message_size` -/
  maxMessageSize : UInt64
  /-- `max_send_queue_size` -/
  maxSendQueueSize : UInt64
deriving DecidableEq, Repr

/-- A peer. -/
structure Peer where
  /-- `options_` -/
  options : CommonOptions
  /-- the handler of `async_start` ran -/
  started : Bool
  /-- `socket_.is_open()` -/
  isOpen : Bool
  /-- `ready_` -/
  ready : Bool
  /-- `close_after_write_` -/
  closeAfterWrite : Bool
  /-- the outstanding waits of the timers -/
  waits : List Timer
  /-- the outstanding read -/
  reading : Option Reading
  /-- the outstanding write, with the bytes that the socket did not take yet -/
  writing : Option Bytes
  /-- `write_queue_` -/
  writeQueue : List Bytes
  /-- the signals handed to the dispatcher, in order -/
  signals : List Signal
  /-- a read of the body was out of bounds -/
  fault : Option Fault
deriving DecidableEq, Repr

namespace Peer

/-- A peer of a connected socket. -/
def init (options : CommonOptions) : Peer :=
  { options, started := false, isOpen := true, ready := false, closeAfterWrite := false
    waits := [], reading := none, writing := none, writeQueue := [], signals := []
    fault := none }

/-! ## Handlers -/

/-- `enqueue_to_dispatcher` of a signal. -/
def enqueue (p : Peer) (signal : Signal) : Peer := { p with signals := p.signals ++ [signal] }

/-- `expires_after` and `async_wait`. -/
def startTimer (p : Peer) (timer : Timer) : Peer := { p with waits := p.waits ++ [timer] }

/-- `close()`: the operations on the socket and on the timers are cancelled, so that their
handlers are due. -/
def close (p : Peer) : Peer :=
  if p.isOpen then { p with isOpen := false }.enqueue .closed else p

/-- `handle_error(error_code)`. -/
def handleError (p : Peer) (errorCode : ErrorCode) : Peer :=
  if errorCode = .operationAborted then p else (p.enqueue (.errorOccurred errorCode)).close

/-- `ensure_ready()`. -/
def ensureReady (p : Peer) : Peer :=
  if p.ready then p else { p with ready := true }.enqueue .ready

/-- `read_header()`. -/
def readHeader (p : Peer) : Peer :=
  if p.isOpen then { p.startTimer .readDeadline with reading := some .header } else p

/-- `read_body()`, with the size of `read_body_`. -/
def readBody (p : Peer) (size : ℕ) : Peer :=
  { p.startTimer .readDeadline with reading := some (.body size) }

/-- `write()`. -/
def write (p : Peer) : Peer :=
  match p.writeQueue with
  | [] => p
  | frame :: _ =>
    if p.isOpen then { p.startTimer .writeDeadline with writing := some frame } else p

/-- `push_frame(frame)`. -/
def pushFrame (p : Peer) (frame : Bytes) : Peer :=
  if !p.isOpen then p
  else if !validOutgoingFrame p.options.maxMessageSize frame ||
      p.options.maxSendQueueSize.toNat ≤ p.writeQueue.length then
    p.handleError .noBufferSpace
  else
    let pushed := { p with writeQueue := p.writeQueue ++ [frame] }
    if p.writeQueue.isEmpty then pushed.write else pushed

/-- The largest size that `read_header()` accepts. -/
def maxBodySize (p : Peer) : ℕ := (p.options.maxMessageSize + typeSize + requestIdSize).toNat

/-- The handler of the read in `read_header()`. -/
def readHeaderDone (p : Peer) (errorCode : Option ErrorCode) (transferred : Bytes) : Peer :=
  match errorCode with
  | some errorCode =>
    if errorCode = .eof ∧ transferred.length = 0 then p.close else p.handleError errorCode
  | none => match transferred with
    | [a, b, c, d] =>
      let bodySize := (decodeUint32 a b c d).toNat
      if bodySize < typeSize.toNat ∨ p.maxBodySize < bodySize then p.handleError .messageSize
      else p.readBody bodySize
    | _ => p.handleError .messageSize

/-- The cases `request` and `response` of the `switch`. -/
def readRequestResponse (p : Peer) (signal : UInt64 → Bytes → Signal) (body : Bytes) :
    Except Fault Peer :=
  let p := p.ensureReady
  if body.length < typeSize.toNat + requestIdSize.toNat ∨ p.maxBodySize < body.length then
    .ok (p.handleError .messageSize)
  else do
    let requestId ← decodeUint64 body typeSize.toNat
    .ok (p.enqueue
      (signal requestId (body.drop (typeSize.toNat + requestIdSize.toNat)))).readHeader

/-- The handler of the read in `read_body()`, after the checks: the `switch` over the type. -/
def readBodySwitch (p : Peer) (body : Bytes) : Except Fault Peer :=
  match body with
  | [] => .error .outOfBounds
  | type :: data => match MessageType.ofTag type with
    | some .heartbeat => .ok p.readHeader
    | some .userData =>
      let p := p.ensureReady
      if (p.options.maxMessageSize + typeSize).toNat < body.length then
        .ok (p.handleError .messageSize)
      else .ok (p.enqueue (.received data)).readHeader
    | some .request => p.readRequestResponse .requestReceived body
    | some .response => p.readRequestResponse .responseReceived body
    | some .healthCheck =>
      if p.ready then .ok (p.handleError .operationNotSupported)
      else .ok ({ p with closeAfterWrite := true }.pushFrame Message.healthCheckResponse.frame)
    | some .healthCheckResponse => .ok (p.enqueue .healthCheckResponseReceived).readHeader
    | none => .ok (p.handleError .invalidArgument)

/-- The handler of the read in `read_body()`. -/
def readBodyDone (p : Peer) (size : ℕ) (errorCode : Option ErrorCode) (transferred : Bytes) :
    Except Fault Peer :=
  match errorCode with
  | some errorCode => .ok (p.handleError errorCode)
  | none =>
    if transferred.length ≠ size then .ok (p.handleError .messageSize)
    else (p.startTimer .heartbeatDeadline).readBodySwitch transferred

/-- The handler of the write in `write()`. -/
def writeDone (p : Peer) (errorCode : Option ErrorCode) : Peer :=
  match errorCode with
  | some errorCode => p.handleError errorCode
  | none =>
    let p := { p with writeQueue := p.writeQueue.tail }
    if p.writeQueue.isEmpty && p.closeAfterWrite then p.close else p.write

/-- The handler of `async_start()`. -/
def start (p : Peer) : Peer :=
  (((p.startTimer .readyDeadline).startTimer .heartbeatTimer).startTimer
    .heartbeatDeadline).readHeader

/-- The handler of a timer that expired. -/
def timerExpired (p : Peer) : Timer → Peer
  | .readyDeadline => p.ensureReady
  | .heartbeatTimer =>
    if p.isOpen then (p.pushFrame Message.heartbeat.frame).startTimer .heartbeatTimer else p
  | .heartbeatDeadline | .readDeadline | .writeDeadline => p.handleError .timedOut

/-! ## Steps -/

end Peer

/-- What the thread of a peer or its socket does next. -/
inductive PeerLabel where
  /-- the handler of `async_start` -/
  | start
  /-- the handler of `async_close` -/
  | close
  /-- the handler of `async_send`, `async_send_request`, `async_send_response` or
  `async_send_health_check` -/
  | send (message : Message)
  /-- the handler of a timer, with or without `operation_aborted` -/
  | timer (timer : Timer) (aborted : Bool)
  /-- the handler of the outstanding read -/
  | readDone (errorCode : Option ErrorCode) (transferred : Bytes)
  /-- the socket takes bytes of the outstanding write -/
  | writeSome (size : ℕ)
  /-- the handler of the outstanding write -/
  | writeDone (errorCode : Option ErrorCode)
deriving DecidableEq, Repr

/-- The messages that can be sent with a method of their own. -/
def Message.isSendable : Message → Bool
  | userData _ | request _ _ | response _ _ | healthCheck => true
  | heartbeat | healthCheckResponse => false

namespace Peer

/-- The state after a handler with checked reads. -/
def ofExcept (p : Peer) : Except Fault Peer → Peer
  | .ok q => q
  | .error fault => { p with fault := some fault }

/-- An operation is cancelled only by closing the socket. -/
def CanComplete (p : Peer) (errorCode : Option ErrorCode) : Prop :=
  errorCode = some .operationAborted → p.isOpen = false

instance (p : Peer) (errorCode : Option ErrorCode) : Decidable (p.CanComplete errorCode) :=
  inferInstanceAs (Decidable (_ → _))

/-- One step. -/
def step (p : Peer) : PeerLabel → Option Peer
  | .start => if p.started then none else some ({ p with started := true }.start)
  | .close => some p.close
  | .send message => if message.isSendable then some (p.pushFrame message.frame) else none
  | .timer timer aborted =>
    if timer ∈ p.waits then
      let p := { p with waits := p.waits.erase timer }
      some (if aborted then p else p.timerExpired timer)
    else none
  | .readDone errorCode transferred => match p.reading with
    | none => none
    | some reading =>
      if p.CanComplete errorCode ∧ (errorCode = none → transferred.length = reading.size) then
        let p := { p with reading := none }
        match reading with
        | .header => some (p.readHeaderDone errorCode transferred)
        | .body size => some (p.ofExcept (p.readBodyDone size errorCode transferred))
      else none
  | .writeSome size => match p.writing with
    | none => none
    | some rest =>
      if p.isOpen ∧ 0 < size ∧ size ≤ rest.length then some { p with writing := some (rest.drop size) }
      else none
  | .writeDone errorCode => match p.writing with
    | none => none
    | some rest =>
      if p.CanComplete errorCode ∧ (errorCode = none → rest = []) then
        some ({ p with writing := none }.writeDone errorCode)
      else none

/-- What a step can be, with what enables it. -/
inductive Step (p : Peer) : PeerLabel → Peer → Prop where
  | start (h : p.started = false) : Step p .start { p with started := true }.start
  | close : Step p .close p.close
  | send (message : Message) (h : message.isSendable = true) :
    Step p (.send message) (p.pushFrame message.frame)
  | aborted (timer : Timer) (h : timer ∈ p.waits) :
    Step p (.timer timer true) { p with waits := p.waits.erase timer }
  | expired (timer : Timer) (h : timer ∈ p.waits) :
    Step p (.timer timer false) ({ p with waits := p.waits.erase timer }.timerExpired timer)
  | headerDone (errorCode : Option ErrorCode) (transferred : Bytes)
    (hreading : p.reading = some .header) (hcomplete : p.CanComplete errorCode)
    (hsize : errorCode = none → transferred.length = headerSize) :
    Step p (.readDone errorCode transferred)
      ({ p with reading := none }.readHeaderDone errorCode transferred)
  | bodyDone (errorCode : Option ErrorCode) (transferred : Bytes) (size : ℕ)
    (hreading : p.reading = some (.body size)) (hcomplete : p.CanComplete errorCode)
    (hsize : errorCode = none → transferred.length = size) :
    Step p (.readDone errorCode transferred) ({ p with reading := none }.ofExcept
      ({ p with reading := none }.readBodyDone size errorCode transferred))
  | writeSome (size : ℕ) (rest : Bytes) (hwriting : p.writing = some rest)
    (hopen : p.isOpen = true) (hsize : size ≤ rest.length) :
    Step p (.writeSome size) { p with writing := some (rest.drop size) }
  | writeDone (errorCode : Option ErrorCode) (rest : Bytes) (hwriting : p.writing = some rest)
    (hcomplete : p.CanComplete errorCode) (hrest : errorCode = none → rest = []) :
    Step p (.writeDone errorCode) ({ p with writing := none }.writeDone errorCode)

/-- A step is one of these. -/
theorem step_cases {p q : Peer} {label : PeerLabel} (h : p.step label = some q) :
    Step p label q := by
  cases label with
  | start =>
    simp only [step] at h
    split at h
    next => cases h
    next hstarted =>
      obtain rfl := Option.some.inj h
      exact .start (by simpa using hstarted)
  | close =>
    obtain rfl := Option.some.inj h
    exact .close
  | send message =>
    simp only [step] at h
    split at h
    next hsendable =>
      obtain rfl := Option.some.inj h
      exact .send message hsendable
    next => cases h
  | timer timer aborted =>
    simp only [step] at h
    split at h
    next hmem =>
      obtain rfl := Option.some.inj h
      cases aborted with
      | true => exact .aborted timer hmem
      | false => exact .expired timer hmem
    next => cases h
  | readDone errorCode transferred =>
    simp only [step] at h
    split at h
    next => cases h
    next reading hreading =>
      split at h
      next hguard =>
        cases reading with
        | header =>
          obtain rfl := Option.some.inj h
          exact .headerDone errorCode transferred hreading hguard.1 hguard.2
        | body size =>
          obtain rfl := Option.some.inj h
          exact .bodyDone errorCode transferred size hreading hguard.1 hguard.2
      next => cases h
  | writeSome size =>
    simp only [step] at h
    split at h
    next => cases h
    next rest hwriting =>
      split at h
      next hguard =>
        obtain rfl := Option.some.inj h
        exact .writeSome size rest hwriting hguard.1 hguard.2.2
      next => cases h
  | writeDone errorCode =>
    simp only [step] at h
    split at h
    next => cases h
    next rest hwriting =>
      split at h
      next hguard =>
        obtain rfl := Option.some.inj h
        exact .writeDone errorCode rest hwriting hguard.1 hguard.2
      next => cases h

end Peer

end VirtualHidDevice.UnixDomainStream
