import VirtualHidDevice.UnixDomainStream.Peer

/-!
# What a peer tells the dispatcher

Whatever bytes its socket delivers, a peer reads within its buffers, and what it tells the
dispatcher fits its state: `ready` and `closed` are raised once and when they are true, messages
come after `ready` and are within the limit.

* `Signal.message?` — the message that a signal delivers. `ReadyFirst` is their order.
* `Peer.SignalInv` — the invariant, with a lemma for each method.

`SignalInv.step` is the result for one step.
-/

namespace VirtualHidDevice.UnixDomainStream

/-! ## Messages and signals -/

/-- The data of the messages that belong to the application. -/
def Message.data? : Message → Option Bytes
  | userData data | request _ data | response _ data => some data
  | heartbeat | healthCheck | healthCheckResponse => none

/-- The messages that belong to the application. -/
def applicationData (messages : List Message) : List Message :=
  messages.filter (·.data?.isSome)

@[simp] theorem applicationData_append (messages rest : List Message) :
    applicationData (messages ++ rest) = applicationData messages ++ applicationData rest :=
  List.filter_append messages rest

/-- The message that a signal delivers. -/
def Signal.message? : Signal → Option Message
  | received buffer => some (.userData buffer)
  | requestReceived requestId buffer => some (.request requestId buffer)
  | responseReceived requestId buffer => some (.response requestId buffer)
  | ready | healthCheckResponseReceived | errorOccurred _ | closed => none

/-- Messages are delivered only after `ready`. -/
def ReadyFirst (signals : List Signal) : Prop :=
  ∀ past signal rest, signals = past ++ signal :: rest → signal.message?.isSome → .ready ∈ past

theorem readyFirst_nil : ReadyFirst [] := by
  intro past signal rest h
  exact absurd h.symm (List.append_ne_nil_of_right_ne_nil past (List.cons_ne_nil signal rest))

/-- A signal is added: if it delivers a message, `ready` was raised before. -/
theorem ReadyFirst.concat {signals : List Signal} (h : ReadyFirst signals) {signal : Signal}
    (hready : signal.message?.isSome → .ready ∈ signals) : ReadyFirst (signals ++ [signal]) := by
  intro past s rest heq hs
  rcases List.eq_nil_or_concat rest with rfl | ⟨rest, last, rfl⟩
  · obtain ⟨rfl, hlast⟩ := List.append_inj' heq rfl
    obtain rfl := (List.cons.inj hlast).1
    exact hready hs
  · rw [List.concat_eq_append, ← List.cons_append, ← List.append_assoc] at heq
    obtain ⟨hpast, -⟩ := List.append_inj' heq rfl
    exact h past s rest hpast hs

namespace Peer

/-! ## The invariant -/

/-- The signals fit the state: `closed` and `ready` are raised once, messages come after
`ready` and are not too long; no read was out of bounds, and the queue is bounded. -/
structure SignalInv (p : Peer) : Prop where
  /-- no read was out of bounds -/
  fault : p.fault = none
  /-- `closed` is raised once, when the socket is closed -/
  closed : p.signals.count .closed = if p.isOpen then 0 else 1
  /-- `ready` is raised once -/
  ready : p.signals.count .ready = if p.ready then 1 else 0
  /-- messages come after `ready` -/
  readyFirst : ReadyFirst p.signals
  /-- no message is too long -/
  data : ∀ signal ∈ p.signals, ∀ message, signal.message? = some message →
    ∀ data, message.data? = some data → data.length ≤ p.options.maxMessageSize.toNat
  /-- a body that is read has a type -/
  body : ∀ size, p.reading = some (.body size) → 1 ≤ size
  /-- the queue is bounded -/
  queue : p.writeQueue.length ≤ p.options.maxSendQueueSize.toNat

/-- A signal without a message changes nothing for the messages. -/
theorem SignalInv.concat {p : Peer} (h : p.SignalInv) (signal : Signal)
    (hnone : signal.message? = none) :
    ReadyFirst (p.signals ++ [signal]) ∧ ∀ s ∈ p.signals ++ [signal], ∀ message,
      s.message? = some message → ∀ data, message.data? = some data →
        data.length ≤ p.options.maxMessageSize.toNat := by
  constructor
  · refine h.readyFirst.concat fun hs => ?_
    rw [hnone] at hs
    cases hs
  · intro s hs message hm
    rcases List.mem_append.mp hs with hs | hs
    · exact h.data s hs message hm
    · obtain rfl := List.mem_singleton.mp hs
      rw [hnone] at hm
      cases hm

/-- A signal other than `ready` and `closed` is raised; a message comes after `ready` and is within
the limit. -/
theorem SignalInv.enqueue {p : Peer} (h : p.SignalInv) {signal : Signal}
    (hclosed : signal ≠ .closed) (hready : signal ≠ .ready)
    (hmessage : signal.message?.isSome → .ready ∈ p.signals)
    (hdata : ∀ message, signal.message? = some message → ∀ data, message.data? = some data →
      data.length ≤ p.options.maxMessageSize.toNat) : (p.enqueue signal).SignalInv where
  fault := h.fault
  closed := by
    rw [Peer.enqueue, List.count_append, h.closed, List.count_singleton]
    simp [hclosed]
  ready := by
    rw [Peer.enqueue, List.count_append, h.ready, List.count_singleton]
    simp [hready]
  readyFirst := h.readyFirst.concat hmessage
  data := by
    intro s hs
    rcases List.mem_append.mp hs with hs | hs
    · exact h.data s hs
    · obtain rfl := List.mem_singleton.mp hs
      exact hdata
  body := h.body
  queue := h.queue

/-- A read that completed is not outstanding any more. -/
theorem SignalInv.reading_none {p : Peer} (h : p.SignalInv) :
    { p with reading := none }.SignalInv := by
  refine ⟨h.fault, h.closed, h.ready, h.readyFirst, h.data, ?_, h.queue⟩
  intro size hsize
  cases hsize

theorem SignalInv.startTimer {p : Peer} (h : p.SignalInv) (timer : Timer) :
    (p.startTimer timer).SignalInv :=
  ⟨h.fault, h.closed, h.ready, h.readyFirst, h.data, h.body, h.queue⟩

/-- `close()` raises `closed` if the socket is open. -/
theorem SignalInv.close {p : Peer} (h : p.SignalInv) : p.close.SignalInv := by
  rw [Peer.close]
  split
  next hopen =>
    obtain ⟨hfirst, hdata⟩ := h.concat .closed rfl
    refine ⟨h.fault, ?_, ?_, hfirst, hdata, h.body, h.queue⟩
    · rw [Peer.enqueue, List.count_append, h.closed, if_pos hopen]
      rfl
    · rw [Peer.enqueue, List.count_append, h.ready]
      rfl
  next => exact h

/-- `handle_error` says so and closes the socket. -/
theorem SignalInv.handleError {p : Peer} (h : p.SignalInv) (errorCode : ErrorCode) :
    (p.handleError errorCode).SignalInv := by
  rw [Peer.handleError]
  split
  next => exact h
  next =>
    have herror : (p.enqueue (.errorOccurred errorCode)).SignalInv := by
      refine h.enqueue Signal.noConfusion Signal.noConfusion (fun hs => ?_) (fun _ hm => ?_)
      · cases hs
      · cases hm
    exact herror.close

/-- `ensure_ready()` raises `ready` if it was not raised. -/
theorem SignalInv.ensureReady {p : Peer} (h : p.SignalInv) : p.ensureReady.SignalInv := by
  rw [Peer.ensureReady]
  split
  next => exact h
  next hready =>
    obtain ⟨hfirst, hdata⟩ := h.concat .ready rfl
    refine ⟨h.fault, ?_, ?_, hfirst, hdata, h.body, h.queue⟩
    · rw [Peer.enqueue, List.count_append, h.closed]
      rfl
    · rw [Peer.enqueue, List.count_append, h.ready, if_neg hready]
      rfl

/-- After `ensure_ready()` the signal was raised. -/
theorem SignalInv.mem_ensureReady {p : Peer} (h : p.SignalInv) :
    .ready ∈ p.ensureReady.signals := by
  rw [Peer.ensureReady]
  split
  next hready =>
    have hcount := h.ready
    rw [if_pos hready] at hcount
    exact List.count_pos_iff.mp (by omega)
  next => exact List.mem_append_right _ List.mem_cons_self

/-- A header is read next. -/
theorem SignalInv.readHeader {p : Peer} (h : p.SignalInv) : p.readHeader.SignalInv := by
  rw [Peer.readHeader]
  split
  next =>
    refine ⟨h.fault, h.closed, h.ready, h.readyFirst, h.data, ?_, h.queue⟩
    intro size hsize
    cases hsize
  next => exact h

/-- The first frame of the queue is written. -/
theorem SignalInv.write {p : Peer} (h : p.SignalInv) : p.write.SignalInv := by
  rw [Peer.write]
  split
  next => exact h
  next =>
    split
    next => exact ⟨h.fault, h.closed, h.ready, h.readyFirst, h.data, h.body, h.queue⟩
    next => exact h

/-- `push_frame` queues a frame only while there is room. -/
theorem SignalInv.pushFrame {p : Peer} (h : p.SignalInv) (frame : Bytes) :
    (p.pushFrame frame).SignalInv := by
  rw [Peer.pushFrame]
  split
  next => exact h
  next =>
    split
    next => exact h.handleError _
    next hvalid =>
      have hpushed : { p with writeQueue := p.writeQueue ++ [frame] }.SignalInv := by
        refine ⟨h.fault, h.closed, h.ready, h.readyFirst, h.data, h.body, ?_⟩
        simp only [Bool.or_eq_true, decide_eq_true_eq, not_or, not_le] at hvalid
        simp only [List.length_append, List.length_cons, List.length_nil]
        omega
      split
      next => exact hpushed.write
      next => exact hpushed

/-! ## The handlers of a read -/

@[simp] theorem ensureReady_options (p : Peer) : p.ensureReady.options = p.options := by
  rw [Peer.ensureReady]
  split <;> rfl

/-- A header was read: a body that is read next has a type. -/
theorem SignalInv.readHeaderDone {p : Peer} (h : p.SignalInv) (errorCode : Option ErrorCode)
    (transferred : Bytes) : (p.readHeaderDone errorCode transferred).SignalInv := by
  unfold Peer.readHeaderDone
  split
  next =>
    split
    next => exact h.close
    next => exact h.handleError _
  next =>
    split
    next a b c d =>
      dsimp only
      split
      next => exact h.handleError _
      next hsize =>
        refine ⟨h.fault, h.closed, h.ready, h.readyFirst, h.data, ?_, h.queue⟩
        intro size heq
        have htype : typeSize.toNat = 1 := rfl
        obtain rfl : (decodeUint32 a b c d).toNat = size :=
          Reading.body.inj (Option.some.inj heq)
        omega
    next => exact h.handleError _

/-- The id of a request or a response is read within the buffer, and its data is within the limit.
-/
theorem SignalInv.readRequestResponse {p : Peer} (h : p.SignalInv)
    {signal : UInt64 → Bytes → Signal} (message : UInt64 → Bytes → Message)
    (hsignal : ∀ id buffer, (signal id buffer).message? = some (message id buffer))
    (hmessage : ∀ id buffer, (message id buffer).data? = some buffer) (body : Bytes) :
    ∃ q, p.readRequestResponse signal body = .ok q ∧ q.SignalInv := by
  rw [Peer.readRequestResponse]
  split
  next => exact ⟨_, rfl, h.ensureReady.handleError _⟩
  next hsize =>
    have htype : typeSize.toNat = 1 := rfl
    have hid : requestIdSize.toNat = 8 := rfl
    have hbound : typeSize.toNat + 8 ≤ body.length := by omega
    obtain ⟨id, hdec⟩ := decodeUint64_ok hbound
    rw [hdec]
    refine ⟨_, rfl, (h.ensureReady.enqueue ?_ ?_ (fun _ => h.mem_ensureReady) ?_).readHeader⟩
    · intro heq
      have hm := hsignal id (body.drop (typeSize.toNat + requestIdSize.toNat))
      rw [heq] at hm
      cases hm
    · intro heq
      have hm := hsignal id (body.drop (typeSize.toNat + requestIdSize.toNat))
      rw [heq] at hm
      cases hm
    · intro m hm data hdata
      rw [hsignal] at hm
      obtain rfl := Option.some.inj hm
      rw [hmessage] at hdata
      obtain rfl := Option.some.inj hdata
      have hmax := toNat_add_le (p.options.maxMessageSize + typeSize) requestIdSize
      have hmax' := toNat_add_le p.options.maxMessageSize typeSize
      simp only [Peer.maxBodySize, ensureReady_options] at hsize
      rw [List.length_drop, ensureReady_options]
      omega

/-- The `switch` over the type reads within the buffer, since a body has a type. -/
theorem SignalInv.readBodySwitch {p : Peer} (h : p.SignalInv) {body : Bytes}
    (hbody : 1 ≤ body.length) : ∃ q, p.readBodySwitch body = .ok q ∧ q.SignalInv := by
  cases body with
  | nil => cases hbody
  | cons type data =>
    rw [Peer.readBodySwitch]
    split
    next => exact ⟨_, rfl, h.readHeader⟩
    next =>
      dsimp only
      split
      next => exact ⟨_, rfl, h.ensureReady.handleError _⟩
      next hsize =>
        refine ⟨_, rfl, (h.ensureReady.enqueue ?_ ?_ (fun _ => h.mem_ensureReady) ?_).readHeader⟩
        · exact Signal.noConfusion
        · exact Signal.noConfusion
        · intro m hm data' hdata
          obtain rfl := Option.some.inj hm
          obtain rfl := Option.some.inj hdata
          have hmax := toNat_add_le p.options.maxMessageSize typeSize
          have htype : typeSize.toNat = 1 := rfl
          rw [ensureReady_options, List.length_cons] at hsize
          rw [ensureReady_options]
          omega
    next =>
      exact h.readRequestResponse .request (fun _ _ => rfl) (fun _ _ => rfl) _
    next =>
      exact h.readRequestResponse .response (fun _ _ => rfl) (fun _ _ => rfl) _
    next =>
      split
      next => exact ⟨_, rfl, h.handleError _⟩
      next =>
        have hclosing : { p with closeAfterWrite := true }.SignalInv :=
          ⟨h.fault, h.closed, h.ready, h.readyFirst, h.data, h.body, h.queue⟩
        exact ⟨_, rfl, hclosing.pushFrame _⟩
    next =>
      refine ⟨_, rfl, (h.enqueue ?_ ?_ ?_ ?_).readHeader⟩
      · exact Signal.noConfusion
      · exact Signal.noConfusion
      · intro hs
        cases hs
      · intro m hm
        cases hm
    next => exact ⟨_, rfl, h.handleError _⟩

/-- The same for the handler of a body. -/
theorem SignalInv.readBodyDone {p : Peer} (h : p.SignalInv) {size : ℕ} (hsize : 1 ≤ size)
    (errorCode : Option ErrorCode) (transferred : Bytes) :
    ∃ q, p.readBodyDone size errorCode transferred = .ok q ∧ q.SignalInv := by
  unfold Peer.readBodyDone
  split
  next => exact ⟨_, rfl, h.handleError _⟩
  next =>
    split
    next => exact ⟨_, rfl, h.handleError _⟩
    next heq =>
      exact (h.startTimer _).readBodySwitch (by omega)

/-! ## The other handlers -/

/-- A frame was written: the queue gets shorter, or the socket is closed. -/
theorem SignalInv.writeDone {p : Peer} (h : p.SignalInv) (errorCode : Option ErrorCode) :
    (p.writeDone errorCode).SignalInv := by
  unfold Peer.writeDone
  split
  next => exact h.handleError _
  next =>
    have hpopped : { p with writeQueue := p.writeQueue.tail }.SignalInv := by
      refine ⟨h.fault, h.closed, h.ready, h.readyFirst, h.data, h.body, ?_⟩
      rw [List.length_tail]
      exact (Nat.sub_le _ 1).trans h.queue
    dsimp only
    split
    next => exact hpopped.close
    next => exact hpopped.write

/-- The handlers of the timers. -/
theorem SignalInv.timerExpired {p : Peer} (h : p.SignalInv) (timer : Timer) :
    (p.timerExpired timer).SignalInv := by
  cases timer with
  | readyDeadline => exact h.ensureReady
  | heartbeatTimer =>
    rw [Peer.timerExpired]
    split
    next => exact (h.pushFrame _).startTimer _
    next => exact h
  | heartbeatDeadline => exact h.handleError _
  | readDeadline => exact h.handleError _
  | writeDeadline => exact h.handleError _

/-- One step keeps the invariant. -/
theorem SignalInv.step {p q : Peer} (h : p.SignalInv) {label : PeerLabel}
    (hstep : p.step label = some q) : q.SignalInv := by
  cases step_cases hstep with
  | start =>
    have hstarted : { p with started := true }.SignalInv :=
      ⟨h.fault, h.closed, h.ready, h.readyFirst, h.data, h.body, h.queue⟩
    exact (((hstarted.startTimer _).startTimer _).startTimer _).readHeader
  | close => exact h.close
  | send message => exact h.pushFrame _
  | aborted timer => exact ⟨h.fault, h.closed, h.ready, h.readyFirst, h.data, h.body, h.queue⟩
  | expired timer =>
    have herased : { p with waits := p.waits.erase timer }.SignalInv :=
      ⟨h.fault, h.closed, h.ready, h.readyFirst, h.data, h.body, h.queue⟩
    exact herased.timerExpired timer
  | headerDone errorCode transferred => exact h.reading_none.readHeaderDone _ _
  | bodyDone errorCode transferred size hreading =>
    obtain ⟨q, hq, hinv⟩ :=
      h.reading_none.readBodyDone (h.body size hreading) errorCode transferred
    rw [hq]
    exact hinv
  | writeSome size rest =>
    exact ⟨h.fault, h.closed, h.ready, h.readyFirst, h.data, h.body, h.queue⟩
  | writeDone errorCode rest =>
    have hnone : { p with writing := none }.SignalInv :=
      ⟨h.fault, h.closed, h.ready, h.readyFirst, h.data, h.body, h.queue⟩
    exact hnone.writeDone errorCode

end Peer

end VirtualHidDevice.UnixDomainStream
