import VirtualHidDevice.UnixDomainStream.PeerWriter

/-!
# The reading side of a peer

A peer reads a header, then the body, then the next header.

* `Peer.KeepsReader` — a method that delivers nothing and leaves the outstanding read alone.
* `Peer.ReadsOn`, `Peer.Reads` — how reading goes on after a body, and what the body of a message
  delivers.
* `Peer.ReadInv` — an open socket is read from, until the answer to a health check is on its way.

`peer_robust` puts the three sides together for every run.
-/

namespace VirtualHidDevice.UnixDomainStream

namespace Peer

/-! ## Methods that do not read -/

/-- The messages that were delivered. -/
def delivered (p : Peer) : List Message := p.signals.filterMap Signal.message?

/-- What is read next: nothing, if reading has come to its end. -/
def position (p : Peer) : Option Reading := if p.started then p.reading else some .header

/-- Nothing is delivered, and reading is where it was. -/
structure KeepsReader (p q : Peer) : Prop where
  /-- the limits never change -/
  options : q.options = p.options
  /-- a peer is started once -/
  started : q.started = p.started
  /-- the outstanding read -/
  reading : q.reading = p.reading
  /-- the messages -/
  delivered : q.delivered = p.delivered
  /-- what a health check asks for -/
  closeAfterWrite : q.closeAfterWrite = p.closeAfterWrite
  /-- a socket is not opened again -/
  isOpen : q.isOpen = true → p.isOpen = true
  /-- signals are only added -/
  signals : p.signals <+: q.signals

theorem KeepsReader.refl (p : Peer) : p.KeepsReader p :=
  ⟨rfl, rfl, rfl, rfl, rfl, id, List.prefix_rfl⟩

theorem KeepsReader.trans {p q r : Peer} (h₁ : p.KeepsReader q) (h₂ : q.KeepsReader r) :
    p.KeepsReader r where
  options := h₂.options.trans h₁.options
  started := h₂.started.trans h₁.started
  reading := h₂.reading.trans h₁.reading
  delivered := h₂.delivered.trans h₁.delivered
  closeAfterWrite := h₂.closeAfterWrite.trans h₁.closeAfterWrite
  isOpen := h₁.isOpen ∘ h₂.isOpen
  signals := h₁.signals.trans h₂.signals

/-- Raising a signal that delivers nothing. -/
theorem keepsReader_enqueue (p : Peer) {signal : Signal} (h : signal.message? = none) :
    p.KeepsReader (p.enqueue signal) := by
  refine ⟨rfl, rfl, rfl, ?_, rfl, id, List.prefix_append _ _⟩
  rw [Peer.delivered, Peer.enqueue, List.filterMap_append, List.filterMap_cons_none h]
  exact List.append_nil _

theorem keepsReader_startTimer (p : Peer) (timer : Timer) : p.KeepsReader (p.startTimer timer) :=
  ⟨rfl, rfl, rfl, rfl, rfl, id, List.prefix_rfl⟩

/-- Closing the socket. -/
theorem keepsReader_close (p : Peer) : p.KeepsReader p.close := by
  rw [Peer.close]
  split
  next =>
    have hclosed : p.KeepsReader { p with isOpen := false } :=
      ⟨rfl, rfl, rfl, rfl, rfl, fun h => Bool.noConfusion h, List.prefix_rfl⟩
    exact hclosed.trans (keepsReader_enqueue _ rfl)
  next => exact .refl _

/-- Handling an error. -/
theorem keepsReader_handleError (p : Peer) (errorCode : ErrorCode) :
    p.KeepsReader (p.handleError errorCode) := by
  rw [Peer.handleError]
  split
  next => exact .refl _
  next => exact (keepsReader_enqueue p rfl).trans (keepsReader_close _)

theorem keepsReader_ensureReady (p : Peer) : p.KeepsReader p.ensureReady := by
  rw [Peer.ensureReady]
  split
  next => exact .refl _
  next =>
    have hready : p.KeepsReader { p with ready := true } :=
    ⟨rfl, rfl, rfl, rfl, rfl, id, List.prefix_rfl⟩
    exact hready.trans (keepsReader_enqueue _ rfl)

theorem keepsReader_write (p : Peer) : p.KeepsReader p.write := by
  rw [Peer.write]
  split
  next => exact .refl _
  next =>
    split
    next => exact ⟨rfl, rfl, rfl, rfl, rfl, id, List.prefix_rfl⟩
    next => exact .refl _

/-- Queuing a frame. -/
theorem keepsReader_pushFrame (p : Peer) (frame : Bytes) : p.KeepsReader (p.pushFrame frame) := by
  rw [Peer.pushFrame]
  split
  next => exact .refl _
  next =>
    split
    next => exact keepsReader_handleError p _
    next =>
      have hpushed : p.KeepsReader { p with writeQueue := p.writeQueue ++ [frame] } :=
        ⟨rfl, rfl, rfl, rfl, rfl, id, List.prefix_rfl⟩
      split
      next => exact hpushed.trans (keepsReader_write _)
      next => exact hpushed

/-- The handlers of the timers. -/
theorem keepsReader_timerExpired (p : Peer) (timer : Timer) :
    p.KeepsReader (p.timerExpired timer) := by
  cases timer with
  | readyDeadline => exact keepsReader_ensureReady p
  | heartbeatTimer =>
    rw [Peer.timerExpired]
    split
    next => exact (keepsReader_pushFrame p _).trans (keepsReader_startTimer _ _)
    next => exact .refl _
  | heartbeatDeadline => exact keepsReader_handleError p _
  | readDeadline => exact keepsReader_handleError p _
  | writeDeadline => exact keepsReader_handleError p _

/-- The handler of a write. -/
theorem keepsReader_writeDone (p : Peer) (errorCode : Option ErrorCode) :
    p.KeepsReader (p.writeDone errorCode) := by
  cases errorCode with
  | some errorCode => exact keepsReader_handleError p errorCode
  | none =>
    have hpopped : p.KeepsReader { p with writeQueue := p.writeQueue.tail } :=
      ⟨rfl, rfl, rfl, rfl, rfl, id, List.prefix_rfl⟩
    rw [Peer.writeDone]
    split
    next => exact hpopped.trans (keepsReader_close _)
    next => exact hpopped.trans (keepsReader_write _)

/-! ## After a header and after a body -/

/-- How reading goes on after a body: with the next header, or it has come to its end. An open
socket then waits for the answer to a health check to be written. -/
structure ReadsOn (p q : Peer) : Prop where
  /-- the limits never change -/
  options : q.options = p.options
  /-- a peer is started once -/
  started : q.started = p.started
  /-- a socket is not opened again -/
  isOpen : q.isOpen = true → p.isOpen = true
  /-- what is read next -/
  reading : q.reading = some .header ∨ q.reading = none
  /-- an open socket is read from or to be closed -/
  live : q.isOpen = true → q.reading.isSome = true ∨ q.closeAfterWrite = true
  /-- signals are only added -/
  signals : p.signals <+: q.signals

/-- Reading goes on with the next header. -/
theorem KeepsReader.readsOn_readHeader {p q : Peer} (h : p.KeepsReader q)
    (hreading : p.reading = none) : p.ReadsOn q.readHeader := by
  rw [Peer.readHeader]
  split
  next => exact ⟨h.options, h.started, h.isOpen, .inl rfl, fun _ => .inl rfl, h.signals⟩
  next hclosed =>
    exact ⟨h.options, h.started, h.isOpen, .inr (h.reading.trans hreading),
      fun hopen => absurd hopen hclosed, h.signals⟩

/-- Reading has come to its end with the socket. -/
theorem KeepsReader.readsOn_closed {p q : Peer} (h : p.KeepsReader q) (hreading : p.reading = none)
    (hclosed : q.isOpen = false) : p.ReadsOn q :=
  ⟨h.options, h.started, h.isOpen, .inr (h.reading.trans hreading),
    fun hopen => absurd (hopen.symm.trans hclosed) Bool.noConfusion, h.signals⟩

/-- Reading has come to its end with an error. -/
theorem KeepsReader.readsOn_handleError {p q : Peer} (h : p.KeepsReader q)
    (hreading : p.reading = none) {errorCode : ErrorCode} (hcode : errorCode ≠ .operationAborted) :
    p.ReadsOn (q.handleError errorCode) :=
  (h.trans (keepsReader_handleError q errorCode)).readsOn_closed hreading
    (handleError_isOpen q hcode)

/-- Delivering a message does not move the position. -/
theorem readsOn_deliver {p q : Peer} (h : p.KeepsReader q) (hreading : p.reading = none)
    (signal : Signal) : p.ReadsOn (q.enqueue signal).readHeader := by
  have hsignals : p.signals <+: (q.enqueue signal).signals :=
    h.signals.trans (List.prefix_append _ _)
  rw [Peer.readHeader]
  split
  next => exact ⟨h.options, h.started, h.isOpen, .inl rfl, fun _ => .inl rfl, hsignals⟩
  next hclosed =>
    exact ⟨h.options, h.started, h.isOpen, .inr (h.reading.trans hreading),
      fun hopen => absurd hopen hclosed, hsignals⟩

/-- After a request or a response. -/
theorem readRequestResponse_readsOn {p q : Peer} {signal : UInt64 → Bytes → Signal} {body : Bytes}
    (h : p.readRequestResponse signal body = .ok q) (hreading : p.reading = none) :
    p.ReadsOn q := by
  rw [Peer.readRequestResponse] at h
  split at h
  next =>
    obtain rfl := Except.ok.inj h
    exact (keepsReader_ensureReady p).readsOn_handleError hreading ErrorCode.noConfusion
  next =>
    cases hdec : decodeUint64 body typeSize.toNat with
    | error => rw [hdec] at h; cases h
    | ok id =>
      rw [hdec] at h
      obtain rfl := Except.ok.inj h
      exact readsOn_deliver (keepsReader_ensureReady p) hreading _

/-- After a body of any type, only a health check ends reading on an open socket. -/
theorem readBodySwitch_readsOn {p q : Peer} {body : Bytes} (h : p.readBodySwitch body = .ok q)
    (hreading : p.reading = none) : p.ReadsOn q := by
  unfold Peer.readBodySwitch at h
  split at h
  next => cases h
  next =>
    split at h
    next =>
      obtain rfl := Except.ok.inj h
      exact (KeepsReader.refl p).readsOn_readHeader hreading
    next =>
      dsimp only at h
      split at h
      next =>
        obtain rfl := Except.ok.inj h
        exact (keepsReader_ensureReady p).readsOn_handleError hreading ErrorCode.noConfusion
      next =>
        obtain rfl := Except.ok.inj h
        exact readsOn_deliver (keepsReader_ensureReady p) hreading _
    next => exact readRequestResponse_readsOn h hreading
    next => exact readRequestResponse_readsOn h hreading
    next =>
      split at h
      next =>
        obtain rfl := Except.ok.inj h
        exact (KeepsReader.refl p).readsOn_handleError hreading ErrorCode.noConfusion
      next =>
        obtain rfl := Except.ok.inj h
        have hpush := keepsReader_pushFrame { p with closeAfterWrite := true }
          Message.healthCheckResponse.frame
        exact ⟨hpush.options, hpush.started, hpush.isOpen, .inr (hpush.reading.trans hreading),
          fun _ => .inr hpush.closeAfterWrite, hpush.signals⟩
    next =>
      obtain rfl := Except.ok.inj h
      exact readsOn_deliver (.refl p) hreading _
    next =>
      obtain rfl := Except.ok.inj h
      exact (KeepsReader.refl p).readsOn_handleError hreading ErrorCode.noConfusion

/-- How reading goes on after a header: nothing is delivered, and the body comes next, or reading
has come to its end. -/
theorem readHeaderDone_spec (p : Peer) {errorCode : Option ErrorCode}
    (hcomplete : p.CanComplete errorCode) (transferred : Bytes) :
    (p.KeepsReader (p.readHeaderDone errorCode transferred) ∧
      (p.readHeaderDone errorCode transferred).isOpen = false) ∨
    (∃ a b c d, errorCode = none ∧ transferred = [a, b, c, d] ∧
      p.readHeaderDone errorCode transferred = p.readBody (decodeUint32 a b c d).toNat) := by
  have hsize : p.KeepsReader (p.handleError .messageSize) ∧
      (p.handleError .messageSize).isOpen = false :=
    ⟨keepsReader_handleError p _, handleError_isOpen p ErrorCode.noConfusion⟩
  unfold Peer.readHeaderDone
  split
  next =>
    left
    split
    next => exact ⟨keepsReader_close p, close_isOpen p⟩
    next => exact ⟨keepsReader_handleError p _, hcomplete.isOpen⟩
  next =>
    split
    next a b c d =>
      dsimp only
      split
      next => exact .inl hsize
      next => exact .inr ⟨a, b, c, d, rfl, rfl, rfl⟩
    next => exact .inl hsize

/-! ## Reading goes on -/

/-- A socket is read from after `async_start`; an open one is then read from until the answer to
a health check is on its way. -/
structure ReadInv (p : Peer) : Prop where
  /-- an open socket is read from or to be closed -/
  live : p.isOpen = true → p.started = true →
    p.reading.isSome = true ∨ p.closeAfterWrite = true
  /-- reading begins with the start -/
  started : p.started = false → p.reading = none

/-- A method that leaves the reading side alone. -/
theorem KeepsReader.readInv {p q : Peer} (h : p.KeepsReader q) (hinv : p.ReadInv) : q.ReadInv := by
  constructor
  · intro hopen hstarted
    rw [h.reading, h.closeAfterWrite]
    exact hinv.live (h.isOpen hopen) (h.started.symm.trans hstarted)
  · intro hstarted
    rw [h.reading]
    exact hinv.started (h.started.symm.trans hstarted)

/-- What is outstanding was started. -/
theorem ReadInv.started_of_reading {p : Peer} (h : p.ReadInv) {reading : Reading}
    (hreading : p.reading = some reading) : p.started = true := by
  cases hstarted : p.started with
  | true => rfl
  | false =>
    have hnone := h.started hstarted
    rw [hreading] at hnone
    cases hnone

/-- The invariant of a peer that was started. -/
theorem ReadInv.of_started {p : Peer} (hstarted : p.started = true)
    (hlive : p.isOpen = true → p.reading.isSome = true ∨ p.closeAfterWrite = true) : p.ReadInv :=
  ⟨fun hopen _ => hlive hopen, fun hnot => absurd (hstarted.symm.trans hnot) Bool.noConfusion⟩

/-- One step keeps the invariant. -/
theorem ReadInv.step {p q : Peer} {label : PeerLabel} (h : p.ReadInv) (hinv : p.SignalInv)
    (hstep : p.step label = some q) : q.ReadInv := by
  cases step_cases hstep with
  | start =>
    refine .of_started ?_ fun hopen => ?_
    · rw [Peer.start, Peer.readHeader]
      split <;> rfl
    · left
      rw [Peer.start, Peer.readHeader] at hopen ⊢
      split
      next => rfl
      next hclosed =>
        rw [if_neg hclosed] at hopen
        exact absurd hopen hclosed
  | close => exact (keepsReader_close p).readInv h
  | send message => exact (keepsReader_pushFrame p _).readInv h
  | aborted timer => exact ⟨h.live, h.started⟩
  | expired timer =>
    exact (keepsReader_timerExpired _ timer).readInv ⟨h.live, h.started⟩
  | headerDone errorCode transferred hreading hcomplete hsize =>
    have hstarted := h.started_of_reading hreading
    rcases readHeaderDone_spec { p with reading := none } hcomplete transferred with
      ⟨hkeeps, hclosed⟩ | ⟨a, b, c, d, rfl, rfl, hbody⟩
    · refine .of_started (hkeeps.started.trans hstarted) fun hopen => ?_
      exact absurd (hopen.symm.trans hclosed) Bool.noConfusion
    · rw [hbody]
      exact .of_started hstarted fun _ => .inl rfl
  | bodyDone errorCode transferred size hreading hcomplete hsize =>
    have hstarted := h.started_of_reading hreading
    obtain ⟨q, hq, -⟩ := hinv.reading_none.readBodyDone (hinv.body size hreading)
      errorCode transferred
    rw [hq, Peer.ofExcept]
    cases errorCode with
    | some errorCode =>
      obtain rfl := Except.ok.inj hq
      have hkeeps := keepsReader_handleError { p with reading := none } errorCode
      have hclosed := CanComplete.isOpen (p := { p with reading := none }) hcomplete
      refine .of_started (hkeeps.started.trans hstarted) fun hopen => ?_
      exact absurd (hopen.symm.trans hclosed) Bool.noConfusion
    | none =>
      rw [Peer.readBodyDone, if_neg (not_not.mpr (hsize rfl))] at hq
      have hon := readBodySwitch_readsOn hq rfl
      exact .of_started (hon.started.trans hstarted) hon.live
  | writeSome size rest => exact ⟨h.live, h.started⟩
  | writeDone errorCode rest =>
    exact (keepsReader_writeDone _ errorCode).readInv ⟨h.live, h.started⟩

/-! ## What a message delivers -/

/-- What a body does that is the body of a message: the message is delivered, if it belongs to
the application, or reading has come to its end. -/
structure Reads (p q : Peer) (message : Message) : Prop where
  /-- the messages -/
  delivered : q.delivered = p.delivered ++ applicationData [message] ∨
    q.delivered = p.delivered ∧ q.reading = none
  /-- only a health check asks for the end of the stream -/
  closeAfterWrite : q.closeAfterWrite = true → p.closeAfterWrite = true ∨ message = .healthCheck

/-- Nothing is delivered, and reading has come to its end. -/
theorem KeepsReader.reads {p q : Peer} (h : p.KeepsReader q) (hreading : p.reading = none)
    (message : Message) : p.Reads q message :=
  ⟨.inr ⟨h.delivered, h.reading.trans hreading⟩, fun hq => .inl (h.closeAfterWrite.symm.trans hq)⟩

/-- A signal that delivers the message, and the next header. -/
theorem reads_deliver {p q : Peer} (h : p.KeepsReader q) {signal : Signal} {message : Message}
    (hdelivers : signal.message?.toList = applicationData [message]) :
    p.Reads (q.enqueue signal).readHeader message := by
  have hsignals : (q.enqueue signal).delivered =
      p.delivered ++ applicationData [message] := by
    rw [← hdelivers, ← h.delivered, Peer.delivered, Peer.enqueue, List.filterMap_append,
      Peer.delivered, List.filterMap_cons, List.filterMap_nil]
    cases signal.message? <;> rfl
  constructor
  · left
    rw [Peer.readHeader]
    split <;> exact hsignals
  · rw [Peer.readHeader]
    split <;> exact fun hq => .inl (h.closeAfterWrite.symm.trans hq)

/-- The body of a request or a response delivers its data under its id. -/
theorem readRequestResponse_reads {p q : Peer} {signal : UInt64 → Bytes → Signal}
    {tag : UInt8} {id : UInt64} {data : Bytes} {message : Message}
    (h : p.readRequestResponse signal (tag :: (encodeUint64 id ++ data)) = .ok q)
    (hreading : p.reading = none)
    (hdelivers : (signal id data).message?.toList = applicationData [message]) :
    p.Reads q message := by
  rw [Peer.readRequestResponse] at h
  split at h
  next =>
    obtain rfl := Except.ok.inj h
    exact ((keepsReader_ensureReady p).trans (keepsReader_handleError _ _)).reads hreading message
  next =>
    have hdec : decodeUint64 (tag :: (encodeUint64 id ++ data)) typeSize.toNat = .ok id :=
      decodeUint64_encode [tag] data id
    have hdrop : (tag :: (encodeUint64 id ++ data)).drop
        (typeSize.toNat + requestIdSize.toNat) = data := rfl
    rw [hdec, hdrop] at h
    obtain rfl := Except.ok.inj h
    exact reads_deliver (keepsReader_ensureReady p) hdelivers

/-- The body of any message. -/
theorem readBodySwitch_reads {p q : Peer} {message : Message}
    (h : p.readBodySwitch message.body = .ok q) (hreading : p.reading = none) :
    p.Reads q message := by
  cases message with
  | heartbeat =>
    obtain rfl := Except.ok.inj h
    rw [Peer.readHeader]
    split
    next => exact ⟨.inl (List.append_nil _).symm, .inl⟩
    next => exact (KeepsReader.refl p).reads hreading _
  | userData data =>
    rw [Message.body, Peer.readBodySwitch, MessageType.ofTag_tag] at h
    dsimp only at h
    split at h
    next =>
      obtain rfl := Except.ok.inj h
      exact ((keepsReader_ensureReady p).trans (keepsReader_handleError _ _)).reads hreading _
    next =>
      obtain rfl := Except.ok.inj h
      exact reads_deliver (keepsReader_ensureReady p) rfl
  | healthCheck =>
    rw [Message.body, Peer.readBodySwitch, MessageType.ofTag_tag] at h
    dsimp only at h
    split at h
    next =>
      obtain rfl := Except.ok.inj h
      exact (keepsReader_handleError p _).reads hreading _
    next =>
      obtain rfl := Except.ok.inj h
      have hpush := keepsReader_pushFrame { p with closeAfterWrite := true }
        Message.healthCheckResponse.frame
      exact ⟨.inr ⟨hpush.delivered, hpush.reading.trans hreading⟩, fun _ => .inr rfl⟩
  | healthCheckResponse =>
    obtain rfl := Except.ok.inj h
    exact reads_deliver (.refl p) rfl
  | request id data =>
    rw [Message.body, Peer.readBodySwitch, MessageType.ofTag_tag] at h
    exact readRequestResponse_reads h hreading rfl
  | response id data =>
    rw [Message.body, Peer.readBodySwitch, MessageType.ofTag_tag] at h
    exact readRequestResponse_reads h hreading rfl

/-! ## The end of a peer -/

/-- Signals are only added. -/
theorem signals_prefix {p q : Peer} {label : PeerLabel} (hinv : p.SignalInv)
    (hstep : p.step label = some q) : p.signals <+: q.signals := by
  cases step_cases hstep with
  | start =>
    rw [Peer.start, Peer.readHeader]
    split <;> exact List.prefix_rfl
  | close => exact (keepsReader_close p).signals
  | send message => exact (keepsReader_pushFrame p _).signals
  | aborted timer => exact List.prefix_rfl
  | expired timer =>
    exact (keepsReader_timerExpired { p with waits := p.waits.erase timer } timer).signals
  | headerDone errorCode transferred hreading hcomplete hsize =>
    rcases readHeaderDone_spec { p with reading := none } hcomplete transferred with
      ⟨hkeeps, -⟩ | ⟨a, b, c, d, rfl, rfl, hbody⟩
    · exact hkeeps.signals
    · rw [hbody]
      exact List.prefix_rfl
  | bodyDone errorCode transferred size hreading hcomplete hsize =>
    obtain ⟨q, hq, -⟩ := hinv.reading_none.readBodyDone (hinv.body size hreading)
      errorCode transferred
    rw [hq, Peer.ofExcept]
    cases errorCode with
    | some errorCode =>
      obtain rfl := Except.ok.inj hq
      exact (keepsReader_handleError { p with reading := none } errorCode).signals
    | none =>
      rw [Peer.readBodyDone, if_neg (not_not.mpr (hsize rfl))] at hq
      exact (readBodySwitch_readsOn hq rfl).signals
  | writeSome size rest => exact List.prefix_rfl
  | writeDone errorCode rest =>
    exact (keepsReader_writeDone { p with writing := none } errorCode).signals

/-- A socket is not opened again. -/
theorem isOpen_of_step {p q : Peer} {label : PeerLabel} (hinv : p.SignalInv)
    (hstep : p.step label = some q) (hopen : q.isOpen = true) : p.isOpen = true := by
  cases writerStep hinv hstep with
  | keeps h => exact (h.isOpen hopen).1
  | pushes _ h => exact h.before
  | writes _ _ _ hp => exact hp
  | pops _ _ _ _ _ h => exact (h hopen).1

/-- A step that closes the socket says so. -/
theorem closed_mem_of_step {p q : Peer} {label : PeerLabel} (hinv : p.SignalInv)
    (hstep : p.step label = some q) (hopen : p.isOpen = true) (hclosed : q.isOpen = false) :
    .closed ∈ q.signals.drop p.signals.length := by
  obtain ⟨new, hnew⟩ := signals_prefix hinv hstep
  have hp := hinv.closed
  have hq := (hinv.step hstep).closed
  rw [if_pos hopen] at hp
  rw [hclosed, ← hnew, List.count_append, hp] at hq
  rw [← hnew, List.drop_left]
  refine List.count_pos_iff.mp ?_
  rw [Nat.zero_add] at hq
  rw [hq]
  decide

/-! ## Every run -/

/-- A new peer has raised nothing, and neither reads nor writes. -/
theorem init_inv (options : CommonOptions) :
    (init options).SignalInv ∧ (init options).WriteInv ∧ (init options).ReadInv := by
  refine ⟨?_, ?_, fun _ hstarted => Bool.noConfusion hstarted, fun _ => rfl⟩
  · exact ⟨rfl, rfl, rfl, readyFirst_nil, fun _ hs => absurd hs List.not_mem_nil,
      fun _ hs => absurd hs (Option.some_ne_none _).symm, Nat.zero_le _⟩
  · exact ⟨fun _ => ⟨fun _ => rfl, fun _ => rfl⟩, fun _ hclosing => Bool.noConfusion hclosing⟩

/-- In every run, whatever bytes and errors the socket delivers: no read is out of bounds,
`closed` and `ready` are raised once and when they are true, messages come after `ready` and are
within the limit, the queue is bounded; and an open socket is written to as long as there is
something to write, and read from unless the answer to a health check is on its way, after which
it is closed. -/
theorem peer_robust (options : CommonOptions) (labels : List PeerLabel) {q : Peer}
    (h : Transition.run Peer.step (init options) labels = some q) :
    q.options = options ∧ q.SignalInv ∧ q.WriteInv ∧ q.ReadInv := by
  refine Transition.run_invariant
    (I := fun p => p.options = options ∧ p.SignalInv ∧ p.WriteInv ∧ p.ReadInv) ?_ ?_ h
  · exact ⟨rfl, init_inv options⟩
  · rintro p label q ⟨hoptions, hsignals, hwrite, hread⟩ hstep
    have hwriter := writerStep hsignals hstep
    refine ⟨?_, hsignals.step hstep, hwrite.step hwriter, hread.step hsignals hstep⟩
    exact hwriter.options.trans hoptions

/-- A message of two bytes is read, then the socket is closed with a read outstanding. -/
def readAndCloseRun : List PeerLabel :=
  [.start, .readDone none [0, 0, 0, 3], .readDone none [1, 7, 8], .send (.userData [9]), .close,
   .readDone (some .operationAborted) []]

/-- In that run it is ready, delivers the message and is closed, and the invariant holds. -/
theorem peer_robust_read_and_close :
    ∃ q, Transition.run Peer.step (init ⟨1024, 1024⟩) readAndCloseRun = some q ∧
      q.signals = [.ready, .received [7, 8], .closed] ∧ q.SignalInv :=
  ⟨_, rfl, rfl, (peer_robust ⟨1024, 1024⟩ readAndCloseRun rfl).2.1⟩

end Peer

end VirtualHidDevice.UnixDomainStream
