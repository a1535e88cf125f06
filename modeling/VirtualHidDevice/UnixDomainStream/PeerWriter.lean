import VirtualHidDevice.UnixDomainStream.PeerSignals

/-!
# The writing side of a peer

A peer writes the frames of its queue one after the other.

* `Peer.KeepsWriter` — a method that leaves the queue and the outstanding write alone, or closes
  the socket.
* `Peer.Pushes`, `Peer.WriterStep` — what a frame that is queued changes, and what any step can do
  on this side.
* `Peer.WriteInv` — a write is outstanding as long as there is something to write.

`writerStep` reduces every step to these.
-/

namespace VirtualHidDevice.UnixDomainStream

namespace Peer

/-! ## Methods that do not write -/

/-- The writing side is as before, or the socket is closed. -/
structure KeepsWriter (p q : Peer) : Prop where
  /-- the limits never change -/
  options : q.options = p.options
  /-- a socket is not opened again, and an open one keeps its queue and its write -/
  isOpen : q.isOpen = true → p.isOpen = true ∧ q.closeAfterWrite = p.closeAfterWrite ∧
    q.writing = p.writing ∧ q.writeQueue = p.writeQueue

theorem KeepsWriter.refl (p : Peer) : p.KeepsWriter p :=
  ⟨rfl, fun h => ⟨h, rfl, rfl, rfl⟩⟩

/-- On a closed socket nothing is kept. -/
theorem KeepsWriter.of_closed {p q : Peer} (hoptions : q.options = p.options)
    (hclosed : q.isOpen = false) : p.KeepsWriter q :=
  ⟨hoptions, fun hopen => absurd (hopen.symm.trans hclosed) Bool.noConfusion⟩

theorem KeepsWriter.trans {p q r : Peer} (h₁ : p.KeepsWriter q) (h₂ : q.KeepsWriter r) :
    p.KeepsWriter r := by
  refine ⟨h₂.options.trans h₁.options, fun hopen => ?_⟩
  obtain ⟨hq, hclosing, hwriting, hqueue⟩ := h₂.isOpen hopen
  obtain ⟨hp, hclosing', hwriting', hqueue'⟩ := h₁.isOpen hq
  exact ⟨hp, hclosing.trans hclosing', hwriting.trans hwriting', hqueue.trans hqueue'⟩

theorem keepsWriter_enqueue (p : Peer) (signal : Signal) : p.KeepsWriter (p.enqueue signal) :=
  ⟨rfl, fun h => ⟨h, rfl, rfl, rfl⟩⟩

theorem keepsWriter_startTimer (p : Peer) (timer : Timer) : p.KeepsWriter (p.startTimer timer) :=
  ⟨rfl, fun h => ⟨h, rfl, rfl, rfl⟩⟩

/-- Closing the socket. -/
theorem keepsWriter_close (p : Peer) : p.KeepsWriter p.close := by
  rw [Peer.close]
  split
  next => exact .of_closed rfl rfl
  next => exact .refl _

/-- Handling an error. -/
theorem keepsWriter_handleError (p : Peer) (errorCode : ErrorCode) :
    p.KeepsWriter (p.handleError errorCode) := by
  rw [Peer.handleError]
  split
  next => exact .refl _
  next => exact (keepsWriter_enqueue p _).trans (keepsWriter_close _)

theorem keepsWriter_ensureReady (p : Peer) : p.KeepsWriter p.ensureReady := by
  rw [Peer.ensureReady]
  split
  next => exact .refl _
  next => exact ⟨rfl, fun h => ⟨h, rfl, rfl, rfl⟩⟩

theorem keepsWriter_readHeader (p : Peer) : p.KeepsWriter p.readHeader := by
  rw [Peer.readHeader]
  split
  next => exact ⟨rfl, fun h => ⟨h, rfl, rfl, rfl⟩⟩
  next => exact .refl _

/-- The handler of a header. -/
theorem keepsWriter_readHeaderDone (p : Peer) (errorCode : Option ErrorCode)
    (transferred : Bytes) : p.KeepsWriter (p.readHeaderDone errorCode transferred) := by
  unfold Peer.readHeaderDone
  split
  next =>
    split
    next => exact keepsWriter_close p
    next => exact keepsWriter_handleError p _
  next =>
    split
    next =>
      dsimp only
      split
      next => exact keepsWriter_handleError p _
      next => exact ⟨rfl, fun h => ⟨h, rfl, rfl, rfl⟩⟩
    next => exact keepsWriter_handleError p _

/-! ## Frames -/

/-- After `close()` the socket is closed. -/
theorem close_isOpen (p : Peer) : p.close.isOpen = false := by
  rw [Peer.close]
  split
  next => rfl
  next h => simpa using h

/-- After an error other than an abort the socket is closed. -/
theorem handleError_isOpen (p : Peer) {errorCode : ErrorCode} (h : errorCode ≠ .operationAborted) :
    (p.handleError errorCode).isOpen = false := by
  rw [Peer.handleError, if_neg h]
  exact close_isOpen _

/-- A frame is queued, and written at once if nothing else is. -/
structure Pushes (p q : Peer) (frame : Bytes) : Prop where
  /-- the socket was open -/
  before : p.isOpen = true
  /-- the socket is open -/
  after : q.isOpen = true
  /-- the frame may be sent -/
  valid : validOutgoingFrame p.options.maxMessageSize frame = true
  /-- the limits never change -/
  options : q.options = p.options
  /-- the queue -/
  writeQueue : q.writeQueue = p.writeQueue ++ [frame]
  /-- the outstanding write -/
  writing : q.writing = if p.writeQueue = [] then some frame else p.writing

/-- What `push_frame` does. -/
theorem pushFrame_cases (p : Peer) (frame : Bytes) :
    (p.KeepsWriter (p.pushFrame frame) ∧ (p.pushFrame frame).isOpen = false) ∨
      p.Pushes (p.pushFrame frame) frame := by
  rw [Peer.pushFrame]
  split
  next hclosed =>
    exact .inl ⟨.refl _, by simpa using hclosed⟩
  next hopen =>
    simp only [Bool.not_eq_true', Bool.not_eq_false] at hopen
    split
    next =>
      exact .inl ⟨keepsWriter_handleError p _, handleError_isOpen p ErrorCode.noConfusion⟩
    next hvalid =>
      simp only [Bool.or_eq_true, Bool.not_eq_true', not_or, Bool.not_eq_false] at hvalid
      right
      cases hqueue : p.writeQueue with
      | nil =>
        constructor <;> simp [Peer.write, hopen, hvalid.1, Peer.startTimer, hqueue]
      | cons head tail =>
        constructor <;> simp [hopen, hvalid.1, hqueue]

/-- The `switch` over the type leaves the writing side alone or queues the answer to a health
check. -/
theorem readBodySwitch_writer {p q : Peer} {body : Bytes} (h : p.readBodySwitch body = .ok q) :
    p.KeepsWriter q ∨ p.Pushes q Message.healthCheckResponse.frame := by
  have hid : ∀ signal, p.readRequestResponse signal body = .ok q → p.KeepsWriter q := by
    intro signal h
    rw [Peer.readRequestResponse] at h
    split at h
    next =>
      obtain rfl := Except.ok.inj h
      exact (keepsWriter_ensureReady p).trans (keepsWriter_handleError _ _)
    next =>
      cases hdec : decodeUint64 body typeSize.toNat with
      | error => rw [hdec] at h; cases h
      | ok id =>
        rw [hdec] at h
        obtain rfl := Except.ok.inj h
        exact ((keepsWriter_ensureReady p).trans (keepsWriter_enqueue _ _)).trans
          (keepsWriter_readHeader _)
  unfold Peer.readBodySwitch at h
  split at h
  next => cases h
  next =>
    split at h
    next =>
      obtain rfl := Except.ok.inj h
      exact .inl (keepsWriter_readHeader p)
    next =>
      dsimp only at h
      split at h
      next =>
        obtain rfl := Except.ok.inj h
        exact .inl ((keepsWriter_ensureReady p).trans (keepsWriter_handleError _ _))
      next =>
        obtain rfl := Except.ok.inj h
        exact .inl (((keepsWriter_ensureReady p).trans (keepsWriter_enqueue _ _)).trans
          (keepsWriter_readHeader _))
    next => exact .inl (hid _ h)
    next => exact .inl (hid _ h)
    next =>
      split at h
      next =>
        obtain rfl := Except.ok.inj h
        exact .inl (keepsWriter_handleError p _)
      next =>
        obtain rfl := Except.ok.inj h
        rcases pushFrame_cases { p with closeAfterWrite := true }
          Message.healthCheckResponse.frame with ⟨hkeeps, hclosed⟩ | hpush
        · exact .inl (.of_closed hkeeps.options hclosed)
        · exact .inr ⟨hpush.before, hpush.after, hpush.valid, hpush.options, hpush.writeQueue,
            hpush.writing⟩
    next =>
      obtain rfl := Except.ok.inj h
      exact .inl ((keepsWriter_enqueue p _).trans (keepsWriter_readHeader _))
    next =>
      obtain rfl := Except.ok.inj h
      exact .inl (keepsWriter_handleError p _)

/-! ## Steps -/

/-- The bytes that a step gives to the socket. -/
def output (p : Peer) : PeerLabel → Bytes
  | .writeSome size => (p.writing.getD []).take size
  | _ => []

end Peer

/-- The message that a step is asked to send. -/
def PeerLabel.sent : PeerLabel → List Message
  | send message => [message]
  | _ => []

namespace Peer

/-- What a step does on the writing side. -/
inductive WriterStep (p : Peer) (label : PeerLabel) (q : Peer) : Prop where
  /-- nothing, or the socket is closed -/
  | keeps (h : p.KeepsWriter q) (houtput : p.output label = [])
    (hsent : q.isOpen = true → label.sent = [])
  /-- it queues what it was asked to send, or a message of its own -/
  | pushes (message : Message) (h : p.Pushes q message.frame) (houtput : p.output label = [])
    (hsent : label.sent = [message] ∨ label.sent = [] ∧ message.isSendable = false)
  /-- the socket takes some bytes -/
  | writes (rest : Bytes) (size : ℕ) (hwriting : p.writing = some rest) (hopen : p.isOpen = true)
    (hlabel : label = .writeSome size) (hq : q = { p with writing := some (rest.drop size) })
  /-- a frame is written -/
  | pops (hwriting : p.writing = some []) (houtput : p.output label = [])
    (hsent : label.sent = []) (hoptions : q.options = p.options)
    (hqueue : q.writeQueue = p.writeQueue.tail)
    (hopen : q.isOpen = true → p.isOpen = true ∧ q.writing = q.writeQueue.head? ∧
      (q.writeQueue = [] → q.closeAfterWrite = false))

theorem WriterStep.options {p q : Peer} {label : PeerLabel}
    (hstep : p.WriterStep label q) : q.options = p.options := by
  cases hstep with
  | keeps h => exact h.options
  | pushes _ h => exact h.options
  | writes rest size _ _ _ hq => rw [hq]
  | pops _ _ _ h => exact h

/-- A step that leaves the writing side alone. -/
theorem KeepsWriter.writerStep {p q : Peer} {label : PeerLabel} (h : p.KeepsWriter q)
    (houtput : p.output label = []) (hsent : label.sent = []) : p.WriterStep label q :=
  .keeps h houtput fun _ => hsent

/-- A step that sends a message queues it, or the socket is closed. -/
theorem pushFrame_writerStep (p : Peer) (message : Message) {label : PeerLabel}
    (houtput : p.output label = [])
    (hsent : label.sent = [message] ∨ label.sent = [] ∧ message.isSendable = false) :
    p.WriterStep label (p.pushFrame message.frame) := by
  rcases pushFrame_cases p message.frame with ⟨hkeeps, hclosed⟩ | hpush
  · exact .keeps hkeeps houtput fun hopen => absurd (hopen.symm.trans hclosed) Bool.noConfusion
  · exact .pushes message hpush houtput hsent

/-- The writing side does not look at the timers or at the outstanding read. -/
theorem keepsWriter_congr (p : Peer) (waits : List Timer) (reading : Option Reading) :
    p.KeepsWriter { p with waits, reading } :=
  ⟨rfl, fun h => ⟨h, rfl, rfl, rfl⟩⟩

/-- The handlers of the timers: only the heartbeat is written. -/
theorem timerExpired_writerStep (p : Peer) (waits : List Timer) (timer : Timer) :
    p.WriterStep (.timer timer false) ({ p with waits }.timerExpired timer) := by
  have hcongr : p.KeepsWriter { p with waits } := keepsWriter_congr p waits p.reading
  cases timer with
  | readyDeadline => exact (hcongr.trans (keepsWriter_ensureReady _)).writerStep rfl rfl
  | heartbeatTimer =>
    rw [Peer.timerExpired]
    split
    next =>
      rcases pushFrame_cases { p with waits } Message.heartbeat.frame with ⟨hkeeps, -⟩ | hpush
      · exact ((hcongr.trans hkeeps).trans (keepsWriter_startTimer _ _)).writerStep rfl rfl
      · exact .pushes .heartbeat ⟨hpush.before, hpush.after, hpush.valid, hpush.options,
          hpush.writeQueue, hpush.writing⟩ rfl (.inr ⟨rfl, rfl⟩)
    next => exact hcongr.writerStep rfl rfl
  | heartbeatDeadline => exact (hcongr.trans (keepsWriter_handleError _ _)).writerStep rfl rfl
  | readDeadline => exact (hcongr.trans (keepsWriter_handleError _ _)).writerStep rfl rfl
  | writeDeadline => exact (hcongr.trans (keepsWriter_handleError _ _)).writerStep rfl rfl

/-- The handler of a body: only the answer to a health check is written. -/
theorem readBodyDone_writerStep {p q : Peer} {size : ℕ} {errorCode : Option ErrorCode}
    {transferred : Bytes}
    (h : { p with reading := none }.readBodyDone size errorCode transferred = .ok q) :
    p.WriterStep (.readDone errorCode transferred) q := by
  have hcongr : p.KeepsWriter { p with reading := none } := keepsWriter_congr p p.waits none
  unfold Peer.readBodyDone at h
  split at h
  next =>
    obtain rfl := Except.ok.inj h
    exact (hcongr.trans (keepsWriter_handleError _ _)).writerStep rfl rfl
  next =>
    split at h
    next =>
      obtain rfl := Except.ok.inj h
      exact (hcongr.trans (keepsWriter_handleError _ _)).writerStep rfl rfl
    next =>
      rcases readBodySwitch_writer h with hkeeps | hpush
      · exact (hcongr.trans ((keepsWriter_startTimer _ _).trans hkeeps)).writerStep rfl rfl
      · exact .pushes .healthCheckResponse ⟨hpush.before, hpush.after, hpush.valid, hpush.options,
          hpush.writeQueue, hpush.writing⟩ rfl (.inr ⟨rfl, rfl⟩)

/-- An operation that completes with an error leaves the socket closed. -/
theorem CanComplete.isOpen {p : Peer} {errorCode : ErrorCode}
    (h : p.CanComplete (some errorCode)) : (p.handleError errorCode).isOpen = false := by
  by_cases habort : errorCode = .operationAborted
  · rw [Peer.handleError, if_pos habort]
    exact h (congrArg some habort)
  · exact handleError_isOpen p habort

/-- The handler of a write takes the frame from the queue and writes the next one. -/
theorem writeDone_writerStep {p : Peer} {errorCode : Option ErrorCode} {rest : Bytes}
    (hwriting : p.writing = some rest) (hcomplete : p.CanComplete errorCode)
    (hrest : errorCode = none → rest = []) :
    p.WriterStep (.writeDone errorCode) ({ p with writing := none }.writeDone errorCode) := by
  cases errorCode with
  | some errorCode =>
    refine KeepsWriter.writerStep (.of_closed ?_ ?_) rfl rfl
    · exact (keepsWriter_handleError { p with writing := none } errorCode).options
    · exact CanComplete.isOpen (p := { p with writing := none }) hcomplete
  | none =>
    rw [Peer.writeDone]
    obtain rfl := hrest rfl
    split
    next =>
      refine .pops hwriting rfl rfl (keepsWriter_close _).options ?_ fun hopen => ?_
      · rw [Peer.close]
        split <;> rfl
      · exact absurd (hopen.symm.trans (close_isOpen _)) Bool.noConfusion
    next hclosing =>
      cases hqueue : p.writeQueue.tail with
      | nil =>
        refine .pops hwriting rfl rfl rfl ?_ fun hopen => ⟨hopen, ?_, fun _ => ?_⟩ <;>
          simp_all [Peer.write]
      | cons frame queue =>
        by_cases hopen : p.isOpen = true
        · refine .pops hwriting rfl rfl ?_ ?_ fun _ => ⟨hopen, ?_, fun hnil => ?_⟩ <;>
            simp_all [Peer.write, Peer.startTimer]
        · refine .pops hwriting rfl rfl ?_ ?_ fun hopen' => absurd ?_ hopen <;>
            simp_all [Peer.write]

/-- What any step does on the writing side. -/
theorem writerStep {p q : Peer} {label : PeerLabel} (hinv : p.SignalInv)
    (h : p.step label = some q) : p.WriterStep label q := by
  cases step_cases h with
  | start =>
    have hstart : p.KeepsWriter { p with started := true }.start :=
      KeepsWriter.trans (q := { p with started := true }) ⟨rfl, fun h => ⟨h, rfl, rfl, rfl⟩⟩
        ((((keepsWriter_startTimer _ _).trans (keepsWriter_startTimer _ _)).trans
          (keepsWriter_startTimer _ _)).trans (keepsWriter_readHeader _))
    exact hstart.writerStep rfl rfl
  | close => exact (keepsWriter_close p).writerStep rfl rfl
  | send message => exact pushFrame_writerStep p message rfl (.inl rfl)
  | aborted timer =>
    exact KeepsWriter.writerStep ⟨rfl, fun h => ⟨h, rfl, rfl, rfl⟩⟩ rfl rfl
  | expired timer => exact timerExpired_writerStep p _ timer
  | headerDone errorCode transferred =>
    refine KeepsWriter.writerStep ?_ rfl rfl
    exact (keepsWriter_congr p p.waits none).trans (keepsWriter_readHeaderDone _ _ _)
  | bodyDone errorCode transferred size hreading =>
    obtain ⟨q, hq, -⟩ := hinv.reading_none.readBodyDone (hinv.body size hreading)
      errorCode transferred
    rw [hq]
    exact readBodyDone_writerStep hq
  | writeSome size rest hwriting hopen => exact .writes rest size hwriting hopen rfl rfl
  | writeDone errorCode rest hwriting hcomplete hrest =>
    exact writeDone_writerStep hwriting hcomplete hrest

/-! ## Writing goes on -/

/-- Writing goes on as long as there is something to write, and a peer that is to be closed
after writing has something to write. -/
structure WriteInv (p : Peer) : Prop where
  /-- a write is outstanding exactly when the queue is not empty -/
  writing : p.isOpen = true → (p.writing = none ↔ p.writeQueue = [])
  /-- the answer to a health check is on its way -/
  closing : p.isOpen = true → p.closeAfterWrite = true → p.writeQueue ≠ []

/-- One step keeps the invariant. -/
theorem WriteInv.step {p q : Peer} {label : PeerLabel} (h : p.WriteInv)
    (hstep : p.WriterStep label q) : q.WriteInv := by
  cases hstep with
  | keeps hkeeps =>
    constructor
    · intro hopen
      obtain ⟨hp, -, hwriting, hqueue⟩ := hkeeps.isOpen hopen
      rw [hwriting, hqueue]
      exact h.writing hp
    · intro hopen hclosing
      obtain ⟨hp, hclosing', -, hqueue⟩ := hkeeps.isOpen hopen
      rw [hqueue]
      exact h.closing hp (hclosing'.symm.trans hclosing)
  | pushes message hpush =>
    have hne : q.writeQueue ≠ [] := by
      rw [hpush.writeQueue]
      exact List.append_ne_nil_of_right_ne_nil _ (List.cons_ne_nil _ _)
    refine ⟨fun _ => ⟨fun hnone => ?_, fun hnil => absurd hnil hne⟩, fun _ _ => hne⟩
    rw [hpush.writing] at hnone
    split at hnone
    next => cases hnone
    next hqueue => exact absurd ((h.writing hpush.before).mp hnone) hqueue
  | writes rest size hwriting hopen hlabel hq =>
    subst hq
    refine ⟨fun _ => ⟨fun hnone => (Option.some_ne_none _ hnone).elim, fun hnil => ?_⟩,
      h.closing⟩
    have hnone := (h.writing hopen).mpr hnil
    rw [hwriting] at hnone
    cases hnone
  | pops hwriting houtput hsent hoptions hqueue hopen =>
    constructor
    · intro hq
      obtain ⟨-, hwriting, -⟩ := hopen hq
      rw [hwriting, List.head?_eq_none_iff]
    · intro hq hclosing hnil
      obtain ⟨-, -, hnot⟩ := hopen hq
      exact absurd (hclosing.symm.trans (hnot hnil)) Bool.noConfusion

end Peer

end VirtualHidDevice.UnixDomainStream
