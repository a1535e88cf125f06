import VirtualHidDevice.UnixDomainStream.PeerReader

/-!
# Two ends of one stream

Two peers whose sockets are connected: what one socket takes of a write is in transit until the
other socket delivers it to a read, in order, and in pieces of any size.

* `Link` — the two peers and the bytes in transit, `Link.step` a step of one of them.
* `LinkInv` — what the writing side has queued and written and what the reading side has read,
  as messages: those that were read, followed by those whose bytes are on their way.

`stream_in_order` is the result: the messages that one side delivers are those that the other
side was asked to send, in order, without loss or repetition; all of them, if nothing is on
its way.
-/

namespace VirtualHidDevice.UnixDomainStream

/-! ## The system -/

/-- An end of the stream. -/
inductive Side where
  /-- the end that connects -/
  | client
  /-- the end that accepts -/
  | server
deriving DecidableEq, Repr

/-- The other end. -/
def Side.other : Side → Side
  | client => server
  | server => client

@[simp] theorem Side.other_other (side : Side) : side.other.other = side := by
  cases side <;> rfl

theorem Side.other_ne (side : Side) : side.other ≠ side := by
  cases side <;> exact Side.noConfusion

/-- Two connected peers. -/
structure Link where
  /-- the peers -/
  peer : Side → Peer
  /-- the bytes that a side has written and the other has not read -/
  transit : Side → Bytes

/-- The bytes that a step takes from the socket. -/
def PeerLabel.input : PeerLabel → Bytes
  | readDone _ transferred => transferred
  | _ => []

namespace Link

/-- Both ends of a stream that was just connected. -/
def init (options : Side → CommonOptions) : Link :=
  { peer := fun side => Peer.init (options side), transit := fun _ => [] }

/-- A step of one side. It reads what is in transit. -/
def step (s : Link) (label : Side × PeerLabel) : Option Link :=
  if label.2.input <+: s.transit label.1.other then
    ((s.peer label.1).step label.2).map fun q =>
      { peer := Function.update s.peer label.1 q
        transit := Function.update
          (Function.update s.transit label.1
            (s.transit label.1 ++ (s.peer label.1).output label.2))
          label.1.other ((s.transit label.1.other).drop label.2.input.length) }
  else none

/-- The messages that a side was asked to send. -/
def sent (side : Side) (labels : List (Side × PeerLabel)) : List Message :=
  labels.flatMap fun label => if label.1 = side then label.2.sent else []

end Link

/-! ## The bytes of a stream as messages -/

/-- The bytes that are queued or written in part. -/
def Peer.unsent (p : Peer) : Bytes := p.writing.getD [] ++ p.writeQueue.tail.flatten

/-- What is pushed: what the step was asked to send, or a message of the peer's own. -/
theorem filter_of_sent {label : PeerLabel} {message : Message}
    (h : label.sent = [message] ∨ label.sent = [] ∧ message.isSendable = false) :
    applicationData [message] = applicationData label.sent ∧
      (.healthCheck ∈ [message] → .healthCheck ∈ label.sent) := by
  rcases h with hsent | ⟨hsent, hown⟩
  · rw [hsent]
    exact ⟨rfl, id⟩
  · rw [hsent]
    cases message <;> simp_all [Message.isSendable, Message.data?, applicationData]

/-- What a step of the writing side adds to the bytes that are on their way. -/
theorem Peer.WriteInv.unsent {p q : Peer} {label : PeerLabel} (h : p.WriteInv)
    (hstep : p.WriterStep label q) (hopen : q.isOpen = true) :
    p.isOpen = true ∧ q.options = p.options ∧ ∃ new : List Message,
      (∀ message ∈ new, validOutgoingFrame p.options.maxMessageSize message.frame = true) ∧
      applicationData new = applicationData label.sent ∧
      (.healthCheck ∈ new → .healthCheck ∈ label.sent) ∧
      p.unsent ++ new.flatMap Message.frame = p.output label ++ q.unsent := by
  cases hstep with
  | keeps hkeeps houtput hsent =>
    obtain ⟨hp, -, hwriting, hqueue⟩ := hkeeps.isOpen hopen
    refine ⟨hp, hkeeps.options, [], fun _ hm => absurd hm List.not_mem_nil, ?_,
      fun hm => absurd hm List.not_mem_nil, ?_⟩
    · rw [hsent hopen]
    · rw [houtput, Peer.unsent, Peer.unsent, hwriting, hqueue]
      exact List.append_nil _
  | pushes message hpush houtput hsent =>
    obtain ⟨hfilter, hhealth⟩ := filter_of_sent hsent
    refine ⟨hpush.before, hpush.options, [message], ?_, hfilter, hhealth, ?_⟩
    · intro m hm
      obtain rfl := List.mem_singleton.mp hm
      exact hpush.valid
    · rw [houtput, Peer.unsent, Peer.unsent, hpush.writing, hpush.writeQueue]
      cases hqueue : p.writeQueue with
      | nil => simp [(h.writing hpush.before).mpr hqueue]
      | cons frame queue => simp
  | writes rest size hwriting hp hlabel hq =>
    subst hq hlabel
    refine ⟨hp, rfl, [], fun _ hm => absurd hm List.not_mem_nil, rfl,
      fun hm => absurd hm List.not_mem_nil, ?_⟩
    rw [Peer.unsent, Peer.unsent, Peer.output, hwriting, Option.getD_some, Option.getD_some,
      ← List.append_assoc, List.take_append_drop]
    exact List.append_nil _
  | pops hwriting houtput hsent hoptions hqueue hq =>
    obtain ⟨hp, hwriting', -⟩ := hq hopen
    refine ⟨hp, hoptions, [], fun _ hm => absurd hm List.not_mem_nil, ?_,
      fun hm => absurd hm List.not_mem_nil, ?_⟩
    · rw [hsent]
    · rw [houtput, Peer.unsent, Peer.unsent, hwriting, hwriting', hqueue]
      cases p.writeQueue.tail with
      | nil => rfl
      | cons frame queue => simp

/-- A step that closes the socket or finds it closed writes nothing. -/
theorem Peer.WriterStep.output_eq_nil {p q : Peer} {label : PeerLabel}
    (hstep : p.WriterStep label q) (hclosed : q.isOpen = false) :
    p.output label = [] := by
  cases hstep with
  | keeps _ houtput => exact houtput
  | pushes _ _ houtput => exact houtput
  | writes rest size _ hopen _ hq =>
    subst hq
    exact absurd (hopen.symm.trans hclosed) Bool.noConfusion
  | pops _ houtput => exact houtput

/-- What the reading side waits for, when these messages come next. -/
inductive Awaits : Reading → List Message → Bytes → Prop where
  /-- a header: the frames of the messages -/
  | header (messages : List Message) : Awaits .header messages (messages.flatMap Message.frame)
  /-- a body: that of the first message, whose header was read -/
  | body (message : Message) (messages : List Message) :
    Awaits (.body message.body.length) (message :: messages)
      (message.body ++ messages.flatMap Message.frame)

/-- More messages do not change what is awaited. -/
theorem Awaits.append {reading : Reading} {messages : List Message} {bytes : Bytes}
    (h : Awaits reading messages bytes) (new : List Message) :
    Awaits reading (messages ++ new) (bytes ++ new.flatMap Message.frame) := by
  cases h with
  | header =>
    rw [← List.flatMap_append]
    exact .header _
  | body message messages =>
    rw [List.append_assoc, ← List.flatMap_append]
    exact .body message _

/-- One direction of a stream, from `a` to `b`: the messages that were read and those that are on
their way make up what `a` was asked to send, or the first part of it once `a` is closed. -/
structure Flow (a b : Peer) (transit : Bytes) (sent read rest : List Message) : Prop where
  /-- what was read was delivered -/
  delivered : b.delivered = applicationData read
  /-- everything was sent in this order -/
  order : applicationData (read ++ rest) <+: applicationData sent
  /-- an open peer has lost nothing -/
  all : a.isOpen = true →
    applicationData (read ++ rest) = applicationData sent
  /-- the frames on their way are well formed -/
  valid : ∀ message ∈ rest, validOutgoingFrame a.options.maxMessageSize message.frame = true
  /-- as long as `b` reads, what it reads are these messages -/
  position : ∀ reading, b.position = some reading → ∃ tail,
    Awaits reading rest (transit ++ tail) ∧ (a.isOpen = true → tail = a.unsent)
  /-- health checks are sent too -/
  healthCheck : .healthCheck ∈ read ++ rest → .healthCheck ∈ sent
  /-- only a health check ends the stream -/
  closing : b.closeAfterWrite = true → .healthCheck ∈ read ++ rest

/-- The writer takes a step: what it is asked to send is queued behind the rest, and bytes go from
its queue into transit. -/
theorem Flow.writer {a a' b : Peer} {transit : Bytes} {sent read rest : List Message}
    {label : PeerLabel} (h : Flow a b transit sent read rest) (hwrite : a.WriteInv)
    (hstep : a.WriterStep label a') :
    ∃ rest', Flow a' b (transit ++ a.output label) (sent ++ label.sent) read rest' := by
  cases hopen : a'.isOpen with
  | false =>
    have houtput := hstep.output_eq_nil hopen
    have hnot : a'.isOpen ≠ true := fun ht => absurd (ht.symm.trans hopen) Bool.noConfusion
    rw [houtput, List.append_nil]
    refine ⟨rest, h.delivered, ?_, fun ht => absurd ht hnot, ?_, ?_, ?_, h.closing⟩
    · exact h.order.trans (applicationData_append sent label.sent ▸ List.prefix_append _ _)
    · rw [hstep.options]
      exact h.valid
    · intro reading hreading
      obtain ⟨tail, hawaits, -⟩ := h.position reading hreading
      exact ⟨tail, hawaits, fun ht => absurd ht hnot⟩
    · exact fun hm => List.mem_append_left _ (h.healthCheck hm)
  | true =>
    obtain ⟨hp, hoptions, new, hvalid, hfilter, hhealth, hunsent⟩ := hwrite.unsent hstep hopen
    have hall : applicationData (read ++ (rest ++ new)) =
        applicationData (sent ++ label.sent) := by
      rw [← List.append_assoc, applicationData_append, h.all hp, hfilter, applicationData_append]
    refine ⟨rest ++ new, h.delivered, hall ▸ List.prefix_rfl, fun _ => hall, ?_, ?_, ?_, ?_⟩
    · intro message hm
      rw [hoptions]
      rcases List.mem_append.mp hm with hm | hm
      · exact h.valid message hm
      · exact hvalid message hm
    · intro reading hreading
      obtain ⟨tail, hawaits, htail⟩ := h.position reading hreading
      obtain rfl := htail hp
      refine ⟨a'.unsent, ?_, fun _ => rfl⟩
      rw [List.append_assoc, ← hunsent, ← List.append_assoc]
      exact hawaits.append new
    · intro hm
      rw [← List.append_assoc, List.mem_append] at hm
      rcases hm with hm | hm
      · exact List.mem_append_left _ (h.healthCheck hm)
      · exact List.mem_append_right _ (hhealth hm)
    · intro hclosing
      rw [← List.append_assoc]
      exact List.mem_append_left _ (h.closing hclosing)

/-- Reading goes on where it was or has come to its end; nothing is delivered. -/
theorem Flow.keeps {a b b' : Peer} {transit transit' : Bytes} {sent read rest : List Message}
    (h : Flow a b transit sent read rest) (hdelivered : b'.delivered = b.delivered)
    (hposition : b'.position = none ∨ b'.position = b.position ∧ transit' = transit)
    (hclosing : b'.closeAfterWrite = b.closeAfterWrite) :
    Flow a b' transit' sent read rest := by
  refine ⟨hdelivered.trans h.delivered, h.order, h.all, h.valid, ?_, h.healthCheck,
    fun hb => h.closing (hclosing.symm.trans hb)⟩
  intro reading hreading
  rcases hposition with hnone | ⟨hsame, rfl⟩
  · rw [hnone] at hreading
    cases hreading
  · exact h.position reading (hsame.symm.trans hreading)

/-- The header of the first message that is awaited. -/
theorem Awaits.header_inv {messages : List Message} {bytes rest : Bytes} {w x y z : UInt8}
    (h : Awaits .header messages bytes) (hbytes : bytes = w :: x :: y :: z :: rest)
    (hvalid : ∀ message ∈ messages, message.body.length < 2 ^ 32) :
    Awaits (.body (decodeUint32 w x y z).toNat) messages rest := by
  cases h with
  | header =>
    cases messages with
    | nil => cases hbytes
    | cons message messages =>
      obtain ⟨a, b, c, d, hframe, hdec⟩ := message.frame_header
      rw [List.flatMap_cons, hframe] at hbytes
      simp only [List.cons_append, List.cons.injEq] at hbytes
      obtain ⟨rfl, rfl, rfl, rfl, rfl⟩ := hbytes
      rw [hdec, Nat.mod_eq_of_lt (hvalid message List.mem_cons_self)]
      exact .body message messages

/-- The body of the first message that is awaited. -/
theorem Awaits.body_inv {messages : List Message} {size : ℕ} {bytes : Bytes}
    (h : Awaits (.body size) messages bytes) {front rest : Bytes} (hbytes : bytes = front ++ rest)
    (hsize : front.length = size) :
    ∃ message messages', messages = message :: messages' ∧ front = message.body ∧
      Awaits .header messages' rest := by
  cases h with
  | body message messages =>
    obtain ⟨rfl, rfl⟩ := List.append_inj hbytes hsize.symm
    exact ⟨message, messages, rfl, rfl, .header messages⟩

/-- Such a method does not move the position. -/
theorem Peer.KeepsReader.position {p q : Peer} (h : p.KeepsReader q) :
    q.position = p.position := by
  rw [Peer.position, Peer.position, h.started, h.reading]

theorem Peer.position_of_started {p : Peer} (h : p.started = true) : p.position = p.reading :=
  if_pos h

/-- A header was read. -/
theorem Flow.header {a b b' : Peer} {transit transit' : Bytes} {sent read rest : List Message}
    {w x y z : UInt8} (h : Flow a b transit sent read rest) (hposition : b.position = some .header)
    (htransit : transit = w :: x :: y :: z :: transit') (hkeeps : b'.delivered = b.delivered)
    (hclosing : b'.closeAfterWrite = b.closeAfterWrite)
    (hnext : b'.position = some (.body (decodeUint32 w x y z).toNat)) :
    Flow a b' transit' sent read rest := by
  refine ⟨hkeeps.trans h.delivered, h.order, h.all, h.valid, ?_, h.healthCheck,
    fun hb => h.closing (hclosing.symm.trans hb)⟩
  intro reading hreading
  obtain ⟨tail, hawaits, htail⟩ := h.position _ hposition
  obtain rfl : Reading.body (decodeUint32 w x y z).toNat = reading :=
    Option.some.inj (hnext.symm.trans hreading)
  refine ⟨tail, hawaits.header_inv (by rw [htransit]; rfl) ?_, htail⟩
  exact fun message hm => ((message.validOutgoingFrame_iff _).mp (h.valid message hm)).1

/-- A body was read. -/
theorem Flow.body {a b b' : Peer} {front transit' : Bytes} {size : ℕ}
    {sent read rest : List Message} (h : Flow a b (front ++ transit') sent read rest)
    (hposition : b.position = some (.body size)) (hsize : front.length = size)
    (hreads : ∀ message : Message, front = message.body → ∃ p : Peer, p.delivered = b.delivered ∧
      p.closeAfterWrite = b.closeAfterWrite ∧ p.Reads b' message)
    (hnext : b'.position = b'.reading) (hreading : b'.reading = some .header ∨ b'.reading = none) :
    ∃ read' rest', Flow a b' transit' sent read' rest' := by
  obtain ⟨tail, hawaits, htail⟩ := h.position _ hposition
  obtain ⟨message, messages, rfl, hfront, hrest⟩ :=
    hawaits.body_inv (List.append_assoc front transit' tail) hsize
  obtain ⟨p, hdelivered, hclosing, hmessage⟩ := hreads message hfront
  have hclose : b'.closeAfterWrite = true → .healthCheck ∈ read ++ message :: messages := by
    intro hb
    rcases hmessage.closeAfterWrite hb with hp | rfl
    · exact h.closing (hclosing.symm.trans hp)
    · exact List.mem_append_right _ List.mem_cons_self
  rcases hmessage.delivered with hnew | ⟨hsame, hnone⟩
  · have happend : read ++ [message] ++ messages = read ++ message :: messages := by
      rw [List.append_assoc, List.singleton_append]
    refine ⟨read ++ [message], messages, ?_, happend ▸ h.order, happend ▸ h.all, ?_, ?_,
      happend ▸ h.healthCheck, happend ▸ hclose⟩
    · rw [hnew, hdelivered, h.delivered, applicationData_append]
    · exact fun m hm => h.valid m (List.mem_cons_of_mem _ hm)
    · intro reading hr
      rw [hnext] at hr
      rcases hreading with hheader | hnone
      · obtain rfl := Option.some.inj (hheader.symm.trans hr)
        exact ⟨tail, hrest, htail⟩
      · rw [hnone] at hr
        cases hr
  · refine ⟨read, message :: messages, hsame.trans (hdelivered.trans h.delivered), h.order, h.all,
      h.valid, ?_, h.healthCheck, hclose⟩
    intro reading hr
    rw [hnext, hnone] at hr
    cases hr

/-- The reader takes a step: bytes leave the transit, and the messages they complete are read. -/
theorem Flow.reader {a b b' : Peer} {transit : Bytes} {sent read rest : List Message}
    {label : PeerLabel} (h : Flow a b transit sent read rest) (hinv : b.SignalInv)
    (hread : b.ReadInv) (hinput : label.input <+: transit) (hstep : b.step label = some b') :
    ∃ read' rest', Flow a b' (transit.drop label.input.length) sent read' rest' := by
  -- all steps but the end of a read leave the reading side alone
  have hkeeps : b.KeepsReader b' → label.input = [] →
      ∃ read' rest', Flow a b' (transit.drop label.input.length) sent read' rest' := by
    intro hk hnil
    rw [hnil, List.length_nil, List.drop_zero]
    exact ⟨read, rest, h.keeps hk.delivered (.inr ⟨hk.position, rfl⟩) hk.closeAfterWrite⟩
  cases Peer.step_cases hstep with
  | start hstarted =>
    have hposition : b.position = some .header := if_neg (by simp [hstarted])
    have hnil : PeerLabel.start.input = [] := rfl
    rw [hnil, List.length_nil, List.drop_zero]
    refine ⟨read, rest, h.keeps ?_ ?_ ?_⟩
    · rw [Peer.start, Peer.readHeader]
      split <;> rfl
    · rw [Peer.start, Peer.readHeader]
      split
      next => exact .inr ⟨hposition.symm, rfl⟩
      next => exact .inl (hread.started hstarted)
    · rw [Peer.start, Peer.readHeader]
      split <;> rfl
  | close => exact hkeeps (Peer.keepsReader_close b) rfl
  | send message => exact hkeeps (Peer.keepsReader_pushFrame b _) rfl
  | aborted timer => exact hkeeps ⟨rfl, rfl, rfl, rfl, rfl, id, List.prefix_rfl⟩ rfl
  | expired timer =>
    have herased : b.KeepsReader { b with waits := b.waits.erase timer } :=
      ⟨rfl, rfl, rfl, rfl, rfl, id, List.prefix_rfl⟩
    exact hkeeps (herased.trans (Peer.keepsReader_timerExpired _ timer)) rfl
  | headerDone errorCode transferred hreading hcomplete hsize =>
    have hstarted := hread.started_of_reading hreading
    have hposition := (Peer.position_of_started hstarted).trans hreading
    rcases Peer.readHeaderDone_spec { b with reading := none } hcomplete transferred with
      ⟨hk, -⟩ | ⟨w, x, y, z, rfl, rfl, hbody⟩
    · refine ⟨read, rest, h.keeps hk.delivered (.inl ?_) hk.closeAfterWrite⟩
      exact hk.position.trans (Peer.position_of_started (p := { b with reading := none }) hstarted)
    · obtain ⟨transit', rfl⟩ := hinput
      rw [hbody, PeerLabel.input, List.drop_left]
      refine ⟨read, rest, h.header hposition rfl rfl rfl ?_⟩
      exact Peer.position_of_started
        (p := { b with reading := none }.readBody (decodeUint32 w x y z).toNat) hstarted
  | bodyDone errorCode transferred size hreading hcomplete hsize =>
    have hstarted := hread.started_of_reading hreading
    have hposition := (Peer.position_of_started hstarted).trans hreading
    obtain ⟨q, hq, -⟩ := hinv.reading_none.readBodyDone (hinv.body size hreading)
      errorCode transferred
    rw [hq, Peer.ofExcept]
    cases errorCode with
    | some errorCode =>
      obtain rfl := Except.ok.inj hq
      have hk := Peer.keepsReader_handleError { b with reading := none } errorCode
      refine ⟨read, rest, h.keeps hk.delivered (.inl ?_) hk.closeAfterWrite⟩
      exact hk.position.trans (Peer.position_of_started (p := { b with reading := none }) hstarted)
    | none =>
      rw [Peer.readBodyDone, if_neg (not_not.mpr (hsize rfl))] at hq
      have hon := Peer.readBodySwitch_readsOn hq rfl
      obtain ⟨transit', rfl⟩ := hinput
      rw [PeerLabel.input, List.drop_left]
      refine h.body hposition (hsize rfl) (fun message hfront => ?_)
        (Peer.position_of_started (hon.started.trans hstarted)) hon.reading
      subst hfront
      exact ⟨{ b with reading := none }.startTimer .heartbeatDeadline, rfl, rfl,
        Peer.readBodySwitch_reads hq rfl⟩
  | writeSome size rest => exact hkeeps ⟨rfl, rfl, rfl, rfl, rfl, id, List.prefix_rfl⟩ rfl
  | writeDone errorCode rest =>
    have hnone : b.KeepsReader { b with writing := none } :=
    ⟨rfl, rfl, rfl, rfl, rfl, id, List.prefix_rfl⟩
    exact hkeeps (hnone.trans (Peer.keepsReader_writeDone _ errorCode)) rfl

/-! ## Every run -/

/-- Both peers are in order, and so is the stream in both directions. -/
structure LinkInv (labels : List (Side × PeerLabel)) (s : Link) : Prop where
  /-- what the dispatcher was told -/
  signals : ∀ side, (s.peer side).SignalInv
  /-- the writing sides -/
  write : ∀ side, (s.peer side).WriteInv
  /-- the reading sides -/
  read : ∀ side, (s.peer side).ReadInv
  /-- the two directions -/
  flow : ∀ side, ∃ read rest, Flow (s.peer side) (s.peer side.other) (s.transit side)
    (Link.sent side labels) read rest

/-- What a side was asked to send, after one more step. -/
theorem Link.sent_concat (side : Side) (labels : List (Side × PeerLabel))
    (label : Side × PeerLabel) :
    sent side (labels ++ [label]) =
      sent side labels ++ if label.1 = side then label.2.sent else [] := by
  simp [sent]

/-- Nothing was sent. -/
theorem LinkInv.init (options : Side → CommonOptions) : LinkInv [] (Link.init options) := by
  have hpeer (side : Side) := Peer.init_inv (options side)
  refine ⟨fun side => (hpeer side).1, fun side => (hpeer side).2.1, fun side => (hpeer side).2.2,
    fun side => ⟨[], [], rfl, List.prefix_rfl, fun _ => rfl, ?_, ?_, ?_, ?_⟩⟩
  · exact fun _ hm => absurd hm List.not_mem_nil
  · intro reading hreading
    obtain rfl : Reading.header = reading := Option.some.inj hreading
    exact ⟨[], .header [], fun _ => rfl⟩
  · exact fun hm => absurd hm List.not_mem_nil
  · exact fun hclosing => Bool.noConfusion hclosing

/-- One step: one side writes or reads, the other one stays. -/
theorem LinkInv.step {labels : List (Side × PeerLabel)} {s t : Link} {label : Side × PeerLabel}
    (h : LinkInv labels s) (hstep : s.step label = some t) : LinkInv (labels ++ [label]) t := by
  obtain ⟨side, label⟩ := label
  rw [Link.step] at hstep
  split at hstep
  next hinput =>
    obtain ⟨q, hq, rfl⟩ := Option.map_eq_some_iff.mp hstep
    have hwriter := Peer.writerStep (h.signals side) hq
    -- the side that makes the step, and the other one
    have hcases : ∀ other : Side, other = side ∨ other = side.other := by
      intro other
      cases side <;> cases other <;> simp [Side.other]
    refine ⟨fun other => ?_, fun other => ?_, fun other => ?_, fun other => ?_⟩
    · rcases hcases other with rfl | rfl
      · simpa using (h.signals other).step hq
      · simpa [side.other_ne] using h.signals side.other
    · rcases hcases other with rfl | rfl
      · simpa using (h.write other).step hwriter
      · simpa [side.other_ne] using h.write side.other
    · rcases hcases other with rfl | rfl
      · simpa using (h.read other).step (h.signals other) hq
      · simpa [side.other_ne] using h.read side.other
    · rcases hcases other with rfl | rfl
      · obtain ⟨read, rest, hflow⟩ := h.flow other
        obtain ⟨rest', hflow'⟩ := hflow.writer (h.write other) hwriter
        refine ⟨read, rest', ?_⟩
        simpa [Link.sent_concat, other.other_ne, other.other_ne.symm] using hflow'
      · obtain ⟨read, rest, hflow⟩ := h.flow side.other
        rw [Side.other_other] at hflow
        obtain ⟨read', rest', hflow'⟩ :=
          hflow.reader (h.signals side) (h.read side) hinput hq
        refine ⟨read', rest', ?_⟩
        simpa [Link.sent_concat, side.other_ne, side.other_ne.symm] using hflow'
  next => cases hstep

/-- Nothing is awaited when no bytes are left. -/
theorem Awaits.eq_nil {reading : Reading} {messages : List Message}
    (h : Awaits reading messages []) : messages = [] := by
  generalize hbytes : ([] : Bytes) = bytes at h
  cases h with
  | header =>
    cases messages with
    | nil => rfl
    | cons message messages =>
      obtain ⟨w, x, y, z, hframe, -⟩ := message.frame_header
      rw [List.flatMap_cons, hframe] at hbytes
      cases hbytes
  | body message messages =>
    obtain ⟨rest, hbody⟩ := message.body_eq_cons
    rw [hbody] at hbytes
    cases hbytes

/-- So does every run. -/
theorem linkInv_of_run (options : Side → CommonOptions) (labels : List (Side × PeerLabel))
    {s : Link} (h : Transition.run Link.step (Link.init options) labels = some s) :
    LinkInv labels s :=
  Transition.run_history (P := LinkInv) (LinkInv.init options)
    (fun _ _ _ _ hu hstep => hu.step hstep) h

/-- What one side delivers, the other was asked to send. -/
theorem delivered_of_sent (options : Side → CommonOptions) (labels : List (Side × PeerLabel))
    {s : Link} (h : Transition.run Link.step (Link.init options) labels = some s) (side : Side) :
    (s.peer side.other).delivered <+: applicationData (Link.sent side labels) := by
  obtain ⟨read, rest, hflow⟩ := (linkInv_of_run options labels h).flow side
  rw [hflow.delivered]
  exact (applicationData_append read rest ▸ List.prefix_append _ _).trans hflow.order

/-- In every run of two connected peers, whatever the socket does with their bytes: the messages
that one side has delivered are the first of those that the other side was asked to send,
unchanged, in order, none lost or repeated. They are all of them, if both sockets are open, the
reader was started, no health check was sent, and no byte is left to write or in transit. -/
theorem stream_in_order (options : Side → CommonOptions) (labels : List (Side × PeerLabel))
    {s : Link} (h : Transition.run Link.step (Link.init options) labels = some s) (side : Side) :
    (s.peer side.other).delivered <+: applicationData (Link.sent side labels) ∧
    ((s.peer side).isOpen = true → (s.peer side.other).isOpen = true →
      (s.peer side.other).started = true → .healthCheck ∉ Link.sent side labels →
      (s.peer side).writing = none → s.transit side = [] →
      (s.peer side.other).delivered = applicationData (Link.sent side labels)) := by
  have hinv := linkInv_of_run options labels h
  refine ⟨delivered_of_sent options labels h side, ?_⟩
  obtain ⟨read, rest, hflow⟩ := hinv.flow side
  intro hopen hopen' hstarted hhealth hwriting htransit
  have hclosing : (s.peer side.other).closeAfterWrite ≠ true := fun hc =>
    hhealth (hflow.healthCheck (hflow.closing hc))
  -- an open reader waits for a header or a body, and there are no bytes left for it
  obtain ⟨reading, hreading⟩ := Option.isSome_iff_exists.mp
    (((hinv.read side.other).live hopen' hstarted).resolve_right hclosing)
  obtain ⟨tail, hawaits, htail⟩ :=
    hflow.position reading ((Peer.position_of_started hstarted).trans hreading)
  have hunsent : (s.peer side).unsent = [] := by
    rw [Peer.unsent, hwriting, ((hinv.write side).writing hopen).mp hwriting]
    rfl
  rw [htransit, htail hopen, hunsent] at hawaits
  rw [hflow.delivered, ← hflow.all hopen, hawaits.eq_nil, List.append_nil]

/-- One message that travels from the client to the server, its frame in two pieces. -/
def Link.userDataRun : List (Side × PeerLabel) :=
  [(.client, .start), (.server, .start), (.client, .send (.userData [7, 8])),
   (.client, .writeSome 5), (.server, .readDone none [0, 0, 0, 3]), (.client, .writeSome 2),
   (.client, .writeDone none), (.server, .readDone none [1, 7, 8])]

/-- The two bytes arrive. -/
theorem stream_in_order_user_data :
    ∃ s, Transition.run Link.step (Link.init fun _ => ⟨1024, 1024⟩) Link.userDataRun = some s ∧
      (s.peer .server).delivered = [.userData [7, 8]] := by
  refine ⟨_, rfl, ?_⟩
  exact (stream_in_order (fun _ => ⟨1024, 1024⟩) Link.userDataRun rfl .client).2 rfl rfl rfl
    (by decide) rfl rfl

end VirtualHidDevice.UnixDomainStream
