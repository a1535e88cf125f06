import VirtualHidDevice.UnixDomainStream.PeerEvents

/-!
# Where the requests and responses of a server come from

What a server tells the program of a request was delivered by a peer, and the responses that it
hands to a peer are those that the program has given for that peer.

* `Grows` — peers come and raise signals.
* `Server.Origin` — what is queued and told has an origin; `Origin.step` in every step.
-/

namespace VirtualHidDevice.UnixDomainStream

/-! ## Origins -/

/-- Peers come, and do not change what they are there for. -/
def KeepsKinds (before after : List (PeerKind × Peer)) : Prop :=
  ∀ (peer : ℕ) (kind : PeerKind) (p : Peer), before[peer]? = some (kind, p) →
    ∃ q : Peer, after[peer]? = some (kind, q)

/-- Also, signals are not taken back. -/
def Grows (before after : List (PeerKind × Peer)) : Prop :=
  ∀ (peer : ℕ) (kind : PeerKind) (p : Peer), before[peer]? = some (kind, p) →
    ∃ q : Peer, after[peer]? = some (kind, q) ∧ p.signals ⊆ q.signals

/-- Peers that grow stay what they are there for. -/
theorem Grows.keepsKinds {before after : List (PeerKind × Peer)} (h : Grows before after) :
    KeepsKinds before after := by
  intro peer kind p hp
  obtain ⟨q, hq, -⟩ := h peer kind p hp
  exact ⟨q, hq⟩

theorem Grows.refl (peers : List (PeerKind × Peer)) : Grows peers peers :=
  fun _ _ p hp => ⟨p, hp, List.Subset.refl _⟩

/-- A new peer. -/
theorem Grows.append (peers new : List (PeerKind × Peer)) : Grows peers (peers ++ new) := by
  intro peer kind p hp
  have hlt := (List.getElem?_eq_some_iff.mp hp).1
  exact ⟨p, (List.getElem?_append_left hlt).trans hp, List.Subset.refl _⟩

/-- A peer takes a step. -/
theorem Grows.set {peers : List (PeerKind × Peer)} {index : ℕ} {kind : PeerKind} {p q : Peer}
    (hp : peers[index]? = some (kind, p)) (hsignals : p.signals ⊆ q.signals) :
    Grows peers (peers.set index (kind, q)) := by
  intro peer k r hr
  by_cases heq : peer = index
  · subst heq
    obtain ⟨rfl, rfl⟩ := Prod.mk.inj (Option.some.inj (hp.symm.trans hr))
    exact ⟨q, List.getElem?_set_self (List.getElem?_eq_some_iff.mp hp).1, hsignals⟩
  · exact ⟨r, (List.getElem?_set_ne (Ne.symm heq)).trans hr, List.Subset.refl _⟩

/-- A peer has raised the signal. -/
def Raised (peers : List (PeerKind × Peer)) (peer : ℕ) (signal : Signal) : Prop :=
  ∃ (kind : PeerKind) (p : Peer), peers[peer]? = some (kind, p) ∧ signal ∈ p.signals

/-- A signal that was raised stays raised. -/
theorem Raised.grows {before after : List (PeerKind × Peer)} {peer : ℕ} {signal : Signal}
    (h : Raised before peer signal) (hgrows : Grows before after) : Raised after peer signal := by
  obtain ⟨kind, p, hp, hsignal⟩ := h
  obtain ⟨q, hq, hsignals⟩ := hgrows peer kind p hp
  exact ⟨kind, q, hq, hsignals hsignal⟩

/-- A request that the program is told of was delivered by the peer with this id. -/
def ServerEvent.Origin (peers : List (PeerKind × Peer)) : ServerEvent → Prop
  | .requestReceived id requestId buffer => ∃ (peer : ℕ) (p : Peer),
    peers[peer]? = some (.accepted id, p) ∧ .requestReceived requestId buffer ∈ p.signals
  | _ => True

/-- What the program was told keeps its origin. -/
theorem ServerEvent.Origin.grows {before after : List (PeerKind × Peer)} {event : ServerEvent}
    (h : event.Origin before) (hgrows : Grows before after) : event.Origin after := by
  cases event with
  | requestReceived id requestId buffer =>
    obtain ⟨peer, p, hp, hsignal⟩ := h
    obtain ⟨q, hq, hsignals⟩ := hgrows peer _ p hp
    exact ⟨peer, q, hq, hsignals hsignal⟩
  | _ => exact trivial

/-- A queued signal was raised, and so was the one that an event stands for. -/
def ServerTask.Origin (peers : List (PeerKind × Peer)) : ServerTask → Prop
  | .peerSignal peer signal => Raised peers peer signal
  | .exposed _ event => event.Origin peers
  | _ => True

/-- So does a closure on the dispatcher. -/
theorem ServerTask.Origin.grows {before after : List (PeerKind × Peer)} {task : ServerTask}
    (h : task.Origin before) (hgrows : Grows before after) : task.Origin after := by
  cases task with
  | peerSignal peer signal => exact Raised.grows h hgrows
  | exposed id event => exact ServerEvent.Origin.grows h hgrows
  | _ => exact trivial

/-- A quiet closure needs none. -/
theorem ServerTask.origin_of_quiet {task : ServerTask} (h : task.quiet = true)
    (peers : List (PeerKind × Peer)) : task.Origin peers := by
  cases task <;> first | exact trivial | cases h

/-- The peer is the one with this id, and the program has given it this response. -/
def Responds (labels : List ServerLabel) (peers : List (PeerKind × Peer)) (peer : ℕ)
    (requestId : UInt64) (data : Bytes) : Prop :=
  ∃ (id : ℕ) (p : Peer), peers[peer]? = some (.accepted id, p) ∧
    .asyncRespond id requestId data ∈ labels

/-- A response that is queued was given by the program. -/
def ServerIoTask.Origin (labels : List ServerLabel) (peers : List (PeerKind × Peer)) :
    ServerIoTask → Prop
  | .respond id requestId data => .asyncRespond id requestId data ∈ labels
  | .peer index (.send (.response requestId data)) => Responds labels peers index requestId data
  | _ => True

/-- A response was given by the program, and stays so. -/
theorem Responds.keepsKinds {past labels : List ServerLabel}
    {before after : List (PeerKind × Peer)} {peer : ℕ} {requestId : UInt64} {data : Bytes}
    (h : Responds past before peer requestId data) (hlabels : past ⊆ labels)
    (hkinds : KeepsKinds before after) : Responds labels after peer requestId data := by
  obtain ⟨id, p, hp, hasked⟩ := h
  obtain ⟨q, hq⟩ := hkinds peer _ p hp
  exact ⟨id, q, hq, hlabels hasked⟩

/-- A closure of `io_ctx_` keeps its origin. -/
theorem ServerIoTask.Origin.grows {past labels : List ServerLabel}
    {before after : List (PeerKind × Peer)} {task : ServerIoTask} (h : task.Origin past before)
    (hlabels : past ⊆ labels) (hgrows : Grows before after) : task.Origin labels after := by
  unfold ServerIoTask.Origin at h ⊢
  split at h
  next => exact hlabels h
  next => exact Responds.keepsKinds h hlabels hgrows.keepsKinds
  next => exact trivial

/-- A quiet one needs none. -/
theorem ServerIoTask.origin_of_quiet {task : ServerIoTask} (h : task.quiet = true)
    (labels : List ServerLabel) (peers : List (PeerKind × Peer)) : task.Origin labels peers := by
  unfold ServerIoTask.Origin
  split
  next => cases h
  next => cases h
  next => exact trivial

namespace Server

/-- What is queued and told has an origin. -/
structure Origin (labels : List ServerLabel) (s : Server) : Prop where
  /-- the queue of the dispatcher -/
  dispatcher : ∀ task ∈ s.dispatcher, task.Origin s.peers
  /-- the queue of `io_ctx_` -/
  ioCtx : ∀ task ∈ s.ioCtx, task.Origin labels s.peers
  /-- what the program was told -/
  events : ∀ event ∈ s.events, event.Origin s.peers

/-- Nothing was told yet. -/
theorem Origin.init (options : ServerOptions) : Origin [] (init options) where
  dispatcher _ h := absurd h List.not_mem_nil
  ioCtx _ h := absurd h List.not_mem_nil
  events _ h := absurd h List.not_mem_nil

variable {past labels : List ServerLabel} {s t : Server}

/-- What is new needs an origin. -/
theorem Origin.of_new (h : s.Origin past) (hlabels : past ⊆ labels) (hgrows : Grows s.peers t.peers)
    (hdispatcher : ∀ task ∈ t.dispatcher, task ∈ s.dispatcher ∨ task.Origin t.peers)
    (hioCtx : ∀ task ∈ t.ioCtx, task ∈ s.ioCtx ∨ task.Origin labels t.peers)
    (hevents : ∀ event ∈ t.events, event ∈ s.events ∨ event.Origin t.peers) :
    t.Origin labels where
  dispatcher task htask :=
    (hdispatcher task htask).elim (fun hold => (h.dispatcher task hold).grows hgrows) id
  ioCtx task htask :=
    (hioCtx task htask).elim (fun hold => (h.ioCtx task hold).grows hlabels hgrows) id
  events event hevent :=
    (hevents event hevent).elim (fun hold => (h.events event hold).grows hgrows) id

/-- A step that has nothing to do with it. -/
theorem Origin.keeps (h : s.Origin labels) (hkeeps : Keeps s t) : t.Origin labels := by
  obtain ⟨new, hnew, hquiet⟩ := hkeeps.dispatcher
  refine h.of_new (List.Subset.refl _) (hkeeps.peers ▸ Grows.refl _) (fun task htask => ?_)
    (fun task htask => ?_) fun event hevent => .inl (hkeeps.events ▸ hevent)
  · rw [hnew] at htask
    exact (List.mem_append.mp htask).imp_right fun hmem =>
      ServerTask.origin_of_quiet (hquiet task hmem) _
  · exact (hkeeps.ioCtx task htask).imp_right fun hq => ServerIoTask.origin_of_quiet hq _ _

/-- Closures are taken from the queues. -/
theorem Origin.popped (h : s.Origin labels) {dispatcher : List ServerTask}
    {ioCtx : List ServerIoTask} (hdispatcher : dispatcher ⊆ s.dispatcher)
    (hioCtx : ioCtx ⊆ s.ioCtx) : { s with dispatcher, ioCtx }.Origin labels where
  dispatcher task htask := h.dispatcher task (hdispatcher htask)
  ioCtx task htask := h.ioCtx task (hioCtx htask)
  events := h.events

theorem Origin.enqueue (h : s.Origin labels) {tasks : List ServerTask}
    (hnew : ∀ task ∈ tasks, task.Origin s.peers) : (s.enqueue tasks).Origin labels := by
  refine h.of_new (List.Subset.refl _) (Grows.refl _) (fun task htask => ?_) (fun _ ht => .inl ht)
    fun _ he => .inl he
  exact (List.mem_append.mp htask).imp_right (hnew task)

theorem Origin.post (h : s.Origin labels) {tasks : List ServerIoTask}
    (hnew : ∀ task ∈ tasks, task.Origin labels s.peers) : (s.post tasks).Origin labels := by
  refine h.of_new (List.Subset.refl _) (Grows.refl _) (fun _ ht => .inl ht) (fun task htask => ?_)
    fun _ he => .inl he
  exact (List.mem_append.mp htask).imp_right (hnew task)

/-- The program is told of something that has an origin. -/
theorem Origin.raise (h : s.Origin labels) (event : ServerEvent) (hnew : event.Origin s.peers)
    (exposedPeerIds : List ℕ) :
    { s with exposedPeerIds, events := s.events ++ [event] }.Origin labels := by
  refine h.of_new (List.Subset.refl _) (Grows.refl _) (fun _ ht => .inl ht) (fun _ ht => .inl ht)
    fun e he => ?_
  refine (List.mem_append.mp he).imp_right fun hmem => ?_
  rw [List.mem_singleton.mp hmem]
  exact hnew

/-- A signal of an accepted peer becomes an event. -/
theorem Origin.acceptedSignal (h : s.Origin labels) {id peer : ℕ} {signal : Signal} {p : Peer}
    (hp : s.peers[peer]? = some (.accepted id, p)) (hsignal : signal ∈ p.signals) :
    (s.acceptedSignal id peer signal).Origin labels := by
  cases signal with
  | ready => exact h.enqueue (by simp [ServerTask.Origin])
  | received buffer => exact h.enqueue (by simp [ServerTask.Origin, ServerEvent.Origin])
  | requestReceived requestId buffer =>
    refine h.enqueue fun task htask => ?_
    rw [List.mem_singleton.mp htask]
    exact ⟨peer, p, hp, hsignal⟩
  | responseReceived requestId buffer => exact h.post (by simp [ServerIoTask.Origin])
  | errorOccurred errorCode =>
    exact (h.post (by simp [ServerIoTask.Origin])).enqueue
      (by simp [ServerTask.Origin, ServerEvent.Origin])
  | closed =>
    exact (h.post (by simp [ServerIoTask.Origin])).enqueue (by simp [ServerTask.Origin])
  | healthCheckResponseReceived => exact h

/-- A signal is told as it was raised. -/
theorem Origin.handleSignal (h : s.Origin labels) {peer : ℕ} {signal : Signal}
    (hraised : Raised s.peers peer signal) : (s.handleSignal peer signal).Origin labels := by
  obtain ⟨kind, p, hp, hsignal⟩ := hraised
  rw [Server.handleSignal, hp]
  cases kind with
  | accepted id => exact h.acceptedSignal hp hsignal
  | healthCheck check =>
    cases signal with
    | healthCheckResponseReceived | errorOccurred | closed =>
      exact h.post (by simp [ServerIoTask.Origin])
    | _ => exact h

/-- A closure on the dispatcher hands its origin on. -/
theorem Origin.runTask (h : s.Origin labels) {task : ServerTask} (hmem : task.Origin s.peers)
    (verified : Bool) : (s.runTask verified task).Origin labels := by
  cases task with
  | start =>
    have hstarted : Keeps s { s with stopped := false } := { Keeps.refl s with }
    exact h.keeps (hstarted.trans (Keeps.post _ _ (by simp)))
  | stop =>
    have hcleared : { s with stopped := true, exposedPeerIds := [] }.Origin labels :=
      ⟨h.dispatcher, h.ioCtx, h.events⟩
    exact hcleared.keeps ((Keeps.enqueue _ _ (by simp)).trans (Keeps.post _ _ (by simp)))
  | cancel | debounce | stopTimer => exact h.keeps { Keeps.refl s with }
  | startTimer =>
    have hstarted : Keeps s { s with timer := { s.timer with
        currentFunctionId := s.timer.currentFunctionId + 1, function := true } } :=
      { Keeps.refl s with }
    exact h.keeps (hstarted.trans (Keeps.callFunction _ _))
  | healthCheck => exact h.keeps (Keeps.post _ _ (by simp))
  | bound =>
    have hraised := h.raise .bound trivial s.exposedPeerIds
    rw [Server.runTask, Server.startHealthCheckTimer]
    split
    next => exact hraised
    next => exact hraised.keeps (Keeps.enqueue _ _ (by simp))
  | bindFailed errorCode =>
    exact (h.raise (.bindFailed errorCode) trivial s.exposedPeerIds).keeps
      (Keeps.scheduleBindRetry _)
  | closed =>
    exact (h.raise .closed trivial s.exposedPeerIds).keeps (Keeps.scheduleBindRetry _)
  | peerSignal peer signal => exact h.handleSignal hmem
  | verify id =>
    cases verified with
    | true => exact h.raise (.peerConnected id) trivial _
    | false => exact h.keeps (Keeps.post _ _ (by simp))
  | exposed id event =>
    rw [Server.runTask]
    split
    next => exact h.raise event hmem s.exposedPeerIds
    next => exact h
  | peerClosed id =>
    rw [Server.runTask]
    split
    next => exact h.raise (.peerClosed id) trivial _
    next => exact h
  | callback completion => exact h.raise (.callback completion) trivial s.exposedPeerIds

/-- A peer takes a step: its new signals are handed to the dispatcher. -/
theorem Origin.stepPeer (h : s.Origin labels) (hevents : s.EventInv) {index : ℕ}
    {label : PeerLabel} (hstep : s.stepPeer index label = some t) : t.Origin labels := by
  obtain ⟨kind, p, q, hp, hq, rfl⟩ := stepPeer_eq_some hstep
  have hsignals := signals_append (hevents.peer index kind p hp) hq
  have hgrows : Grows s.peers (s.peers.set index (kind, q)) :=
    Grows.set hp (hsignals ▸ List.subset_append_left _ _)
  refine h.of_new (List.Subset.refl _) hgrows (fun task htask => ?_) (fun _ ht => .inl ht)
    fun _ he => .inl he
  refine (List.mem_append.mp htask).imp_right fun hnew => ?_
  obtain ⟨signal, hsignal, rfl⟩ := List.mem_map.mp hnew
  exact ⟨kind, q, List.getElem?_set_self (List.getElem?_eq_some_iff.mp hp).1,
    List.mem_of_mem_drop hsignal⟩

/-- There is a new peer. -/
theorem Origin.addPeer (h : s.Origin labels) {peers : List (PeerKind × Peer)} {nextPeerId : ℕ}
    {peerIds : List (ℕ × ℕ)} {healthCheckPeer : Option ℕ} (hgrows : Grows s.peers peers) :
    { s with peers, nextPeerId, peerIds, healthCheckPeer }.Origin labels :=
  h.of_new (List.Subset.refl _) hgrows (fun _ ht => .inl ht) (fun _ ht => .inl ht)
    fun _ he => .inl he

/-- A connection that is accepted has raised nothing. -/
theorem Origin.acceptDone (h : s.Origin labels) (errorCode : Option ErrorCode) :
    (s.acceptDone errorCode).Origin labels := by
  unfold Server.acceptDone
  split
  next => exact h
  next hrunning =>
    cases errorCode with
    | some errorCode =>
      dsimp only
      split
      next => exact h
      next => exact h.keeps ((Keeps.closeAcceptor s).trans (Keeps.enqueue _ _ (by simp)))
    | none =>
      dsimp only
      rw [Server.handleAcceptedSocket, if_neg hrunning]
      exact (h.addPeer (Grows.append _ _)).keeps
        ((Keeps.post _ _ (by simp)).trans (Keeps.accept _))

/-- Nor has one of a health check. -/
theorem Origin.checkConnectDone (h : s.Origin labels) (check : ℕ)
    (errorCode : Option ErrorCode) : (s.checkConnectDone check errorCode).Origin labels := by
  cases errorCode with
  | some errorCode => exact h.keeps (Keeps.handleHealthCheckFailed s)
  | none => exact (h.addPeer (Grows.append _ _)).keeps (Keeps.post _ _ (by simp))

/-- A response goes to the peer with this id. -/
theorem Origin.respond (h : s.Origin labels) (hevents : s.EventInv) {id : ℕ} {requestId : UInt64}
    {data : Bytes} (hasked : .asyncRespond id requestId data ∈ labels)
    (bindError : Option ErrorCode) :
    (s.runIoTask bindError (.respond id requestId data)).Origin labels := by
  rw [Server.runIoTask]
  split
  next => exact h
  next peer hfind =>
    obtain ⟨p, hp⟩ := hevents.peerIds id peer (mem_of_lookup hfind)
    refine h.post fun task htask => ?_
    rw [List.mem_singleton.mp htask]
    exact ⟨id, p, hp, hasked⟩

/-- A response goes to the peer that it was given for. -/
theorem Origin.runIoTask (h : s.Origin labels) (hevents : s.EventInv) {task : ServerIoTask}
    (hmem : task.Origin labels s.peers) (bindError : Option ErrorCode) :
    (s.runIoTask bindError task).Origin labels := by
  by_cases hpeer : ∃ peer label, task = .peer peer label
  · obtain ⟨peer, label, rfl⟩ := hpeer
    rw [Server.runIoTask]
    cases hstep : s.stepPeer peer label with
    | none => exact h
    | some t => exact h.stepPeer hevents hstep
  · by_cases hclosed : ∃ id, task = .peerClosed id
    · obtain ⟨id, rfl⟩ := hclosed
      have hcomplete := h.keeps (Keeps.complete s
        (s.requestManager.completePeer (managerId id) .connectionReset))
      exact ⟨hcomplete.dispatcher, hcomplete.ioCtx, hcomplete.events⟩
    · by_cases hrespond : ∃ id requestId data, task = .respond id requestId data
      · obtain ⟨id, requestId, data, rfl⟩ := hrespond
        exact h.respond hevents hmem bindError
      · refine h.keeps (Keeps.runIoTask _ bindError task ?_ ?_ ?_)
        · exact fun peer label heq => hpeer ⟨peer, label, heq⟩
        · exact fun id heq => hclosed ⟨id, heq⟩
        · exact fun id requestId data heq => hrespond ⟨id, requestId, data, heq⟩

/-- One step keeps the invariant. -/
theorem Origin.step (h : s.Origin labels) (hevents : s.EventInv) {label : ServerLabel}
    (hstep : s.step label = some t) : t.Origin (labels ++ [label]) := by
  have hsub : labels ⊆ labels ++ [label] := List.subset_append_left _ _
  have hlast : label ∈ labels ++ [label] := List.mem_append_right _ List.mem_cons_self
  have hmono : s.Origin (labels ++ [label]) :=
    h.of_new hsub (Grows.refl _) (fun _ ht => .inl ht) (fun _ ht => .inl ht) fun _ he => .inl he
  cases label with
  | asyncStart | asyncStop =>
    obtain rfl := Option.some.inj hstep
    exact hmono.keeps (Keeps.enqueue s _ (by simp))
  | asyncSend | asyncRequest | asyncClosePeer =>
    obtain rfl := Option.some.inj hstep
    exact hmono.keeps (Keeps.post s _ (by simp))
  | asyncRespond id requestId data =>
    obtain rfl := Option.some.inj hstep
    refine hmono.post fun task htask => ?_
    rw [List.mem_singleton.mp htask]
    exact hlast
  | dispatch verified =>
    rw [Server.step] at hstep
    split at hstep
    next => cases hstep
    next task tasks hqueue =>
      obtain rfl := Option.some.inj hstep
      have hpopped := hmono.popped (hqueue ▸ List.subset_cons_self task tasks)
        (List.Subset.refl s.ioCtx)
      exact hpopped.runTask (hmono.dispatcher task (hqueue ▸ List.mem_cons_self)) verified
  | bindRetryTimer index =>
    rw [Server.step] at hstep
    split at hstep
    next => cases hstep
    next generation _ =>
      obtain rfl := Option.some.inj hstep
      have hpopped : Keeps s { s with delayed := s.delayed.eraseIdx index } :=
        { Keeps.refl s with }
      rw [Server.runDelayed]
      split
      next => exact hmono.keeps hpopped
      next =>
        split
        next => exact hmono.keeps hpopped
        next => exact hmono.keeps (hpopped.trans (Keeps.post _ _ (by simp)))
  | healthCheckTimer index =>
    rw [Server.step] at hstep
    split at hstep
    next => cases hstep
    next functionId _ =>
      obtain rfl := Option.some.inj hstep
      have hpopped : Keeps s { s with
          timer := { s.timer with delayed := s.timer.delayed.eraseIdx index } } :=
        { Keeps.refl s with }
      exact hmono.keeps (hpopped.trans (Keeps.callFunction _ functionId))
  | io bindError =>
    rw [Server.step] at hstep
    split at hstep
    next => cases hstep
    next task tasks hqueue =>
      obtain rfl := Option.some.inj hstep
      have hpopped := hmono.popped (List.Subset.refl s.dispatcher)
        (hqueue ▸ List.subset_cons_self task tasks)
      exact hpopped.runIoTask (hevents.popIo hqueue)
        (hmono.ioCtx task (hqueue ▸ List.mem_cons_self)) bindError
  | acceptDone acceptor errorCode =>
    rw [Server.step] at hstep
    split at hstep
    next =>
      obtain rfl := Option.some.inj hstep
      exact (hmono.keeps (t := { s with accepts := s.accepts.erase acceptor })
        { Keeps.refl s with }).acceptDone errorCode
    next => cases hstep
  | checkConnectDone check errorCode =>
    rw [Server.step] at hstep
    split at hstep
    next =>
      obtain rfl := Option.some.inj hstep
      exact (hmono.keeps (t := { s with checkConnects := s.checkConnects.erase check })
        { Keeps.refl s with }).checkConnectDone check errorCode
    next => cases hstep
  | checkTimeout check aborted =>
    rw [Server.step] at hstep
    split at hstep
    next =>
      obtain rfl := Option.some.inj hstep
      have hpopped : Keeps s { s with checkTimers := s.checkTimers.erase check } :=
        { Keeps.refl s with }
      cases aborted with
      | true => exact hmono.keeps hpopped
      | false => exact hmono.keeps (hpopped.trans (Keeps.handleHealthCheckFailed _))
    next => cases hstep
  | peer peer label =>
    rw [Server.step] at hstep
    split at hstep
    next => exact hmono.stepPeer hevents hstep
    next => cases hstep
  | requestTimer request id =>
    rw [Server.step] at hstep
    split at hstep
    next =>
      obtain rfl := Option.some.inj hstep
      exact hmono.keeps (Keeps.requestTimer s request id)
    next => cases hstep
  | destroyPeer peer =>
    rw [Server.step] at hstep
    split at hstep
    next =>
      obtain rfl := Option.some.inj hstep
      exact hmono.popped List.filter_sublist.subset (List.Subset.refl s.ioCtx)
    next => cases hstep

end Server

end VirtualHidDevice.UnixDomainStream
