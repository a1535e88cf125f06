import VirtualHidDevice.UnixDomainStream.PeerTasks

/-!
# What a server tells of a peer

The program sees each peer connect, do what it does, and be closed, in this order.

* `EventInv.step` — every step of the server keeps what it knows of its peers.
* `EventInv.exposed_open` — what a peer is like that the program knows, when the dispatcher has
  nothing left to do.

`peer_events_in_order` is the result for all runs.
-/

namespace VirtualHidDevice.UnixDomainStream

namespace Server

/-! ## Every step -/

/-- The handler of `async_accept`. -/
theorem EventInv.acceptDone {s : Server} (h : s.EventInv) (errorCode : Option ErrorCode) :
    (s.acceptDone errorCode).EventInv := by
  unfold Server.acceptDone
  split
  next => exact h
  next hrunning =>
    cases errorCode with
    | some errorCode =>
      dsimp only
      split
      next => exact h
      next =>
        exact (h.keeps (Keeps.closeAcceptor s)).keeps
          (Keeps.enqueue _ _ (by simp))
    | none =>
      dsimp only
      rw [Server.handleAcceptedSocket, if_neg hrunning]
      exact (h.addPeer.keeps (Keeps.post _ _ (by simp))).keeps (Keeps.accept _)

/-- The handler of the `async_connect` of a health check. -/
theorem EventInv.checkConnectDone {s : Server} (h : s.EventInv) (check : ℕ)
    (errorCode : Option ErrorCode) : (s.checkConnectDone check errorCode).EventInv := by
  cases errorCode with
  | some errorCode => exact h.keeps (Keeps.handleHealthCheckFailed s)
  | none => exact (h.addCheckPeer check (some s.peers.length)).keeps (Keeps.post _ _ (by simp))

/-- A closure is taken from the queue of `io_ctx_`. -/
theorem EventInv.popIo {s : Server} (h : s.EventInv) {task : ServerIoTask}
    {tasks : List ServerIoTask} (hqueue : s.ioCtx = task :: tasks) :
    EventInv { s with ioCtx := tasks } := by
  refine h.keeps { Keeps.refl s with ioCtx := fun other hother => .inl ?_ }
  rw [hqueue]
  exact List.mem_cons_of_mem _ hother

/-- What is posted does not tell the server that a peer is closed. -/
theorem EventInv.post {s : Server} (h : s.EventInv) {tasks : List ServerIoTask}
    (hnew : ∀ id, .peerClosed id ∉ tasks) : (s.post tasks).EventInv := by
  have hio : ∀ id, .peerClosed id ∈ s.ioCtx ++ tasks → .peerClosed id ∈ s.ioCtx :=
    fun id hmem => (List.mem_append.mp hmem).resolve_right (hnew id)
  refine ⟨h.ids, h.unique, fun id hknows => h.known id ?_, h.signals, h.peerIds, h.exposed, h.peer,
    fun peer id p hp => ?_⟩
  · exact hknows.mono (List.Subset.refl _) (List.Subset.refl _) (fun _ htask _ => htask) (hio id)
  · obtain ⟨done, hpeer⟩ := h.accepted peer id p hp
    exact ⟨done, hpeer.order, hpeer.kept, hpeer.gone, fun hmem => hpeer.told (hio id hmem),
      hpeer.phase, hpeer.late⟩

/-- A closure in the thread of `io_ctx_`. -/
theorem EventInv.runIoTask {s : Server} (h : s.EventInv) {task : ServerIoTask}
    {tasks : List ServerIoTask} (hqueue : s.ioCtx = task :: tasks) (bindError : Option ErrorCode) :
    ({ s with ioCtx := tasks }.runIoTask bindError task).EventInv := by
  have hpopped := h.popIo hqueue
  by_cases hpeer : ∃ peer label, task = .peer peer label
  · obtain ⟨peer, label, rfl⟩ := hpeer
    rw [Server.runIoTask]
    cases hstep : Server.stepPeer { s with ioCtx := tasks } peer label with
    | none => exact hpopped
    | some t => exact hpopped.stepPeer hstep
  · by_cases hclosed : ∃ id, task = .peerClosed id
    · obtain ⟨id, rfl⟩ := hclosed
      refine (h.ioPeerClosed hqueue).keeps ?_
      have hcomplete := Keeps.complete
        { s with ioCtx := tasks, peerIds := s.peerIds.filter (·.1 ≠ id) }
        (s.requestManager.completePeer (managerId id) .connectionReset)
      exact hcomplete
    · by_cases hrespond : ∃ id requestId data, task = .respond id requestId data
      · obtain ⟨id, requestId, data, rfl⟩ := hrespond
        rw [Server.runIoTask]
        split
        next => exact hpopped
        next => exact hpopped.post (by simp)
      · refine hpopped.keeps (Keeps.runIoTask _ bindError task ?_ ?_ ?_)
        · exact fun peer label heq => hpeer ⟨peer, label, heq⟩
        · exact fun id heq => hclosed ⟨id, heq⟩
        · exact fun id requestId data heq => hrespond ⟨id, requestId, data, heq⟩

/-- One step keeps the invariant. -/
theorem EventInv.step {s t : Server} (h : s.EventInv) {label : ServerLabel}
    (hstep : s.step label = some t) : t.EventInv := by
  cases label with
  | asyncStart | asyncStop =>
    obtain rfl := Option.some.inj hstep
    exact h.keeps (Keeps.enqueue s _ (by simp))
  | asyncSend | asyncRespond | asyncRequest | asyncClosePeer =>
    obtain rfl := Option.some.inj hstep
    exact h.post (by simp)
  | dispatch verified =>
    rw [Server.step] at hstep
    split at hstep
    next => cases hstep
    next task tasks hqueue =>
      obtain rfl := Option.some.inj hstep
      exact h.runTask hqueue verified
  | bindRetryTimer index =>
    rw [Server.step] at hstep
    split at hstep
    next => cases hstep
    next generation _ =>
      obtain rfl := Option.some.inj hstep
      have hpopped : EventInv { s with delayed := s.delayed.eraseIdx index } :=
        h.keeps { Keeps.refl s with }
      rw [Server.runDelayed]
      split
      next => exact hpopped
      next =>
        split
        next => exact hpopped
        next => exact hpopped.keeps (Keeps.post _ _ (by simp))
  | healthCheckTimer index =>
    rw [Server.step] at hstep
    split at hstep
    next => cases hstep
    next functionId _ =>
      obtain rfl := Option.some.inj hstep
      have hpopped : EventInv { s with
          timer := { s.timer with delayed := s.timer.delayed.eraseIdx index } } :=
        h.keeps { Keeps.refl s with }
      exact hpopped.keeps (Keeps.callFunction _ functionId)
  | io bindError =>
    rw [Server.step] at hstep
    split at hstep
    next => cases hstep
    next task tasks hqueue =>
      obtain rfl := Option.some.inj hstep
      exact h.runIoTask hqueue bindError
  | acceptDone acceptor errorCode =>
    rw [Server.step] at hstep
    split at hstep
    next =>
      obtain rfl := Option.some.inj hstep
      have hpopped : EventInv { s with accepts := s.accepts.erase acceptor } :=
        h.keeps { Keeps.refl s with }
      exact hpopped.acceptDone errorCode
    next => cases hstep
  | checkConnectDone check errorCode =>
    rw [Server.step] at hstep
    split at hstep
    next =>
      obtain rfl := Option.some.inj hstep
      have hpopped : EventInv { s with checkConnects := s.checkConnects.erase check } :=
        h.keeps { Keeps.refl s with }
      exact hpopped.checkConnectDone check errorCode
    next => cases hstep
  | checkTimeout check aborted =>
    rw [Server.step] at hstep
    split at hstep
    next =>
      obtain rfl := Option.some.inj hstep
      have hpopped : EventInv { s with checkTimers := s.checkTimers.erase check } :=
        h.keeps { Keeps.refl s with }
      cases aborted with
      | true => exact hpopped
      | false => exact hpopped.keeps (Keeps.handleHealthCheckFailed _)
    next => cases hstep
  | peer peer label =>
    rw [Server.step] at hstep
    split at hstep
    next => exact h.stepPeer hstep
    next => cases hstep
  | requestTimer request id =>
    rw [Server.step] at hstep
    split at hstep
    next =>
      obtain rfl := Option.some.inj hstep
      exact h.keeps (Keeps.requestTimer s request id)
    next => cases hstep
  | destroyPeer peer =>
    rw [Server.step] at hstep
    split at hstep
    next hgone =>
      obtain rfl := Option.some.inj hstep
      exact h.destroyPeer hgone.2.1
    next => cases hstep

/-- So does every run. -/
theorem eventInv_of_run (options : ServerOptions) (labels : List ServerLabel) {s : Server}
    (h : Transition.run Server.step (init options) labels = some s) : s.EventInv :=
  Transition.run_invariant (EventInv.init options) (fun _ _ _ hinv hstep => hinv.step hstep) h

/-! ## Every run -/

/-- Events are never out of order, and an exposed peer is connected. -/
theorem EventInv.phase_some {s : Server} (h : s.EventInv) (id : ℕ) :
    ∃ ph, phase id s.events = some ph ∧ (id ∈ s.exposedPeerIds → ph = .connected) := by
  by_cases hknows : s.Knows id
  · obtain ⟨peer, p, hp⟩ := h.known id hknows
    obtain ⟨done, hpeer⟩ := h.accepted peer id p hp
    obtain ⟨ph, hph, -, hexposed⟩ := hpeer.phase
    exact ⟨ph, hph, hexposed⟩
  · refine ⟨.unknown, phase_unknown fun event he hid => hknows (.event event he hid), ?_⟩
    exact fun he => absurd (.exposed he) hknows

/-- A mark comes from a signal. -/
theorem closed_mem_of_mark {signals : List Signal}
    (h : Mark.closed ∈ signals.filterMap Signal.mark?) : .closed ∈ signals := by
  obtain ⟨signal, hsignal, hmark⟩ := List.mem_filterMap.mp h
  cases signal with
  | closed => exact hsignal
  | ready => exact Mark.noConfusion (Option.some.inj hmark)
  | _ => exact absurd hmark (Option.some_ne_none _).symm

/-- An exposed peer is open, unless the server closed it or it was late. -/
theorem EventInv.exposed_open {s : Server} (h : s.EventInv) (hdispatcher : s.dispatcher = [])
    {id : ℕ} (hid : id ∈ s.exposedPeerIds) :
    ∃ (peer : ℕ) (p : Peer), s.peers[peer]? = some (.accepted id, p) ∧
      (p.isOpen = true ∧ (id, peer) ∈ s.peerIds ∨ id ∈ s.closedPeerIds ∨ Late p.signals) := by
  obtain ⟨peer, p, hp⟩ := h.known id (.exposed hid)
  obtain ⟨done, hpeer⟩ := h.accepted peer id p hp
  have hsignals := (h.peer peer _ p hp).closed
  -- nothing is on its way, so all marks were told
  have hgone := hpeer.gone
  have hkept := hpeer.kept
  have horder := hpeer.order
  rw [Server.marks, hdispatcher, Relay.marks_nil, List.append_nil] at horder hkept
  rw [hdispatcher, List.filterMap_nil, List.append_nil] at hgone
  refine ⟨peer, p, hp, ?_⟩
  cases hopen : p.isOpen with
  | true =>
    rw [hopen, if_pos rfl] at hsignals
    have hnot : Mark.closed ∉ done := fun hdone =>
      List.count_eq_zero.mp hsignals (closed_mem_of_mark (horder.subset hdone))
    by_cases hentry : (id, peer) ∈ s.peerIds
    · exact .inl ⟨rfl, hentry⟩
    · exact .inr (.inl ((hgone hentry).resolve_right hnot))
  | false =>
    rw [hopen, if_neg Bool.false_ne_true] at hsignals
    have hclosed : Signal.closed ∈ p.signals :=
      List.count_pos_iff.mp (hsignals ▸ Nat.one_pos)
    have hmark : Mark.closed ∈ p.signals.filterMap Signal.mark? :=
      List.mem_filterMap.mpr ⟨_, hclosed, rfl⟩
    by_cases hentry : (id, peer) ∈ s.peerIds
    · exact .inr (.inr (hpeer.late hid (hkept hentry ▸ hmark)))
    · exact .inr ((hgone hentry).imp_right fun hdone => hpeer.late hid hdone)

/-- In every run of the server, whatever the sockets, the timers and the program do: of each peer
the program is told that it is connected, then what it sends and which errors it has, then that it
is closed, each of the first and the last once, and nothing in another order. Once the dispatcher
has nothing left to do, a peer that is exposed is open, unless the server closed it itself or it
became ready after it was closed. -/
theorem peer_events_in_order (options : ServerOptions) (labels : List ServerLabel) {s : Server}
    (h : Transition.run Server.step (init options) labels = some s) :
    (∀ id, ∃ ph, phase id s.events = some ph ∧ (id ∈ s.exposedPeerIds → ph = .connected)) ∧
    (s.dispatcher = [] → ∀ id ∈ s.exposedPeerIds,
      ∃ (peer : ℕ) (p : Peer), s.peers[peer]? = some (.accepted id, p) ∧
        (p.isOpen = true ∧ (id, peer) ∈ s.peerIds ∨ id ∈ s.closedPeerIds ∨ Late p.signals)) := by
  have hinv := eventInv_of_run options labels h
  exact ⟨hinv.phase_some, fun hdispatcher id hid => hinv.exposed_open hdispatcher hid⟩

/-- A peer connects, sends `0x7 0x8`, and its socket comes to its end. -/
def connectAndLeave : List ServerLabel :=
  [.asyncStart, .dispatch true, .io none, .acceptDone 0 none, .io none,
    .peer 0 (.timer .readyDeadline false), .dispatch true, .dispatch true, .dispatch true,
    .dispatch true, .dispatch true, .io none, .peer 0 (.readDone none [0, 0, 0, 3]),
    .peer 0 (.readDone none [1, 7, 8]), .dispatch true, .dispatch true,
    .peer 0 (.readDone (some .eof) []), .dispatch true, .dispatch true, .io none]

/-- That peer is told of four times, in order. -/
theorem peer_events_in_order_left :
    ∃ s, Transition.run Server.step (init ⟨⟨1024, 1024⟩, true⟩) connectAndLeave = some s ∧
      s.events = [.bound, .peerConnected 1, .received 1 [7, 8], .peerClosed 1] ∧
      ∃ ph, phase 1 s.events = some ph ∧ (1 ∈ s.exposedPeerIds → ph = .connected) := by
  obtain ⟨s, hrun, hevents⟩ : ∃ s, Transition.run Server.step (init ⟨⟨1024, 1024⟩, true⟩)
      connectAndLeave = some s ∧
        s.events = [.bound, .peerConnected 1, .received 1 [7, 8], .peerClosed 1] := ⟨_, rfl, rfl⟩
  exact ⟨s, hrun, hevents, (peer_events_in_order ⟨⟨1024, 1024⟩, true⟩ connectAndLeave hrun).1 1⟩

end Server

end VirtualHidDevice.UnixDomainStream
