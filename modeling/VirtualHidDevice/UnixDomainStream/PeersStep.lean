import VirtualHidDevice.UnixDomainStream.ServerOrigin
import VirtualHidDevice.UnixDomainStream.Reconnect

/-!
# The steps of the peers of a client or a server

A step of a client or a server is a step of one of its peers, or it creates a peer, or it leaves
the peers alone.

* `PeersStep` — these three cases.
* `Client.executes`, `Server.executes` — the step of a peer that a step consists of.
* `Client.peersStep`, `Server.peersStep` — every step is of this form.
-/

namespace VirtualHidDevice.UnixDomainStream

/-- What a step does to the peers: one of them takes a step, or a new one is there, or nothing
happens to them. -/
inductive PeersStep (options : CommonOptions) (before after : List Peer)
    (executed : Option (ℕ × PeerLabel)) : Prop where
  | same (hnone : executed = none) (h : after = before)
  | add (hnone : executed = none) (h : after = before ++ [Peer.init options])
  | moves (peer : ℕ) (label : PeerLabel) (hsome : executed = some (peer, label)) (p q : Peer)
    (hp : before[peer]? = some p) (hq : p.step label = some q) (h : after = before.set peer q)

/-- The peers after a step, those that are not there yet as they will be. -/
theorem PeersStep.getD {options : CommonOptions} {before after : List Peer}
    {executed : Option (ℕ × PeerLabel)} (h : PeersStep options before after executed) (index : ℕ) :
    (∃ label p q, executed = some (index, label) ∧ before[index]? = some p ∧
        p.step label = some q ∧ after[index]? = some q) ∨
      (∀ label, executed ≠ some (index, label)) ∧
        (after[index]?).getD (Peer.init options) = (before[index]?).getD (Peer.init options) := by
  cases h with
  | same hnone heq => exact .inr ⟨fun label h' => Option.some_ne_none _ (h'.symm.trans hnone),
      by rw [heq]⟩
  | add hnone heq =>
    refine .inr ⟨fun label h' => Option.some_ne_none _ (h'.symm.trans hnone), ?_⟩
    rw [heq, List.getElem?_append]
    split
    next => rfl
    next hle =>
      rw [List.getElem?_eq_none (Nat.not_lt.mp hle)]
      cases index - before.length <;> rfl
  | moves peer label hsome p q hp hq heq =>
    by_cases hindex : index = peer
    · subst hindex
      refine .inl ⟨label, p, q, hsome, hp, hq, ?_⟩
      rw [heq]
      exact List.getElem?_set_self (List.getElem?_eq_some_iff.mp hp).1
    · refine .inr ⟨fun l h' => ?_, ?_⟩
      · exact hindex (Prod.mk.inj (Option.some.inj (h'.symm.trans hsome))).1
      · rw [heq, List.getElem?_set_ne (Ne.symm hindex)]

/-! ## The server -/

namespace Server

/-- The step of a peer that a step of the server consists of, if it is one. -/
def executes (s : Server) : ServerLabel → Option (ℕ × PeerLabel)
  | .peer peer label => some (peer, label)
  | .io _ => match s.ioCtx with
    | .peer peer label :: _ =>
      if (s.stepPeer peer label).isSome then some (peer, label) else none
    | _ => none
  | _ => none

/-- The peers, without what they are there for. -/
def allPeers (s : Server) : List Peer := s.peers.map Prod.snd

/-- The peers may take this step. They stay what they are there for, and the options stay. -/
structure Steps (s t : Server) (executed : Option (ℕ × PeerLabel)) : Prop where
  peers : PeersStep s.options.common s.allPeers t.allPeers executed
  kinds : KeepsKinds s.peers t.peers
  options : t.options = s.options

variable {s t : Server}

/-- Nothing happens to the peers. -/
theorem Steps.same {executed : Option (ℕ × PeerLabel)} (hnone : executed = none)
    (hpeers : t.peers = s.peers) (hoptions : t.options = s.options) : s.Steps t executed :=
  ⟨.same hnone (congrArg (List.map Prod.snd) hpeers), hpeers ▸ (Grows.refl _).keepsKinds, hoptions⟩

/-- A step that has nothing to do with the peers. -/
theorem Steps.keeps {executed : Option (ℕ × PeerLabel)} (hnone : executed = none)
    (h : Keeps s t) : s.Steps t executed := .same hnone h.peers h.options

/-- There is a new peer. -/
theorem Steps.add {executed : Option (ℕ × PeerLabel)} (hnone : executed = none) {kind : PeerKind}
    (hpeers : t.peers = s.peers ++ [(kind, Peer.init s.options.common)])
    (hoptions : t.options = s.options) : s.Steps t executed := by
  refine ⟨.add hnone ?_, hpeers ▸ (Grows.append _ _).keepsKinds, hoptions⟩
  rw [allPeers, hpeers, List.map_append, allPeers]
  rfl

/-- A peer takes a step. -/
theorem Steps.moves {peer : ℕ} {label : PeerLabel} {kind : PeerKind} {p q : Peer}
    (hp : s.peers[peer]? = some (kind, p)) (hq : p.step label = some q)
    (hpeers : t.peers = s.peers.set peer (kind, q)) (hoptions : t.options = s.options) :
    s.Steps t (some (peer, label)) := by
  refine ⟨.moves peer label rfl p q ?_ hq ?_, fun index other r hr => ?_, hoptions⟩
  · rw [allPeers, List.getElem?_map, hp]
    rfl
  · rw [allPeers, hpeers, List.map_set, allPeers]
  · rw [hpeers]
    by_cases hindex : index = peer
    · subst hindex
      obtain ⟨rfl, rfl⟩ := Prod.mk.inj (Option.some.inj (hp.symm.trans hr))
      exact ⟨q, List.getElem?_set_self (List.getElem?_eq_some_iff.mp hp).1⟩
    · exact ⟨r, (List.getElem?_set_ne (Ne.symm hindex)).trans hr⟩

/-- The handler of `async_accept` adds a peer, if any. -/
theorem steps_acceptDone (s : Server) (errorCode : Option ErrorCode) :
    s.Steps (s.acceptDone errorCode) none := by
  unfold Server.acceptDone
  split
  next => exact .same rfl rfl rfl
  next hrunning =>
    cases errorCode with
    | some errorCode =>
      dsimp only
      split
      next => exact .same rfl rfl rfl
      next => exact .same rfl rfl rfl
    | none =>
      dsimp only
      rw [Server.handleAcceptedSocket, if_neg hrunning]
      have haccept := Keeps.accept (({ s with
        nextPeerId := s.nextPeerId + 1
        peers := s.peers ++ [(PeerKind.accepted (s.nextPeerId + 1), Peer.init s.options.common)]
        peerIds := s.peerIds ++ [(s.nextPeerId + 1, s.peers.length)] }).post
          [.peer s.peers.length .start])
      exact .add rfl haccept.peers haccept.options

/-- The dispatcher leaves the peers alone. -/
theorem steps_runTask (s : Server) (verified : Bool) (task : ServerTask) :
    s.Steps (s.runTask verified task) none := by
  cases task with
  | startTimer =>
    have hcall := Keeps.callFunction { s with timer := { s.timer with
      currentFunctionId := s.timer.currentFunctionId + 1, function := true } }
      (s.timer.currentFunctionId + 1)
    exact .same rfl hcall.peers hcall.options
  | bound =>
    rw [Server.runTask, Server.startHealthCheckTimer]
    split <;> exact .same rfl rfl rfl
  | bindFailed errorCode =>
    have hretry := Keeps.scheduleBindRetry (s.raise (.bindFailed errorCode))
    exact .same rfl hretry.peers hretry.options
  | closed =>
    have hretry := Keeps.scheduleBindRetry (s.raise .closed)
    exact .same rfl hretry.peers hretry.options
  | peerSignal peer signal =>
    rw [Server.runTask, Server.handleSignal]
    split
    next => exact .same rfl rfl rfl
    next => cases signal <;> exact .same rfl rfl rfl
    next => cases signal <;> exact .same rfl rfl rfl
  | verify id => cases verified <;> exact .same rfl rfl rfl
  | exposed id event =>
    rw [Server.runTask]
    split <;> exact .same rfl rfl rfl
  | peerClosed id =>
    rw [Server.runTask]
    split <;> exact .same rfl rfl rfl
  | _ => exact .same rfl rfl rfl

theorem steps_runIoTask (s : Server) (bindError : Option ErrorCode) {task : ServerIoTask}
    {tasks : List ServerIoTask} (hqueue : s.ioCtx = task :: tasks) :
    s.Steps ({ s with ioCtx := tasks }.runIoTask bindError task) (s.executes (.io bindError)) := by
  by_cases hpeer : ∃ peer label, task = .peer peer label
  · obtain ⟨peer, label, rfl⟩ := hpeer
    have hexecutes : s.executes (.io bindError) =
        if (s.stepPeer peer label).isSome then some (peer, label) else none := by
      rw [executes, hqueue]
    rw [Server.runIoTask, stepPeer_ioCtx, hexecutes]
    cases hstep : s.stepPeer peer label with
    | none => exact .same rfl rfl rfl
    | some t =>
      obtain ⟨kind, p, q, hp, hq, rfl⟩ := stepPeer_eq_some hstep
      exact .moves hp hq rfl rfl
  · have hnone : s.executes (.io bindError) = none := by
      rw [executes, hqueue]
      split
      next heq => exact absurd ⟨_, _, (List.cons.inj heq).1⟩ hpeer
      next => rfl
    by_cases hother : (∃ id, task = .peerClosed id) ∨
        ∃ id requestId data, task = .respond id requestId data
    · rcases hother with ⟨id, rfl⟩ | ⟨id, requestId, data, rfl⟩
      · exact .same hnone rfl rfl
      · rw [Server.runIoTask]
        split <;> exact .same hnone rfl rfl
    · have hkeeps := Keeps.runIoTask { s with ioCtx := tasks } bindError task
        (fun peer label heq => hpeer ⟨peer, label, heq⟩)
        (fun id heq => hother (.inl ⟨id, heq⟩))
        fun id requestId data heq => hother (.inr ⟨id, requestId, data, heq⟩)
      exact .same hnone hkeeps.peers hkeeps.options

/-- Every step of the server. -/
theorem peersStep {label : ServerLabel} (hstep : s.step label = some t) :
    s.Steps t (s.executes label) := by
  cases label with
  | asyncStart | asyncStop | asyncSend | asyncRequest | asyncClosePeer | asyncRespond =>
    obtain rfl := Option.some.inj hstep
    exact .same rfl rfl rfl
  | dispatch verified =>
    rw [Server.step] at hstep
    split at hstep
    next => cases hstep
    next task tasks _ =>
      obtain rfl := Option.some.inj hstep
      have hrun := steps_runTask { s with dispatcher := tasks } verified task
      exact ⟨hrun.peers, hrun.kinds, hrun.options⟩
  | bindRetryTimer index =>
    rw [Server.step] at hstep
    split at hstep
    next => cases hstep
    next =>
      obtain rfl := Option.some.inj hstep
      rw [Server.runDelayed]
      split
      next => exact .same rfl rfl rfl
      next => split <;> exact .same rfl rfl rfl
  | healthCheckTimer index =>
    rw [Server.step] at hstep
    split at hstep
    next => cases hstep
    next functionId _ =>
      obtain rfl := Option.some.inj hstep
      have hcall := Keeps.callFunction { s with
        timer := { s.timer with delayed := s.timer.delayed.eraseIdx index } } functionId
      exact .same rfl hcall.peers hcall.options
  | io bindError =>
    rw [Server.step] at hstep
    split at hstep
    next => cases hstep
    next task tasks hqueue =>
      obtain rfl := Option.some.inj hstep
      exact steps_runIoTask s bindError hqueue
  | acceptDone acceptor errorCode =>
    rw [Server.step] at hstep
    split at hstep
    next =>
      obtain rfl := Option.some.inj hstep
      have hdone := steps_acceptDone { s with accepts := s.accepts.erase acceptor } errorCode
      exact ⟨hdone.peers, hdone.kinds, hdone.options⟩
    next => cases hstep
  | checkConnectDone check errorCode =>
    rw [Server.step] at hstep
    split at hstep
    next =>
      obtain rfl := Option.some.inj hstep
      cases errorCode with
      | some errorCode =>
        have hfailed := Keeps.handleHealthCheckFailed
          { s with checkConnects := s.checkConnects.erase check }
        exact .same rfl hfailed.peers hfailed.options
      | none => exact .add rfl rfl rfl
    next => cases hstep
  | checkTimeout check aborted =>
    rw [Server.step] at hstep
    split at hstep
    next =>
      obtain rfl := Option.some.inj hstep
      cases aborted with
      | true => exact .same rfl rfl rfl
      | false =>
        have hfailed := Keeps.handleHealthCheckFailed
          { s with checkTimers := s.checkTimers.erase check }
        exact .same rfl hfailed.peers hfailed.options
    next => cases hstep
  | peer peer label =>
    rw [Server.step] at hstep
    split at hstep
    next =>
      obtain ⟨kind, p, q, hp, hq, rfl⟩ := stepPeer_eq_some hstep
      exact .moves hp hq rfl rfl
    next => cases hstep
  | requestTimer request id =>
    rw [Server.step] at hstep
    split at hstep
    next =>
      obtain rfl := Option.some.inj hstep
      exact .keeps rfl (Keeps.requestTimer s request id)
    next => cases hstep
  | destroyPeer peer =>
    rw [Server.step] at hstep
    split at hstep
    next =>
      obtain rfl := Option.some.inj hstep
      exact .same rfl rfl rfl
    next => cases hstep

end Server

/-! ## The client -/

namespace Client

/-- The step of a peer that a step of the client consists of, if it is one. -/
def executes (c : Client) : ClientLabel → Option (ℕ × PeerLabel)
  | .peer peer label => some (peer, label)
  | .io => match c.ioCtx with
    | .peer peer label :: _ =>
      if (c.stepPeer peer label).isSome then some (peer, label) else none
    | _ => none
  | _ => none

/-- The peers may take this step, and the options stay. -/
def Steps (c d : Client) (executed : Option (ℕ × PeerLabel)) : Prop :=
  PeersStep c.options.common c.peers d.peers executed ∧ d.options = c.options

variable {c d : Client}

theorem Steps.same {executed : Option (ℕ × PeerLabel)} (hnone : executed = none)
    (hpeers : d.peers = c.peers) (hoptions : d.options = c.options) : c.Steps d executed :=
  ⟨.same hnone hpeers, hoptions⟩

theorem Steps.moves {peer : ℕ} {label : PeerLabel} {p q : Peer} (hp : c.peers[peer]? = some p)
    (hq : p.step label = some q) (hpeers : d.peers = c.peers.set peer q)
    (hoptions : d.options = c.options) : c.Steps d (some (peer, label)) :=
  ⟨.moves peer label rfl p q hp hq hpeers, hoptions⟩

theorem closePeer_options (c : Client) (errorCode : ErrorCode) :
    (c.closePeer errorCode).1.options = c.options := by
  rw [Client.closePeer]
  split <;> rfl

/-- A request that timed out leaves the peers to their own closures. -/
theorem timeoutCallback_same (c : Client) :
    c.timeoutCallback.peers = c.peers ∧ c.timeoutCallback.options = c.options := by
  have hpeers := closePeer_peers c .connectionReset
  have hoptions := closePeer_options c .connectionReset
  rw [Client.timeoutCallback]
  split
  next => dsimp only; split <;> exact ⟨hpeers, hoptions⟩
  next => exact ⟨rfl, rfl⟩

theorem scheduleReconnect_options (c : Client) : c.scheduleReconnect.options = c.options := by
  rw [Client.scheduleReconnect]
  split <;> rfl

theorem runTask_options (c : Client) (verified : Bool) (task : ClientTask) :
    (c.runTask verified task).options = c.options := by
  cases task with
  | scheduleReconnect => exact scheduleReconnect_options c
  | peerSignal peer signal =>
    rw [Client.runTask]
    split <;> rfl
  | event e =>
    rw [Client.runTask]
    split
    next => exact scheduleReconnect_options _
    next => rfl
  | _ => rfl

/-- A verified socket is a new peer. -/
theorem steps_handleConnectedSocket (c : Client) (socket : ℕ) (verified : Bool) :
    c.Steps (c.handleConnectedSocket socket verified) none := by
  rw [Client.handleConnectedSocket]
  split
  next => exact .same rfl rfl rfl
  next =>
    dsimp only
    split
    next => exact .same rfl rfl rfl
    next =>
      split
      next => exact .same rfl rfl rfl
      next => exact ⟨.add rfl rfl, rfl⟩

theorem steps_runIoTask (c : Client) {task : IoTask} {tasks : List IoTask}
    (hqueue : c.ioCtx = task :: tasks) :
    c.Steps ({ c with ioCtx := tasks }.runIoTask task) (c.executes .io) := by
  have hexecutes : (∀ peer label, task ≠ .peer peer label) → c.executes .io = none := by
    intro hpeer
    rw [executes, hqueue]
    split
    next heq => exact absurd (List.cons.inj heq).1 (hpeer _ _)
    next => rfl
  cases task with
  | connect =>
    rw [hexecutes fun _ _ => IoTask.noConfusion, Client.runIoTask, Client.connect]
    split <;> exact .same rfl rfl rfl
  | stop | invalidateConnection =>
    rw [hexecutes fun _ _ => IoTask.noConfusion]
    exact .same rfl (closePeer_peers _ _) (closePeer_options _ _)
  | handleConnectedSocket socket verified =>
    rw [hexecutes fun _ _ => IoTask.noConfusion]
    exact steps_handleConnectedSocket { c with ioCtx := tasks } socket verified
  | peer index label =>
    have hpeer : c.executes .io =
        if (c.stepPeer index label).isSome then some (index, label) else none := by
      rw [executes, hqueue]
    rw [Client.runIoTask, stepPeer_ioCtx, hpeer]
    cases hstep : c.stepPeer index label with
    | none => exact .same rfl rfl rfl
    | some d =>
      obtain ⟨p, q, hp, hq, rfl⟩ := stepPeer_eq_some hstep
      exact .moves hp hq rfl rfl
  | signal peer signal =>
    rw [hexecutes fun _ _ => IoTask.noConfusion, Client.runIoTask]
    unfold Client.handleSignal
    split
    next => exact .same rfl rfl rfl
    next => cases signal <;> exact .same rfl rfl rfl
  | connected | send | respond | request =>
    rw [hexecutes fun _ _ => IoTask.noConfusion, Client.runIoTask]
    split <;> exact .same rfl rfl rfl

/-- Every step of the client. -/
theorem peersStep {label : ClientLabel} (hstep : c.step label = some d) :
    c.Steps d (c.executes label) := by
  cases label with
  | asyncStart | asyncStop | asyncInvalidateConnection | asyncSend | asyncRespond | asyncRequest =>
    obtain rfl := Option.some.inj hstep
    exact .same rfl rfl rfl
  | dispatch verified =>
    rw [Client.step] at hstep
    split at hstep
    next => cases hstep
    next task tasks _ =>
      obtain rfl := Option.some.inj hstep
      exact .same rfl (runTask_peers { c with dispatcher := tasks } verified task)
        (runTask_options { c with dispatcher := tasks } verified task)
  | reconnectTimer index =>
    rw [Client.step] at hstep
    split at hstep
    next => cases hstep
    next =>
      obtain rfl := Option.some.inj hstep
      rw [Client.runDelayed]
      split
      next => exact .same rfl rfl rfl
      next => split <;> exact .same rfl rfl rfl
  | io =>
    rw [Client.step] at hstep
    split at hstep
    next => cases hstep
    next task tasks hqueue =>
      obtain rfl := Option.some.inj hstep
      exact steps_runIoTask c hqueue
  | connectDone socket errorCode =>
    rw [Client.step] at hstep
    split at hstep
    next =>
      obtain rfl := Option.some.inj hstep
      unfold Client.connectDone
      split
      next => exact .same rfl rfl rfl
      next => cases errorCode <;> exact .same rfl rfl rfl
    next => cases hstep
  | peer index label =>
    rw [Client.step] at hstep
    split at hstep
    next =>
      obtain ⟨p, q, hp, hq, rfl⟩ := stepPeer_eq_some hstep
      exact .moves hp hq rfl rfl
    next => cases hstep
  | requestTimer id =>
    rw [Client.step] at hstep
    split at hstep
    next =>
      obtain rfl := Option.some.inj hstep
      have htimeout := timeoutCallback_same (c.complete (c.requestManager.timerExpired id))
      exact .same rfl htimeout.1 htimeout.2
    next => cases hstep
  | destroyPeer peer =>
    rw [Client.step] at hstep
    split at hstep
    next =>
      obtain rfl := Option.some.inj hstep
      exact .same rfl rfl rfl
    next => cases hstep

end Client

end VirtualHidDevice.UnixDomainStream
