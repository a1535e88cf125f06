import VirtualHidDevice.UnixDomainStream.ListenIo

/-!
# The server keeps listening

Every step of the server keeps what `ListenInv` says: the closures of the two threads, the handlers
of sockets and timers, and the end of a peer.

* `ListenInv.handleAcceptedSocket`, `ListenInv.acceptDone` — a connection is accepted, or fails.
* `ListenInv.step` — every step of the server.

`server_keeps_listening` is the result for all runs.
-/

namespace VirtualHidDevice.UnixDomainStream

open Pending

namespace Server

/-! ## Steps -/

/-- A connection is accepted, and the acceptor accepts again. -/
theorem ListenInv.handleAcceptedSocket {s : Server} (h : s.ListenInv)
    (hrunning : s.stopped = false) (accepts : List ℕ) :
    ({ s with accepts }.handleAcceptedSocket).ListenInv := by
  have hneg : ¬ s.stopped = true := hrunning ▸ Bool.false_ne_true
  rw [Server.handleAcceptedSocket, if_neg hneg]
  have hprogress : Outlasts .bind .stop (s.ioCtx ++ [.peer s.peers.length .start]) ∨
      .stop ∉ s.ioCtx ++ [.peer s.peers.length .start] ∧ s.Busy := by
    refine (h.progress hrunning).imp (·.append (by simp)) fun hnot => ⟨fun hmem => ?_, hnot.2⟩
    exact (List.mem_append.mp hmem).elim hnot.1 (by simp)
  have hclosed : ∀ (peer id : ℕ) (p : Peer),
      (s.peers ++ [(PeerKind.accepted (s.nextPeerId + 1), Peer.init s.options.common)])[peer]? =
        some (.accepted id, p) →
      (id, peer) ∈ s.peerIds ++ [(s.nextPeerId + 1, s.peers.length)] ∨ p.isOpen = false ∨
        .peer peer .close ∈ s.ioCtx ++ [.peer s.peers.length .start] := by
    intro peer id p hp
    rcases getElem?_concat hp with hp | ⟨rfl, heq⟩
    · exact (h.closed peer id p hp).imp (List.mem_append_left _)
        (Or.imp_right (List.mem_append_left _))
    · obtain rfl := PeerKind.accepted.inj (Prod.mk.inj heq).1
      exact .inl (List.mem_append_right _ List.mem_cons_self)
  have hnoticed : ∀ (peer id : ℕ) (p : Peer),
      (s.peers ++ [(PeerKind.accepted (s.nextPeerId + 1), Peer.init s.options.common)])[peer]? =
        some (.accepted id, p) →
      (id, peer) ∈ s.peerIds ++ [(s.nextPeerId + 1, s.peers.length)] →
      p.isOpen = true ∨ .peerSignal peer .closed ∈ s.dispatcher ∨
        .peerClosed id ∈ s.ioCtx ++ [.peer s.peers.length .start] := by
    intro peer id p hp hentry
    rcases getElem?_concat hp with hp | ⟨-, heq⟩
    · rcases List.mem_append.mp hentry with hentry | hentry
      · exact (h.noticed peer id p hp hentry).imp_right
          (Or.imp_right (List.mem_append_left _))
      · have hlt := (List.getElem?_eq_some_iff.mp hp).1
        exact absurd (Prod.mk.inj (List.mem_singleton.mp hentry)).2 hlt.ne
    · rw [(Prod.mk.inj heq).2]
      exact .inl rfl
  rw [Server.accept]
  split
  next hnone =>
    refine ⟨fun a ha => ?_, fun hs => absurd hs hneg, fun _ => ?_, hclosed, hnoticed⟩
    · exact absurd (hnone.symm.trans ha) (Option.some_ne_none a).symm
    · exact hprogress.imp_right fun hnot => ⟨hnot.1, hnot.2.append rfl rfl rfl
        (List.append_nil _).symm List.not_mem_nil⟩
  next acceptor hsome =>
    split
    next hs => exact absurd hs hneg
    next =>
      refine ⟨fun a ha => ?_, fun hs => absurd hs hneg, fun _ => ?_, hclosed, hnoticed⟩
      · obtain rfl := Option.some.inj (hsome.symm.trans ha)
        exact .inl (List.mem_append_right _ List.mem_cons_self)
      · exact hprogress.imp_right fun hnot => ⟨hnot.1, .accepting (Option.isSome_iff_exists.mpr
          ⟨acceptor, hsome⟩)⟩

/-- A health check that has connected has a peer of its own. -/
theorem ListenInv.checkConnectDone {s : Server} (h : s.ListenInv) (check : ℕ)
    (errorCode : Option ErrorCode) : (s.checkConnectDone check errorCode).ListenInv := by
  cases errorCode with
  | some errorCode => exact h.handleHealthCheckFailed
  | none =>
    have hback : ∀ {peer id : ℕ} {p : Peer},
        (s.peers ++ [(PeerKind.healthCheck check, Peer.init s.options.common)])[peer]? =
          some (.accepted id, p) → s.peers[peer]? = some (.accepted id, p) := by
      intro peer id p hp
      rcases getElem?_concat hp with hp | ⟨-, heq⟩
      · exact hp
      · exact PeerKind.noConfusion (Prod.mk.inj heq).1
    have hadded : { s with
        peers := s.peers ++ [(PeerKind.healthCheck check, Peer.init s.options.common)]
        healthCheckPeer := some s.peers.length }.ListenInv := by
      refine ⟨h.accepting, h.stopped, fun hrunning => ?_,
        fun peer id p hp => h.closed peer id p (hback hp),
        fun peer id p hp => h.noticed peer id p (hback hp)⟩
      exact (h.progress hrunning).imp_right fun hnot => ⟨hnot.1, hnot.2.append rfl rfl rfl
        (List.append_nil _).symm List.not_mem_nil⟩
    exact hadded.steady (Steady.post _ _ (by simp))

/-- The handler of `async_accept`. An acceptor that was not closed accepts again, or fails and is
closed. -/
theorem ListenInv.acceptDone {s : Server} (h : s.ListenInv) {acceptor : ℕ}
    {errorCode : Option ErrorCode}
    (habort : errorCode = some .operationAborted → s.acceptor ≠ some acceptor) :
    ({ s with accepts := s.accepts.erase acceptor }.acceptDone errorCode).ListenInv := by
  -- another acceptor has its own outstanding operation
  have hother : s.stopped = true ∨ s.acceptor ≠ some acceptor →
      { s with accepts := s.accepts.erase acceptor }.ListenInv := by
    intro hcases
    refine ⟨fun a ha => ?_, h.stopped, fun hrunning => ?_, h.closed, h.noticed⟩
    · rcases h.accepting a ha with hmem | hstop
      · by_cases heq : a = acceptor
        · subst heq
          have hstopped := hcases.resolve_right fun hne => hne ha
          refine .inr ((h.stopped hstopped).resolve_right fun hnone => ?_)
          exact Option.some_ne_none a (ha.symm.trans hnone.1)
        · exact .inl ((List.mem_erase_of_ne heq).mpr hmem)
      · exact .inr hstop
    · refine (h.progress hrunning).imp_right fun hnot => ⟨hnot.1, ?_⟩
      exact hnot.2.append rfl rfl rfl (List.append_nil _).symm List.not_mem_nil
  unfold Server.acceptDone
  split
  next hstopped => exact hother (.inl hstopped)
  next hrunning =>
    have hrunning' : s.stopped = false := Bool.eq_false_of_not_eq_true hrunning
    cases errorCode with
    | some errorCode =>
      dsimp only
      split
      next hcode => exact hother (.inr (habort (congrArg some hcode)))
      next => exact h.loseAcceptor _ rfl
    | none => exact h.handleAcceptedSocket hrunning' _

/-- A delayed closure that is due binds, if it was not called off. -/
theorem ListenInv.runDelayed {s : Server} (h : s.ListenInv) {index generation : ℕ}
    (hdelayed : s.delayed[index]? = some generation) :
    ({ s with delayed := s.delayed.eraseIdx index }.runDelayed generation).ListenInv := by
  -- only the closure of the current generation matters, and it binds
  have herased : s.generation ≠ generation ∨ s.stopped = true →
      { s with delayed := s.delayed.eraseIdx index }.ListenInv := by
    intro hother
    refine h.redispatch (fun hrunning hbusy => ?_) fun _ _ _ _ _ hsignal => .inl hsignal
    have hne := hother.resolve_right fun hs => Bool.noConfusion (hs.symm.trans hrunning)
    rcases hbusy with hb | hb | ⟨hcancel, hb⟩ | ⟨task, hb, ht⟩
    · exact .accepting hb
    · exact .debounce hb
    · refine .delayed hcancel ?_
      obtain ⟨i, hi⟩ := List.mem_iff_getElem?.mp hb
      refine List.mem_eraseIdx_iff_getElem?.mpr ⟨i, ?_, hi⟩
      rintro rfl
      exact hne (Option.some.inj (hi.symm.trans hdelayed))
    · exact .schedules task hb ht
  rw [Server.runDelayed]
  split
  next hne => exact herased (.inl hne)
  next =>
    split
    next hstopped => exact herased (.inr hstopped)
    next hrunning =>
      refine ⟨fun a ha => ?_, fun hs => absurd hs hrunning, fun _ => .inl (outlasts_concat _ _ _),
        fun peer id p hp => ?_, fun peer id p hp hentry => ?_⟩
      · exact (h.accepting a ha).imp_right (List.mem_append_left _)
      · exact (h.closed peer id p hp).imp_right (Or.imp_right (List.mem_append_left _))
      · exact (h.noticed peer id p hp hentry).imp_right (Or.imp_right (List.mem_append_left _))

/-- A peer that is destroyed takes its closures along; one that the server has is not destroyed. -/
theorem ListenInv.destroyPeer {s : Server} (h : s.ListenInv) {peer : ℕ}
    (hpeer : peer ∉ s.peerIds.map Prod.snd) :
    { s with dispatcher := s.dispatcher.filter fun task => !task.ownedBy peer }.ListenInv := by
  refine h.redispatch (fun _ hbusy => ?_) fun other id p _ hentry hsignal => ?_
  · rcases hbusy with hb | hb | ⟨hcancel, hb⟩ | ⟨task, hb, ht⟩
    · exact .accepting hb
    · exact .debounce (hb.filter rfl)
    · exact .delayed (fun hmem => hcancel (List.mem_filter.mp hmem).1) hb
    · refine .schedules task (List.mem_filter.mpr ⟨hb, ?_⟩) ht
      cases task <;> first | rfl | cases ht
  · have hne : other ≠ peer := by
      rintro rfl
      exact hpeer (List.mem_map.mpr ⟨_, hentry, rfl⟩)
    refine .inl (List.mem_filter.mpr ⟨hsignal, ?_⟩)
    simp [ServerTask.ownedBy, hne]

/-- One step keeps the invariant. -/
theorem ListenInv.step {s t : Server} (h : s.ListenInv) (hevents : s.EventInv)
    {label : ServerLabel} (hstep : s.step label = some t) : t.ListenInv := by
  cases label with
  | asyncStart | asyncStop =>
    obtain rfl := Option.some.inj hstep
    exact h.steady (Steady.enqueue s _ (by simp))
  | asyncSend | asyncRespond | asyncRequest | asyncClosePeer =>
    obtain rfl := Option.some.inj hstep
    exact h.steady (Steady.post s _ (by simp))
  | dispatch verified =>
    rw [Server.step] at hstep
    split at hstep
    next => cases hstep
    next task tasks hqueue =>
      obtain rfl := Option.some.inj hstep
      exact h.runTask hqueue verified
  | bindRetryTimer index =>
    rw [Server.step] at hstep
    split at hstep
    next => cases hstep
    next generation hdelayed =>
      obtain rfl := Option.some.inj hstep
      exact h.runDelayed hdelayed
  | healthCheckTimer index =>
    rw [Server.step] at hstep
    split at hstep
    next => cases hstep
    next functionId _ =>
      obtain rfl := Option.some.inj hstep
      have hpopped : { s with
          timer := { s.timer with delayed := s.timer.delayed.eraseIdx index } }.ListenInv :=
        h.steady { Steady.refl s with }
      exact hpopped.steady (Steady.callFunction _ functionId)
  | io bindError =>
    rw [Server.step] at hstep
    split at hstep
    next => cases hstep
    next task tasks hqueue =>
      obtain rfl := Option.some.inj hstep
      exact h.runIoTask hevents hqueue bindError
  | acceptDone acceptor errorCode =>
    rw [Server.step] at hstep
    split at hstep
    next hguard =>
      obtain rfl := Option.some.inj hstep
      exact h.acceptDone hguard.2
    next => cases hstep
  | checkConnectDone check errorCode =>
    rw [Server.step] at hstep
    split at hstep
    next =>
      obtain rfl := Option.some.inj hstep
      have hpopped : { s with checkConnects := s.checkConnects.erase check }.ListenInv :=
        h.steady { Steady.refl s with }
      exact hpopped.checkConnectDone check errorCode
    next => cases hstep
  | checkTimeout check aborted =>
    rw [Server.step] at hstep
    split at hstep
    next =>
      obtain rfl := Option.some.inj hstep
      have hpopped : { s with checkTimers := s.checkTimers.erase check }.ListenInv :=
        h.steady { Steady.refl s with }
      cases aborted with
      | true => exact hpopped
      | false => exact hpopped.handleHealthCheckFailed
    next => cases hstep
  | peer peer label =>
    rw [Server.step] at hstep
    split at hstep
    next => exact h.stepPeer hevents hstep
    next => cases hstep
  | requestTimer request id =>
    rw [Server.step] at hstep
    split at hstep
    next =>
      obtain rfl := Option.some.inj hstep
      have hcomplete := Keeps.complete s (s.requestManager.timerExpired request)
      exact (h.steady (Steady.complete s _)).steady
        (Steady.timeoutCallback (hevents.keeps hcomplete) id)
    next => cases hstep
  | destroyPeer peer =>
    rw [Server.step] at hstep
    split at hstep
    next hgone =>
      obtain rfl := Option.some.inj hstep
      exact h.destroyPeer hgone.2.1
    next => cases hstep

/-! ## Every run -/

/-- Nothing is left for either thread to do. -/
def Quiescent (s : Server) : Prop := s.dispatcher = [] ∧ s.ioCtx = []

/-- In every run of the server, whatever the sockets, the timers, the program and the order of the
two threads do, and whenever neither thread has anything left to do: a server that is not stopped
has an `async_accept` outstanding, or a retry scheduled that was not called off; a stopped one has
no acceptor and no peers. The peers that it has, stopped or not, are exactly those it has accepted
whose sockets are open. -/
theorem server_keeps_listening (options : ServerOptions) (labels : List ServerLabel) {s : Server}
    (h : Transition.run Server.step (init options) labels = some s) (hquiescent : s.Quiescent) :
    (s.stopped = false →
      (∃ acceptor, s.acceptor = some acceptor ∧ acceptor ∈ s.accepts) ∨
        s.generation ∈ s.delayed) ∧
    (s.stopped = true → s.acceptor = none ∧ s.peerIds = []) ∧
    (∀ id peer, (id, peer) ∈ s.peerIds ↔
      ∃ p : Peer, s.peers[peer]? = some (.accepted id, p) ∧ p.isOpen = true) := by
  have hinv : s.ListenInv ∧ s.EventInv :=
    Transition.run_invariant (I := fun s => s.ListenInv ∧ s.EventInv)
      ⟨ListenInv.init options, EventInv.init options⟩
      (fun _ _ _ hs hstep => ⟨hs.1.step hs.2 hstep, hs.2.step hstep⟩) h
  obtain ⟨hlisten, hevents⟩ := hinv
  obtain ⟨hdispatcher, hio⟩ := hquiescent
  have hstop : ServerIoTask.stop ∉ s.ioCtx := hio ▸ List.not_mem_nil
  refine ⟨fun hrunning => ?_, fun hstopped => (hlisten.stopped hstopped).resolve_left hstop,
    fun id peer => ⟨fun hentry => ?_, ?_⟩⟩
  · rcases hlisten.progress hrunning with hout | ⟨-, hb | hb | ⟨-, hb⟩ | ⟨task, hb, -⟩⟩
    · exact absurd hout.mem (hio ▸ List.not_mem_nil)
    · obtain ⟨acceptor, hacceptor⟩ := Option.isSome_iff_exists.mp hb
      exact .inl ⟨acceptor, hacceptor, (hlisten.accepting acceptor hacceptor).resolve_right hstop⟩
    · exact absurd hb.mem (hdispatcher ▸ List.not_mem_nil)
    · exact .inr hb
    · exact absurd hb (hdispatcher ▸ List.not_mem_nil)
  · obtain ⟨p, hp⟩ := hevents.peerIds id peer hentry
    refine ⟨p, hp, ?_⟩
    rcases hlisten.noticed peer id p hp hentry with hopen | hsignal | hclosed
    · exact hopen
    · exact absurd hsignal (hdispatcher ▸ List.not_mem_nil)
    · exact absurd hclosed (hio ▸ List.not_mem_nil)
  · rintro ⟨p, hp, hopen⟩
    rcases hlisten.closed peer id p hp with hentry | hclosed | hclose
    · exact hentry
    · exact Bool.noConfusion (hclosed.symm.trans hopen)
    · exact absurd hclose (hio ▸ List.not_mem_nil)

/-- The socket cannot be bound, and a retry is scheduled. -/
def bindFails : List ServerLabel :=
  [.asyncStart, .dispatch true, .io (some (.other 48)), .dispatch true, .dispatch true,
    .dispatch true]

/-- After it a retry is scheduled that was not called off. -/
theorem server_keeps_listening_bind_failed :
    ∃ s, Transition.run Server.step (init ⟨⟨1024, 1024⟩, true⟩) bindFails = some s ∧
      s.acceptor = none ∧ s.generation ∈ s.delayed := by
  obtain ⟨s, hrun, hquiescent, hrunning, hnone⟩ : ∃ s, Transition.run Server.step
      (init ⟨⟨1024, 1024⟩, true⟩) bindFails = some s ∧ s.Quiescent ∧ s.stopped = false ∧
        s.acceptor = none := ⟨_, rfl, ⟨rfl, rfl⟩, rfl, rfl⟩
  refine ⟨s, hrun, hnone, ?_⟩
  refine ((server_keeps_listening ⟨⟨1024, 1024⟩, true⟩ bindFails hrun hquiescent).1
    hrunning).resolve_left ?_
  rintro ⟨acceptor, hacceptor, -⟩
  exact Option.some_ne_none acceptor (hacceptor.symm.trans hnone)

end Server

end VirtualHidDevice.UnixDomainStream
