import VirtualHidDevice.UnixDomainStream.ListenInv
import VirtualHidDevice.UnixDomainStream.PeerEvents

/-!
# The closures that bind and end the acceptor

The thread of `io_ctx_` binds, accepts, and closes what a stop or a failed health check ends.

* `ListenInv.ran` — a closure that neither binds nor ends anything.
* `ListenInv.bind`, `ListenInv.stopped_run`, `ListenInv.letGo` — the acceptor and the peers.

`ListenInv.runIoTask` is the result for any closure in this thread.
-/

namespace VirtualHidDevice.UnixDomainStream

open Pending

namespace Server

/-! ## Closures in the thread of `io_ctx_` -/

/-- Only a closed peer says that it is closed. -/
theorem EventInv.closed_of_io {s : Server} (h : s.EventInv) {peer id : ℕ} {p : Peer}
    (hp : s.peers[peer]? = some (.accepted id, p)) (hio : .peerClosed id ∈ s.ioCtx) :
    p.isOpen = false := by
  obtain ⟨done, hpeer⟩ := h.accepted peer id p hp
  have hsignals := (h.peer peer _ p hp).closed
  have htold : Mark.closed ∈ done ++ s.marks id peer := by
    refine (List.mem_append.mp (hpeer.told hio)).elim (List.mem_append_left _) fun hmem => ?_
    exact List.mem_append_right _ (List.mem_append_left _ hmem)
  have hcount := List.count_pos_iff.mpr (closed_mem_of_mark (hpeer.order.subset htold))
  cases hopen : p.isOpen with
  | false => rfl
  | true =>
    rw [hopen, if_pos rfl] at hsignals
    omega

/-- Other closures are not what keeps the server listening. -/
theorem ListenInv.ran {s : Server} (h : s.ListenInv) {task : ServerIoTask}
    {tasks : List ServerIoTask} (hqueue : s.ioCtx = task :: tasks) (hbind : task ≠ .bind)
    (hstop : task ≠ .stop)
    (hclose : ∀ (peer id : ℕ) (p : Peer), task = .peer peer .close →
      s.peers[peer]? = some (.accepted id, p) → p.isOpen = false)
    (hclosed : ∀ peer id, task = .peerClosed id → (id, peer) ∉ s.peerIds) :
    { s with ioCtx := tasks }.ListenInv := by
  have hmem : ∀ other, other ∈ s.ioCtx → other = task ∨ other ∈ tasks := by
    intro other hother
    exact List.mem_cons.mp (hqueue ▸ hother)
  have hstays : .stop ∈ s.ioCtx → .stop ∈ tasks := fun hs =>
    (hmem _ hs).resolve_left fun heq => hstop heq.symm
  refine ⟨?_, fun hs => (h.stopped hs).imp_left hstays, ?_, ?_, ?_⟩
  · rintro acceptor hacceptor
    exact (h.accepting acceptor hacceptor).imp_right hstays
  · rintro hrunning
    rcases h.progress hrunning with hout | ⟨hnot, hbusy⟩
    · rw [hqueue] at hout
      exact .inl (hout.of_cons.resolve_left fun heq => hbind heq.1)
    · refine .inr ⟨fun hs => hnot (hqueue ▸ List.mem_cons_of_mem _ hs), ?_⟩
      exact hbusy.append rfl rfl rfl (List.append_nil _).symm List.not_mem_nil
  · rintro peer id p hp
    rcases h.closed peer id p hp with hentry | hopen | hpeer
    · exact .inl hentry
    · exact .inr (.inl hopen)
    · rcases hmem _ hpeer with heq | hpeer
      · exact .inr (.inl (hclose peer id p heq.symm hp))
      · exact .inr (.inr hpeer)
  · rintro peer id p hp hentry
    rcases h.noticed peer id p hp hentry with hopen | hsignal | hpeer
    · exact .inl hopen
    · exact .inr (.inl hsignal)
    · rcases hmem _ hpeer with heq | hpeer
      · exact absurd hentry (hclosed peer id heq.symm)
      · exact .inr (.inr hpeer)

/-- Without an acceptor something else has to keep the server listening. -/
theorem ListenInv.loseAcceptor {s : Server} (h : s.ListenInv) (accepts : List ℕ)
    {task : ServerTask} (htask : task.schedules = true) :
    ({ s with acceptor := none, accepts }.enqueue [task]).ListenInv := by
  refine ⟨fun _ hacceptor => ?_, ?_, ?_, h.closed, ?_⟩
  · exact absurd hacceptor (Option.some_ne_none _).symm
  · exact fun hstopped => (h.stopped hstopped).imp_right fun hnone => ⟨rfl, hnone.2⟩
  · rintro hrunning
    refine (h.progress hrunning).imp_right fun hnot => ⟨hnot.1, ?_⟩
    exact .schedules task (List.mem_append_right _ List.mem_cons_self) htask
  · rintro peer id p hp hentry
    exact (h.noticed peer id p hp hentry).imp_right (Or.imp_left (List.mem_append_left _))

/-- A health check that failed ends the acceptor, and a retry is scheduled. -/
theorem ListenInv.handleHealthCheckFailed {s : Server} (h : s.ListenInv) :
    s.handleHealthCheckFailed.ListenInv := by
  rw [Server.handleHealthCheckFailed]
  split
  next => exact h
  next =>
    have hbegin : { s with healthCheckInProgress := false }.ListenInv :=
      h.steady { Steady.refl s with }
    exact (hbegin.steady (Steady.closeHealthCheckPeer _)).loseAcceptor _ rfl

/-- The closure of `bind()` creates an acceptor, if there is none; if the socket is not bound, the
closure that says so schedules a retry. -/
theorem ListenInv.bind {s : Server} (h : s.ListenInv) {tasks : List ServerIoTask}
    (hqueue : s.ioCtx = .bind :: tasks) (error : Option ErrorCode) :
    ({ s with ioCtx := tasks }.bind error).ListenInv := by
  have hmem : ∀ other, other ≠ .bind → other ∈ s.ioCtx → other ∈ tasks := by
    intro other hne hother
    exact (List.mem_cons.mp (hqueue ▸ hother)).resolve_left hne
  -- the stops that are left, if any, are in front of another `bind`
  have hstop : s.stopped = false → Outlasts .bind .stop tasks ∨ .stop ∉ tasks := by
    intro hrunning
    rcases h.progress hrunning with hout | ⟨hnot, -⟩
    · rw [hqueue] at hout
      exact hout.of_cons.symm.imp_right And.right
    · exact .inr fun hm => hnot (hqueue ▸ List.mem_cons_of_mem _ hm)
  have hclosed : ∀ (peer id : ℕ) (p : Peer), s.peers[peer]? = some (.accepted id, p) →
      (id, peer) ∈ s.peerIds ∨ p.isOpen = false ∨ .peer peer .close ∈ tasks := by
    intro peer id p hp
    exact (h.closed peer id p hp).imp_right (Or.imp_right (hmem _ ServerIoTask.noConfusion))
  have hnoticed : ∀ (peer id : ℕ) (p : Peer), s.peers[peer]? = some (.accepted id, p) →
      (id, peer) ∈ s.peerIds → p.isOpen = true ∨ .peerSignal peer .closed ∈ s.dispatcher ∨
        .peerClosed id ∈ tasks := by
    intro peer id p hp hentry
    exact (h.noticed peer id p hp hentry).imp_right
      (Or.imp_right (hmem _ ServerIoTask.noConfusion))
  rw [Server.bind]
  split
  next hguard =>
    refine ⟨fun acceptor hacceptor => ?_, fun hs => ?_, fun hrunning => ?_, hclosed, hnoticed⟩
    · exact (h.accepting acceptor hacceptor).imp_right (hmem _ ServerIoTask.noConfusion)
    · exact (h.stopped hs).imp_left (hmem _ ServerIoTask.noConfusion)
    · have hrunning : s.stopped = false := hrunning
      rw [hrunning, Bool.false_or] at hguard
      exact (hstop hrunning).imp_right fun hnot => ⟨hnot, .accepting hguard⟩
  next hguard =>
    rw [Bool.or_eq_true, not_or, Bool.not_eq_true] at hguard
    obtain ⟨hrunning, -⟩ := hguard
    cases error with
    | some errorCode =>
      refine ⟨fun _ hacceptor => ?_, fun hs => ?_, fun _ => ?_, hclosed,
        fun peer id p hp hentry => ?_⟩
      · exact absurd hacceptor (Option.some_ne_none _).symm
      · exact Bool.noConfusion (hs.symm.trans hrunning)
      · refine (hstop hrunning).imp_right fun hnot => ⟨hnot, ?_⟩
        exact .schedules _ (List.mem_append_right _ List.mem_cons_self) rfl
      · exact (hnoticed peer id p hp hentry).imp_right (Or.imp_left (List.mem_append_left _))
    | none =>
      dsimp only [Server.enqueue, Server.accept]
      rw [if_neg (hrunning ▸ Bool.false_ne_true)]
      refine ⟨fun _ hacceptor => ?_, fun hs => ?_, fun _ => ?_, hclosed,
        fun peer id p hp hentry => ?_⟩
      · obtain rfl := Option.some.inj hacceptor
        exact .inl (List.mem_append_right _ List.mem_cons_self)
      · exact Bool.noConfusion (hs.symm.trans hrunning)
      · exact (hstop hrunning).imp_right fun hnot => ⟨hnot, .accepting rfl⟩
      · exact (hnoticed peer id p hp hentry).imp_right (Or.imp_left (List.mem_append_left _))

/-- The closure of a stop closes the acceptor and all peers. Behind the last one is what a start
has set up since. -/
theorem ListenInv.stopped_run {s : Server} (h : s.ListenInv) {tasks : List ServerIoTask}
    (hqueue : s.ioCtx = .stop :: tasks) :
    ListenInv { { s with ioCtx := tasks }.closeAcceptor.closeAllPeers.closeHealthCheckPeer with
      healthCheckInProgress := false } := by
  have hmem : ∀ other, other ≠ .stop → other ∈ s.ioCtx → other ∈ tasks := by
    intro other hne hother
    exact (List.mem_cons.mp (hqueue ▸ hother)).resolve_left hne
  have hclosing : ({ s with ioCtx := tasks }.closeAcceptor.closeAllPeers).ListenInv := by
    refine ⟨fun _ hacceptor => ?_, fun _ => .inr ⟨rfl, rfl⟩, fun hrunning => ?_,
      fun peer id p hp => ?_, fun _ _ _ _ hentry => absurd hentry List.not_mem_nil⟩
    · exact absurd hacceptor (Option.some_ne_none _).symm
    · rcases h.progress hrunning with hout | ⟨hnot, -⟩
      · rw [hqueue] at hout
        have hrest := hout.of_cons.resolve_left fun heq => ServerIoTask.noConfusion heq.1
        exact .inl (hrest.append (by simp))
      · exact absurd (hqueue ▸ List.mem_cons_self) hnot
    · rcases h.closed peer id p hp with hentry | hopen | hpeer
      · exact .inr (.inr (List.mem_append_right _ (List.mem_map.mpr ⟨_, hentry, rfl⟩)))
      · exact .inr (.inl hopen)
      · exact .inr (.inr (List.mem_append_left _ (hmem _ ServerIoTask.noConfusion hpeer)))
  exact (hclosing.steady (Steady.closeHealthCheckPeer _)).steady { Steady.refl _ with }

/-- A peer that is known to be closed is let go. -/
theorem ListenInv.letGo {s : Server} (h : s.ListenInv) (hevents : s.EventInv) {id : ℕ}
    (hio : .peerClosed id ∈ s.ioCtx) :
    { s with peerIds := s.peerIds.filter (·.1 ≠ id) }.ListenInv := by
  refine ⟨h.accepting, fun hs => ?_, fun hrunning => ?_, fun peer i p hp => ?_,
    fun peer i p hp hentry => h.noticed peer i p hp (List.mem_of_mem_filter hentry)⟩
  · refine (h.stopped hs).imp_right fun hnone => ⟨hnone.1, ?_⟩
    rw [hnone.2, List.filter_nil]
  · refine (h.progress hrunning).imp_right fun hnot => ⟨hnot.1, ?_⟩
    exact hnot.2.append rfl rfl rfl (List.append_nil _).symm List.not_mem_nil
  · rcases h.closed peer i p hp with hentry | hclosed
    · by_cases hid : i = id
      · subst hid
        exact .inr (.inl (hevents.closed_of_io hp hio))
      · exact .inl (List.mem_filter.mpr ⟨hentry, decide_eq_true hid⟩)
    · exact .inr hclosed

/-- A step of a peer: if it closes the socket, the dispatcher is told. -/
theorem ListenInv.stepPeer {s t : Server} (h : s.ListenInv) (hevents : s.EventInv) {index : ℕ}
    {label : PeerLabel} (hstep : s.stepPeer index label = some t) : t.ListenInv := by
  obtain ⟨kind, p, q, hp, hq, rfl⟩ := stepPeer_eq_some hstep
  have hsignals := hevents.peer index kind p hp
  have hlt := (List.getElem?_eq_some_iff.mp hp).1
  have hself : ∀ {k : PeerKind} {r : Peer},
      (s.peers.set index (kind, q))[index]? = some (k, r) → k = kind ∧ r = q := by
    intro k r hr
    rw [List.getElem?_set_self hlt] at hr
    obtain ⟨rfl, rfl⟩ := Prod.mk.inj (Option.some.inj hr)
    exact ⟨rfl, rfl⟩
  have hnew : ServerTask.cancel ∉
      (q.signals.drop p.signals.length).map (ServerTask.peerSignal index) := by
    intro hmem
    obtain ⟨_, -, heq⟩ := List.mem_map.mp hmem
    cases heq
  refine ⟨h.accepting, h.stopped, fun hrunning => ?_, fun peer id r hr => ?_,
    fun peer id r hr hentry => ?_⟩
  · refine (h.progress hrunning).imp_right fun hnot => ⟨hnot.1, ?_⟩
    exact hnot.2.append rfl rfl rfl rfl hnew
  · by_cases heq : peer = index
    · subst heq
      obtain ⟨rfl, rfl⟩ := hself hr
      refine (h.closed peer id p hp).imp_right (Or.imp_left fun hclosed => ?_)
      -- a socket is not opened again
      cases hopen : r.isOpen with
      | false => rfl
      | true => exact absurd (Peer.isOpen_of_step hsignals hq hopen) (by simp [hclosed])
    · exact h.closed peer id r ((List.getElem?_set_ne (Ne.symm heq)).symm.trans hr)
  · by_cases heq : peer = index
    · subst heq
      obtain ⟨rfl, rfl⟩ := hself hr
      cases hopen : r.isOpen with
      | true => exact .inl rfl
      | false =>
        rcases h.noticed peer id p hp hentry with hp' | hsignal | hclosed
        · have hmem := Peer.closed_mem_of_step hsignals hq hp' hopen
          exact .inr (.inl (List.mem_append_right _ (List.mem_map_of_mem hmem)))
        · exact .inr (.inl (List.mem_append_left _ hsignal))
        · exact .inr (.inr hclosed)
    · have hr : s.peers[peer]? = some (.accepted id, r) :=
        (List.getElem?_set_ne (Ne.symm heq)).symm.trans hr
      exact (h.noticed peer id r hr hentry).imp_right (Or.imp_left (List.mem_append_left _))

/-- A closure of a peer. The order of its work and of taking it from the queue does not matter. -/
theorem ListenInv.runPeer {s : Server} (h : s.ListenInv) (hevents : s.EventInv) {index : ℕ}
    {label : PeerLabel} {tasks : List ServerIoTask}
    (hqueue : s.ioCtx = .peer index label :: tasks) :
    (({ s with ioCtx := tasks }.stepPeer index label).getD
      { s with ioCtx := tasks }).ListenInv := by
  rw [stepPeer_ioCtx]
  cases hstep : s.stepPeer index label with
  | none =>
    refine h.ran hqueue ServerIoTask.noConfusion ServerIoTask.noConfusion ?_
      fun _ _ => ServerIoTask.noConfusion
    intro peer id p heq hp
    obtain ⟨rfl, rfl⟩ := ServerIoTask.peer.inj heq
    -- a peer that exists can always be closed
    rw [Server.stepPeer, hp] at hstep
    cases hstep
  | some t =>
    obtain ⟨kind, p, q, hp, hq, ht⟩ := stepPeer_eq_some hstep
    have hio : t.ioCtx = .peer index label :: tasks := by rw [ht]; exact hqueue
    refine (h.stepPeer hevents hstep).ran hio ServerIoTask.noConfusion ServerIoTask.noConfusion ?_
      fun _ _ => ServerIoTask.noConfusion
    intro peer id r heq hr
    obtain ⟨rfl, rfl⟩ := ServerIoTask.peer.inj heq
    obtain rfl := Option.some.inj hq
    have hlt := (List.getElem?_eq_some_iff.mp hp).1
    have hset : (s.peers.set index (kind, p.close))[index]? = some (.accepted id, r) := by
      rw [ht] at hr
      exact hr
    rw [List.getElem?_set_self hlt] at hset
    rw [← (Prod.mk.inj (Option.some.inj hset)).2, Peer.close_isOpen]

/-- The closures of `io_ctx_` that leave the acceptor and the peers alone. -/
theorem ListenInv.runIoTask {s : Server} (h : s.ListenInv) (hevents : s.EventInv)
    {task : ServerIoTask} {tasks : List ServerIoTask} (hqueue : s.ioCtx = task :: tasks)
    (bindError : Option ErrorCode) :
    ({ s with ioCtx := tasks }.runIoTask bindError task).ListenInv := by
  have hran : task.handsOn = true → { s with ioCtx := tasks }.ListenInv := by
    intro hhands
    refine h.ran hqueue ?_ ?_ (fun _ _ _ heq => ?_) (fun _ _ heq => ?_)
    · rintro rfl
      exact Bool.noConfusion hhands
    · rintro rfl
      exact Bool.noConfusion hhands
    · exact Bool.noConfusion ((congrArg ServerIoTask.handsOn heq).symm.trans hhands)
    · exact Bool.noConfusion ((congrArg ServerIoTask.handsOn heq).symm.trans hhands)
  have hpopped := hevents.popIo hqueue
  cases task with
  | bind => exact h.bind hqueue bindError
  | stop => exact h.stopped_run hqueue
  | peer peer label => exact h.runPeer hevents hqueue
  | peerClosed id =>
    have hio : .peerClosed id ∈ s.ioCtx := hqueue ▸ List.mem_cons_self
    refine ((h.letGo hevents hio).ran hqueue ServerIoTask.noConfusion ServerIoTask.noConfusion
      (fun _ _ _ => ServerIoTask.noConfusion) ?_).steady (Steady.complete _ _)
    intro peer i heq hentry
    obtain rfl := ServerIoTask.peerClosed.inj heq
    exact of_decide_eq_true (List.mem_filter.mp hentry).2 rfl
  | send id data | respond id requestId data =>
    have hother := hran rfl
    rw [Server.runIoTask]
    split
    next => exact hother
    next => exact hother.steady (Steady.post _ _ (by simp))
  | request id data callback =>
    have hother := hran rfl
    rw [Server.runIoTask]
    split
    next => exact hother.steady (Steady.enqueue _ _ (by simp))
    next peer _ => exact hother.steady (Steady.sendRequest _ id peer data callback)
  | closePeer id =>
    exact (hran rfl).steady (Steady.closePeer hpopped id)
  | responseReceived id peer requestId buffer =>
    have hother := hran rfl
    rw [Server.runIoTask]
    split
    next => exact hother.steady (Steady.complete _ _)
    next => exact hother
  | peerError id errorCode =>
    exact (hran rfl).steady (Steady.complete _ _)
  | healthCheck =>
    exact (hran rfl).steady (Steady.healthCheck _)
  | healthCheckResponse check =>
    exact ((hran rfl).steady (Steady.closeHealthCheckPeer _)).steady { Steady.refl _ with }
  | healthCheckError check | healthCheckClosed check =>
    exact (hran rfl).handleHealthCheckFailed

end Server

end VirtualHidDevice.UnixDomainStream
