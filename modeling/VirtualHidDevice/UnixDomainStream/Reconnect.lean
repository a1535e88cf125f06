import VirtualHidDevice.UnixDomainStream.ClientIo
import VirtualHidDevice.UnixDomainStream.PeerReader

/-!
# The client keeps trying

Every step of the client keeps what `ClientInv` says: the closures of the two threads, the
handlers of sockets and timers, and the steps of the peers, whose end is told to the dispatcher.

* `PeersInv` — the peers are in order, which the client needs to hear of their end.
* `Inv.step` — every step of the client.

`client_keeps_trying` is the result for all runs.
-/

namespace VirtualHidDevice.UnixDomainStream

open Pending

namespace Client

/-! ## Steps of the peers -/

/-- The peers are in order. -/
def PeersInv (c : Client) : Prop := ∀ p ∈ c.peers, p.SignalInv

/-- What a step of a peer does to the client. -/
theorem stepPeer_eq_some {c d : Client} {index : ℕ} {label : PeerLabel}
    (h : c.stepPeer index label = some d) :
    ∃ p q, c.peers[index]? = some p ∧ p.step label = some q ∧
      d = { c with peers := c.peers.set index q }.enqueue
        ((q.signals.drop p.signals.length).map (.peerSignal index)) := by
  rw [Client.stepPeer] at h
  split at h
  next => cases h
  next p hp =>
    obtain ⟨q, hq, rfl⟩ := Option.map_eq_some_iff.mp h
    exact ⟨p, q, hp, hq, rfl⟩

/-- A peer that takes a step stays in order. -/
theorem PeersInv.stepPeer {c d : Client} (h : c.PeersInv) {index : ℕ} {label : PeerLabel}
    (hstep : c.stepPeer index label = some d) : d.PeersInv := by
  obtain ⟨p, q, hp, hq, rfl⟩ := stepPeer_eq_some hstep
  intro r hr
  rcases List.mem_or_eq_of_mem_set hr with hr | rfl
  · exact h r hr
  · exact (h p (List.mem_of_getElem? hp)).step hq

/-- A step of a peer: if it closes the socket, the dispatcher is told. -/
theorem Inv.stepPeer {c d : Client} (h : c.Inv) (hpeers : c.PeersInv) {index : ℕ}
    {label : PeerLabel} (hstep : c.stepPeer index label = some d) : d.Inv := by
  obtain ⟨p, q, hp, hq, rfl⟩ := stepPeer_eq_some hstep
  have hinv := hpeers p (List.mem_of_getElem? hp)
  have hlt := (List.getElem?_eq_some_iff.mp hp).1
  have hclosed : ∀ peer, { c with peers := c.peers.set index q }.peerClosed peer =
      if peer = index then !q.isOpen else c.peerClosed peer := by
    intro peer
    by_cases heq : peer = index
    · subst heq
      simp [peerClosed, List.getElem?_set_self hlt]
    · simp [peerClosed, List.getElem?_set_ne (Ne.symm heq), heq]
  have hp' : c.peerClosed index = !p.isOpen := by simp [peerClosed, hp]
  have hmono : ∀ peer, c.peerClosed peer = true →
      { c with peers := c.peers.set index q }.peerClosed peer = true := by
    intro peer hc
    rw [hclosed]
    split
    next heq =>
      subst heq
      have hopen := Peer.isOpen_of_step hinv hq
      rw [hp'] at hc
      cases hq' : q.isOpen with
      | false => rfl
      | true =>
        rw [hopen hq'] at hc
        exact hc
    next => exact hc
  refine ⟨fun socket hs => ?_, fun peer hpr => ?_, h.single, h.stopped, fun hs => ?_,
    fun peer hpr => ?_, fun peer hpr => ?_⟩
  · exact (h.connecting socket hs).mono rfl (List.subset_append_left _ _) (List.Subset.refl _)
  · obtain ⟨hlength, hconnected⟩ := h.connected peer hpr
    refine ⟨by simpa [Client.enqueue] using hlength, hconnected.mono (fun hopen => ?_)
      (List.subset_append_left _ _) (List.Subset.refl _)⟩
    -- the current peer was open: it still is, or its end was just handed over
    by_cases heq : peer = index
    · subst heq
      rw [hp', Bool.not_eq_false'] at hopen
      cases hq' : q.isOpen with
      | true => exact .inl ((hclosed peer).trans (by simp [hq']))
      | false =>
        have hmem := Peer.closed_mem_of_step hinv hq hopen hq'
        exact .inr (.inl (List.mem_append_right _ (List.mem_map_of_mem hmem)))
    · exact .inl ((hclosed peer).trans (by simp [heq, hopen]))
  · refine (h.progress hs).imp id fun hb => ⟨hb.1, ?_⟩
    have hnew : ClientTask.cancel ∉
        (q.signals.drop p.signals.length).map (ClientTask.peerSignal index) := by
      intro hm
      obtain ⟨signal, -, heq⟩ := List.mem_map.mp hm
      cases heq
    exact Busy.enqueue (c := { c with peers := c.peers.set index q }) hb.2
      fun hmem => absurd hmem hnew
  · have ho := h.others peer (by simpa [Client.enqueue] using hpr)
    exact ho.imp id (Or.imp (hmono peer) id)
  · rcases hpr with hd | hio
    · rcases List.mem_append.mp hd with hd | hd
      · exact hmono peer (h.ended peer (.inl hd))
      · obtain ⟨signal, hs, heq⟩ := List.mem_map.mp hd
        obtain ⟨rfl, rfl⟩ := ClientTask.peerSignal.inj heq
        refine (hclosed index).trans ?_
        have hcount := (hinv.step hq).closed
        have hpos := List.count_pos_iff.mpr (List.mem_of_mem_drop hs)
        cases hq' : q.isOpen with
        | false => simp
        | true =>
          rw [hq', if_pos rfl] at hcount
          omega
    · exact hmono peer (h.ended peer (.inr hio))

/-- It does not matter what is queued for `io_ctx_`. -/
theorem stepPeer_ioCtx (c : Client) (tasks : List IoTask) (index : ℕ) (label : PeerLabel) :
    { c with ioCtx := tasks }.stepPeer index label =
      (c.stepPeer index label).map fun d => { d with ioCtx := tasks } := by
  rw [Client.stepPeer, Client.stepPeer]
  dsimp only
  split
  next => rfl
  next p _ => cases p.step label <;> rfl

/-- A closure of a peer. The order of its work and of taking it from the queue does not matter. -/
theorem Inv.runPeer {c : Client} (h : c.Inv) (hpeers : c.PeersInv) {index : ℕ} {label : PeerLabel}
    {tasks : List IoTask} (hqueue : c.ioCtx = .peer index label :: tasks) :
    (({ c with ioCtx := tasks }.stepPeer index label).getD { c with ioCtx := tasks }).Inv := by
  rw [stepPeer_ioCtx]
  cases hstep : c.stepPeer index label with
  | none =>
    refine h.ran hqueue ?_
    rintro rfl
    -- a peer that exists can always be closed
    rw [Client.stepPeer] at hstep
    split at hstep
    next hnone => exact .inl (List.getElem?_eq_none_iff.mp hnone)
    next => cases hstep
  | some d =>
    obtain ⟨p, q, hp, hq, hd⟩ := stepPeer_eq_some hstep
    have hio : d.ioCtx = .peer index label :: tasks := by rw [hd]; exact hqueue
    refine (h.stepPeer hpeers hstep).ran hio ?_
    rintro rfl
    obtain rfl := Option.some.inj hq
    right
    rw [hd]
    have hlt := (List.getElem?_eq_some_iff.mp hp).1
    simp [peerClosed, Client.enqueue, List.getElem?_set_self hlt, Peer.close_isOpen]

/-- A closure in the thread of `io_ctx_`. -/
theorem Inv.runIoTask {c : Client} (h : c.Inv) (hpeers : c.PeersInv) {task : IoTask}
    {tasks : List IoTask} (hqueue : c.ioCtx = task :: tasks) :
    ({ c with ioCtx := tasks }.runIoTask task).Inv := by
  cases task with
  | connect => exact h.connect hqueue
  | stop => exact h.stopConnection hqueue
  | invalidateConnection => exact h.invalidate hqueue
  | handleConnectedSocket socket verified => exact h.handleConnectedSocket hqueue
  | peer index label => exact h.runPeer hpeers hqueue
  | signal peer signal => exact h.handleSignal hqueue
  | connected peer =>
    have hran := h.ran hqueue trivial
    rw [Client.runIoTask]
    split
    next => exact hran.enqueue (by simp) (by simp)
    next => exact hran
  | send data =>
    have hran := h.ran hqueue trivial
    rw [Client.runIoTask]
    split
    next => exact hran
    next => exact hran.post (by simp) (by simp)
  | respond requestId data =>
    have hran := h.ran hqueue trivial
    rw [Client.runIoTask]
    split
    next => exact hran
    next => exact hran.post (by simp) (by simp)
  | request data callback =>
    have hran := h.ran hqueue trivial
    rw [Client.runIoTask]
    split
    next => exact hran.enqueue (by simp) (by simp)
    next => exact (hran.congr _ c.events).post (by simp) (by simp)

/-! ## Steps -/

/-- An `async_connect` is not outstanding any more: the attempt ended, or goes on elsewhere. -/
theorem Inv.connectEnds {c : Client} (h : c.Inv) {socket : ℕ}
    (hends : c.connectingSocket = some socket → c.stopped = true ∨ .verify socket ∈ c.dispatcher) :
    { c with connects := c.connects.erase socket }.Inv := by
  refine ⟨fun s hs => ?_, h.connected, h.single, h.stopped, h.progress, h.others, h.ended⟩
  by_cases heq : s = socket
  · subst heq
    rcases hends hs with hstopped | hverify
    · -- the closure of the stop is still to come
      have hstop := (h.stopped hstopped).resolve_right fun hnone =>
        absurd (hs.symm.trans hnone.1) (Option.some_ne_none s)
      exact .inr (.inr (.inr hstop))
    · exact .inr (.inl hverify)
  · exact (h.connecting s hs).imp_left (List.mem_erase_of_ne heq).mpr

/-- The handler of `async_connect`: the attempt fails or goes on, unless it was replaced or the
client was stopped. -/
theorem Inv.connectDone {c : Client} (h : c.Inv) (socket : ℕ) (errorCode : Option ErrorCode) :
    ({ c with connects := c.connects.erase socket }.connectDone socket errorCode).Inv := by
  unfold Client.connectDone
  split
  next hguard =>
    simp only [Bool.or_eq_true, decide_eq_true_eq] at hguard
    exact h.connectEnds fun hsocket => .inl (hguard.resolve_right fun hne => hne hsocket)
  next =>
    cases errorCode with
    | some errorCode =>
      have htold : (c.enqueue [.event (.connectFailed errorCode)]).Inv :=
        h.enqueue (by simp) (by simp)
      refine (htold.closeConnectingSocket (.inr (.inr (.inr ?_)))).connectEnds fun hsocket => ?_
      · exact ⟨_, List.mem_append_right _ List.mem_cons_self, rfl⟩
      · exact absurd hsocket (Option.some_ne_none socket).symm
    | none =>
      have hverify : (c.enqueue [.verify socket]).Inv := h.enqueue (by simp) (by simp)
      exact hverify.connectEnds fun _ => .inr (List.mem_append_right _ List.mem_cons_self)

/-- A delayed closure that is due connects, if it was not called off. -/
theorem Inv.runDelayed {c : Client} (h : c.Inv) {index generation : ℕ}
    (hdelayed : c.delayed[index]? = some generation) :
    ({ c with delayed := c.delayed.eraseIdx index }.runDelayed generation).Inv := by
  rw [Client.runDelayed]
  split
  next hne =>
    -- only the closure of the current generation leads to the next attempt
    refine h.reschedule fun _ _ hmem => ?_
    obtain ⟨i, hi⟩ := List.mem_iff_getElem?.mp hmem
    refine List.mem_eraseIdx_iff_getElem?.mpr ⟨i, ?_, hi⟩
    rintro rfl
    exact hne (Option.some.inj (hi.symm.trans hdelayed))
  next =>
    split
    next hstopped =>
      exact h.reschedule fun hrunning _ _ => Bool.noConfusion (hrunning.symm.trans hstopped)
    next =>
      have hposted : (c.post [.connect]).Inv := h.post (by simp) (by simp)
      have hkeeps : Keeps (c.post [.connect])
          { c.post [.connect] with delayed := c.delayed.eraseIdx index } :=
        keeps_of_subset (List.Subset.refl _) (List.Subset.refl _) hposted.ended
      exact hposted.keeps hkeeps hposted.stopped fun _ => .inl (outlasts_concat _ _ _)

/-- A closure that is not a peer's own stays when the peer is destroyed. -/
theorem mem_filter_ownedBy {c : Client} {task : ClientTask} (h : task ∈ c.dispatcher) {peer : ℕ}
    (howned : task.ownedBy peer = false) :
    task ∈ c.dispatcher.filter fun task => !task.ownedBy peer :=
  List.mem_filter.mpr ⟨h, by rw [howned, Bool.not_false]⟩

/-- A peer that is destroyed takes its closures along; the current one is not destroyed. -/
theorem Inv.destroyPeer {c : Client} (h : c.Inv) {peer : ℕ} (hpeer : c.peer ≠ some peer) :
    { c with dispatcher := c.dispatcher.filter fun task => !task.ownedBy peer }.Inv := by
  have hkeeps : Keeps c
      { c with dispatcher := c.dispatcher.filter fun task => !task.ownedBy peer } := by
    refine ⟨rfl, rfl, rfl, fun socket _ hc => ?_, fun p hp hc => ?_, fun _ _ => .inr,
      fun p hp => h.ended p (hp.imp_left fun hmem => (List.mem_filter.mp hmem).1)⟩
    · rcases hc with hc | hc | hc
      · exact .inl hc
      · exact .inr (.inl (mem_filter_ownedBy hc rfl))
      · exact .inr (.inr hc)
    · rcases hc with hc | hc | hc
      · exact .inl hc
      · refine .inr (.inl (mem_filter_ownedBy hc (decide_eq_false ?_)))
        rintro rfl
        exact hpeer hp
      · exact .inr (.inr hc)
  refine h.keeps hkeeps h.stopped fun hs => (h.progress hs).imp_right fun hb => ⟨hb.1, ?_⟩
  refine hb.2.keeps rfl rfl (fun hout => ?_) (fun hcancel hmem => ?_) (fun task hmem ht => ?_)
    fun hb => busy_of_invalidate hb
  · exact busy_of_debounce (hout.filter rfl)
  · exact busy_of_delayed (fun hm => hcancel (List.mem_filter.mp hm).1) hmem
  · have howned : task.ownedBy peer = false := by
      cases task with
      | peerSignal p signal => exact Bool.noConfusion ht
      | _ => rfl
    exact busy_of_schedules (mem_filter_ownedBy hmem howned) ht

@[simp] theorem closePeer_peers (c : Client) (errorCode : ErrorCode) :
    (c.closePeer errorCode).1.peers = c.peers := by
  rw [Client.closePeer]
  split <;> rfl

@[simp] theorem scheduleReconnect_peers (c : Client) : c.scheduleReconnect.peers = c.peers := by
  rw [Client.scheduleReconnect]
  split <;> rfl

/-- The dispatcher leaves the peers alone. -/
theorem runTask_peers (c : Client) (verified : Bool) (task : ClientTask) :
    (c.runTask verified task).peers = c.peers := by
  cases task with
  | scheduleReconnect => exact scheduleReconnect_peers c
  | peerSignal peer signal =>
    rw [Client.runTask]
    split <;> rfl
  | event e =>
    rw [Client.runTask]
    split
    next => exact scheduleReconnect_peers _
    next => rfl
  | _ => rfl

/-- So does the closure of a signal. -/
theorem handleSignal_peers (c : Client) (peer : ℕ) (signal : Signal) :
    (c.handleSignal peer signal).peers = c.peers := by
  unfold Client.handleSignal
  split
  next => rfl
  next => cases signal <;> rfl

/-- The other closures of `io_ctx_` move one peer, or add a new one. -/
theorem PeersInv.runIoTask {c : Client} (h : c.PeersInv) (task : IoTask) :
    (c.runIoTask task).PeersInv := by
  have hcongr : ∀ d : Client, d.peers = c.peers → d.PeersInv := fun d hd p hp => h p (hd ▸ hp)
  cases task with
  | connect =>
    refine hcongr _ ?_
    rw [Client.runIoTask, Client.connect]
    split <;> rfl
  | stop => exact hcongr _ (closePeer_peers _ _)
  | invalidateConnection => exact hcongr _ (closePeer_peers _ _)
  | handleConnectedSocket socket verified =>
    rw [Client.runIoTask, Client.handleConnectedSocket]
    split
    next => exact h
    next =>
      dsimp only
      split
      next => exact h
      next =>
        split
        next => exact h
        next =>
          intro p hp
          rcases List.mem_append.mp hp with hp | hp
          · exact h p hp
          · rw [List.mem_singleton.mp hp]
            exact (Peer.init_inv c.options.common).1
  | peer index label =>
    rw [Client.runIoTask]
    cases hstep : c.stepPeer index label with
    | none => exact h
    | some d => exact h.stepPeer hstep
  | signal peer signal => exact hcongr _ (handleSignal_peers c peer signal)
  | connected peer =>
    rw [Client.runIoTask]
    split <;> exact h
  | send data =>
    rw [Client.runIoTask]
    split <;> exact h
  | respond requestId data =>
    rw [Client.runIoTask]
    split <;> exact h
  | request data callback =>
    rw [Client.runIoTask]
    split <;> exact h

/-- One step leaves the peers in order. -/
theorem PeersInv.step {c d : Client} {label : ClientLabel} (h : c.PeersInv)
    (hstep : c.step label = some d) : d.PeersInv := by
  have hcongr : ∀ d : Client, d.peers = c.peers → d.PeersInv := fun d hd p hp => h p (hd ▸ hp)
  cases label with
  | asyncStart => exact Option.some.inj hstep ▸ h
  | asyncStop => exact Option.some.inj hstep ▸ h
  | asyncInvalidateConnection => exact Option.some.inj hstep ▸ h
  | asyncSend data => exact Option.some.inj hstep ▸ h
  | asyncRespond requestId data => exact Option.some.inj hstep ▸ h
  | asyncRequest data callback => exact Option.some.inj hstep ▸ h
  | dispatch verified =>
    rw [Client.step] at hstep
    split at hstep
    next => cases hstep
    next task tasks hqueue =>
      obtain rfl := Option.some.inj hstep
      exact hcongr _ (runTask_peers { c with dispatcher := tasks } verified task)
  | reconnectTimer index =>
    rw [Client.step] at hstep
    split at hstep
    next => cases hstep
    next =>
      obtain rfl := Option.some.inj hstep
      refine hcongr _ ?_
      rw [Client.runDelayed]
      split
      next => rfl
      next => split <;> rfl
  | io =>
    rw [Client.step] at hstep
    split at hstep
    next => cases hstep
    next task tasks hqueue =>
      obtain rfl := Option.some.inj hstep
      exact PeersInv.runIoTask (c := { c with ioCtx := tasks }) h task
  | connectDone socket errorCode =>
    rw [Client.step] at hstep
    split at hstep
    next =>
      obtain rfl := Option.some.inj hstep
      refine hcongr _ ?_
      unfold Client.connectDone
      split
      next => rfl
      next => cases errorCode <;> rfl
    next => cases hstep
  | peer index label =>
    rw [Client.step] at hstep
    split at hstep
    next => exact h.stepPeer hstep
    next => cases hstep
  | requestTimer id =>
    rw [Client.step] at hstep
    split at hstep
    next =>
      obtain rfl := Option.some.inj hstep
      refine hcongr _ ?_
      rw [Client.requestTimer, Client.timeoutCallback]
      split
      next =>
        dsimp only
        split
        next => exact closePeer_peers _ _
        next => exact closePeer_peers _ _
      next => rfl
    next => cases hstep
  | destroyPeer peer =>
    rw [Client.step] at hstep
    split at hstep
    next => exact Option.some.inj hstep ▸ h
    next => cases hstep

/-- One step keeps the invariant. -/
theorem Inv.step {c d : Client} {label : ClientLabel} (h : c.Inv) (hpeers : c.PeersInv)
    (hstep : c.step label = some d) : d.Inv := by
  cases label with
  | asyncStart => exact Option.some.inj hstep ▸ h.enqueue (by simp) (by simp)
  | asyncStop => exact Option.some.inj hstep ▸ h.enqueue (by simp) (by simp)
  | asyncInvalidateConnection => exact Option.some.inj hstep ▸ h.enqueue (by simp) (by simp)
  | asyncSend data => exact Option.some.inj hstep ▸ h.post (by simp) (by simp)
  | asyncRespond requestId data => exact Option.some.inj hstep ▸ h.post (by simp) (by simp)
  | asyncRequest data callback => exact Option.some.inj hstep ▸ h.post (by simp) (by simp)
  | dispatch verified =>
    rw [Client.step] at hstep
    split at hstep
    next => cases hstep
    next task tasks hqueue =>
      obtain rfl := Option.some.inj hstep
      exact h.runTask hqueue verified
  | reconnectTimer index =>
    rw [Client.step] at hstep
    split at hstep
    next => cases hstep
    next generation hdelayed =>
      obtain rfl := Option.some.inj hstep
      exact h.runDelayed hdelayed
  | io =>
    rw [Client.step] at hstep
    split at hstep
    next => cases hstep
    next task tasks hqueue =>
      obtain rfl := Option.some.inj hstep
      exact h.runIoTask hpeers hqueue
  | connectDone socket errorCode =>
    rw [Client.step] at hstep
    split at hstep
    next =>
      obtain rfl := Option.some.inj hstep
      exact h.connectDone socket errorCode
    next => cases hstep
  | peer index label =>
    rw [Client.step] at hstep
    split at hstep
    next => exact h.stepPeer hpeers hstep
    next => cases hstep
  | requestTimer id =>
    rw [Client.step] at hstep
    split at hstep
    next =>
      obtain rfl := Option.some.inj hstep
      exact (h.complete _).timeoutCallback
    next => cases hstep
  | destroyPeer peer =>
    rw [Client.step] at hstep
    split at hstep
    next hguard =>
      obtain rfl := Option.some.inj hstep
      exact h.destroyPeer hguard.1
    next => cases hstep

/-! ## Every run -/

/-- So does every run. -/
theorem inv_of_run (options : ClientOptions) (labels : List ClientLabel) {c : Client}
    (h : Transition.run Client.step (init options) labels = some c) : c.Inv ∧ c.PeersInv := by
  refine Transition.run_invariant (I := fun c => c.Inv ∧ c.PeersInv) ⟨?_, ?_⟩
    (fun c label d hc hstep => ⟨hc.1.step hc.2 hstep, hc.2.step hstep⟩) h
  · exact ⟨fun _ hs => absurd hs (Option.some_ne_none _).symm,
      fun _ hp => absurd hp (Option.some_ne_none _).symm, .inl rfl, fun _ => .inr ⟨rfl, rfl⟩,
      fun hs => Bool.noConfusion hs, fun _ hp => absurd hp (Nat.not_lt_zero _),
      fun _ hp => by simp [init] at hp⟩
  · exact fun _ hp => absurd hp List.not_mem_nil

/-- Nothing is left for either thread to do. -/
def Quiescent (c : Client) : Prop := c.dispatcher = [] ∧ c.ioCtx = []

/-- In every run of the client, whatever the sockets, the timers, the program and the order of the
two threads do, and whenever neither thread has anything left to do: a client that is not stopped
has a peer whose socket is open, or an `async_connect` outstanding, or a reconnect scheduled that
was not called off; a stopped client has none of them, and all peers that it ever had are closed.
There is never more than one connection. -/
theorem client_keeps_trying (options : ClientOptions) (labels : List ClientLabel) {c : Client}
    (h : Transition.run Client.step (init options) labels = some c) :
    (c.connectingSocket = none ∨ c.peer = none) ∧
    (c.Quiescent → c.stopped = false →
      (∃ peer, c.peer = some peer ∧ peer < c.peers.length ∧ c.peerClosed peer = false) ∨
      (∃ socket, c.connectingSocket = some socket ∧ socket ∈ c.connects) ∨
      c.generation ∈ c.delayed) ∧
    (c.Quiescent → c.stopped = true →
      c.peer = none ∧ c.connectingSocket = none ∧
      ∀ peer < c.peers.length, c.peerClosed peer = true) := by
  obtain ⟨hinv, -⟩ := inv_of_run options labels h
  refine ⟨hinv.single, ?_, ?_⟩
  · rintro ⟨hdispatcher, hio⟩ hrunning
    rcases hinv.progress hrunning with hout | ⟨-, hbusy⟩
    · exact absurd hout.mem (hio ▸ List.not_mem_nil)
    · rcases hbusy with hb | hb | hb | hb | ⟨task, hm, -⟩ | hb
      · obtain ⟨socket, hs⟩ := Option.isSome_iff_exists.mp hb
        have hc := hinv.connecting socket hs
        simp only [Connecting, hdispatcher, hio, List.not_mem_nil, exists_false, or_false] at hc
        exact .inr (.inl ⟨socket, hs, hc⟩)
      · obtain ⟨peer, hp⟩ := Option.isSome_iff_exists.mp hb
        obtain ⟨hlt, hc⟩ := hinv.connected peer hp
        simp only [Connected, hdispatcher, hio, List.not_mem_nil, or_false] at hc
        exact .inl ⟨peer, hp, hlt, hc⟩
      · exact absurd hb.mem (hdispatcher ▸ List.not_mem_nil)
      · exact .inr (.inr hb.2)
      · exact absurd hm (hdispatcher ▸ List.not_mem_nil)
      · exact absurd hb (hio ▸ List.not_mem_nil)
  · rintro ⟨hdispatcher, hio⟩ hstopped
    have hstop := (hinv.stopped hstopped).resolve_left (hio ▸ List.not_mem_nil)
    refine ⟨hstop.2, hstop.1, fun peer hp => ?_⟩
    rcases hinv.others peer hp with ho | ho | ho
    · exact absurd (hstop.2.symm.trans ho) (Option.some_ne_none peer).symm
    · exact ho
    · exact absurd ho (hio ▸ List.not_mem_nil)

/-- After the peer was lost, a reconnect is scheduled. -/
theorem client_keeps_trying_after_request :
    ∃ c, Transition.run Client.step (init ⟨⟨1024, 1024⟩, true⟩) requestRun = some c ∧
      c.generation ∈ c.delayed := by
  refine ⟨_, rfl, ?_⟩
  have htrying := (client_keeps_trying ⟨⟨1024, 1024⟩, true⟩ requestRun rfl).2.1 ⟨rfl, rfl⟩ rfl
  rcases htrying with ⟨peer, hpeer, -⟩ | ⟨socket, hsocket, -⟩ | hscheduled
  · cases hpeer
  · cases hsocket
  · exact hscheduled

end Client

end VirtualHidDevice.UnixDomainStream
