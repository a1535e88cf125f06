import VirtualHidDevice.UnixDomainStream.ClientInv

/-!
# The closures that end and begin connections

The thread of `io_ctx_` runs the closures that replace the connection of the client. Each of them
leaves something that leads to the next attempt, unless the client is stopped. As on the
dispatcher, a closure is seen as doing its work first and leaving the queue then.

* `Settled`, `Inv.ran` — when the first closure of the queue is not needed any more.
* `Pressing` — the next attempt does not depend on the connection, so that it may be ended:
  `Inv.closeConnectingSocket`, `Inv.letGo`.
* `Inv.connect`, `Inv.newPeer` — a connection begins.
-/

namespace VirtualHidDevice.UnixDomainStream

open Pending

namespace Client

/-! ## The front of the queue -/

/-- What the first closure of the queue of `io_ctx_` was to do is done, or is not needed. -/
def Settled (c : Client) : IoTask → Prop
  | .connect => c.stopped = true ∨ c.connectingSocket.isSome = true ∨ c.peer.isSome = true
  | .stop => c.connectingSocket = none ∧ c.peer = none
  | .invalidateConnection => ∃ task ∈ c.dispatcher, task.schedules = true
  | .handleConnectedSocket socket _ => c.connectingSocket ≠ some socket
  | .peer peer label => label = .close → c.peers.length ≤ peer ∨ c.peerClosed peer = true
  | .signal peer signal => signal = .closed → c.peer ≠ some peer
  | .connected _ | .send _ | .respond _ _ | .request _ _ => True

/-- What leads to the next attempt is left, if the closure of a start or of an invalidation was
not in vain. -/
theorem Inv.progress_ran {c : Client} (h : c.Inv) {task : IoTask} {tasks : List IoTask}
    (hqueue : c.ioCtx = task :: tasks) (hsettled : c.Settled task) (hrunning : c.stopped = false) :
    Outlasts .connect .stop tasks ∨ .stop ∉ tasks ∧ { c with ioCtx := tasks }.Busy := by
  have hb := h.progress hrunning
  rw [hqueue] at hb
  rcases hb with hout | ⟨hstop, hb⟩
  · rcases hout.of_cons with ⟨rfl, hstop⟩ | hout
    · rcases hsettled with hs | hs | hs
      · exact Bool.noConfusion (hrunning.symm.trans hs)
      · exact .inr ⟨hstop, .inl hs⟩
      · exact .inr ⟨hstop, .inr (.inl hs)⟩
    · exact .inl hout
  · refine .inr ⟨fun hmem => hstop (List.mem_cons_of_mem _ hmem), hb.of_ioCtx fun hmem => ?_⟩
    rw [hqueue] at hmem
    rcases List.mem_cons.mp hmem with rfl | hmem
    · exact .inr hsettled
    · exact .inl hmem

/-- The first closure is not needed any more. -/
theorem Inv.ran {c : Client} (h : c.Inv) {task : IoTask} {tasks : List IoTask}
    (hqueue : c.ioCtx = task :: tasks) (hsettled : c.Settled task) :
    { c with ioCtx := tasks }.Inv := by
  have hkeeps : Keeps c { c with ioCtx := tasks } := by
    refine ⟨rfl, rfl, rfl, fun socket hs hc => ?_, fun peer hp hc => ?_, fun peer hp hc => ?_,
      fun peer hp => h.ended peer (hp.imp_right fun hmem => ?_)⟩
    · rcases hc with hc | hc | ⟨verified, hc⟩ | hc
      · exact .inl hc
      · exact .inr (.inl hc)
      · rw [hqueue] at hc
        rcases List.mem_cons.mp hc with rfl | hc
        · exact absurd hs hsettled
        · exact .inr (.inr (.inl ⟨verified, hc⟩))
      · rw [hqueue] at hc
        rcases List.mem_cons.mp hc with rfl | hc
        · exact absurd (hsettled.1.symm.trans hs) (Option.some_ne_none socket).symm
        · exact .inr (.inr (.inr hc))
    · rcases hc with hc | hc | hc
      · exact .inl hc
      · exact .inr (.inl hc)
      · rw [hqueue] at hc
        rcases List.mem_cons.mp hc with rfl | hc
        · exact absurd hp (hsettled rfl)
        · exact .inr (.inr hc)
    · rw [hqueue] at hc
      rcases List.mem_cons.mp hc with rfl | hc
      · exact .inl ((hsettled rfl).resolve_left (Nat.not_le.mpr hp))
      · exact .inr hc
    · exact hqueue ▸ List.mem_cons_of_mem _ hmem
  refine h.keeps hkeeps (fun hs => ?_) (h.progress_ran hqueue hsettled)
  rcases h.stopped hs with hstop | hnone
  · rw [hqueue] at hstop
    rcases List.mem_cons.mp hstop with rfl | hstop
    · exact .inr hsettled
    · exact .inl hstop
  · exact .inr hnone

/-- The closure of `connect()` starts an attempt, if there is none and no peer. -/
theorem Inv.connect {c : Client} (h : c.Inv) {tasks : List IoTask}
    (hqueue : c.ioCtx = .connect :: tasks) : ({ c with ioCtx := tasks }.connect).Inv := by
  rw [Client.connect]
  split
  next hguard =>
    simp only [Bool.or_eq_true, or_assoc] at hguard
    exact h.ran hqueue hguard
  next hguard =>
    simp only [Bool.or_eq_true, not_or, Bool.not_eq_true, Option.isSome_eq_false_iff,
      Option.isNone_iff_eq_none] at hguard
    obtain ⟨⟨hrunning, -⟩, hpeer⟩ := hguard
    have hattempt : { c with
        connectingSocket := some c.sockets, sockets := c.sockets + 1
        connects := c.connects ++ [c.sockets] }.Inv := by
      refine ⟨fun socket hs => ?_, h.connected, .inr hpeer, fun hs => ?_,
        fun hs => (h.progress hs).imp_right fun hb => ⟨hb.1, .inl rfl⟩, h.others, h.ended⟩
      · obtain rfl := Option.some.inj hs
        exact .inl (List.mem_append_right _ List.mem_cons_self)
      · exact Bool.noConfusion (hs.symm.trans hrunning)
    exact hattempt.ran hqueue (.inr (.inl rfl))

/-! ## The end of a connection -/

/-- The next attempt does not depend on the connection. -/
def Pressing (c : Client) : Prop :=
  c.stopped = true ∨ .stop ∈ c.ioCtx ∨ .invalidateConnection ∈ c.ioCtx ∨
    ∃ task ∈ c.dispatcher, task.schedules = true

/-- More work leaves it so. -/
theorem Pressing.mono {c d : Client} (h : c.Pressing) (hstopped : d.stopped = c.stopped)
    (hdispatcher : c.dispatcher ⊆ d.dispatcher) (hio : c.ioCtx ⊆ d.ioCtx) : d.Pressing := by
  rcases h with h | h | h | ⟨task, h, htask⟩
  · exact .inl (hstopped.trans h)
  · exact .inr (.inl (hio h))
  · exact .inr (.inr (.inl (hio h)))
  · exact .inr (.inr (.inr ⟨task, hdispatcher h, htask⟩))

/-- Without the connection something else leads to the next attempt. -/
theorem Inv.progress_pressing {c : Client} (h : c.Inv) (hpressing : c.Pressing)
    (hrunning : c.stopped = false) (connectingSocket peer : Option ℕ) :
    Outlasts .connect .stop c.ioCtx ∨
      .stop ∉ c.ioCtx ∧ { c with connectingSocket, peer }.Busy := by
  refine (h.progress hrunning).imp_right fun hb => ⟨hb.1, ?_⟩
  rcases hpressing with hs | hs | hs | hs
  · exact Bool.noConfusion (hrunning.symm.trans hs)
  · exact absurd hs hb.1
  · exact busy_of_invalidate hs
  · obtain ⟨task, hmem, htask⟩ := hs
    exact busy_of_schedules hmem htask

/-- The attempt ends. -/
theorem Inv.closeConnectingSocket {c : Client} (h : c.Inv) (hpressing : c.Pressing) :
    c.closeConnectingSocket.Inv where
  connecting _ hs := absurd hs (Option.some_ne_none _).symm
  connected := h.connected
  single := .inl rfl
  stopped hs := (h.stopped hs).imp_right fun hnone => ⟨rfl, hnone.2⟩
  progress hs := h.progress_pressing hpressing hs none c.peer
  others := h.others
  ended := h.ended

/-- The peer is let go. -/
theorem Inv.letGo {c : Client} (h : c.Inv) (hpressing : c.Pressing)
    (hclosed : ∀ peer, c.peer = some peer →
      c.peerClosed peer = true ∨ .peer peer .close ∈ c.ioCtx) :
    { c with peer := none }.Inv where
  connecting := h.connecting
  connected _ hp := absurd hp (Option.some_ne_none _).symm
  single := .inr rfl
  stopped hs := (h.stopped hs).imp_right fun hnone => ⟨hnone.1, rfl⟩
  progress hs := h.progress_pressing hpressing hs c.connectingSocket none
  others peer hp := .inr ((h.others peer hp).elim (hclosed peer) id)
  ended := h.ended

/-- `close_peer`, with what is handed to the dispatcher after it. -/
theorem Inv.closePeer {c : Client} (h : c.Inv) (errorCode : ErrorCode) {tasks : List ClientTask}
    (hcancel : .cancel ∉ tasks) (hclosed : ∀ peer, .peerSignal peer .closed ∉ tasks)
    (hpressing : (c.enqueue tasks).Pressing) :
    ((c.closePeer errorCode).1.enqueue tasks).Inv := by
  rw [Client.closePeer]
  split
  next => exact h.enqueue (fun hmem => absurd hmem hcancel) fun p hmem => absurd hmem (hclosed p)
  next peer hpeer =>
    let completed := c.complete (c.requestManager.completeAll errorCode)
    have hdone : ((completed.enqueue tasks).post [.peer peer .close]).Inv := by
      refine ((h.complete _).enqueue ?_ ?_).post (by simp) (by simp)
      · exact fun hmem => absurd hmem hcancel
      · exact fun p hmem => absurd hmem (hclosed p)
    refine hdone.letGo (hpressing.mono rfl ?_ (List.subset_append_left _ _)) fun p hp => .inr ?_
    · exact List.append_subset.mpr ⟨fun task hmem => List.mem_append_left _
        (List.mem_append_left _ hmem), List.subset_append_right _ _⟩
    · obtain rfl := Option.some.inj (hpeer.symm.trans hp)
      exact List.mem_append_right _ List.mem_cons_self

@[simp] theorem enqueue_nil (c : Client) : c.enqueue [] = c := by
  rw [Client.enqueue, List.append_nil]

/-- There is no peer to close. -/
theorem closePeer_of_none {c : Client} (hpeer : c.peer = none) (errorCode : ErrorCode) :
    c.closePeer errorCode = (c, false) := by
  rw [Client.closePeer, hpeer]

/-- After `close_peer` there is no peer. -/
theorem closePeer_peer (c : Client) (errorCode : ErrorCode) :
    (c.closePeer errorCode).1.peer = none := by
  rw [Client.closePeer]
  split
  next hpeer => exact hpeer
  next => rfl

theorem closePeer_connectingSocket (c : Client) (errorCode : ErrorCode) :
    (c.closePeer errorCode).1.connectingSocket = c.connectingSocket := by
  rw [Client.closePeer]
  split <;> rfl

/-- `close_peer` leaves the first closure where it is. -/
theorem closePeer_ioCtx {c : Client} {task : IoTask} {tasks : List IoTask}
    (hqueue : c.ioCtx = task :: tasks) (errorCode : ErrorCode) :
    ∃ rest, (c.closePeer errorCode).1.ioCtx = task :: rest ∧
      ({ c with ioCtx := tasks }.closePeer errorCode).1 =
        { (c.closePeer errorCode).1 with ioCtx := rest } := by
  rcases Option.eq_none_or_eq_some c.peer with hpeer | ⟨peer, hpeer⟩
  · rw [closePeer_of_none hpeer, closePeer_of_none (c := { c with ioCtx := tasks }) hpeer]
    exact ⟨tasks, hqueue, rfl⟩
  · rw [Client.closePeer, Client.closePeer, hpeer]
    refine ⟨tasks ++ [.peer peer .close], ?_, rfl⟩
    exact congrArg (· ++ [IoTask.peer peer .close]) hqueue

/-- The closure of a stop ends the attempt and the peer. -/
theorem Inv.stopConnection {c : Client} (h : c.Inv) {tasks : List IoTask}
    (hqueue : c.ioCtx = .stop :: tasks) :
    ({ c with ioCtx := tasks }.closeConnectingSocket.closePeer .operationAborted).1.Inv := by
  have hpressing : c.Pressing := .inr (.inl (hqueue ▸ List.mem_cons_self))
  have hended := (h.closeConnectingSocket hpressing).closePeer .operationAborted List.not_mem_nil
    (fun _ => List.not_mem_nil) (hpressing.mono rfl (List.subset_append_left _ _)
      (List.Subset.refl _))
  rw [enqueue_nil] at hended
  have hclose := closePeer_ioCtx (c := c.closeConnectingSocket) hqueue .operationAborted
  obtain ⟨rest, hrest, heq⟩ := hclose
  have hran := hended.ran hrest ⟨closePeer_connectingSocket _ _, closePeer_peer _ _⟩
  exact heq ▸ hran

/-- The closure of an invalidation ends them too, and schedules a reconnect. -/
theorem Inv.invalidate {c : Client} (h : c.Inv) {tasks : List IoTask}
    (hqueue : c.ioCtx = .invalidateConnection :: tasks) :
    (({ c with ioCtx := tasks }.closeConnectingSocket.closePeer .operationAborted).1.enqueue
      [.scheduleReconnect]).Inv := by
  have hpressing : c.Pressing := .inr (.inr (.inl (hqueue ▸ List.mem_cons_self)))
  have hmore : (c.closeConnectingSocket.enqueue [.scheduleReconnect]).Pressing :=
    hpressing.mono rfl (List.subset_append_left _ _) (List.Subset.refl _)
  have hended := (h.closeConnectingSocket hpressing).closePeer .operationAborted (by simp) (by simp)
    hmore
  have hclose := closePeer_ioCtx (c := c.closeConnectingSocket) hqueue .operationAborted
  obtain ⟨rest, hrest, heq⟩ := hclose
  have hran := hended.ran hrest ⟨_, List.mem_append_right _ List.mem_cons_self, rfl⟩
  have henqueue := congrArg (·.enqueue [ClientTask.scheduleReconnect]) heq
  exact henqueue ▸ hran

/-- A request that timed out ends the peer, and the closure that says so schedules a reconnect. -/
theorem Inv.timeoutCallback {c : Client} (h : c.Inv) : c.timeoutCallback.Inv := by
  rw [Client.timeoutCallback]
  split
  next =>
    cases hpeer : c.peer with
    | none =>
      rw [closePeer_of_none hpeer]
      exact h
    | some peer =>
      have hclosed : (c.closePeer .connectionReset).2 = true := by rw [Client.closePeer, hpeer]
      rw [if_pos hclosed]
      refine h.closePeer .connectionReset (by simp) (by simp) (.inr (.inr (.inr ?_)))
      exact ⟨_, List.mem_append_right _ List.mem_cons_self, rfl⟩
  next => exact h

/-- A socket that is verified becomes the peer, which is open. -/
theorem Inv.newPeer {c : Client} (h : c.Inv) {socket : ℕ}
    (hsocket : c.connectingSocket = some socket) (hrunning : c.stopped = false) :
    { c with
      connectingSocket := none
      peers := c.peers ++ [Peer.init c.options.common], peer := some c.peers.length }.Inv := by
  have hpeer : c.peer = none := h.single.resolve_left (hsocket ▸ Option.some_ne_none socket)
  have hold : ∀ peer < c.peers.length, { c with
      connectingSocket := none
      peers := c.peers ++ [Peer.init c.options.common]
      peer := some c.peers.length }.peerClosed peer = c.peerClosed peer := by
    intro peer hp
    rw [peerClosed, peerClosed, List.getElem?_append_left hp]
  refine ⟨fun s hs => absurd hs (Option.some_ne_none s).symm, fun peer hp => ?_, .inl rfl,
    fun hs => ?_, fun hs => (h.progress hs).imp_right fun hb => ⟨hb.1, .inr (.inl rfl)⟩,
    fun peer hp => ?_, fun peer hp => ?_⟩
  · obtain rfl := Option.some.inj hp
    refine ⟨?_, .inl ?_⟩
    · rw [List.length_append]
      exact Nat.lt_succ_self _
    · simp [peerClosed, Peer.init]
  · exact Bool.noConfusion (hrunning.symm.trans hs)
  · rw [List.length_append] at hp
    rcases Nat.lt_succ_iff_lt_or_eq.mp hp with hp | rfl
    · rw [hold peer hp]
      refine .inr ((h.others peer hp).resolve_left ?_)
      exact fun hcurrent => Option.some_ne_none peer (hcurrent.symm.trans hpeer)
    · exact .inl rfl
  · have hclosed := h.ended peer hp
    rcases Nat.lt_or_ge peer c.peers.length with hlt | hge
    · rw [hold peer hlt]
      exact hclosed
    · rw [peerClosed, List.getElem?_eq_none hge] at hclosed
      exact Bool.noConfusion hclosed

/-- A socket that is verified becomes the peer; otherwise a reconnect is scheduled. -/
theorem Inv.handleConnectedSocket {c : Client} (h : c.Inv) {socket : ℕ} {verified : Bool}
    {tasks : List IoTask} (hqueue : c.ioCtx = .handleConnectedSocket socket verified :: tasks) :
    ({ c with ioCtx := tasks }.handleConnectedSocket socket verified).Inv := by
  have hnone : none ≠ some socket := (Option.some_ne_none socket).symm
  rw [Client.handleConnectedSocket]
  split
  next hother => exact h.ran hqueue hother
  next hsocket =>
    simp only [not_not] at hsocket
    dsimp only
    split
    next hstopped => exact (h.closeConnectingSocket (.inl hstopped)).ran hqueue hnone
    next hrunning =>
      split
      next =>
        have htold : (c.enqueue [.event .peerVerificationFailed]).Inv :=
          h.enqueue (by simp) (by simp)
        refine (htold.closeConnectingSocket (.inr (.inr (.inr ?_)))).ran hqueue hnone
        exact ⟨_, List.mem_append_right _ List.mem_cons_self, rfl⟩
      next =>
        have hpeer : { c with
            connectingSocket := none
            peers := c.peers ++ [Peer.init c.options.common], peer := some c.peers.length }.Inv :=
          h.newPeer hsocket (Bool.eq_false_iff.mpr hrunning)
        have hrest := hpeer.ran hqueue hnone
        exact hrest.post (by simp) (by simp)

/-- A signal of the current peer. Its end schedules a reconnect. -/
theorem Inv.handleSignal {c : Client} (h : c.Inv) {peer : ℕ} {signal : Signal}
    {tasks : List IoTask} (hqueue : c.ioCtx = .signal peer signal :: tasks) :
    ({ c with ioCtx := tasks }.handleSignal peer signal).Inv := by
  have hran : signal ≠ .closed ∨ c.peer ≠ some peer → { c with ioCtx := tasks }.Inv :=
    fun hother => h.ran hqueue fun hclosed => hother.resolve_left fun hne => hne hclosed
  unfold Client.handleSignal
  split
  next hother => exact hran (.inr hother)
  next hpeer =>
    simp only [not_not] at hpeer
    cases signal with
    | ready => exact hran (.inl Signal.noConfusion)
    | received buffer => exact (hran (.inl Signal.noConfusion)).enqueue (by simp) (by simp)
    | requestReceived id buffer =>
      exact (hran (.inl Signal.noConfusion)).enqueue (by simp) (by simp)
    | responseReceived id buffer => exact (hran (.inl Signal.noConfusion)).complete _
    | healthCheckResponseReceived => exact hran (.inl Signal.noConfusion)
    | errorOccurred errorCode =>
      exact ((hran (.inl Signal.noConfusion)).complete _).enqueue (by simp) (by simp)
    | closed =>
      have hclosed : c.peerClosed peer = true :=
        h.ended peer (.inr (hqueue ▸ List.mem_cons_self))
      have htold : ((c.complete (c.requestManager.completeAll .connectionReset)).enqueue
          [.event .closed]).Inv := (h.complete _).enqueue (by simp) (by simp)
      refine (htold.letGo (.inr (.inr (.inr ?_))) fun p hp => .inl ?_).ran hqueue fun _ => ?_
      · exact ⟨_, List.mem_append_right _ List.mem_cons_self, rfl⟩
      · obtain rfl := Option.some.inj (hpeer.symm.trans hp)
        exact hclosed
      · exact (Option.some_ne_none peer).symm

end Client

end VirtualHidDevice.UnixDomainStream
