import VirtualHidDevice.UnixDomainStream.Client
import VirtualHidDevice.Pending

/-!
# What keeps the client going

While it is not stopped, the client of a stream is connected, is about to connect, or has a timer
that will make it connect; after a stop it is none of these. What makes this hold is the order in
which the two threads hand work to each other: a stop calls off what was set up before it, and
what a later start sets up is queued behind.

* `Connecting`, `Connected`, `Busy` — an attempt that goes on, a peer whose end will be noticed,
  and anything that leads to the next attempt.
* `Inv` — one of these holds in every state.
* `Keeps`, `Inv.keeps`, `Busy.keeps` — a step that only moves work between the queues keeps it, if
  what was outstanding still is.
* `HandedOver` — when the first closure of the dispatcher's queue is not needed any more. A closure
  is seen as doing its work first and leaving the queue then, which is the same.

`Inv.runTask` is the result for the dispatcher.
-/

namespace VirtualHidDevice.UnixDomainStream

open Pending

/-- The closures that end in `schedule_reconnect()`. -/
def ClientTask.schedules : ClientTask → Bool
  | .scheduleReconnect => true
  | .event e => e.reconnects
  | _ => false

namespace Client

/-! ## The invariant -/

/-- An attempt that goes on: a step that continues it is outstanding. A socket whose attempt ended
after a stop is left to the closure of the stop. -/
def Connecting (c : Client) (socket : ℕ) : Prop :=
  socket ∈ c.connects ∨ .verify socket ∈ c.dispatcher ∨
    (∃ verified, .handleConnectedSocket socket verified ∈ c.ioCtx) ∨ .stop ∈ c.ioCtx

/-- A peer that is open, or whose end is on its way to the client. -/
def Connected (c : Client) (peer : ℕ) : Prop :=
  c.peerClosed peer = false ∨ .peerSignal peer .closed ∈ c.dispatcher ∨
    .signal peer .closed ∈ c.ioCtx

/-- Something leads to the next attempt: a connection that ends or fails, a reconnect that is
about to be scheduled, or a scheduled one that is not called off. -/
def Busy (c : Client) : Prop :=
  c.connectingSocket.isSome = true ∨ c.peer.isSome = true ∨
    Outlasts .debounce .cancel c.dispatcher ∨
    (.cancel ∉ c.dispatcher ∧ c.generation ∈ c.delayed) ∨
    (∃ task ∈ c.dispatcher, task.schedules = true) ∨ .invalidateConnection ∈ c.ioCtx

/-- The invariant of all runs. -/
structure Inv (c : Client) : Prop where
  /-- an attempt goes on -/
  connecting : ∀ socket, c.connectingSocket = some socket → c.Connecting socket
  /-- the end of a peer is noticed -/
  connected : ∀ peer, c.peer = some peer → peer < c.peers.length ∧ c.Connected peer
  /-- there is one connection at most -/
  single : c.connectingSocket = none ∨ c.peer = none
  /-- a stop ends everything -/
  stopped : c.stopped = true → .stop ∈ c.ioCtx ∨ c.connectingSocket = none ∧ c.peer = none
  /-- what a start sets up is behind every stop -/
  progress : c.stopped = false →
    Outlasts .connect .stop c.ioCtx ∨ .stop ∉ c.ioCtx ∧ c.Busy
  /-- a peer that was replaced is closed -/
  others : ∀ peer < c.peers.length, c.peer = some peer ∨ c.peerClosed peer = true ∨
    .peer peer .close ∈ c.ioCtx
  /-- only a closed peer says that it is closed -/
  ended : ∀ peer, .peerSignal peer .closed ∈ c.dispatcher ∨ .signal peer .closed ∈ c.ioCtx →
    c.peerClosed peer = true

/-! ## Steps that keep the connection -/

/-- The connection is the same, and what it waits for is still outstanding. -/
structure Keeps (c d : Client) : Prop where
  connectingSocket : d.connectingSocket = c.connectingSocket
  peer : d.peer = c.peer
  peers : d.peers = c.peers
  connecting : ∀ socket, c.connectingSocket = some socket → c.Connecting socket →
    d.Connecting socket
  connected : ∀ peer, c.peer = some peer → c.Connected peer → d.Connected peer
  others : ∀ peer < c.peers.length, .peer peer .close ∈ c.ioCtx →
    c.peerClosed peer = true ∨ .peer peer .close ∈ d.ioCtx
  ended : ∀ peer, .peerSignal peer .closed ∈ d.dispatcher ∨ .signal peer .closed ∈ d.ioCtx →
    c.peerClosed peer = true

/-- A step that keeps the connection keeps the invariant, if the stops and what leads to the next
attempt are as they should be. -/
theorem Inv.keeps {c d : Client} (h : c.Inv) (hkeeps : Keeps c d)
    (hstopped : d.stopped = true →
      .stop ∈ d.ioCtx ∨ c.connectingSocket = none ∧ c.peer = none)
    (hprogress : d.stopped = false →
      Outlasts .connect .stop d.ioCtx ∨ .stop ∉ d.ioCtx ∧ d.Busy) : d.Inv := by
  have hclosed : ∀ peer, d.peerClosed peer = c.peerClosed peer := by
    intro peer
    rw [peerClosed, peerClosed, hkeeps.peers]
  refine ⟨?_, ?_, ?_, ?_, hprogress, ?_, ?_⟩
  · rw [hkeeps.connectingSocket]
    exact fun socket hs => hkeeps.connecting socket hs (h.connecting socket hs)
  · rw [hkeeps.peer, hkeeps.peers]
    exact fun peer hp => ⟨(h.connected peer hp).1,
      hkeeps.connected peer hp (h.connected peer hp).2⟩
  · rw [hkeeps.connectingSocket, hkeeps.peer]
    exact h.single
  · rw [hkeeps.connectingSocket, hkeeps.peer]
    exact hstopped
  · rw [hkeeps.peer, hkeeps.peers]
    intro peer hp
    rw [hclosed]
    rcases h.others peer hp with hcurrent | hgone | hclose
    · exact .inl hcurrent
    · exact .inr (.inl hgone)
    · exact .inr (hkeeps.others peer hp hclose)
  · intro peer hp
    rw [hclosed]
    exact hkeeps.ended peer hp

/-- A socket's next step is not called off by more work. -/
theorem Connecting.mono {c d : Client} {socket : ℕ} (h : c.Connecting socket)
    (hconnects : d.connects = c.connects) (hdispatcher : c.dispatcher ⊆ d.dispatcher)
    (hio : c.ioCtx ⊆ d.ioCtx) : d.Connecting socket := by
  rcases h with h | h | ⟨verified, h⟩ | h
  · exact .inl (hconnects ▸ h)
  · exact .inr (.inl (hdispatcher h))
  · exact .inr (.inr (.inl ⟨verified, hio h⟩))
  · exact .inr (.inr (.inr (hio h)))

/-- Neither is the news of a peer's end. -/
theorem Connected.mono {c d : Client} {peer : ℕ} (h : c.Connected peer)
    (hclosed : c.peerClosed peer = false → d.Connected peer)
    (hdispatcher : c.dispatcher ⊆ d.dispatcher) (hio : c.ioCtx ⊆ d.ioCtx) :
    d.Connected peer := by
  rcases h with h | h | h
  · exact hclosed h
  · exact .inr (.inl (hdispatcher h))
  · exact .inr (.inr (hio h))

/-- More work keeps the connection, and so does work that is called off. -/
theorem keeps_of_subset {c : Client} {stopped : Bool} {generation : ℕ} {delayed : List ℕ}
    {dispatcher : List ClientTask} {ioCtx : List IoTask} (hdispatcher : c.dispatcher ⊆ dispatcher)
    (hio : c.ioCtx ⊆ ioCtx)
    (hended : ∀ peer, .peerSignal peer .closed ∈ dispatcher ∨ .signal peer .closed ∈ ioCtx →
      c.peerClosed peer = true) :
    Keeps c { c with stopped, generation, delayed, dispatcher, ioCtx } where
  connectingSocket := rfl
  peer := rfl
  peers := rfl
  connecting _ _ hconnecting := hconnecting.mono rfl hdispatcher hio
  connected _ _ hconnected := hconnected.mono .inl hdispatcher hio
  others _ _ hclose := .inr (hio hclose)
  ended := hended

/-! ## What keeps the client busy -/

/-- A reconnect will be scheduled. -/
theorem busy_of_debounce {c : Client} (h : Outlasts .debounce .cancel c.dispatcher) : c.Busy :=
  .inr (.inr (.inl h))

/-- A reconnect is scheduled, and nothing calls it off. -/
theorem busy_of_delayed {c : Client} (hcancel : .cancel ∉ c.dispatcher)
    (h : c.generation ∈ c.delayed) : c.Busy :=
  .inr (.inr (.inr (.inl ⟨hcancel, h⟩)))

/-- A closure will schedule a reconnect. -/
theorem busy_of_schedules {c : Client} {task : ClientTask} (h : task ∈ c.dispatcher)
    (hschedules : task.schedules = true) : c.Busy :=
  .inr (.inr (.inr (.inr (.inl ⟨task, h, hschedules⟩))))

/-- An invalidation will. -/
theorem busy_of_invalidate {c : Client} (h : .invalidateConnection ∈ c.ioCtx) : c.Busy :=
  .inr (.inr (.inr (.inr (.inr h))))

/-- A step that keeps the connection leaves the client busy, if it does so for everything else that
leads to the next attempt. -/
theorem Busy.keeps {c d : Client} (h : c.Busy)
    (hsocket : d.connectingSocket = c.connectingSocket) (hpeer : d.peer = c.peer)
    (hdebounce : Outlasts .debounce .cancel c.dispatcher → d.Busy)
    (hdelayed : .cancel ∉ c.dispatcher → c.generation ∈ c.delayed → d.Busy)
    (hschedules : ∀ task ∈ c.dispatcher, task.schedules = true → d.Busy)
    (hinvalidate : .invalidateConnection ∈ c.ioCtx → d.Busy) : d.Busy := by
  rcases h with h | h | h | ⟨hcancel, h⟩ | ⟨task, hmem, h⟩ | h
  · exact .inl (hsocket ▸ h)
  · exact .inr (.inl (hpeer ▸ h))
  · exact hdebounce h
  · exact hdelayed hcancel h
  · exact hschedules task hmem h
  · exact hinvalidate h

/-! ## Handing over work -/

/-- Only a cancel calls off what leads to the next attempt, and an invalidation makes up for it. -/
theorem Busy.enqueue {c : Client} (h : c.Busy) {tasks : List ClientTask}
    (hcancel : .cancel ∈ tasks → .invalidateConnection ∈ c.ioCtx) : (c.enqueue tasks).Busy := by
  by_cases hnew : .cancel ∈ tasks
  · exact busy_of_invalidate (hcancel hnew)
  · refine h.keeps rfl rfl (fun hb => ?_) (fun hnot hb => ?_) (fun task hb htask => ?_)
      fun hb => busy_of_invalidate hb
    · exact busy_of_debounce (hb.append hnew)
    · refine busy_of_delayed (fun hmem => ?_) hb
      exact (List.mem_append.mp hmem).elim hnot hnew
    · exact busy_of_schedules (List.mem_append_left _ hb) htask

/-- What happens in the queue of `io_ctx_` matters to it for invalidations only. -/
theorem Busy.of_ioCtx {c : Client} (h : c.Busy) {ioCtx : List IoTask}
    (hinvalidate : .invalidateConnection ∈ c.ioCtx →
      .invalidateConnection ∈ ioCtx ∨ ∃ task ∈ c.dispatcher, task.schedules = true) :
    { c with ioCtx }.Busy := by
  refine h.keeps rfl rfl (fun hb => busy_of_debounce hb) (fun hnot hb => busy_of_delayed hnot hb)
    (fun _ hb htask => busy_of_schedules hb htask) fun hb => ?_
  rcases hinvalidate hb with hb | ⟨task, hb, htask⟩
  · exact busy_of_invalidate hb
  · exact busy_of_schedules hb htask

/-- Work for the dispatcher. -/
theorem Inv.enqueue {c : Client} (h : c.Inv) {tasks : List ClientTask}
    (hcancel : .cancel ∈ tasks → c.stopped = true ∨ .invalidateConnection ∈ c.ioCtx)
    (hclosed : ∀ peer, .peerSignal peer .closed ∈ tasks → c.peerClosed peer = true) :
    (c.enqueue tasks).Inv := by
  have hkeeps : Keeps c (c.enqueue tasks) := by
    refine keeps_of_subset (List.subset_append_left _ _) (List.Subset.refl _) fun peer hp => ?_
    rw [List.mem_append, or_right_comm] at hp
    exact hp.elim (h.ended peer) (hclosed peer)
  refine h.keeps hkeeps h.stopped fun hs => (h.progress hs).imp_right fun hb => ⟨hb.1, ?_⟩
  exact hb.2.enqueue fun hmem =>
    (hcancel hmem).resolve_left fun hstopped => Bool.noConfusion (hs.symm.trans hstopped)

/-- Work for the thread of `io_ctx_`. -/
theorem Inv.post {c : Client} (h : c.Inv) {tasks : List IoTask} (hnew : .stop ∉ tasks)
    (hclosed : ∀ peer, .signal peer .closed ∈ tasks → c.peerClosed peer = true) :
    (c.post tasks).Inv := by
  have hkeeps : Keeps c (c.post tasks) := by
    refine keeps_of_subset (List.Subset.refl _) (List.subset_append_left _ _) fun peer hp => ?_
    rw [List.mem_append, ← or_assoc] at hp
    exact hp.elim (h.ended peer) (hclosed peer)
  refine h.keeps hkeeps (fun hs => ?_) fun hs => ?_
  · exact (h.stopped hs).imp_left (List.mem_append_left _)
  · refine (h.progress hs).imp (·.append hnew) fun hb => ⟨fun hmem => ?_, ?_⟩
    · exact (List.mem_append.mp hmem).elim hb.1 hnew
    · exact hb.2.of_ioCtx fun hmem => .inl (List.mem_append_left _ hmem)

/-- The invariant says nothing about requests and about what the program was told. -/
theorem Inv.congr {c : Client} (h : c.Inv) (requestManager : RequestManager ℕ)
    (events : List ClientEvent) : { c with requestManager, events }.Inv :=
  ⟨h.connecting, h.connected, h.single, h.stopped, h.progress, h.others, h.ended⟩

/-- Callbacks are handed to the dispatcher. -/
theorem Inv.complete {c : Client} (h : c.Inv)
    (result : RequestManager ℕ × List (Completion ℕ)) : (c.complete result).Inv := by
  refine (h.congr result.1 c.events).enqueue ?_ ?_
  · simp
  · simp

/-- Delayed closures come and go, as long as the one that counts is not lost. -/
theorem Inv.reschedule {c : Client} (h : c.Inv) {generation : ℕ} {delayed : List ℕ}
    (hdelayed : c.stopped = false → .cancel ∉ c.dispatcher → c.generation ∈ c.delayed →
      generation ∈ delayed) :
    { c with generation, delayed }.Inv := by
  refine h.keeps (keeps_of_subset (List.Subset.refl _) (List.Subset.refl _) h.ended) h.stopped ?_
  refine fun hs => (h.progress hs).imp_right fun hb => ⟨hb.1, ?_⟩
  refine hb.2.keeps rfl rfl (fun hout => busy_of_debounce hout) (fun hnot hmem => ?_)
    (fun _ hmem htask => busy_of_schedules hmem htask) fun hb => busy_of_invalidate hb
  exact busy_of_delayed hnot (hdelayed hs hnot hmem)

/-- A start: what it set up is behind every stop. -/
theorem Inv.resume {c : Client} (h : c.Inv) (hconnect : Outlasts .connect .stop c.ioCtx) :
    { c with stopped := false }.Inv :=
  h.keeps (keeps_of_subset (List.Subset.refl _) (List.Subset.refl _) h.ended)
    (fun hs => Bool.noConfusion hs) fun _ => .inl hconnect

/-- A stop: its closure will end everything. -/
theorem Inv.halt {c : Client} (h : c.Inv) : ({ c with stopped := true }.post [.stop]).Inv := by
  have hkeeps : Keeps c ({ c with stopped := true }.post [.stop]) := by
    refine keeps_of_subset (List.Subset.refl _) (List.subset_append_left _ _) fun peer hp => ?_
    exact h.ended peer (hp.imp_right fun hmem => by simpa using hmem)
  refine h.keeps hkeeps (fun _ => .inl ?_) fun hs => Bool.noConfusion hs
  exact List.mem_append_right _ List.mem_cons_self

/-! ## Closures on the dispatcher -/

/-- What the first closure of the dispatcher's queue carries has been handed on. -/
def HandedOver (c : Client) (tasks : List ClientTask) : ClientTask → Prop
  | .verify socket => ∃ verified, .handleConnectedSocket socket verified ∈ c.ioCtx
  | .peerSignal peer signal => signal = .closed → .signal peer .closed ∈ c.ioCtx
  | .debounce => c.generation ∈ c.delayed
  | .scheduleReconnect => c.stopped = true ∨ Outlasts .debounce .cancel tasks
  | .event e => e.reconnects = true → c.stopped = true ∨ Outlasts .debounce .cancel tasks
  | .start | .stop | .invalidateConnection | .cancel => True

/-- A closure that schedules a reconnect is not the last one to do so. -/
theorem HandedOver.schedules {c : Client} {task : ClientTask} {tasks : List ClientTask}
    (h : c.HandedOver tasks task) (hschedules : task.schedules = true) :
    c.stopped = true ∨ Outlasts .debounce .cancel tasks := by
  cases task with
  | scheduleReconnect => exact h
  | event e => exact h hschedules
  | _ => exact Bool.noConfusion hschedules

/-- Something still leads to the next attempt. -/
theorem Busy.dispatched {c : Client} (h : c.Busy) {task : ClientTask} {tasks : List ClientTask}
    (hqueue : c.dispatcher = task :: tasks) (hrunning : c.stopped = false)
    (hhanded : c.HandedOver tasks task) : { c with dispatcher := tasks }.Busy := by
  refine h.keeps rfl rfl (fun hb => ?_) (fun hcancel hb => ?_) (fun other hb hother => ?_)
    fun hb => busy_of_invalidate hb
  · rw [hqueue] at hb
    rcases hb.of_cons with ⟨rfl, hcancel⟩ | hb
    · exact busy_of_delayed hcancel hhanded
    · exact busy_of_debounce hb
  · rw [hqueue] at hcancel
    exact busy_of_delayed (fun hmem => hcancel (List.mem_cons_of_mem _ hmem)) hb
  · rw [hqueue] at hb
    rcases List.mem_cons.mp hb with rfl | hb
    · have hdebounce := (hhanded.schedules hother).resolve_left fun hstopped =>
        Bool.noConfusion (hrunning.symm.trans hstopped)
      exact busy_of_debounce hdebounce
    · exact busy_of_schedules hb hother

/-- The first closure is not needed any more. -/
theorem Inv.dispatched {c : Client} (h : c.Inv) {task : ClientTask} {tasks : List ClientTask}
    (hqueue : c.dispatcher = task :: tasks) (hhanded : c.HandedOver tasks task) :
    { c with dispatcher := tasks }.Inv := by
  have hkeeps : Keeps c { c with dispatcher := tasks } := by
    refine ⟨rfl, rfl, rfl, fun socket _ hc => ?_, fun peer _ hc => ?_, fun _ _ => .inr,
      fun peer hp => h.ended peer (hp.imp_left fun hmem => ?_)⟩
    · rcases hc with hc | hc | hc | hc
      · exact .inl hc
      · rw [hqueue] at hc
        rcases List.mem_cons.mp hc with rfl | hc
        · exact .inr (.inr (.inl hhanded))
        · exact .inr (.inl hc)
      · exact .inr (.inr (.inl hc))
      · exact .inr (.inr (.inr hc))
    · rcases hc with hc | hc | hc
      · exact .inl hc
      · rw [hqueue] at hc
        rcases List.mem_cons.mp hc with rfl | hc
        · exact .inr (.inr (hhanded rfl))
        · exact .inr (.inl hc)
      · exact .inr (.inr hc)
    · exact hqueue ▸ List.mem_cons_of_mem _ hmem
  refine h.keeps hkeeps h.stopped fun hs => (h.progress hs).imp_right fun hb => ⟨hb.1, ?_⟩
  exact hb.2.dispatched hqueue hs hhanded

/-- An invalidation calls off what is scheduled, but its closure will schedule a reconnect. -/
theorem Inv.invalidateConnection {c : Client} (h : c.Inv) :
    ((c.enqueue [.cancel]).post [.invalidateConnection]).Inv := by
  have hposted : (c.post [.invalidateConnection]).Inv := h.post (by simp) (by simp)
  refine hposted.enqueue (fun _ => .inr ?_) (by simp)
  exact List.mem_append_right _ List.mem_cons_self

/-- A cancel calls off only what does not keep the client going any more. -/
theorem Inv.cancel {c : Client} (h : c.Inv) (hcancel : .cancel ∈ c.dispatcher) :
    { c with generation := c.generation + 1 }.Inv :=
  h.reschedule fun _ hnot _ => absurd hcancel hnot

/-- A reconnect is scheduled: its closure is the one of the current generation. -/
theorem Inv.debounce {c : Client} (h : c.Inv) :
    { c with
      generation := c.generation + 1, delayed := c.delayed ++ [c.generation + 1] }.Inv :=
  h.reschedule fun _ _ _ => List.mem_append_right _ List.mem_cons_self

/-- A closure that ends in `schedule_reconnect()` leaves the scheduling in the queue. -/
theorem Inv.schedules {c : Client} (h : c.Inv) {task : ClientTask} {tasks : List ClientTask}
    (hqueue : c.dispatcher = task :: tasks)
    (hhanded : ∀ d : Client, d.stopped = c.stopped → ∀ rest,
      d.stopped = true ∨ Outlasts .debounce .cancel rest → d.HandedOver rest task) :
    ({ c with dispatcher := tasks }.scheduleReconnect).Inv := by
  rw [Client.scheduleReconnect]
  split
  next hstopped => exact h.dispatched hqueue (hhanded c rfl tasks (.inl hstopped))
  next =>
    have hdebounce : (c.enqueue [.debounce]).Inv := h.enqueue (by simp) (by simp)
    have hrest : (c.enqueue [.debounce]).dispatcher = task :: (tasks ++ [.debounce]) := by
      rw [Client.enqueue, hqueue, List.cons_append]
    exact hdebounce.dispatched hrest (hhanded _ rfl _ (.inr (outlasts_concat _ _ _)))

/-- A closure of the dispatcher. -/
theorem Inv.runTask {c : Client} (h : c.Inv) {task : ClientTask} {tasks : List ClientTask}
    (hqueue : c.dispatcher = task :: tasks) (verified : Bool) :
    ({ c with dispatcher := tasks }.runTask verified task).Inv := by
  cases task with
  | start =>
    have hposted : (c.post [.connect]).Inv := h.post (by simp) (by simp)
    exact (hposted.resume (outlasts_concat _ _ _)).dispatched hqueue trivial
  | stop =>
    have hrest := h.dispatched hqueue trivial
    exact hrest.halt.enqueue (fun _ => .inl rfl) (by simp)
  | invalidateConnection => exact (h.dispatched hqueue trivial).invalidateConnection
  | cancel => exact (h.cancel (hqueue ▸ List.mem_cons_self)).dispatched hqueue trivial
  | debounce =>
    exact h.debounce.dispatched hqueue (List.mem_append_right _ List.mem_cons_self)
  | verify socket =>
    have hposted : (c.post [.handleConnectedSocket socket verified]).Inv :=
      h.post (by simp) (by simp)
    exact hposted.dispatched hqueue ⟨verified, List.mem_append_right _ List.mem_cons_self⟩
  | scheduleReconnect => exact h.schedules hqueue fun _ _ _ => id
  | peerSignal peer signal =>
    rw [Client.runTask]
    split
    next =>
      have hposted : (c.post [.signal peer signal]).Inv := by
        refine h.post (by simp) fun p hmem => h.ended p (.inl ?_)
        obtain ⟨rfl, rfl⟩ := IoTask.signal.inj (List.mem_singleton.mp hmem)
        exact hqueue ▸ List.mem_cons_self
      refine hposted.dispatched hqueue ?_
      rintro rfl
      exact List.mem_append_right _ List.mem_cons_self
    next hlistens =>
      refine h.dispatched hqueue ?_
      rintro rfl
      exact absurd rfl hlistens
  | event e =>
    rw [Client.runTask]
    have htold := h.congr c.requestManager (c.events ++ [e])
    cases hreconnects : e.reconnects with
    | true => exact htold.schedules hqueue fun _ _ _ hdebounce _ => hdebounce
    | false =>
      refine htold.dispatched hqueue ?_
      exact fun hs => Bool.noConfusion (hreconnects.symm.trans hs)

end Client

end VirtualHidDevice.UnixDomainStream
