import VirtualHidDevice.UnixDomainStream.PeerMoves
import VirtualHidDevice.Pending

/-!
# What keeps the server listening

While it is not stopped, the server accepts connections or has a timer that will make it bind
again; after a stop it does neither. And it loses no peer: those that it has are those that are
open. As in the client, what makes this hold is the order in which the two threads hand work to
each other.

* `Server.Busy` — what leads to the next attempt to bind.
* `Server.ListenInv` — what holds in every state.
* `Steady` — a step that does not touch the acceptor, and closes the peers that it lets go.

`ListenInv.runTask` is the result for the dispatcher.
-/

namespace VirtualHidDevice.UnixDomainStream

open Pending

/-- The closures that end in `schedule_bind_retry()`. -/
def ServerTask.schedules : ServerTask → Bool
  | .bindFailed _ | .closed => true
  | _ => false

/-- The closures that neither schedule a retry nor call one off. -/
def ServerTask.plain : ServerTask → Bool
  | .cancel | .debounce | .bindFailed _ | .closed | .peerSignal _ _ => false
  | _ => true

/-- The closures that leave the acceptor and the peers alone. -/
def ServerIoTask.handsOn : ServerIoTask → Bool
  | .bind | .stop | .peer _ _ | .peerClosed _ => false
  | _ => true

namespace Server

/-! ## The invariant -/

/-- Something leads to the next attempt to bind: an acceptor that fails, a retry that is about to be
scheduled, or a scheduled one that is not called off. -/
inductive Busy (s : Server) : Prop where
  | accepting (h : s.acceptor.isSome = true)
  | debounce (h : Outlasts .debounce .cancel s.dispatcher)
  | delayed (hcancel : .cancel ∉ s.dispatcher) (h : s.generation ∈ s.delayed)
  | schedules (task : ServerTask) (h : task ∈ s.dispatcher) (htask : task.schedules = true)

/-- The invariant of all runs. -/
structure ListenInv (s : Server) : Prop where
  /-- the acceptor accepts, or a stop closes it -/
  accepting : ∀ acceptor, s.acceptor = some acceptor → acceptor ∈ s.accepts ∨ .stop ∈ s.ioCtx
  /-- a stop ends everything -/
  stopped : s.stopped = true → .stop ∈ s.ioCtx ∨ s.acceptor = none ∧ s.peerIds = []
  /-- what a start sets up is behind every stop -/
  progress : s.stopped = false → Outlasts .bind .stop s.ioCtx ∨ .stop ∉ s.ioCtx ∧ s.Busy
  /-- a peer that the server let go is closed -/
  closed : ∀ (peer id : ℕ) (p : Peer), s.peers[peer]? = some (.accepted id, p) →
    (id, peer) ∈ s.peerIds ∨ p.isOpen = false ∨ .peer peer .close ∈ s.ioCtx
  /-- the end of a peer is noticed -/
  noticed : ∀ (peer id : ℕ) (p : Peer), s.peers[peer]? = some (.accepted id, p) →
    (id, peer) ∈ s.peerIds → p.isOpen = true ∨ .peerSignal peer .closed ∈ s.dispatcher ∨
      .peerClosed id ∈ s.ioCtx

/-- A server that was constructed is stopped. -/
theorem ListenInv.init (options : ServerOptions) : ListenInv (init options) where
  accepting _ h := absurd h (Option.some_ne_none _).symm
  stopped _ := .inr ⟨rfl, rfl⟩
  progress h := Bool.noConfusion h
  closed _ _ _ h := absurd h (Option.some_ne_none _).symm
  noticed _ _ _ h := absurd h (Option.some_ne_none _).symm

/-! ## Steps that do not touch the acceptor -/

/-- Nothing happens to the acceptor but that it accepts once more, nothing is called off, and peers
that the server lets go are closed. -/
structure Steady (s t : Server) : Prop where
  stopped : t.stopped = s.stopped
  acceptor : t.acceptor = s.acceptor
  accepts : s.accepts ⊆ t.accepts
  generation : t.generation = s.generation
  delayed : t.delayed = s.delayed
  dispatcher : ∃ new, t.dispatcher = s.dispatcher ++ new ∧ .cancel ∉ new
  ioCtx : ∃ new, t.ioCtx = s.ioCtx ++ new ∧ .stop ∉ new
  peers : t.peers = s.peers
  peerIds : t.peerIds ⊆ s.peerIds
  closed : ∀ entry ∈ s.peerIds, entry ∈ t.peerIds ∨ .peer entry.2 .close ∈ t.ioCtx

theorem Steady.refl (s : Server) : Steady s s where
  stopped := rfl
  acceptor := rfl
  accepts := List.Subset.refl _
  generation := rfl
  delayed := rfl
  dispatcher := ⟨[], (List.append_nil _).symm, List.not_mem_nil⟩
  ioCtx := ⟨[], (List.append_nil _).symm, List.not_mem_nil⟩
  peers := rfl
  peerIds := List.Subset.refl _
  closed _ h := .inl h

theorem Steady.trans {s t u : Server} (h : Steady s t) (h' : Steady t u) : Steady s u := by
  obtain ⟨new, hnew, hcancel⟩ := h.dispatcher
  obtain ⟨new', hnew', hcancel'⟩ := h'.dispatcher
  obtain ⟨io, hio, hstop⟩ := h.ioCtx
  obtain ⟨io', hio', hstop'⟩ := h'.ioCtx
  refine ⟨h'.stopped.trans h.stopped, h'.acceptor.trans h.acceptor,
    List.Subset.trans h.accepts h'.accepts, h'.generation.trans h.generation,
    h'.delayed.trans h.delayed, ⟨new ++ new', ?_, ?_⟩, ⟨io ++ io', ?_, ?_⟩,
    h'.peers.trans h.peers, List.Subset.trans h'.peerIds h.peerIds, ?_⟩
  · rw [hnew', hnew, List.append_assoc]
  · exact fun hmem => (List.mem_append.mp hmem).elim hcancel hcancel'
  · rw [hio', hio, List.append_assoc]
  · exact fun hmem => (List.mem_append.mp hmem).elim hstop hstop'
  · intro entry hentry
    rcases h.closed entry hentry with hentry | hclose
    · exact h'.closed entry hentry
    · exact .inr (hio' ▸ List.mem_append_left _ hclose)

/-- More closures do not call off what leads to the next attempt, if none is a cancel. -/
theorem Busy.append {s t : Server} (h : s.Busy) (hacceptor : t.acceptor = s.acceptor)
    (hgeneration : t.generation = s.generation) (hdelayed : t.delayed = s.delayed)
    {new : List ServerTask} (hdispatcher : t.dispatcher = s.dispatcher ++ new)
    (hnew : .cancel ∉ new) : t.Busy := by
  rcases h with h | h | ⟨hcancel, h⟩ | ⟨task, h, htask⟩
  · exact .accepting (hacceptor ▸ h)
  · exact .debounce (hdispatcher ▸ h.append hnew)
  · refine .delayed ?_ (hgeneration ▸ hdelayed ▸ h)
    rw [hdispatcher]
    exact fun hmem => (List.mem_append.mp hmem).elim hcancel hnew
  · exact .schedules task (hdispatcher ▸ List.mem_append_left _ h) htask

/-- Such a step keeps the invariant. -/
theorem ListenInv.steady {s t : Server} (h : s.ListenInv) (hsteady : Steady s t) :
    t.ListenInv := by
  obtain ⟨new, hnew, hcancel⟩ := hsteady.dispatcher
  obtain ⟨io, hio, hstop⟩ := hsteady.ioCtx
  refine ⟨?_, ?_, ?_, ?_, ?_⟩
  · rw [hsteady.acceptor, hio]
    intro acceptor hacceptor
    exact (h.accepting acceptor hacceptor).imp (hsteady.accepts ·) (List.mem_append_left _)
  · rw [hsteady.stopped, hsteady.acceptor, hio]
    rintro hstopped
    refine (h.stopped hstopped).imp (List.mem_append_left _) fun hnone => ⟨hnone.1, ?_⟩
    exact List.eq_nil_of_subset_nil (hnone.2 ▸ hsteady.peerIds)
  · rw [hsteady.stopped, hio]
    rintro hrunning
    refine (h.progress hrunning).imp (·.append hstop) ?_
    rintro ⟨hnot, hbusy⟩
    refine ⟨fun hmem => (List.mem_append.mp hmem).elim hnot hstop, ?_⟩
    exact hbusy.append hsteady.acceptor hsteady.generation hsteady.delayed hnew hcancel
  · rw [hsteady.peers]
    rintro peer id p hp
    rcases h.closed peer id p hp with hentry | hclosed | hclose
    · exact (hsteady.closed _ hentry).imp_right .inr
    · exact .inr (.inl hclosed)
    · exact .inr (.inr (hio ▸ List.mem_append_left _ hclose))
  · rw [hsteady.peers, hnew, hio]
    rintro peer id p hp hentry
    rcases h.noticed peer id p hp (hsteady.peerIds hentry) with hopen | hsignal | hclosed
    · exact .inl hopen
    · exact .inr (.inl (List.mem_append_left _ hsignal))
    · exact .inr (.inr (List.mem_append_left _ hclosed))

/-! ## Which steps these are -/

/-- Work for the dispatcher, without a cancel. -/
theorem Steady.enqueue (s : Server) (tasks : List ServerTask) (h : .cancel ∉ tasks) :
    Steady s (s.enqueue tasks) :=
  { Steady.refl s with dispatcher := ⟨tasks, rfl, h⟩ }

/-- Work for the thread of `io_ctx_`, without a stop. -/
theorem Steady.post (s : Server) (tasks : List ServerIoTask) (h : .stop ∉ tasks) :
    Steady s (s.post tasks) :=
  { Steady.refl s with
    ioCtx := ⟨tasks, rfl, h⟩
    closed := fun _ hentry => .inl hentry }

theorem Steady.raise (s : Server) (event : ServerEvent) : Steady s (s.raise event) :=
  { Steady.refl s with }

theorem Steady.complete (s : Server) (result : RequestManager ℕ × List (Completion ℕ)) :
    Steady s (s.complete result) := by
  have hnew : ServerTask.cancel ∉ result.2.map ServerTask.callback := by simp
  exact { Steady.enqueue s _ hnew with }

theorem Steady.closeHealthCheckPeer (s : Server) : Steady s s.closeHealthCheckPeer := by
  rw [Server.closeHealthCheckPeer]
  split
  next => exact .refl s
  next peer _ => exact { Steady.post s [.peer peer .close] (by simp) with }

theorem Steady.healthCheck (s : Server) : Steady s s.healthCheck := by
  rw [Server.healthCheck]
  split
  next => exact .refl s
  next => exact { Steady.refl s with }

theorem Steady.callFunction (s : Server) (functionId : ℕ) :
    Steady s (s.callFunction functionId) := by
  rw [Server.callFunction]
  split
  next => exact .refl s
  next =>
    split
    next => exact { Steady.enqueue s [.healthCheck] (by simp) with }
    next => exact { Steady.refl s with }

theorem Steady.sendRequest (s : Server) (id peer : ℕ) (data : Bytes) (callback : ℕ) :
    Steady s (s.sendRequest id peer data callback) := by
  have hpost := Steady.post s [.peer peer (.send (.request
    (s.requestManager.add (some (managerId id)) callback).2 data))] (by simp)
  exact { hpost with }

/-- `peers_` has one peer for an id. -/
theorem EventInv.find_unique {s : Server} (h : s.EventInv) {id peer other : ℕ}
    (hfind : s.find id = some peer) (hentry : (id, other) ∈ s.peerIds) : other = peer := by
  obtain ⟨p, hp⟩ := h.peerIds id peer (mem_of_lookup hfind)
  obtain ⟨q, hq⟩ := h.peerIds id other hentry
  exact h.unique other peer id q p hq hp

/-- A peer that the server lets go is closed: it is the one that is found. -/
theorem Steady.closePeer {s : Server} (h : s.EventInv) (id : ℕ) : Steady s (s.closePeer id) := by
  rw [Server.closePeer]
  split
  next => exact .refl s
  next peer hfind =>
    have hclose := (Steady.complete s
      (s.requestManager.completePeer (managerId id) .operationAborted)).trans
      (Steady.post _ [.peer peer .close] (by simp))
    refine { hclose with peerIds := fun _ => List.mem_of_mem_filter, closed := ?_ }
    rintro ⟨i, other⟩ hentry
    by_cases hid : i = id
    · subst hid
      obtain rfl := h.find_unique hfind hentry
      exact .inr (List.mem_append_right _ List.mem_cons_self)
    · exact .inl (List.mem_filter.mpr ⟨hentry, decide_eq_true hid⟩)

/-- A request that timed out may end its peer, which is then closed. -/
theorem Steady.timeoutCallback {s : Server} (h : s.EventInv) (id : ℕ) :
    Steady s (s.timeoutCallback id) := by
  rw [Server.timeoutCallback]
  split
  next => exact Steady.closePeer h id
  next => exact .refl s

/-! ## Closures on the dispatcher -/

/-- The dispatcher's queue changes: something still leads to the next attempt, and the end of a
peer is still noticed. -/
theorem ListenInv.redispatch {s : Server} (h : s.ListenInv) {dispatcher : List ServerTask}
    {generation : ℕ} {delayed : List ℕ}
    (hbusy : s.stopped = false → s.Busy → { s with dispatcher, generation, delayed }.Busy)
    (hnoticed : ∀ (peer id : ℕ) (p : Peer), s.peers[peer]? = some (.accepted id, p) →
      (id, peer) ∈ s.peerIds → .peerSignal peer .closed ∈ s.dispatcher →
        .peerSignal peer .closed ∈ dispatcher ∨ .peerClosed id ∈ s.ioCtx) :
    { s with dispatcher, generation, delayed }.ListenInv := by
  refine ⟨h.accepting, h.stopped, ?_, h.closed, ?_⟩
  · rintro hrunning
    exact (h.progress hrunning).imp_right fun hnot => ⟨hnot.1, hbusy hrunning hnot.2⟩
  · rintro peer id p hp hentry
    rcases h.noticed peer id p hp hentry with hopen | hsignal | hclosed
    · exact .inl hopen
    · exact .inr (hnoticed peer id p hp hentry hsignal)
    · exact .inr (.inr hclosed)

/-- The front of the queue, unless it is the end of a peer. -/
theorem mem_of_mem_cons {task : ServerTask} {tasks : List ServerTask}
    (hclosed : ∀ peer, task ≠ .peerSignal peer .closed) {peer : ℕ}
    (h : .peerSignal peer .closed ∈ task :: tasks) : .peerSignal peer .closed ∈ tasks :=
  (List.mem_cons.mp h).resolve_left fun heq => hclosed peer heq.symm

/-- The front of the queue is run: other closures are not what leads to the next attempt. -/
theorem Busy.of_cons {s : Server} (h : s.Busy) {task : ServerTask} {tasks : List ServerTask}
    (hqueue : s.dispatcher = task :: tasks) (hdebounce : task ≠ .debounce)
    (hschedules : task.schedules = false) : { s with dispatcher := tasks }.Busy := by
  rcases h with h | h | ⟨hcancel, h⟩ | ⟨other, h, hother⟩
  · exact .accepting h
  · rw [hqueue] at h
    exact .debounce (h.of_cons.resolve_left fun heq => hdebounce heq.1)
  · rw [hqueue] at hcancel
    exact .delayed (fun hmem => hcancel (List.mem_cons_of_mem _ hmem)) h
  · rw [hqueue] at h
    rcases List.mem_cons.mp h with rfl | h
    · exact Bool.noConfusion (hschedules.symm.trans hother)
    · exact .schedules other h hother

/-- Other closures are not what keeps the server listening. -/
theorem ListenInv.dispatched {s : Server} (h : s.ListenInv) {task : ServerTask}
    {tasks : List ServerTask} (hqueue : s.dispatcher = task :: tasks)
    (hdebounce : task ≠ .debounce) (hschedules : task.schedules = false)
    (hclosed : ∀ peer, task ≠ .peerSignal peer .closed) :
    { s with dispatcher := tasks }.ListenInv := by
  refine h.redispatch (fun _ hbusy => hbusy.of_cons hqueue hdebounce hschedules) ?_
  intro peer id p _ _ hsignal
  exact .inl (mem_of_mem_cons hclosed (hqueue ▸ hsignal))

/-- A cancel calls off only what does not keep the server listening any more. -/
theorem ListenInv.cancel {s : Server} (h : s.ListenInv) {tasks : List ServerTask}
    (hqueue : s.dispatcher = .cancel :: tasks) :
    { s with dispatcher := tasks, generation := s.generation + 1 }.ListenInv := by
  refine h.redispatch (fun _ hbusy => ?_) fun peer id p _ _ hsignal => ?_
  · rcases hbusy with hb | hb | ⟨hcancel, -⟩ | ⟨task, hb, ht⟩
    · exact .accepting hb
    · rw [hqueue] at hb
      exact .debounce (hb.of_cons.resolve_left fun heq => ServerTask.noConfusion heq.1)
    · exact absurd (hqueue ▸ List.mem_cons_self) hcancel
    · rw [hqueue] at hb
      rcases List.mem_cons.mp hb with rfl | hb
      · exact Bool.noConfusion ht
      · exact .schedules task hb ht
  · exact .inl (mem_of_mem_cons (fun _ => ServerTask.noConfusion) (hqueue ▸ hsignal))

/-- A retry is scheduled: its closure is the one of the current generation. -/
theorem ListenInv.debounce {s : Server} (h : s.ListenInv) {tasks : List ServerTask}
    (hqueue : s.dispatcher = .debounce :: tasks) :
    { s with
      dispatcher := tasks
      generation := s.generation + 1
      delayed := s.delayed ++ [s.generation + 1] }.ListenInv := by
  have hmem : s.generation + 1 ∈ s.delayed ++ [s.generation + 1] :=
    List.mem_append_right _ List.mem_cons_self
  refine h.redispatch (fun _ hbusy => ?_) fun peer id p _ _ hsignal => ?_
  · rcases hbusy with hb | hb | ⟨hcancel, -⟩ | ⟨task, hb, ht⟩
    · exact .accepting hb
    · rw [hqueue] at hb
      rcases hb.of_cons with ⟨-, hcancel⟩ | hb
      · exact .delayed hcancel hmem
      · exact .debounce hb
    · rw [hqueue] at hcancel
      exact .delayed (fun hm => hcancel (List.mem_cons_of_mem _ hm)) hmem
    · rw [hqueue] at hb
      rcases List.mem_cons.mp hb with rfl | hb
      · exact Bool.noConfusion ht
      · exact .schedules task hb ht
  · exact .inl (mem_of_mem_cons (fun _ => ServerTask.noConfusion) (hqueue ▸ hsignal))

/-- A closure that ends in `schedule_bind_retry()` leaves the scheduling in the queue. -/
theorem ListenInv.schedules {s : Server} (h : s.ListenInv) {task : ServerTask}
    {tasks : List ServerTask} (hqueue : s.dispatcher = task :: tasks)
    (hclosed : ∀ peer, task ≠ .peerSignal peer .closed) :
    ({ s with dispatcher := tasks }.scheduleBindRetry).ListenInv := by
  rw [Server.scheduleBindRetry]
  split
  next hstopped =>
    have hpopped : { s with dispatcher := tasks }.ListenInv := by
      refine h.redispatch (fun hrunning => ?_) fun peer id p _ _ hsignal => ?_
      · exact Bool.noConfusion (hrunning.symm.trans hstopped)
      · exact .inl (mem_of_mem_cons hclosed (hqueue ▸ hsignal))
    exact hpopped.steady (Steady.enqueue _ _ (by simp))
  next =>
    refine h.redispatch (fun _ _ => .debounce (outlasts_concat _ _ _)) ?_
    intro peer id p _ _ hsignal
    refine .inl (List.mem_append_left _ (List.mem_append_left _ ?_))
    exact mem_of_mem_cons hclosed (hqueue ▸ hsignal)

/-- What a start sets up is behind every stop. -/
theorem ListenInv.start {s : Server} (h : s.ListenInv) :
    ({ s with stopped := false }.post [.bind]).ListenInv := by
  refine ⟨?_, fun hstopped => Bool.noConfusion hstopped, fun _ => .inl (outlasts_concat _ _ _), ?_,
    ?_⟩
  · rintro acceptor hacceptor
    exact (h.accepting acceptor hacceptor).imp_right (List.mem_append_left _)
  · rintro peer id p hp
    exact (h.closed peer id p hp).imp_right (Or.imp_right (List.mem_append_left _))
  · rintro peer id p hp hentry
    exact (h.noticed peer id p hp hentry).imp_right (Or.imp_right (List.mem_append_left _))

/-- A stop: its closure will end everything. -/
theorem ListenInv.stop {s : Server} (h : s.ListenInv) :
    (({ s with stopped := true, exposedPeerIds := [] }.enqueue [.cancel, .stopTimer]).post
      [.stop]).ListenInv := by
  have hstop : ServerIoTask.stop ∈ s.ioCtx ++ [.stop] := List.mem_append_right _ List.mem_cons_self
  refine ⟨fun _ _ => .inr hstop, fun _ => .inl hstop, fun hrunning => Bool.noConfusion hrunning, ?_,
    ?_⟩
  · rintro peer id p hp
    exact (h.closed peer id p hp).imp_right (Or.imp_right (List.mem_append_left _))
  · rintro peer id p hp hentry
    exact (h.noticed peer id p hp hentry).imp_right
      (Or.imp (List.mem_append_left _) (List.mem_append_left _))

/-- The end of an accepted peer goes on to the thread of `io_ctx_`. -/
theorem ListenInv.acceptedSignal {s : Server} (h : s.ListenInv) {peer id : ℕ} {signal : Signal}
    {tasks : List ServerTask} {p : Peer}
    (hqueue : s.dispatcher = .peerSignal peer signal :: tasks)
    (hp : s.peers[peer]? = some (.accepted id, p)) :
    ({ s with dispatcher := tasks }.acceptedSignal id peer signal).ListenInv := by
  have hpopped : signal ≠ .closed → { s with dispatcher := tasks }.ListenInv := by
    intro hne
    refine h.dispatched hqueue ServerTask.noConfusion rfl fun other heq => ?_
    exact hne (ServerTask.peerSignal.inj heq).2
  cases signal with
  | ready | received | requestReceived =>
    exact (hpopped Signal.noConfusion).steady (Steady.enqueue _ _ (by simp))
  | responseReceived requestId buffer =>
    exact (hpopped Signal.noConfusion).steady (Steady.post _ _ (by simp))
  | errorOccurred errorCode =>
    exact (hpopped Signal.noConfusion).steady
      ((Steady.post _ _ (by simp)).trans (Steady.enqueue _ _ (by simp)))
  | healthCheckResponseReceived => exact hpopped Signal.noConfusion
  | closed =>
    -- the closure for `io_ctx_` is queued before the signal is gone
    have hposted : (s.post [.peerClosed id]).ListenInv := h.steady (Steady.post s _ (by simp))
    have hrun : ({ s with dispatcher := tasks }.post [.peerClosed id]).ListenInv := by
      refine ListenInv.redispatch hposted (fun _ hbusy => ?_) fun other i q hq _ hsignal => ?_
      · exact hbusy.of_cons hqueue ServerTask.noConfusion rfl
      · have hmem : ServerTask.peerSignal other .closed ∈ .peerSignal peer .closed :: tasks :=
          hqueue ▸ hsignal
        rcases List.mem_cons.mp hmem with heq | hmem
        · obtain ⟨rfl, -⟩ := ServerTask.peerSignal.inj heq
          obtain ⟨hkind, -⟩ := Prod.mk.inj (Option.some.inj (hp.symm.trans hq))
          obtain rfl := PeerKind.accepted.inj hkind
          exact .inr (List.mem_append_right _ List.mem_cons_self)
        · exact .inl hmem
    exact hrun.steady (Steady.enqueue _ _ (by simp))

/-- A signal of any peer. -/
theorem ListenInv.handleSignal {s : Server} (h : s.ListenInv) {peer : ℕ} {signal : Signal}
    {tasks : List ServerTask}
    (hqueue : s.dispatcher = .peerSignal peer signal :: tasks) :
    ({ s with dispatcher := tasks }.handleSignal peer signal).ListenInv := by
  have hpopped : (∀ id p, s.peers[peer]? ≠ some (.accepted id, p)) →
      { s with dispatcher := tasks }.ListenInv := by
    intro hnot
    refine h.redispatch (fun _ hbusy => hbusy.of_cons hqueue ServerTask.noConfusion rfl) ?_
    intro other id p hp _ hsignal
    rw [hqueue] at hsignal
    rcases List.mem_cons.mp hsignal with heq | hsignal
    · obtain ⟨rfl, -⟩ := ServerTask.peerSignal.inj heq
      exact absurd hp (hnot id p)
    · exact .inl hsignal
  rw [Server.handleSignal]
  split
  next hnone =>
    refine hpopped fun id p hp => ?_
    exact Option.some_ne_none _ (hp.symm.trans hnone)
  next id p hp => exact h.acceptedSignal hqueue hp
  next check p hp =>
    have hcheck := hpopped fun id q hq =>
      PeerKind.noConfusion (Prod.mk.inj (Option.some.inj (hq.symm.trans hp))).1
    cases signal with
    | healthCheckResponseReceived | errorOccurred | closed =>
      exact hcheck.steady (Steady.post _ _ (by simp))
    | _ => exact hcheck

/-- A closure on the dispatcher. -/
theorem ListenInv.runTask {s : Server} (h : s.ListenInv) {task : ServerTask}
    {tasks : List ServerTask} (hqueue : s.dispatcher = task :: tasks) (verified : Bool) :
    ({ s with dispatcher := tasks }.runTask verified task).ListenInv := by
  have hpopped : task.plain = true → { s with dispatcher := tasks }.ListenInv := by
    intro hplain
    refine h.dispatched hqueue ?_ ?_ fun peer heq => ?_
    · rintro rfl
      exact Bool.noConfusion hplain
    · cases task <;> first | rfl | cases hplain
    · exact Bool.noConfusion ((congrArg ServerTask.plain heq).symm.trans hplain)
  cases task with
  | start => exact (hpopped rfl).start
  | stop => exact (hpopped rfl).stop
  | cancel => exact h.cancel hqueue
  | debounce => exact h.debounce hqueue
  | startTimer =>
    have hstarted := hpopped rfl
    refine ListenInv.steady (s := { s with
      dispatcher := tasks
      timer := { s.timer with
        currentFunctionId := s.timer.currentFunctionId + 1, function := true } }) ?_
      (Steady.callFunction _ _)
    exact hstarted.steady { Steady.refl _ with }
  | stopTimer =>
    exact (hpopped rfl).steady { Steady.refl _ with }
  | healthCheck =>
    exact (hpopped rfl).steady (Steady.post _ _ (by simp))
  | bound =>
    have hraised := (hpopped rfl).steady (Steady.raise _ .bound)
    rw [Server.runTask, Server.startHealthCheckTimer]
    split
    next => exact hraised
    next => exact hraised.steady (Steady.enqueue _ _ (by simp))
  | bindFailed errorCode =>
    exact ListenInv.schedules (h.steady (Steady.raise s (.bindFailed errorCode))) hqueue
      fun _ => ServerTask.noConfusion
  | closed =>
    exact ListenInv.schedules (h.steady (Steady.raise s .closed)) hqueue
      fun _ => ServerTask.noConfusion
  | peerSignal peer signal => exact h.handleSignal hqueue
  | verify id =>
    have hverify := hpopped rfl
    cases verified with
    | true => exact hverify.steady { Steady.refl _ with }
    | false => exact hverify.steady (Steady.post _ _ (by simp))
  | exposed id event =>
    have hexposed := hpopped rfl
    rw [Server.runTask]
    split
    next => exact hexposed.steady (Steady.raise _ event)
    next => exact hexposed
  | peerClosed id =>
    have hclosed := hpopped rfl
    rw [Server.runTask]
    split
    next => exact hclosed.steady { Steady.refl _ with }
    next => exact hclosed
  | callback completion =>
    exact (hpopped rfl).steady (Steady.raise _ _)

end Server

end VirtualHidDevice.UnixDomainStream
