import VirtualHidDevice.UnixDomainStream.PeerReader
import VirtualHidDevice.UnixDomainStream.Server
import VirtualHidDevice.Relay

/-!
# What a server knows of its peers

The signals of a peer reach the program by two closures on the dispatcher, one of the peer and one
of the server, and the server tells only of peers that it has exposed.

* `PeerPhase`, `phase` — the order of events that is expected of a peer.
* `Mark`, `Server.marks` — `ready` and `closed`, on their way to the program.
* `Server.EventInv`, `Server.PeerInv` — what holds in every run.
* `Server.Keeps`, `EventInv.keeps` — a step that has nothing to do with that way, and which of the
  methods are such steps.
-/

namespace VirtualHidDevice.UnixDomainStream

/-! ## The events of a peer -/

/-- The peer that an event is about. -/
def ServerEvent.peerId? : ServerEvent → Option ℕ
  | .peerConnected id | .peerClosed id | .peerErrorOccurred id _ | .received id _
  | .requestReceived id _ _ => some id
  | .bound | .bindFailed _ | .closed | .callback _ => none

/-- What the program knows of a peer. -/
inductive PeerPhase where
  /-- nothing -/
  | unknown
  /-- `peer_connected` was raised -/
  | connected
  /-- `peer_closed` was raised -/
  | closed
deriving DecidableEq, Repr

/-- The event may be raised in a phase, and what follows. -/
def PeerPhase.next : PeerPhase → ServerEvent → Option PeerPhase
  | unknown, .peerConnected _ => some connected
  | connected, .received _ _ | connected, .requestReceived _ _ _
  | connected, .peerErrorOccurred _ _ => some connected
  | connected, .peerClosed _ => some closed
  | _, _ => none

/-- The phase of a peer after some events; none if they are out of order. -/
def phase (id : ℕ) (events : List ServerEvent) : Option PeerPhase :=
  (events.filter (·.peerId? = some id)).foldlM PeerPhase.next .unknown

/-- An event of another peer. -/
theorem phase_concat_of_ne {id : ℕ} (events : List ServerEvent) {event : ServerEvent}
    (h : event.peerId? ≠ some id) : phase id (events ++ [event]) = phase id events := by
  rw [phase, List.filter_append, List.filter_cons_of_neg (by simpa using h), List.filter_nil,
    List.append_nil, phase]

/-- An event of the peer. -/
theorem phase_concat {id : ℕ} {events : List ServerEvent} {event : ServerEvent} {ph : PeerPhase}
    (h : event.peerId? = some id) (hphase : phase id events = some ph) :
    phase id (events ++ [event]) = ph.next event := by
  rw [phase] at hphase ⊢
  rw [List.filter_append, List.filter_cons_of_pos (by simpa using h), List.filter_nil,
    List.foldlM_append, hphase]
  exact bind_pure (m := Option) _

/-- Nothing was told of the peer. -/
theorem phase_unknown {id : ℕ} {events : List ServerEvent}
    (h : ∀ event ∈ events, event.peerId? ≠ some id) : phase id events = some .unknown := by
  rw [phase, List.filter_eq_nil_iff.mpr fun event he => by simpa using h event he]
  rfl

/-- The event is told of a peer that is connected. -/
def ServerEvent.ofConnected (id : ℕ) (event : ServerEvent) : Prop :=
  event.peerId? = some id ∧ PeerPhase.connected.next event = some .connected

/-! ## Marks -/

/-- The signals that change what the program knows of a peer. -/
inductive Mark where
  /-- `ready` -/
  | ready
  /-- `closed` -/
  | closed
deriving DecidableEq, Repr

/-- The mark of a signal. -/
def Signal.mark? : Signal → Option Mark
  | .ready => some .ready
  | .closed => some .closed
  | _ => none

/-- The mark that a closure of the server carries. -/
def ServerTask.relayed (id : ℕ) : ServerTask → Option Mark
  | .verify i => if i = id then some .ready else none
  | .peerClosed i => if i = id then some .closed else none
  | _ => none

/-- The mark that a closure of the peer carries. -/
def ServerTask.emitted (peer : ℕ) : ServerTask → Option Mark
  | .peerSignal p signal => if p = peer then signal.mark? else none
  | _ => none

/-- The closure has nothing to do with what the program is told of peers. -/
@[simp] def ServerTask.quiet : ServerTask → Bool
  | .verify _ | .peerClosed _ | .exposed _ _ | .peerSignal _ _ => false
  | _ => true

/-- The closure neither lets a peer go nor sends a response. -/
@[simp] def ServerIoTask.quiet : ServerIoTask → Bool
  | .peerClosed _ | .respond _ _ _ | .peer _ (.send (.response _ _)) => false
  | _ => true

/-- A quiet closure carries no mark of the server. -/
theorem relayed_of_quiet {task : ServerTask} (h : task.quiet = true) (id : ℕ) :
    task.relayed id = none := by
  cases task <;> first | rfl | cases h

/-- Nor of a peer. -/
theorem emitted_of_quiet {task : ServerTask} (h : task.quiet = true) (peer : ℕ) :
    task.emitted peer = none := by
  cases task <;> first | rfl | cases h

/-- A peer that became ready after it was closed: the deadline was due when the socket was
closed. -/
def Late (signals : List Signal) : Prop :=
  [Mark.closed, Mark.ready].Sublist (signals.filterMap Signal.mark?)

namespace Server

/-- The marks of a peer that are on their way to the program. -/
def marks (s : Server) (id peer : ℕ) : List Mark :=
  Relay.marks (ServerTask.relayed id) (ServerTask.emitted peer) s.dispatcher

/-! ## The invariant -/

/-- The server has heard of the id of a peer. -/
inductive Knows (s : Server) (id : ℕ) : Prop where
  | event (event : ServerEvent) (h : event ∈ s.events) (hid : event.peerId? = some id)
  | exposed (h : id ∈ s.exposedPeerIds)
  | task (task : ServerTask) (h : task ∈ s.dispatcher) (hmark : task.relayed id ≠ none)
  | io (h : .peerClosed id ∈ s.ioCtx)

/-- A step after which the server has heard of nothing new. -/
theorem Knows.mono {s t : Server} {id : ℕ} (h : t.Knows id) (hevents : t.events ⊆ s.events)
    (hexposed : t.exposedPeerIds ⊆ s.exposedPeerIds)
    (hdispatcher : ∀ task ∈ t.dispatcher, task.relayed id ≠ none → task ∈ s.dispatcher)
    (hio : .peerClosed id ∈ t.ioCtx → .peerClosed id ∈ s.ioCtx) : s.Knows id := by
  rcases h with ⟨event, he, hid⟩ | he | ⟨task, htask, hmark⟩ | h
  · exact .event event (hevents he) hid
  · exact .exposed (hexposed he)
  · exact .task task (hdispatcher task htask hmark) hmark
  · exact .io (hio h)

/-- An accepted peer: `done` are the marks that the program has been told of, or that `verify_peer_`
was asked about. -/
structure PeerInv (s : Server) (peer id : ℕ) (signals : List Signal) (done : List Mark) : Prop where
  /-- marks come out as they go in -/
  order : (done ++ s.marks id peer).Sublist (signals.filterMap Signal.mark?)
  /-- none is lost while the server has the peer -/
  kept : (id, peer) ∈ s.peerIds → done ++ s.marks id peer = signals.filterMap Signal.mark?
  /-- the server lets a peer go because it closes it, or because it knows that it is closed -/
  gone : (id, peer) ∉ s.peerIds → id ∈ s.closedPeerIds ∨
    .closed ∈ done ++ s.dispatcher.filterMap (ServerTask.relayed id)
  /-- it does so when it has been told -/
  told : .peerClosed id ∈ s.ioCtx → .closed ∈ done ++ s.dispatcher.filterMap (ServerTask.relayed id)
  /-- the program was told in order -/
  phase : ∃ ph, phase id s.events = some ph ∧ (ph ≠ .unknown → .ready ∈ done) ∧
    (id ∈ s.exposedPeerIds → ph = .connected)
  /-- a peer that was closed is not exposed any more -/
  late : id ∈ s.exposedPeerIds → .closed ∈ done → Late signals

/-- The invariant of all runs. -/
structure EventInv (s : Server) : Prop where
  /-- ids are given out in order -/
  ids : ∀ (peer id : ℕ) (p : Peer), s.peers[peer]? = some (.accepted id, p) → id ≤ s.nextPeerId
  /-- each to one peer -/
  unique : ∀ (peer peer' id : ℕ) (p p' : Peer), s.peers[peer]? = some (.accepted id, p) →
    s.peers[peer']? = some (.accepted id, p') → peer = peer'
  /-- the server hears only of ids that it has given out -/
  known : ∀ id, s.Knows id → ∃ (peer : ℕ) (p : Peer), s.peers[peer]? = some (.accepted id, p)
  /-- closures belong to peers that exist -/
  signals : ∀ peer signal, .peerSignal peer signal ∈ s.dispatcher → peer < s.peers.length
  /-- `peers_` has the peers under their ids -/
  peerIds : ∀ id peer, (id, peer) ∈ s.peerIds → ∃ p : Peer, s.peers[peer]? = some (.accepted id, p)
  /-- what is raised for an exposed peer is about that peer -/
  exposed : ∀ id event, .exposed id event ∈ s.dispatcher → event.ofConnected id
  /-- the signals of every peer -/
  peer : ∀ (peer : ℕ) (kind : PeerKind) (p : Peer), s.peers[peer]? = some (kind, p) → p.SignalInv
  /-- the way of the marks of every accepted peer -/
  accepted : ∀ (peer id : ℕ) (p : Peer), s.peers[peer]? = some (.accepted id, p) →
    ∃ done, PeerInv s peer id p.signals done

/-- A server that was constructed has heard of no peer. -/
theorem EventInv.init (options : ServerOptions) : EventInv (init options) where
  ids _ _ _ h := absurd h (Option.some_ne_none _).symm
  unique _ _ _ _ _ h := absurd h (Option.some_ne_none _).symm
  known id h := by
    rcases h with ⟨_, h, -⟩ | h | ⟨_, h, -⟩ | h <;> exact absurd h List.not_mem_nil
  signals _ _ h := absurd h List.not_mem_nil
  peerIds _ _ h := absurd h List.not_mem_nil
  exposed _ _ h := absurd h List.not_mem_nil
  peer _ _ _ h := absurd h (Option.some_ne_none _).symm
  accepted _ _ _ h := absurd h (Option.some_ne_none _).symm

/-! ## Steps that have nothing to do with it -/

/-- Nothing is raised or exposed, no peer moves, and only quiet closures are queued; the server may
let peers go that it closes. -/
structure Keeps (s t : Server) : Prop where
  options : t.options = s.options
  peers : t.peers = s.peers
  nextPeerId : t.nextPeerId = s.nextPeerId
  exposed : t.exposedPeerIds = s.exposedPeerIds
  events : t.events = s.events
  dispatcher : ∃ new, t.dispatcher = s.dispatcher ++ new ∧ ∀ task ∈ new, task.quiet = true
  ioCtx : ∀ task ∈ t.ioCtx, task ∈ s.ioCtx ∨ task.quiet = true
  peerIds : t.peerIds ⊆ s.peerIds
  closed : s.closedPeerIds ⊆ t.closedPeerIds ∧
    ∀ entry ∈ s.peerIds, entry ∈ t.peerIds ∨ entry.1 ∈ t.closedPeerIds

theorem Keeps.refl (s : Server) : Keeps s s where
  options := rfl
  peers := rfl
  nextPeerId := rfl
  exposed := rfl
  events := rfl
  dispatcher := ⟨[], (List.append_nil _).symm, fun _ h => absurd h List.not_mem_nil⟩
  ioCtx _ h := .inl h
  peerIds := List.Subset.refl _
  closed := ⟨List.Subset.refl _, fun _ h => .inl h⟩

theorem Keeps.trans {s t u : Server} (h : Keeps s t) (h' : Keeps t u) : Keeps s u := by
  obtain ⟨new, hnew, hquiet⟩ := h.dispatcher
  obtain ⟨new', hnew', hquiet'⟩ := h'.dispatcher
  refine ⟨h'.options.trans h.options, h'.peers.trans h.peers, h'.nextPeerId.trans h.nextPeerId,
    h'.exposed.trans h.exposed, h'.events.trans h.events, ⟨new ++ new', ?_, ?_⟩,
    fun task htask => (h'.ioCtx task htask).elim (h.ioCtx task) .inr,
    List.Subset.trans h'.peerIds h.peerIds, List.Subset.trans h.closed.1 h'.closed.1, ?_⟩
  · rw [hnew', hnew, List.append_assoc]
  · intro task htask
    exact (List.mem_append.mp htask).elim (hquiet task) (hquiet' task)
  · intro entry hentry
    rcases h.closed.2 entry hentry with hentry | hclosed
    · exact h'.closed.2 entry hentry
    · exact .inr (h'.closed.1 hclosed)

/-- Nothing tells the server that a peer is closed. -/
theorem Keeps.peerClosed {s t : Server} (h : Keeps s t) {id : ℕ} (hio : .peerClosed id ∈ t.ioCtx) :
    .peerClosed id ∈ s.ioCtx :=
  (h.ioCtx _ hio).resolve_right Bool.false_ne_true

/-- Such a step keeps the invariant: the marks are where they were. -/
theorem EventInv.keeps {s t : Server} (h : s.EventInv) (hkeeps : Keeps s t) : t.EventInv := by
  obtain ⟨new, hnew, hquiet⟩ := hkeeps.dispatcher
  have hmem : ∀ task ∈ t.dispatcher, task.quiet = false → task ∈ s.dispatcher := by
    intro task htask hloud
    rw [hnew] at htask
    rcases List.mem_append.mp htask with htask | htask
    · exact htask
    · exact absurd (hquiet task htask) (by rw [hloud]; exact Bool.false_ne_true)
  have hrelayed : ∀ id, t.dispatcher.filterMap (ServerTask.relayed id) =
      s.dispatcher.filterMap (ServerTask.relayed id) := by
    intro id
    rw [hnew, List.filterMap_append,
      List.filterMap_eq_nil_iff.mpr fun task htask => relayed_of_quiet (hquiet task htask) id,
      List.append_nil]
  have hmarks : ∀ id peer, t.marks id peer = s.marks id peer := by
    intro id peer
    rw [marks, hnew, marks]
    exact Relay.marks_append_of_none _ (fun task htask => relayed_of_quiet (hquiet task htask) id)
      fun task htask => emitted_of_quiet (hquiet task htask) peer
  refine ⟨?_, ?_, ?_, ?_, ?_, ?_, ?_, ?_⟩
  · rw [hkeeps.peers, hkeeps.nextPeerId]
    exact h.ids
  · rw [hkeeps.peers]
    exact h.unique
  · rw [hkeeps.peers]
    refine fun id hknows => h.known id (hknows.mono (hkeeps.events ▸ List.Subset.refl _)
      (hkeeps.exposed ▸ List.Subset.refl _) ?_ hkeeps.peerClosed)
    refine fun task htask hmark => hmem task htask (Bool.eq_false_of_not_eq_true fun hq => ?_)
    exact hmark (relayed_of_quiet hq id)
  · rw [hkeeps.peers]
    exact fun peer signal htask => h.signals peer signal (hmem _ htask rfl)
  · rw [hkeeps.peers]
    exact fun id peer hentry => h.peerIds id peer (hkeeps.peerIds hentry)
  · exact fun id event htask => h.exposed id event (hmem _ htask rfl)
  · rw [hkeeps.peers]
    exact h.peer
  · rw [hkeeps.peers]
    intro peer id p hp
    obtain ⟨done, hpeer⟩ := h.accepted peer id p hp
    refine ⟨done, ?_, ?_, ?_, ?_, ?_, ?_⟩
    · rw [hmarks]
      exact hpeer.order
    · rw [hmarks]
      exact fun hentry => hpeer.kept (hkeeps.peerIds hentry)
    · rw [hrelayed]
      intro hentry
      by_cases hold : (id, peer) ∈ s.peerIds
      · exact .inl ((hkeeps.closed.2 _ hold).resolve_left hentry)
      · exact (hpeer.gone hold).imp_left fun hclosed => hkeeps.closed.1 hclosed
    · rw [hrelayed]
      exact fun hio => hpeer.told (hkeeps.peerClosed hio)
    · rw [hkeeps.events, hkeeps.exposed]
      exact hpeer.phase
    · rw [hkeeps.exposed]
      exact hpeer.late

/-! ## Which steps these are -/

/-- Closures are handed over. -/
theorem Keeps.enqueue (s : Server) (tasks : List ServerTask)
    (h : ∀ task ∈ tasks, task.quiet = true) : Keeps s (s.enqueue tasks) :=
  { Keeps.refl s with dispatcher := ⟨tasks, rfl, h⟩ }

theorem Keeps.post (s : Server) (tasks : List ServerIoTask)
    (h : ∀ task ∈ tasks, task.quiet = true) :
    Keeps s (s.post tasks) :=
  { Keeps.refl s with
    ioCtx := fun task htask => (List.mem_append.mp htask).imp_right (h task) }

theorem Keeps.complete (s : Server) (result : RequestManager ℕ × List (Completion ℕ)) :
    Keeps s (s.complete result) := by
  have hquiet : ∀ task ∈ result.2.map ServerTask.callback, task.quiet = true := by
    intro task htask
    obtain ⟨completion, -, rfl⟩ := List.mem_map.mp htask
    rfl
  exact { Keeps.enqueue s _ hquiet with }

theorem Keeps.closeAcceptor (s : Server) : Keeps s s.closeAcceptor := { Keeps.refl s with }

theorem Keeps.accept (s : Server) : Keeps s s.accept := by
  rw [Server.accept]
  split
  next => exact .refl s
  next =>
    split
    next => exact .refl s
    next => exact { Keeps.refl s with }

/-- Binding again says how it went. -/
theorem Keeps.bind (s : Server) (error : Option ErrorCode) : Keeps s (s.bind error) := by
  have hbegin : Keeps s { s with acceptor := some s.acceptors, acceptors := s.acceptors + 1 } :=
    { Keeps.refl s with }
  rw [Server.bind]
  split
  next => exact .refl s
  next =>
    cases error with
    | some errorCode =>
      exact (hbegin.trans (Keeps.closeAcceptor _)).trans
        (Keeps.enqueue _ _ (by simp))
    | none =>
      exact (hbegin.trans (Keeps.enqueue _ _ (by simp))).trans (Keeps.accept _)

theorem Keeps.closeHealthCheckPeer (s : Server) : Keeps s s.closeHealthCheckPeer := by
  rw [Server.closeHealthCheckPeer]
  split
  next => exact .refl s
  next peer _ => exact { Keeps.post s [.peer peer .close] (by simp) with }

theorem Keeps.handleHealthCheckFailed (s : Server) : Keeps s s.handleHealthCheckFailed := by
  rw [Server.handleHealthCheckFailed]
  split
  next => exact .refl s
  next =>
    have hbegin : Keeps s { s with healthCheckInProgress := false } := { Keeps.refl s with }
    refine ((hbegin.trans (Keeps.closeHealthCheckPeer _)).trans (Keeps.closeAcceptor _)).trans ?_
    exact Keeps.enqueue _ _ (by simp)

theorem Keeps.scheduleBindRetry (s : Server) : Keeps s s.scheduleBindRetry := by
  have hstop : Keeps s (s.enqueue [.stopTimer]) := Keeps.enqueue s _ (by simp)
  rw [Server.scheduleBindRetry]
  split
  next => exact hstop
  next => exact hstop.trans (Keeps.enqueue _ _ (by simp))

theorem Keeps.healthCheck (s : Server) : Keeps s s.healthCheck := by
  rw [Server.healthCheck]
  split
  next => exact .refl s
  next => exact { Keeps.refl s with }

/-- The server closes a peer that it lets go. -/
theorem Keeps.closePeer (s : Server) (id : ℕ) : Keeps s (s.closePeer id) := by
  rw [Server.closePeer]
  split
  next => exact .refl s
  next peer _ =>
    have hdone := (Keeps.complete s
      (s.requestManager.completePeer (managerId id) .operationAborted)).trans
      (Keeps.post _ [.peer peer .close] (by simp))
    refine { hdone with peerIds := ?_, closed := ?_ }
    · exact fun entry hentry => List.mem_of_mem_filter hentry
    · refine ⟨List.subset_append_left _ _, fun entry hentry => ?_⟩
      by_cases hid : entry.1 = id
      · exact .inr (List.mem_append_right _ (List.mem_singleton.mpr hid))
      · exact .inl (List.mem_filter.mpr ⟨hentry, decide_eq_true hid⟩)

/-- It closes all of them. -/
theorem Keeps.closeAllPeers (s : Server) : Keeps s s.closeAllPeers := by
  have hquiet : ∀ task ∈ s.peerIds.map fun entry => ServerIoTask.peer entry.2 .close,
      task.quiet = true := by
    intro task htask
    obtain ⟨entry, -, rfl⟩ := List.mem_map.mp htask
    rfl
  have hdone := (Keeps.complete s (s.requestManager.completeAll .operationAborted)).trans
    (Keeps.post _ _ hquiet)
  refine { hdone with peerIds := List.nil_subset _, closed := ?_ }
  refine ⟨List.subset_append_left _ _, fun entry hentry => .inr ?_⟩
  exact List.mem_append_right _ (List.mem_map_of_mem hentry)

/-- The closure of a stop. -/
theorem Keeps.stop (s : Server) :
    Keeps s { s.closeAcceptor.closeAllPeers.closeHealthCheckPeer with
      healthCheckInProgress := false } := by
  have hdone := ((Keeps.closeAcceptor s).trans (Keeps.closeAllPeers _)).trans
    (Keeps.closeHealthCheckPeer _)
  exact { hdone with }

theorem Keeps.sendRequest (s : Server) (id peer : ℕ) (data : Bytes) (callback : ℕ) :
    Keeps s (s.sendRequest id peer data callback) := by
  rw [Server.sendRequest]
  exact { Keeps.post s [.peer peer (.send (.request
    (s.requestManager.add (some (managerId id)) callback).2 data))] (by simp) with }

theorem Keeps.callFunction (s : Server) (functionId : ℕ) :
    Keeps s (s.callFunction functionId) := by
  rw [Server.callFunction]
  split
  next => exact .refl s
  next =>
    split
    next => exact { Keeps.enqueue s [.healthCheck] (by simp) with }
    next => exact { Keeps.refl s with }

/-- A request that timed out may end its peer. -/
theorem Keeps.requestTimer (s : Server) (request : UInt64) (id : ℕ) :
    Keeps s (s.requestTimer request id) := by
  have hdone := Keeps.complete s (s.requestManager.timerExpired request)
  rw [Server.requestTimer, Server.timeoutCallback]
  split
  next => exact hdone.trans (Keeps.closePeer _ id)
  next => exact hdone

/-- The closures of `io_ctx_` that do not run a peer, let one go, or send a response. -/
theorem Keeps.runIoTask (s : Server) (bindError : Option ErrorCode) (task : ServerIoTask)
    (hpeer : ∀ peer label, task ≠ .peer peer label) (hclosed : ∀ id, task ≠ .peerClosed id)
    (hrespond : ∀ id requestId data, task ≠ .respond id requestId data) :
    Keeps s (s.runIoTask bindError task) := by
  cases task with
  | bind => exact Keeps.bind s bindError
  | stop => exact Keeps.stop s
  | send id data =>
    rw [Server.runIoTask]
    split
    next => exact .refl s
    next => exact Keeps.post s _ (by simp)
  | respond id requestId data => exact absurd rfl (hrespond id requestId data)
  | request id data callback =>
    rw [Server.runIoTask]
    split
    next => exact Keeps.enqueue s _ (by simp)
    next peer _ => exact Keeps.sendRequest s id peer data callback
  | closePeer id => exact Keeps.closePeer s id
  | peer peer label => exact absurd rfl (hpeer peer label)
  | responseReceived id peer request buffer =>
    rw [Server.runIoTask]
    split
    next => exact Keeps.complete s _
    next => exact .refl s
  | peerError id errorCode => exact Keeps.complete s _
  | peerClosed id => exact absurd rfl (hclosed id)
  | healthCheck => exact Keeps.healthCheck s
  | healthCheckResponse check => exact { Keeps.closeHealthCheckPeer s with }
  | healthCheckError check | healthCheckClosed check => exact Keeps.handleHealthCheckFailed s

end Server

end VirtualHidDevice.UnixDomainStream
