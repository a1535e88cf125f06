import VirtualHidDevice.UnixDomainStream.Reconnect
import VirtualHidDevice.UnixDomainStream.Requests

/-!
# Where the responses of a client come from

The data that a callback of a request is called with was received by a peer, as the response with
the id that this request has in its frame.

* `Issued` — the requests that were sent, by their ids.
* `Client.Origin` — what is queued, pending and told has an origin; `Origin.step` in every step.
-/

namespace VirtualHidDevice.UnixDomainStream

/-! ## Origins -/

/-- The callback and the data of the request with this id: ids are given out in order, from 1. -/
def Issued (issued : List (ℕ × Bytes)) (requestId : UInt64) (callback : ℕ) (data : Bytes) : Prop :=
  ∃ n, requestId.toNat = n + 1 ∧ issued[n]? = some (callback, data)

/-- More requests do not change what was issued. -/
theorem Issued.append {issued : List (ℕ × Bytes)} {requestId : UInt64} {callback : ℕ}
    {data : Bytes} (h : Issued issued requestId callback data) (new : List (ℕ × Bytes)) :
    Issued (issued ++ new) requestId callback data := by
  obtain ⟨n, hid, hn⟩ := h
  exact ⟨n, hid, (List.getElem?_append_left (List.getElem?_eq_some_iff.mp hn).1).trans hn⟩

/-- What was issued was asked for. -/
theorem Issued.mem {issued : List (ℕ × Bytes)} {requestId : UInt64} {callback : ℕ} {data : Bytes}
    (h : Issued issued requestId callback data) : (callback, data) ∈ issued := by
  obtain ⟨n, -, hn⟩ := h
  exact List.mem_of_getElem? hn

/-- An id stands for one request. -/
theorem Issued.unique {issued : List (ℕ × Bytes)} {requestId : UInt64} {callback callback' : ℕ}
    {data data' : Bytes} (h : Issued issued requestId callback data)
    (h' : Issued issued requestId callback' data') : callback = callback' ∧ data = data' := by
  obtain ⟨n, hid, hn⟩ := h
  obtain ⟨n', hid', hn'⟩ := h'
  obtain rfl : n = n' := by omega
  exact Prod.mk.inj (Option.some.inj (hn.symm.trans hn'))

/-- The next id. -/
theorem issued_next {issued : List (ℕ × Bytes)} {next : UInt64} (callback : ℕ) (data : Bytes)
    (h : next.toNat = issued.length) (hbound : next.toNat + 1 < 2 ^ 64) :
    (next + 1).toNat = (issued ++ [(callback, data)]).length ∧
      Issued (issued ++ [(callback, data)]) (next + 1) callback data := by
  have hid : (next + 1).toNat = next.toNat + 1 := by
    rw [UInt64.toNat_add]
    exact Nat.mod_eq_of_lt hbound
  refine ⟨?_, issued.length, hid.trans (congrArg (· + 1) h), List.getElem?_concat_length⟩
  rw [hid, h, List.length_append, List.length_singleton]

/-- Signals are not taken back. -/
def PeersGrow (before after : List Peer) : Prop :=
  ∀ (peer : ℕ) (p : Peer), before[peer]? = some p →
    ∃ q : Peer, after[peer]? = some q ∧ p.signals ⊆ q.signals

theorem PeersGrow.refl (peers : List Peer) : PeersGrow peers peers :=
  fun _ p hp => ⟨p, hp, List.Subset.refl _⟩

/-- A new peer. -/
theorem PeersGrow.append (peers new : List Peer) : PeersGrow peers (peers ++ new) := by
  intro peer p hp
  have hlt := (List.getElem?_eq_some_iff.mp hp).1
  exact ⟨p, (List.getElem?_append_left hlt).trans hp, List.Subset.refl _⟩

/-- A peer that raises signals. -/
theorem PeersGrow.set {peers : List Peer} {index : ℕ} {p q : Peer} (hp : peers[index]? = some p)
    (hsignals : p.signals ⊆ q.signals) : PeersGrow peers (peers.set index q) := by
  intro peer r hr
  by_cases heq : peer = index
  · subst heq
    obtain rfl := Option.some.inj (hp.symm.trans hr)
    exact ⟨q, List.getElem?_set_self (List.getElem?_eq_some_iff.mp hp).1, hsignals⟩
  · exact ⟨r, (List.getElem?_set_ne (Ne.symm heq)).trans hr, List.Subset.refl _⟩

/-- A peer has raised the signal. -/
def RaisedBy (peers : List Peer) (peer : ℕ) (signal : Signal) : Prop :=
  ∃ p : Peer, peers[peer]? = some p ∧ signal ∈ p.signals

/-- A signal that was raised stays raised. -/
theorem RaisedBy.grow {before after : List Peer} {peer : ℕ} {signal : Signal}
    (h : RaisedBy before peer signal) (hgrow : PeersGrow before after) :
    RaisedBy after peer signal := by
  obtain ⟨p, hp, hsignal⟩ := h
  obtain ⟨q, hq, hsignals⟩ := hgrow peer p hp
  exact ⟨q, hq, hsignals hsignal⟩

/-- The data of a completion is that of a response to its request. -/
def Answered (issued : List (ℕ × Bytes)) (peers : List Peer) (completion : Completion ℕ) : Prop :=
  ∀ response, completion.data = some response → ∃ peer requestId data,
    RaisedBy peers peer (.responseReceived requestId response) ∧
      Issued issued requestId completion.callback data

/-- A completion keeps its reason. -/
theorem Answered.grow {issued : List (ℕ × Bytes)} {before after : List Peer}
    {completion : Completion ℕ} (h : Answered issued before completion) (new : List (ℕ × Bytes))
    (hgrow : PeersGrow before after) : Answered (issued ++ new) after completion := by
  intro response hdata
  obtain ⟨peer, requestId, data, hraised, hissued⟩ := h response hdata
  exact ⟨peer, requestId, data, hraised.grow hgrow, hissued.append new⟩

/-- A completion without a response needs none. -/
theorem answered_of_error {issued : List (ℕ × Bytes)} {peers : List Peer} {callback : ℕ}
    {errorCode : Option ErrorCode} : Answered issued peers ⟨callback, errorCode, none⟩ :=
  fun _ hdata => absurd hdata (Option.some_ne_none _).symm

/-- The origin of an event. -/
def ClientEvent.Origin (issued : List (ℕ × Bytes)) (peers : List Peer) : ClientEvent → Prop
  | .callback completion => Answered issued peers completion
  | _ => True

/-- The origin of a closure on the dispatcher. -/
def ClientTask.Origin (issued : List (ℕ × Bytes)) (peers : List Peer) : ClientTask → Prop
  | .peerSignal peer signal => RaisedBy peers peer signal
  | .event e => e.Origin issued peers
  | _ => True

/-- The origin of a closure in the queue of `io_ctx_`. -/
def IoTask.Origin (labels : List ClientLabel) (issued : List (ℕ × Bytes)) (peers : List Peer) :
    IoTask → Prop
  | .request data callback => .asyncRequest data callback ∈ labels
  | .peer _ (.send (.request requestId data)) => ∃ callback, Issued issued requestId callback data
  | .signal index raised => RaisedBy peers index raised
  | _ => True

section

variable {issued : List (ℕ × Bytes)} {before after : List Peer}

/-- What the program was told keeps its origin. -/
theorem ClientEvent.Origin.grow {e : ClientEvent} (h : e.Origin issued before)
    (new : List (ℕ × Bytes)) (hgrow : PeersGrow before after) : e.Origin (issued ++ new) after := by
  cases e with
  | callback completion => exact Answered.grow h new hgrow
  | _ => exact trivial

/-- So does a closure on the dispatcher. -/
theorem ClientTask.Origin.grow {task : ClientTask} (h : task.Origin issued before)
    (new : List (ℕ × Bytes)) (hgrow : PeersGrow before after) :
    task.Origin (issued ++ new) after := by
  cases task with
  | peerSignal peer signal => exact RaisedBy.grow h hgrow
  | event e => exact ClientEvent.Origin.grow h new hgrow
  | _ => exact trivial

/-- And one of `io_ctx_`. -/
theorem IoTask.Origin.grow {past labels : List ClientLabel} {task : IoTask}
    (h : task.Origin past issued before) (hlabels : past ⊆ labels) (new : List (ℕ × Bytes))
    (hgrow : PeersGrow before after) : task.Origin labels (issued ++ new) after := by
  unfold IoTask.Origin at h ⊢
  split at h
  next => exact hlabels h
  next =>
    obtain ⟨callback, hissued⟩ := h
    exact ⟨callback, hissued.append new⟩
  next => exact RaisedBy.grow h hgrow
  next => exact trivial

end

namespace Client

/-- What is queued, pending and told has an origin. -/
structure Origin (labels : List ClientLabel) (issued : List (ℕ × Bytes)) (c : Client) : Prop where
  /-- ids are given out in order -/
  next : c.requestManager.nextRequestId.toNat = issued.length
  /-- the program has asked for the requests -/
  asked : ∀ request ∈ issued, .asyncRequest request.2 request.1 ∈ labels
  /-- the pending requests were sent -/
  pending : ∀ entry ∈ c.requestManager.pendingRequests,
    ∃ data, Issued issued entry.1 entry.2.callback data
  /-- the queue of the dispatcher -/
  dispatcher : ∀ task ∈ c.dispatcher, task.Origin issued c.peers
  /-- the queue of `io_ctx_` -/
  ioCtx : ∀ task ∈ c.ioCtx, task.Origin labels issued c.peers
  /-- what the program was told -/
  events : ∀ e ∈ c.events, e.Origin issued c.peers

/-- Nothing was told yet. -/
theorem Origin.init (options : ClientOptions) : Origin [] [] (init options) where
  next := rfl
  asked _ h := absurd h List.not_mem_nil
  pending _ h := absurd h List.not_mem_nil
  dispatcher _ h := absurd h List.not_mem_nil
  ioCtx _ h := absurd h List.not_mem_nil
  events _ h := absurd h List.not_mem_nil

variable {past labels : List ClientLabel} {issued : List (ℕ × Bytes)} {c d : Client}

/-- What is new needs an origin. -/
theorem Origin.of_new (h : c.Origin past issued) (hlabels : past ⊆ labels)
    (hmanager : d.requestManager = c.requestManager) (hgrow : PeersGrow c.peers d.peers)
    (hdispatcher : ∀ task ∈ d.dispatcher, task ∈ c.dispatcher ∨ task.Origin issued d.peers)
    (hioCtx : ∀ task ∈ d.ioCtx, task ∈ c.ioCtx ∨ task.Origin labels issued d.peers)
    (hevents : ∀ e ∈ d.events, e ∈ c.events ∨ e.Origin issued d.peers) :
    d.Origin labels issued where
  next := hmanager ▸ h.next
  asked request hrequest := hlabels (h.asked request hrequest)
  pending := hmanager ▸ h.pending
  dispatcher task htask := (hdispatcher task htask).elim
    (fun hold => List.append_nil issued ▸ (h.dispatcher task hold).grow [] hgrow) id
  ioCtx task htask := (hioCtx task htask).elim
    (fun hold => List.append_nil issued ▸ (h.ioCtx task hold).grow hlabels [] hgrow) id
  events e he := (hevents e he).elim
    (fun hold => List.append_nil issued ▸ (h.events e hold).grow [] hgrow) id

/-- The origins say nothing about the other members. -/
theorem Origin.congr (h : c.Origin labels issued) (hmanager : d.requestManager = c.requestManager)
    (hpeers : d.peers = c.peers) (hdispatcher : d.dispatcher ⊆ c.dispatcher)
    (hioCtx : d.ioCtx ⊆ c.ioCtx) (hevents : d.events ⊆ c.events) : d.Origin labels issued :=
  h.of_new (List.Subset.refl _) hmanager (hpeers ▸ PeersGrow.refl _)
    (fun _ ht => .inl (hdispatcher ht)) (fun _ ht => .inl (hioCtx ht)) fun _ he => .inl (hevents he)

/-- Closures with an origin are handed to the dispatcher. -/
theorem Origin.enqueue (h : c.Origin labels issued) {tasks : List ClientTask}
    (hnew : ∀ task ∈ tasks, task.Origin issued c.peers) :
    (c.enqueue tasks).Origin labels issued := by
  refine h.of_new (List.Subset.refl _) rfl (PeersGrow.refl _) (fun task htask => ?_)
    (fun _ ht => .inl ht) fun _ he => .inl he
  exact (List.mem_append.mp htask).imp_right (hnew task)

/-- Closures with an origin are handed to `io_ctx_`. -/
theorem Origin.post (h : c.Origin labels issued) {tasks : List IoTask}
    (hnew : ∀ task ∈ tasks, task.Origin labels issued c.peers) :
    (c.post tasks).Origin labels issued := by
  refine h.of_new (List.Subset.refl _) rfl (PeersGrow.refl _) (fun _ ht => .inl ht)
    (fun task htask => ?_) fun _ he => .inl he
  exact (List.mem_append.mp htask).imp_right (hnew task)

/-- A step of the manager that hands over callbacks. -/
theorem Origin.complete (h : c.Origin labels issued)
    {result : RequestManager ℕ × List (Completion ℕ)}
    (hnext : result.1.nextRequestId = c.requestManager.nextRequestId)
    (hpending : result.1.pendingRequests ⊆ c.requestManager.pendingRequests)
    (hnew : ∀ completion ∈ result.2, Answered issued c.peers completion) :
    (c.complete result).Origin labels issued := by
  have hmanager : { c with requestManager := result.1 }.Origin labels issued :=
    ⟨(congrArg UInt64.toNat hnext).trans h.next, h.asked,
      fun entry hentry => h.pending entry (hpending hentry), h.dispatcher, h.ioCtx, h.events⟩
  refine hmanager.enqueue fun task htask => ?_
  obtain ⟨completion, hmem, rfl⟩ := List.mem_map.mp htask
  exact hnew completion hmem

/-- All requests are completed without a response. -/
theorem Origin.completeAll (h : c.Origin labels issued) (errorCode : ErrorCode) :
    (c.complete (c.requestManager.completeAll errorCode)).Origin labels issued := by
  refine h.complete rfl (List.nil_subset _) fun completion hmem => ?_
  obtain ⟨request, -, rfl⟩ := List.mem_map.mp hmem
  exact answered_of_error

/-- One request is completed, with a response to it or with an error. -/
theorem Origin.completeOne (h : c.Origin labels issued) {m : RequestManager ℕ}
    (hpending : m.pendingRequests = c.requestManager.pendingRequests)
    (hnext : m.nextRequestId = c.requestManager.nextRequestId) {requestId : UInt64}
    {errorCode : Option ErrorCode} {response : Option Bytes}
    (hresponse : ∀ data, response = some data →
      ∃ peer, RaisedBy c.peers peer (.responseReceived requestId data)) :
    (c.complete (m.complete requestId errorCode response)).Origin labels issued := by
  have hfound : ∀ request, m.find requestId = some request →
      ∃ data, Issued issued requestId request.callback data := by
    intro request hfind
    rw [RequestManager.find, hpending] at hfind
    obtain ⟨l₁, l₂, heq, -⟩ := List.lookup_eq_some_iff.mp hfind
    exact h.pending (requestId, request) (heq ▸ List.mem_append_right l₁ List.mem_cons_self)
  refine h.complete ?_ ?_ ?_
  · rw [RequestManager.complete]
    split <;> exact hnext
  · rw [RequestManager.complete, ← hpending]
    split
    next => exact List.Subset.refl _
    next => exact List.filter_sublist.subset
  · rw [RequestManager.complete]
    split
    next => exact fun _ hmem => absurd hmem List.not_mem_nil
    next request hfind =>
      intro completion hmem data hdata
      rw [List.mem_singleton.mp hmem] at hdata ⊢
      obtain ⟨peer, hraised⟩ := hresponse data hdata
      obtain ⟨sent, hissued⟩ := hfound request hfind
      exact ⟨peer, requestId, sent, hraised, hissued⟩

theorem Origin.closePeer (h : c.Origin labels issued) (errorCode : ErrorCode) :
    (c.closePeer errorCode).1.Origin labels issued := by
  rw [Client.closePeer]
  split
  next => exact h
  next peer _ =>
    have hpost : ((c.complete (c.requestManager.completeAll errorCode)).post
        [.peer peer .close]).Origin labels issued :=
      (h.completeAll errorCode).post (by simp [IoTask.Origin])
    exact hpost.congr rfl rfl (List.Subset.refl _) (List.Subset.refl _) (List.Subset.refl _)

theorem Origin.scheduleReconnect (h : c.Origin labels issued) :
    c.scheduleReconnect.Origin labels issued := by
  rw [Client.scheduleReconnect]
  split
  next => exact h
  next => exact h.enqueue (by simp [ClientTask.Origin])

theorem Origin.timeoutCallback (h : c.Origin labels issued) :
    c.timeoutCallback.Origin labels issued := by
  rw [Client.timeoutCallback]
  split
  next =>
    dsimp only
    split
    next => exact (h.closePeer _).enqueue (by simp [ClientTask.Origin, ClientEvent.Origin])
    next => exact h.closePeer _
  next => exact h

/-- A request is sent, and gets the next id. -/
theorem Origin.sendRequest (h : c.Origin labels issued) {peer : ℕ} {data : Bytes} {callback : ℕ}
    (hasked : .asyncRequest data callback ∈ labels)
    (hbound : c.requestManager.nextRequestId.toNat + 1 < 2 ^ 64) :
    (c.sendRequest peer data callback).Origin labels (issued ++ [(callback, data)]) := by
  obtain ⟨hnext, hissued⟩ := issued_next callback data h.next hbound
  have hgrow := PeersGrow.refl c.peers
  refine ⟨hnext, fun request hrequest => ?_, fun entry hentry => ?_,
    fun task htask => (h.dispatcher task htask).grow _ hgrow, fun task htask => ?_,
    fun e he => (h.events e he).grow _ hgrow⟩
  · rcases List.mem_append.mp hrequest with hrequest | hrequest
    · exact h.asked request hrequest
    · rw [List.mem_singleton.mp hrequest]
      exact hasked
  · have hold : ∀ entry ∈ c.requestManager.pendingRequests,
        ∃ sent, Issued (issued ++ [(callback, data)]) entry.1 entry.2.callback sent := by
      intro entry hentry
      obtain ⟨sent, hsent⟩ := h.pending entry hentry
      exact ⟨sent, hsent.append _⟩
    dsimp only [Client.sendRequest, RequestManager.add, Client.post] at hentry
    split at hentry
    next => exact hold entry hentry
    next =>
      rcases List.mem_append.mp hentry with hentry | hentry
      · exact hold entry hentry
      · rw [List.mem_singleton.mp hentry]
        exact ⟨data, hissued⟩
  · rcases List.mem_append.mp htask with htask | htask
    · exact (h.ioCtx task htask).grow (List.Subset.refl _) _ hgrow
    · rw [List.mem_singleton.mp htask]
      exact ⟨callback, hissued⟩

/-- A peer takes a step: its new signals are handed to the dispatcher. -/
theorem Origin.stepPeer (h : c.Origin labels issued) (hpeers : c.PeersInv) {index : ℕ}
    {label : PeerLabel} (hstep : c.stepPeer index label = some d) : d.Origin labels issued := by
  obtain ⟨p, q, hp, hq, rfl⟩ := stepPeer_eq_some hstep
  obtain ⟨new, hnew⟩ := Peer.signals_prefix (hpeers p (List.mem_of_getElem? hp)) hq
  have hgrow : PeersGrow c.peers (c.peers.set index q) :=
    PeersGrow.set hp (hnew ▸ List.subset_append_left _ _)
  refine h.of_new (List.Subset.refl _) rfl hgrow (fun task htask => ?_) (fun _ ht => .inl ht)
    fun _ he => .inl he
  refine (List.mem_append.mp htask).imp_right fun hmem => ?_
  obtain ⟨signal, hsignal, rfl⟩ := List.mem_map.mp hmem
  exact ⟨q, List.getElem?_set_self (List.getElem?_eq_some_iff.mp hp).1,
    List.mem_of_mem_drop hsignal⟩

/-- A new peer has raised nothing. -/
theorem Origin.handleConnectedSocket (h : c.Origin labels issued) (socket : ℕ) (verified : Bool) :
    (c.handleConnectedSocket socket verified).Origin labels issued := by
  have hsocket : { c with connectingSocket := none }.Origin labels issued :=
    h.congr rfl rfl (List.Subset.refl _) (List.Subset.refl _) (List.Subset.refl _)
  rw [Client.handleConnectedSocket]
  split
  next => exact h
  next =>
    dsimp only
    split
    next => exact hsocket
    next =>
      split
      next => exact hsocket.enqueue (by simp [ClientTask.Origin, ClientEvent.Origin])
      next =>
        have hadded : { c with
            connectingSocket := none
            peers := c.peers ++ [Peer.init c.options.common]
            peer := some c.peers.length }.Origin labels issued :=
          h.of_new (List.Subset.refl _) rfl (PeersGrow.append _ _) (fun _ ht => .inl ht)
            (fun _ ht => .inl ht) fun _ he => .inl he
        exact hadded.post (by simp [IoTask.Origin])

/-- A signal of the current peer is told as it was raised, and a response completes its request. -/
theorem Origin.handleSignal (h : c.Origin labels issued) {peer : ℕ} {signal : Signal}
    (hraised : RaisedBy c.peers peer signal) :
    (c.handleSignal peer signal).Origin labels issued := by
  unfold Client.handleSignal
  split
  next => exact h
  next =>
    cases signal with
    | ready | healthCheckResponseReceived => exact h
    | received | requestReceived =>
      exact h.enqueue (by simp [ClientTask.Origin, ClientEvent.Origin])
    | responseReceived requestId buffer =>
      refine h.completeOne rfl rfl fun data hdata => ?_
      obtain rfl := Option.some.inj hdata
      exact ⟨peer, hraised⟩
    | errorOccurred errorCode =>
      exact (h.completeAll errorCode).enqueue (by simp [ClientTask.Origin, ClientEvent.Origin])
    | closed =>
      refine Origin.enqueue ?_ (by simp [ClientTask.Origin, ClientEvent.Origin])
      exact (h.completeAll .connectionReset).congr rfl rfl (List.Subset.refl _)
        (List.Subset.refl _) (List.Subset.refl _)

/-- A closure on the dispatcher. -/
theorem Origin.runTask (h : c.Origin labels issued) {task : ClientTask}
    (hmem : task.Origin issued c.peers) (verified : Bool) :
    (c.runTask verified task).Origin labels issued := by
  have hother : ∀ (stopped : Bool) (generation : ℕ) (delayed : List ℕ),
      { c with stopped, generation, delayed }.Origin labels issued :=
    fun _ _ _ => h.congr rfl rfl (List.Subset.refl _) (List.Subset.refl _) (List.Subset.refl _)
  cases task with
  | start => exact (hother false c.generation c.delayed).post (by simp [IoTask.Origin])
  | stop =>
    exact ((hother true c.generation c.delayed).enqueue (by simp [ClientTask.Origin])).post
      (by simp [IoTask.Origin])
  | invalidateConnection =>
    exact (h.enqueue (by simp [ClientTask.Origin])).post (by simp [IoTask.Origin])
  | cancel => exact hother c.stopped _ c.delayed
  | debounce => exact hother c.stopped _ _
  | verify socket => exact h.post (by simp [IoTask.Origin])
  | scheduleReconnect => exact h.scheduleReconnect
  | peerSignal peer signal =>
    rw [Client.runTask]
    split
    next =>
      refine h.post fun task htask => ?_
      rw [List.mem_singleton.mp htask]
      exact hmem
    next => exact h
  | event e =>
    have hevent : { c with events := c.events ++ [e] }.Origin labels issued := by
      refine h.of_new (List.Subset.refl _) rfl (PeersGrow.refl _) (fun _ ht => .inl ht)
        (fun _ ht => .inl ht) fun other hother => ?_
      refine (List.mem_append.mp hother).imp_right fun hlast => ?_
      rw [List.mem_singleton.mp hlast]
      exact hmem
    rw [Client.runTask]
    split
    next => exact hevent.scheduleReconnect
    next => exact hevent

/-- A closure in the thread of `io_ctx_`. A request that is sent is issued. -/
theorem Origin.runIoTask (h : c.Origin labels issued) (hpeers : c.PeersInv) {task : IoTask}
    (hmem : task.Origin labels issued c.peers)
    (hbound : ∀ data callback, task = .request data callback →
      c.requestManager.nextRequestId.toNat + 1 < 2 ^ 64) :
    ∃ new, (c.runIoTask task).Origin labels (issued ++ new) := by
  have hnone : ∀ {d : Client}, d.Origin labels issued → ∃ new, d.Origin labels (issued ++ new) :=
    fun hd => ⟨[], (List.append_nil issued).symm ▸ hd⟩
  cases task with
  | connect =>
    refine hnone ?_
    rw [Client.runIoTask, Client.connect]
    split
    next => exact h
    next => exact h.congr rfl rfl (List.Subset.refl _) (List.Subset.refl _) (List.Subset.refl _)
  | stop =>
    have hclosed : c.closeConnectingSocket.Origin labels issued :=
      h.congr rfl rfl (List.Subset.refl _) (List.Subset.refl _) (List.Subset.refl _)
    exact hnone (hclosed.closePeer .operationAborted)
  | invalidateConnection =>
    have hclosed : c.closeConnectingSocket.Origin labels issued :=
      h.congr rfl rfl (List.Subset.refl _) (List.Subset.refl _) (List.Subset.refl _)
    exact hnone ((hclosed.closePeer .operationAborted).enqueue (by simp [ClientTask.Origin]))
  | handleConnectedSocket socket verified => exact hnone (h.handleConnectedSocket socket verified)
  | peer index label =>
    rw [Client.runIoTask]
    cases hstep : c.stepPeer index label with
    | none => exact hnone h
    | some d => exact hnone (h.stepPeer hpeers hstep)
  | signal peer signal => exact hnone (h.handleSignal hmem)
  | connected peer =>
    refine hnone ?_
    rw [Client.runIoTask]
    split
    next => exact h.enqueue (by simp [ClientTask.Origin, ClientEvent.Origin])
    next => exact h
  | send data | respond requestId data =>
    refine hnone ?_
    rw [Client.runIoTask]
    split
    next => exact h
    next => exact h.post (by simp [IoTask.Origin])
  | request data callback =>
    rw [Client.runIoTask]
    split
    next =>
      refine hnone (h.enqueue fun task htask => ?_)
      rw [List.mem_singleton.mp htask]
      exact answered_of_error
    next peer _ => exact ⟨_, h.sendRequest hmem (hbound data callback rfl)⟩

/-- In each step some requests may be issued, and the origins stay in order as long as the ids do
not wrap around. -/
theorem Origin.step (h : c.Origin labels issued) (hpeers : c.PeersInv) {label : ClientLabel}
    (hbound : c.requestManager.nextRequestId.toNat + c.unsent.length < 2 ^ 64)
    (hstep : c.step label = some d) : ∃ new, d.Origin (labels ++ [label]) (issued ++ new) := by
  have hlast : label ∈ labels ++ [label] := List.mem_append_right _ List.mem_cons_self
  have hmono : c.Origin (labels ++ [label]) issued :=
    h.of_new (List.subset_append_left _ _) rfl (PeersGrow.refl _) (fun _ ht => .inl ht)
      (fun _ ht => .inl ht) fun _ he => .inl he
  have hnone : d.Origin (labels ++ [label]) issued →
      ∃ new, d.Origin (labels ++ [label]) (issued ++ new) :=
    fun hd => ⟨[], (List.append_nil issued).symm ▸ hd⟩
  cases label with
  | asyncStart | asyncStop | asyncInvalidateConnection =>
    obtain rfl := Option.some.inj hstep
    exact hnone (hmono.enqueue (by simp [ClientTask.Origin]))
  | asyncSend | asyncRespond =>
    obtain rfl := Option.some.inj hstep
    exact hnone (hmono.post (by simp [IoTask.Origin]))
  | asyncRequest data callback =>
    obtain rfl := Option.some.inj hstep
    refine hnone (hmono.post fun task htask => ?_)
    rw [List.mem_singleton.mp htask]
    exact hlast
  | dispatch verified =>
    rw [Client.step] at hstep
    split at hstep
    next => cases hstep
    next task tasks hqueue =>
      obtain rfl := Option.some.inj hstep
      have hpopped : { c with dispatcher := tasks }.Origin _ issued :=
        hmono.congr rfl rfl (hqueue ▸ List.subset_cons_self task tasks) (List.Subset.refl _)
          (List.Subset.refl _)
      exact hnone (hpopped.runTask (hmono.dispatcher task (hqueue ▸ List.mem_cons_self)) verified)
  | reconnectTimer index =>
    rw [Client.step] at hstep
    split at hstep
    next => cases hstep
    next =>
      obtain rfl := Option.some.inj hstep
      have hpopped : { c with delayed := c.delayed.eraseIdx index }.Origin _ issued :=
        hmono.congr rfl rfl (List.Subset.refl _) (List.Subset.refl _) (List.Subset.refl _)
      refine hnone ?_
      rw [Client.runDelayed]
      split
      next => exact hpopped
      next =>
        split
        next => exact hpopped
        next => exact hpopped.post (by simp [IoTask.Origin])
  | io =>
    rw [Client.step] at hstep
    split at hstep
    next => cases hstep
    next task tasks hqueue =>
      obtain rfl := Option.some.inj hstep
      have hpopped : { c with ioCtx := tasks }.Origin _ issued :=
        hmono.congr rfl rfl (List.Subset.refl _) (hqueue ▸ List.subset_cons_self task tasks)
          (List.Subset.refl _)
      refine hpopped.runIoTask hpeers (hmono.ioCtx task (hqueue ▸ List.mem_cons_self)) ?_
      -- the request itself is one of those that were not sent
      rintro data callback rfl
      have hunsent : 0 < c.unsent.length := by
        rw [Client.unsent, hqueue, List.filterMap_cons_some (f := IoTask.callback?) rfl,
          List.length_cons]
        exact Nat.succ_pos _
      dsimp only
      omega
  | connectDone socket errorCode =>
    rw [Client.step] at hstep
    split at hstep
    next =>
      obtain rfl := Option.some.inj hstep
      have hpopped : { c with connects := c.connects.erase socket }.Origin _ issued :=
        hmono.congr rfl rfl (List.Subset.refl _) (List.Subset.refl _) (List.Subset.refl _)
      refine hnone ?_
      unfold Client.connectDone
      split
      next => exact hpopped
      next =>
        cases errorCode with
        | none => exact hpopped.enqueue (by simp [ClientTask.Origin])
        | some errorCode =>
          have hfailed : { c with
              connects := c.connects.erase socket, connectingSocket := none }.Origin _ issued :=
            hmono.congr rfl rfl (List.Subset.refl _) (List.Subset.refl _) (List.Subset.refl _)
          exact hfailed.enqueue (by simp [ClientTask.Origin, ClientEvent.Origin])
    next => cases hstep
  | peer index label =>
    rw [Client.step] at hstep
    split at hstep
    next => exact hnone (hmono.stepPeer hpeers hstep)
    next => cases hstep
  | requestTimer id =>
    rw [Client.step] at hstep
    split at hstep
    next =>
      obtain rfl := Option.some.inj hstep
      have htimer : (c.complete (c.requestManager.timerExpired id)).Origin _ issued :=
        hmono.completeOne
          (m := { c.requestManager with timers := c.requestManager.timers.erase id }) rfl rfl
          fun data hdata => absurd hdata (Option.some_ne_none data).symm
      exact hnone htimer.timeoutCallback
    next => cases hstep
  | destroyPeer peer =>
    rw [Client.step] at hstep
    split at hstep
    next =>
      obtain rfl := Option.some.inj hstep
      exact hnone (hmono.congr rfl rfl List.filter_sublist.subset (List.Subset.refl _)
        (List.Subset.refl _))
    next => cases hstep

end Client

end VirtualHidDevice.UnixDomainStream
