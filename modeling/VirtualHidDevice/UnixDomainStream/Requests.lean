import VirtualHidDevice.UnixDomainStream.Client

/-!
# The requests of the client

Every callback that the program hands to `async_request` of a stream client is somewhere: with a
request that is not sent yet, with a pending request, in the dispatcher's queue, or it was called.

* `Client.account` — how often a callback is in any of these places.
* `RequestInv` — the account agrees with what the program asked for, and requests are pending only
  while there is a peer; `RequestInv.step` in every step.

`callbacks_called_once` is the result for all runs.
-/

namespace VirtualHidDevice.UnixDomainStream

/-! ## Where a callback can be -/

/-- The call of a callback. -/
def ClientEvent.completion? : ClientEvent → Option (Completion ℕ)
  | callback completion => some completion
  | _ => none

/-- The call of a callback that is queued. -/
def ClientTask.completion? : ClientTask → Option (Completion ℕ)
  | .event e => e.completion?
  | _ => none

/-- The callback of a request that is not sent yet. -/
def IoTask.callback? : IoTask → Option ℕ
  | .request _ callback => some callback
  | _ => none

/-- The callback that a call of the program hands over. -/
def ClientLabel.callback? : ClientLabel → Option ℕ
  | .asyncRequest _ callback => some callback
  | _ => none

namespace Client

/-- The calls of callbacks, also those that are only queued. -/
def completions (c : Client) : List (Completion ℕ) :=
  c.events.filterMap ClientEvent.completion? ++ c.dispatcher.filterMap ClientTask.completion?

/-- The requests that are not sent yet. -/
def unsent (c : Client) : List ℕ := c.ioCtx.filterMap IoTask.callback?

/-- How often a callback was called or will be. -/
def account (c : Client) (callback : ℕ) : ℕ :=
  c.unsent.count callback + c.requestManager.callbacks.count callback +
    (c.completions.map (·.callback)).count callback

/-- The accounts of a state, for the callbacks that were handed over. -/
structure RequestInv (requested : List ℕ) (c : Client) : Prop where
  /-- the pending requests -/
  manager : c.requestManager.Inv
  /-- every callback is somewhere -/
  account : ∀ callback, c.account callback = requested.count callback
  /-- ids are given out for requests only -/
  bound : c.requestManager.nextRequestId.toNat + c.unsent.length ≤ requested.length
  /-- requests are pending only while there is a peer -/
  peer : c.peer = none → c.requestManager.callbacks = []
  /-- a callback is called with data or with an error -/
  results : ∀ completion ∈ c.completions,
    completion.errorCode = none ↔ completion.data.isSome = true

variable {requested : List ℕ} {c : Client}

/-- Closures that carry no callback. -/
theorem RequestInv.enqueue (h : c.RequestInv requested) {tasks : List ClientTask}
    (hnew : tasks.filterMap ClientTask.completion? = []) :
    (c.enqueue tasks).RequestInv requested := by
  have hsame : (c.enqueue tasks).completions = c.completions := by
    simp [completions, Client.enqueue, hnew]
  refine ⟨h.manager, fun x => ?_, h.bound, h.peer, ?_⟩
  · rw [Client.account, hsame]
    exact h.account x
  · rw [hsame]
    exact h.results

/-- Closures that carry no request. -/
theorem RequestInv.post (h : c.RequestInv requested) {tasks : List IoTask}
    (hnew : tasks.filterMap IoTask.callback? = []) : (c.post tasks).RequestInv requested := by
  have hsame : (c.post tasks).unsent = c.unsent := by
    simp [unsent, Client.post, hnew]
  refine ⟨h.manager, fun x => ?_, ?_, h.peer, h.results⟩
  · rw [Client.account, hsame]
    exact h.account x
  · rw [hsame]
    exact h.bound

/-- A step of the manager that hands over what it does not keep. -/
theorem RequestInv.complete (h : c.RequestInv requested)
    {result : RequestManager ℕ × List (Completion ℕ)} (hmanager : result.1.Inv)
    (hnext : result.1.nextRequestId = c.requestManager.nextRequestId)
    (hperm : c.requestManager.callbacks.Perm (result.2.map (·.callback) ++ result.1.callbacks))
    (hresults : ∀ completion ∈ result.2,
      completion.errorCode = none ↔ completion.data.isSome = true) :
    (c.complete result).RequestInv requested := by
  have hcompletions : (c.complete result).completions = c.completions ++ result.2 := by
    simp only [completions, Client.complete, Client.enqueue, List.filterMap_append,
      List.append_assoc, List.filterMap_map]
    congr 2
    exact List.filterMap_some
  refine ⟨hmanager, fun x => ?_, ?_, fun hp => ?_, ?_⟩
  · have hcount := hperm.count_eq x
    have haccount := h.account x
    rw [Client.account] at haccount
    rw [Client.account, hcompletions, List.map_append, List.count_append, ← haccount, hcount,
      List.count_append]
    simp only [unsent, Client.complete, Client.enqueue]
    omega
  · have hbound := h.bound
    rw [← hnext] at hbound
    exact hbound
  · rw [h.peer hp] at hperm
    exact (List.append_eq_nil_iff.mp hperm.nil_eq.symm).2
  · rw [hcompletions]
    intro completion hm
    rcases List.mem_append.mp hm with hm | hm
    · exact h.results completion hm
    · exact hresults completion hm

/-- All pending requests are completed with an error. -/
theorem RequestInv.completeAll (h : c.RequestInv requested) (errorCode : ErrorCode) :
    (c.complete (c.requestManager.completeAll errorCode)).RequestInv requested := by
  obtain ⟨hinv, hempty, hall⟩ := RequestManager.inv_completeAll c.requestManager errorCode
  refine h.complete hinv rfl ?_ ?_
  · rw [hempty, hall, List.append_nil]
  · intro completion hm
    obtain ⟨request, -, rfl⟩ := List.mem_map.mp hm
    exact ⟨fun he => absurd he (Option.some_ne_none errorCode), fun hd => Bool.noConfusion hd⟩

/-- One request is completed, if it is pending. -/
theorem RequestInv.completeOne (h : c.RequestInv requested) {m : RequestManager ℕ}
    (hm : m.Inv) (hcallbacks : m.callbacks = c.requestManager.callbacks)
    (hnext : m.nextRequestId = c.requestManager.nextRequestId) (id : UInt64)
    {errorCode : Option ErrorCode} {data : Option Bytes}
    (hresult : errorCode = none ↔ data.isSome = true) :
    (c.complete (m.complete id errorCode data)).RequestInv requested := by
  obtain ⟨hinv, hperm⟩ := hm.complete id errorCode data
  refine h.complete hinv ?_ (hcallbacks ▸ hperm) ?_
  · rw [← hnext, RequestManager.complete]
    split <;> rfl
  · intro completion hmem
    rw [RequestManager.complete] at hmem
    split at hmem
    next => exact absurd hmem List.not_mem_nil
    next =>
      rw [List.mem_singleton.mp hmem]
      exact hresult

/-- Other members do not matter; the peer may go when no request is pending, or come. -/
theorem RequestInv.congr (h : c.RequestInv requested) {d : Client}
    (hmanager : d.requestManager = c.requestManager) (hunsent : d.unsent = c.unsent)
    (hcompletions : d.completions = c.completions)
    (hpeer : d.peer = none → c.peer = none ∨ c.requestManager.callbacks = []) :
    d.RequestInv requested := by
  refine ⟨hmanager ▸ h.manager, fun x => ?_, ?_, fun hp => ?_, hcompletions ▸ h.results⟩
  · rw [Client.account, hmanager, hunsent, hcompletions]
    exact h.account x
  · rw [hmanager, hunsent]
    exact h.bound
  · rw [hmanager]
    exact (hpeer hp).elim h.peer id

/-- The requests of a peer that ends are completed. -/
theorem RequestInv.closePeer (h : c.RequestInv requested) (errorCode : ErrorCode) :
    (c.closePeer errorCode).1.RequestInv requested := by
  rw [Client.closePeer]
  split
  next => exact h
  next peer hpeer =>
    have hall : ((c.complete (c.requestManager.completeAll errorCode)).post
        [.peer peer .close]).RequestInv requested := (h.completeAll errorCode).post rfl
    exact hall.congr rfl rfl rfl fun _ => .inr rfl

/-- A reconnect has nothing to do with requests. -/
theorem RequestInv.scheduleReconnect (h : c.RequestInv requested) :
    c.scheduleReconnect.RequestInv requested := by
  rw [Client.scheduleReconnect]
  split
  next => exact h
  next => exact h.enqueue rfl

/-- A request that timed out may end the peer. -/
theorem RequestInv.timeoutCallback (h : c.RequestInv requested) :
    c.timeoutCallback.RequestInv requested := by
  rw [Client.timeoutCallback]
  split
  next =>
    dsimp only
    split
    next => exact (h.closePeer _).enqueue rfl
    next => exact h.closePeer _
  next => exact h

/-- The timer of a request completes it. -/
theorem RequestInv.requestTimer (h : c.RequestInv requested) (id : UInt64) :
    (c.requestTimer id).RequestInv requested := by
  refine RequestInv.timeoutCallback (h.completeOne
    (m := { c.requestManager with timers := c.requestManager.timers.erase id }) ?_ rfl rfl id ?_)
  · exact ⟨h.manager.nodup, h.manager.le⟩
  · exact ⟨fun he => absurd he (Option.some_ne_none _), fun hd => Bool.noConfusion hd⟩

/-- A peer tells of a response, but completes nothing. -/
theorem RequestInv.stepPeer (h : c.RequestInv requested) {index : ℕ} {label : PeerLabel}
    {d : Client} (hstep : c.stepPeer index label = some d) : d.RequestInv requested := by
  rw [Client.stepPeer] at hstep
  split at hstep
  next => cases hstep
  next p =>
    obtain ⟨q, -, rfl⟩ := Option.map_eq_some_iff.mp hstep
    have hset : { c with peers := c.peers.set index q }.RequestInv requested :=
      h.congr rfl rfl rfl .inl
    refine hset.enqueue ?_
    rw [List.filterMap_map, List.filterMap_eq_nil_iff]
    exact fun _ _ => rfl

/-- A response or an error completes requests, each once. -/
theorem RequestInv.handleSignal (h : c.RequestInv requested) (peer : ℕ) (signal : Signal) :
    (c.handleSignal peer signal).RequestInv requested := by
  unfold Client.handleSignal
  split
  next => exact h
  next =>
    cases signal with
    | ready => exact h
    | received buffer => exact h.enqueue rfl
    | requestReceived id buffer => exact h.enqueue rfl
    | responseReceived id buffer =>
      exact h.completeOne h.manager rfl rfl id ⟨fun _ => rfl, fun _ => rfl⟩
    | healthCheckResponseReceived => exact h
    | errorOccurred errorCode => exact (h.completeAll errorCode).enqueue rfl
    | closed =>
      have hall := h.completeAll .connectionReset
      have hnone : { c.complete (c.requestManager.completeAll .connectionReset) with
          peer := none }.RequestInv requested := hall.congr rfl rfl rfl fun _ => .inr rfl
      exact hnone.enqueue rfl

/-- A new peer has no requests. -/
theorem RequestInv.handleConnectedSocket (h : c.RequestInv requested) (socket : ℕ)
    (verified : Bool) : (c.handleConnectedSocket socket verified).RequestInv requested := by
  rw [Client.handleConnectedSocket]
  split
  next => exact h
  next =>
    have hsocket : { c with connectingSocket := none }.RequestInv requested :=
      h.congr rfl rfl rfl .inl
    dsimp only
    split
    next => exact hsocket
    next =>
      split
      next => exact hsocket.enqueue rfl
      next =>
        have hpeer : { c with
            connectingSocket := none, peers := c.peers ++ [Peer.init c.options.common]
            peer := some c.peers.length }.RequestInv requested :=
          h.congr rfl rfl rfl fun hn => absurd hn (Option.some_ne_none _)
        exact hpeer.post rfl

/-- A request is sent: its callback is pending under a new id. -/
theorem RequestInv.sendRequest {d : Client} (h : d.RequestInv requested) {peer : ℕ}
    (hpeer : d.peer = some peer) {data : Bytes} {callback : ℕ} {tasks : List IoTask}
    (hqueue : d.ioCtx = .request data callback :: tasks) (hbound : requested.length < 2 ^ 64) :
    ({ d with ioCtx := tasks }.sendRequest peer data callback).RequestInv requested := by
  have hunsent : d.unsent = callback :: { d with ioCtx := tasks }.unsent := by
    rw [unsent, hqueue]
    rfl
  have hlength := h.bound
  rw [hunsent, List.length_cons] at hlength
  obtain ⟨hinv, hcallbacks, hnext⟩ := h.manager.add (by omega) none callback
  have hadded : { d with
      ioCtx := tasks, requestManager := (d.requestManager.add none callback).1
      }.RequestInv requested := by
    refine ⟨hinv, fun x => ?_, ?_, fun hn => ?_, h.results⟩
    · have haccount := h.account x
      rw [Client.account, hunsent, List.count_cons] at haccount
      rw [Client.account, hcallbacks, List.count_append, List.count_singleton, ← haccount]
      simp only [unsent, completions]
      omega
    · dsimp only
      rw [hnext]
      simp only [unsent] at hlength ⊢
      omega
    · exact absurd (hpeer.symm.trans hn) (Option.some_ne_none peer)
  exact hadded.post rfl

/-- A request that cannot be sent: its callback is called with an error. -/
theorem RequestInv.notConnected {d : Client} (h : d.RequestInv requested) {data : Bytes}
    {callback : ℕ} {tasks : List IoTask} (hqueue : d.ioCtx = .request data callback :: tasks) :
    ({ d with ioCtx := tasks }.enqueue [.event (.callback
      { callback, errorCode := some .notConnected, data := none })]).RequestInv requested := by
  have hunsent : d.unsent = callback :: { d with ioCtx := tasks }.unsent := by
    rw [unsent, hqueue]
    rfl
  have hlength := h.bound
  rw [hunsent, List.length_cons] at hlength
  have hcompletions : ({ d with ioCtx := tasks }.enqueue [.event (.callback
      { callback, errorCode := some .notConnected, data := none })]).completions =
      d.completions ++ [{ callback, errorCode := some .notConnected, data := none }] := by
    simp [completions, Client.enqueue, ClientTask.completion?, ClientEvent.completion?]
  refine ⟨h.manager, fun x => ?_, ?_, h.peer, ?_⟩
  · have haccount := h.account x
    rw [Client.account, hunsent, List.count_cons] at haccount
    rw [Client.account, hcompletions, List.map_append, List.count_append, ← haccount]
    simp only [unsent, Client.enqueue, List.map_cons, List.map_nil, List.count_singleton]
    omega
  · simp only [unsent, Client.enqueue] at hlength ⊢
    omega
  · rw [hcompletions]
    intro completion hm
    rcases List.mem_append.mp hm with hm | hm
    · exact h.results completion hm
    · rw [List.mem_singleton.mp hm]
      exact ⟨fun he => absurd he (Option.some_ne_none _), fun hd => Bool.noConfusion hd⟩

/-- A closure that calls no callback. -/
theorem RequestInv.dispatched (h : c.RequestInv requested) {task : ClientTask}
    {tasks : List ClientTask} (hqueue : c.dispatcher = task :: tasks)
    (htask : task.completion? = none) : { c with dispatcher := tasks }.RequestInv requested := by
  refine h.congr rfl rfl ?_ .inl
  rw [completions, completions, hqueue, List.filterMap_cons_none htask]

/-- The program is told what was queued. -/
theorem RequestInv.told (h : c.RequestInv requested) {e : ClientEvent} {tasks : List ClientTask}
    (hqueue : c.dispatcher = .event e :: tasks) :
    { c with dispatcher := tasks, events := c.events ++ [e] }.RequestInv requested := by
  refine h.congr rfl rfl ?_ .inl
  have htask : (ClientTask.event e).completion? = e.completion? := rfl
  simp only [completions, hqueue, List.filterMap_append, List.filterMap_cons, List.filterMap_nil,
    htask]
  cases e.completion? <;> simp

/-- A closure on the dispatcher calls a callback at most once. -/
theorem RequestInv.runTask (h : c.RequestInv requested) {task : ClientTask}
    {tasks : List ClientTask} (hqueue : c.dispatcher = task :: tasks) (verified : Bool) :
    ({ c with dispatcher := tasks }.runTask verified task).RequestInv requested := by
  cases task with
  | start =>
    have hrun := h.dispatched hqueue rfl
    exact (hrun.congr (d := { c with dispatcher := tasks, stopped := false }) rfl rfl rfl
      .inl).post rfl
  | stop =>
    have hrun := h.dispatched hqueue rfl
    exact ((hrun.congr (d := { c with dispatcher := tasks, stopped := true }) rfl rfl rfl
      .inl).enqueue rfl).post rfl
  | invalidateConnection => exact ((h.dispatched hqueue rfl).enqueue rfl).post rfl
  | cancel => exact (h.dispatched hqueue rfl).congr rfl rfl rfl .inl
  | debounce => exact (h.dispatched hqueue rfl).congr rfl rfl rfl .inl
  | verify socket => exact (h.dispatched hqueue rfl).post rfl
  | scheduleReconnect => exact (h.dispatched hqueue rfl).scheduleReconnect
  | peerSignal peer signal =>
    rw [Client.runTask]
    split
    next => exact (h.dispatched hqueue rfl).post rfl
    next => exact h.dispatched hqueue rfl
  | event e =>
    rw [Client.runTask]
    split
    next => exact (h.told hqueue).scheduleReconnect
    next => exact h.told hqueue

/-- A closure that sends no request. -/
theorem RequestInv.ran (h : c.RequestInv requested) {task : IoTask} {tasks : List IoTask}
    (hqueue : c.ioCtx = task :: tasks) (htask : task.callback? = none) :
    { c with ioCtx := tasks }.RequestInv requested := by
  refine h.congr rfl ?_ rfl .inl
  rw [unsent, unsent, hqueue, List.filterMap_cons_none htask]

/-- A closure of `io_ctx_` completes requests, or adds one. -/
theorem RequestInv.runIoTask (h : c.RequestInv requested) (hbound : requested.length < 2 ^ 64)
    {task : IoTask} {tasks : List IoTask} (hqueue : c.ioCtx = task :: tasks) :
    ({ c with ioCtx := tasks }.runIoTask task).RequestInv requested := by
  have hclosing : ∀ d : Client, d.RequestInv requested →
      d.closeConnectingSocket.RequestInv requested := fun d hd => hd.congr rfl rfl rfl .inl
  cases task with
  | connect =>
    have hrun := h.ran hqueue rfl
    rw [Client.runIoTask, Client.connect]
    split
    next => exact hrun
    next => exact hrun.congr rfl rfl rfl .inl
  | stop => exact (hclosing _ (h.ran hqueue rfl)).closePeer _
  | invalidateConnection => exact ((hclosing _ (h.ran hqueue rfl)).closePeer _).enqueue rfl
  | handleConnectedSocket socket verified =>
    exact (h.ran hqueue rfl).handleConnectedSocket socket verified
  | peer index label =>
    have hrun := h.ran hqueue rfl
    rw [Client.runIoTask]
    cases hstep : { c with ioCtx := tasks }.stepPeer index label with
    | none => exact hrun
    | some d => exact hrun.stepPeer hstep
  | signal peer signal => exact (h.ran hqueue rfl).handleSignal peer signal
  | connected peer =>
    rw [Client.runIoTask]
    split
    next => exact (h.ran hqueue rfl).enqueue rfl
    next => exact h.ran hqueue rfl
  | send data =>
    rw [Client.runIoTask]
    split
    next => exact h.ran hqueue rfl
    next => exact (h.ran hqueue rfl).post rfl
  | respond requestId data =>
    rw [Client.runIoTask]
    split
    next => exact h.ran hqueue rfl
    next => exact (h.ran hqueue rfl).post rfl
  | request data callback =>
    rw [Client.runIoTask]
    split
    next => exact h.notConnected hqueue
    next peer hpeer => exact h.sendRequest hpeer hqueue hbound

/-- The program hands over a callback. -/
theorem RequestInv.asyncRequest (h : c.RequestInv requested) (data : Bytes) (callback : ℕ) :
    (c.post [.request data callback]).RequestInv (requested ++ [callback]) := by
  have hunsent : (c.post [.request data callback]).unsent = c.unsent ++ [callback] := by
    simp [unsent, Client.post, IoTask.callback?]
  refine ⟨h.manager, fun x => ?_, ?_, h.peer, h.results⟩
  · have haccount := h.account x
    rw [Client.account] at haccount
    rw [Client.account, hunsent, List.count_append, List.count_append, ← haccount]
    simp only [Client.post, completions]
    omega
  · have hlength := h.bound
    rw [hunsent, List.length_append, List.length_append]
    simp only [Client.post]
    omega

/-- One step keeps the invariant. -/
theorem RequestInv.step (h : c.RequestInv requested) (hbound : requested.length < 2 ^ 64)
    {label : ClientLabel} {d : Client} (hstep : c.step label = some d) :
    d.RequestInv (requested ++ label.callback?.toList) := by
  have hother : d.RequestInv requested → label.callback? = none →
      d.RequestInv (requested ++ label.callback?.toList) := by
    intro hd hnone
    rw [hnone, Option.toList_none, List.append_nil]
    exact hd
  cases label with
  | asyncStart => exact hother (Option.some.inj hstep ▸ h.enqueue rfl) rfl
  | asyncStop => exact hother (Option.some.inj hstep ▸ h.enqueue rfl) rfl
  | asyncInvalidateConnection => exact hother (Option.some.inj hstep ▸ h.enqueue rfl) rfl
  | asyncSend data => exact hother (Option.some.inj hstep ▸ h.post rfl) rfl
  | asyncRespond requestId data => exact hother (Option.some.inj hstep ▸ h.post rfl) rfl
  | asyncRequest data callback => exact Option.some.inj hstep ▸ h.asyncRequest data callback
  | dispatch verified =>
    rw [Client.step] at hstep
    split at hstep
    next => cases hstep
    next task tasks hqueue => exact hother (Option.some.inj hstep ▸ h.runTask hqueue verified) rfl
  | reconnectTimer index =>
    rw [Client.step] at hstep
    split at hstep
    next => cases hstep
    next generation =>
      have herased : { c with delayed := c.delayed.eraseIdx index }.RequestInv requested :=
        h.congr rfl rfl rfl .inl
      refine hother (Option.some.inj hstep ▸ ?_) rfl
      rw [Client.runDelayed]
      split
      next => exact herased
      next =>
        split
        next => exact herased
        next => exact herased.post rfl
  | io =>
    rw [Client.step] at hstep
    split at hstep
    next => cases hstep
    next task tasks hqueue => exact hother (Option.some.inj hstep ▸ h.runIoTask hbound hqueue) rfl
  | connectDone socket errorCode =>
    rw [Client.step] at hstep
    split at hstep
    next =>
      have herased : { c with connects := c.connects.erase socket }.RequestInv requested :=
        h.congr rfl rfl rfl .inl
      refine hother (Option.some.inj hstep ▸ ?_) rfl
      unfold Client.connectDone
      split
      next => exact herased
      next =>
        split
        next =>
          have hnone : { c with
              connects := c.connects.erase socket, connectingSocket := none
              }.RequestInv requested := h.congr rfl rfl rfl .inl
          exact hnone.enqueue rfl
        next => exact herased.enqueue rfl
    next => cases hstep
  | peer index label =>
    rw [Client.step] at hstep
    split at hstep
    next => exact hother (h.stepPeer hstep) rfl
    next => cases hstep
  | requestTimer id =>
    rw [Client.step] at hstep
    split at hstep
    next => exact hother (Option.some.inj hstep ▸ h.requestTimer id) rfl
    next => cases hstep
  | destroyPeer peer =>
    rw [Client.step] at hstep
    split at hstep
    next =>
      refine hother (Option.some.inj hstep ▸ h.congr rfl rfl ?_ .inl) rfl
      -- the closures of a peer call no callback
      rw [completions, completions, List.filterMap_filter]
      congr 1
      refine List.filterMap_congr fun task _ => ?_
      cases task <;> simp [ClientTask.ownedBy, ClientTask.completion?]
    next => cases hstep

/-! ## Every run -/

/-- So does every run. -/
theorem requestInv_of_run (options : ClientOptions) (labels : List ClientLabel) {c : Client}
    (h : Transition.run Client.step (init options) labels = some c)
    (hbound : (labels.filterMap ClientLabel.callback?).length < 2 ^ 64) :
    c.RequestInv (labels.filterMap ClientLabel.callback?) := by
  refine Transition.run_history
    (P := fun labels c => (labels.filterMap ClientLabel.callback?).length < 2 ^ 64 →
      c.RequestInv (labels.filterMap ClientLabel.callback?)) ?_ ?_ h hbound
  · intro _
    exact ⟨RequestManager.inv_empty, fun _ => rfl, Nat.zero_le _, fun _ => rfl,
      fun _ hm => absurd hm List.not_mem_nil⟩
  · intro as u label t hu hstep hlength
    have hsnoc : (as ++ [label]).filterMap ClientLabel.callback? =
        as.filterMap ClientLabel.callback? ++ label.callback?.toList := by
      rw [List.filterMap_append, List.filterMap_cons]
      cases label.callback? <;> rfl
    rw [hsnoc] at hlength ⊢
    rw [List.length_append] at hlength
    exact (hu (by omega)).step (by omega) hstep

/-- In every run of the client with fewer than 2⁶⁴ requests, each callback was called, or is still
to be called, exactly as often as the program handed it over: as the callback of a request that is
not sent yet, of a pending request, or in the dispatcher's queue. No request is pending without a
peer, and a callback is called with data exactly if it is called without an error. -/
theorem callbacks_called_once (options : ClientOptions) (labels : List ClientLabel) {c : Client}
    (h : Transition.run Client.step (init options) labels = some c)
    (hbound : (labels.filterMap ClientLabel.callback?).length < 2 ^ 64) :
    (∀ callback,
      ((c.events.filterMap ClientEvent.completion?).map (·.callback)).count callback +
        (((c.dispatcher.filterMap ClientTask.completion?).map (·.callback)).count callback +
          c.requestManager.callbacks.count callback + c.unsent.count callback) =
        (labels.filterMap ClientLabel.callback?).count callback) ∧
    (c.peer = none → c.requestManager.callbacks = []) ∧
    (∀ completion, .callback completion ∈ c.events →
      (completion.errorCode = none ↔ completion.data.isSome = true)) := by
  obtain ⟨-, haccount, -, hpeer, hresults⟩ := requestInv_of_run options labels h hbound
  refine ⟨fun callback => ?_, hpeer, fun completion hm => hresults completion ?_⟩
  · rw [← haccount callback, Client.account, completions, List.map_append, List.count_append]
    omega
  · exact List.mem_append_left _ (List.mem_filterMap.mpr ⟨_, hm, rfl⟩)

/-- The callback of the request was called once. -/
theorem callbacks_called_once_after_request :
    ∃ c, Transition.run Client.step (init ⟨⟨1024, 1024⟩, true⟩) requestRun = some c ∧
      ((c.events.filterMap ClientEvent.completion?).map (·.callback)).count 5 = 1 := by
  refine ⟨_, rfl, ?_⟩
  exact (callbacks_called_once ⟨⟨1024, 1024⟩, true⟩ requestRun rfl (by decide)).1 5

end Client

end VirtualHidDevice.UnixDomainStream
