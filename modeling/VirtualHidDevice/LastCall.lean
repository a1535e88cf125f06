import VirtualHidDevice.Session

/-!
# The last call wins

What a device is set to in the daemon follows the calls of the client: each call
travels as a request, becomes a closure of the entry, and the closure sets the
device. The client leaves an initialization out when its cache says that the
device is ready; right after a `terminate` the cache still says so.

* `Setting` — what a device is set to, and what a call asks for.
* `Peer.outlook` — the current setting, followed by those that are on their way;
  `Peer.step_outlook` — a step of the daemon keeps the list, or drops its head.
* `Session.Agreed` — the last setting on its way is what the last call asked for.
-/

namespace VirtualHidDevice

open Dispatcher (enqueued)

/-! ## Settings -/

/-- What a device can be set to. -/
inductive Setting where
  /-- disabled -/
  | off
  /-- the keyboard, enabled with parameters -/
  | keyboard (parameters : Parameters)
  /-- the pointing device, enabled -/
  | pointing
deriving DecidableEq, Repr

/-- What a device of the entry is set to. -/
def ClientEntry.setting (e : ClientEntry) : DeviceKind → Setting
  | .keyboard => if (e.slots .keyboard).enabled then .keyboard e.keyboardParameters else .off
  | .pointing => if (e.slots .pointing).enabled then .pointing else .off

/-- What a closure of the entry sets a device to. -/
def EntryTask.setting : DeviceKind → EntryTask → Option Setting
  | .keyboard, .initializeKeyboard p => some (.keyboard p)
  | .keyboard, .terminateKeyboard => some .off
  | .pointing, .initializePointing => some .pointing
  | .pointing, .terminatePointing => some .off
  | _, _ => none

/-- What a call on the entry sets a device to. -/
def EntryCall.setting : DeviceKind → EntryCall → Option Setting
  | .keyboard, .initializeKeyboard p => some (.keyboard p)
  | .keyboard, .terminateKeyboard => some .off
  | .pointing, .initializePointing => some .pointing
  | .pointing, .terminatePointing => some .off
  | _, _ => none

/-- What a call of the program asks a device to be set to. -/
def ClientCall.setting : DeviceKind → ClientCall → Option Setting
  | .keyboard, .keyboardInitialize p _ => some (.keyboard p)
  | .keyboard, .keyboardTerminate => some .off
  | .pointing, .pointingInitialize _ => some .pointing
  | .pointing, .pointingTerminate => some .off
  | _, _ => none

/-- Storing a new state of a client keeps the settings. -/
theorem ClientEntry.setting_setClient (e : ClientEntry) (role : Role) (c : IoServiceClient)
    (kind : DeviceKind) : (e.setClient c role).setting kind = e.setting kind := by
  cases role with
  | noVirtualDevices => cases kind <;> rfl
  | device k => cases k <;> cases kind <;> simp [setting, setClient]

/-- A call on the entry becomes the closure with the same setting. -/
theorem entryCallTasks_setting (kind : DeviceKind) (e : ClientEntry) (call : EntryCall) :
    ((Run.entryCallTasks e call).filterMap Task.asEntry).filterMap (EntryTask.setting kind) =
      (call.setting kind).toList := by
  cases call with
  | reset k =>
    rcases hc : (e.slots k).client with _ | c <;>
      cases kind <;> simp [Run.entryCallTasks, hc, Task.asEntry, EntryCall.setting]
  | postReport k method buffer offset =>
    rcases hc : (e.slots k).client with _ | c <;>
      cases kind <;> simp [Run.entryCallTasks, hc, Task.asEntry, EntryCall.setting]
  | _ => cases kind <;> rfl

/-- A request becomes the closures with the settings that it asks for. -/
theorem requestTasks_setting (kind : DeviceKind) (e : ClientEntry) (buffer : Bytes) :
    ((Run.requestTasks e buffer).filterMap Task.asEntry).filterMap (EntryTask.setting kind) =
      (Run.requestCalls buffer).filterMap (EntryCall.setting kind) := by
  rw [Run.requestTasks_eq]
  induction Run.requestCalls buffer with
  | nil => rfl
  | cons call calls ih =>
    rw [List.flatMap_cons, List.filterMap_append, List.filterMap_append, ih,
      entryCallTasks_setting]
    rcases hs : call.setting kind with _ | x <;> simp [hs]

/-- A call of the program asks for what its request asks for. -/
theorem ClientCall.setting_entryCall (kind : DeviceKind) (call : ClientCall) :
    call.operation.entryCall.setting kind = call.setting kind := by
  cases call with
  | postReport r => cases kind <;> cases r <;> rfl
  | _ => cases kind <;> rfl

/-! ## The daemon follows its requests -/

namespace Peer

/-- The settings that are on their way to a device. -/
def pending (p : Peer) (kind : DeviceKind) : List Setting :=
  p.entryTasks.filterMap (EntryTask.setting kind) ++
    (p.requests.flatMap Run.requestCalls).filterMap (EntryCall.setting kind)

/-- What a device is set to now, and then. -/
def outlook (p : Peer) (kind : DeviceKind) : List Setting :=
  p.entry.setting kind :: p.pending kind

/-- The outlook depends on the settings, the requests and the entry's closures only. -/
theorem outlook_congr {p q : Peer} {kind : DeviceKind}
    (hentry : q.entry.setting kind = p.entry.setting kind)
    (hreq : q.requests = p.requests) (htasks : q.entryTasks = p.entryTasks) :
    q.outlook kind = p.outlook kind := by
  rw [outlook, outlook, pending, pending, hentry, hreq, htasks]

/-- A closure of the entry runs and sets the devices as it should. -/
theorem outlook_entryTask {p q : Peer} {task : EntryTask} {queue : List Task}
    (hq : p.queue = .entry task :: queue)
    (hset : ∀ kind, q.entry.setting kind = (task.setting kind).getD (p.entry.setting kind))
    (hreq : q.requests = queue.filterMap Task.asRequest)
    (htasks : q.entryTasks = queue.filterMap Task.asEntry) (kind : DeviceKind) :
    q.outlook kind = p.outlook kind ∨ p.outlook kind = p.entry.setting kind :: q.outlook kind := by
  have hp : p.pending kind = (task.setting kind).toList ++ q.pending kind := by
    rw [pending, pending, hreq, htasks, requests, entryTasks, hq]
    rcases hs : task.setting kind with _ | x <;>
      simp [List.filterMap_cons, Task.asEntry, Task.asRequest, hs]
  rw [outlook, outlook, hset, hp]
  rcases task.setting kind with _ | x
  · exact Or.inl rfl
  · exact Or.inr rfl

/-- The settings after the closures of the entry. -/
theorem setting_new (p : Peer) (index : ℕ) (parameters : Parameters) (kind k : DeviceKind) :
    (p.newKeyboard parameters).checkStatusChanged.entry.setting k =
        ((EntryTask.initializeKeyboard parameters).setting k).getD (p.entry.setting k) ∧
      p.newPointing.checkStatusChanged.entry.setting k =
        (EntryTask.initializePointing.setting k).getD (p.entry.setting k) ∧
      (p.switchedOff kind).checkStatusChanged.entry.setting k =
        (if k = kind then .off else p.entry.setting k) ∧
      (p.recreated index kind).entry.setting k = p.entry.setting k := by
  refine ⟨?_, ?_, ?_, ?_⟩
  · cases k <;> simp [ClientEntry.setting, newKeyboard, Run.setParameters, Run.setEnabled, fresh,
      EntryTask.setting]
  · cases k <;> simp [ClientEntry.setting, newPointing, Run.setEnabled, fresh, EntryTask.setting]
  · cases k <;> cases kind <;>
      simp [ClientEntry.setting, switchedOff, Run.setEnabled, fresh]
  · cases k <;> cases kind <;> simp [ClientEntry.setting, recreated]

/-- A step that leaves the settings alone, and changes closures of clients in the queue only. -/
theorem outlook_of_io {p q : Peer} {kind : DeviceKind} {queue tasks : List Task}
    (hset : q.entry.setting kind = p.entry.setting kind)
    (hp : p.queue = queue ∨ ∃ o io, p.queue = .io o io :: queue) (hq : q.queue = queue ++ tasks)
    (hio : ∀ t ∈ tasks, ∃ o io, t = .io o io) : q.outlook kind = p.outlook kind := by
  have hnone : tasks.filterMap Task.asRequest = [] ∧ tasks.filterMap Task.asEntry = [] := by
    refine ⟨List.filterMap_eq_nil_iff.mpr fun t ht => ?_,
      List.filterMap_eq_nil_iff.mpr fun t ht => ?_⟩
    · obtain ⟨o, io, rfl⟩ := hio t ht
      rfl
    · obtain ⟨o, io, rfl⟩ := hio t ht
      rfl
  refine outlook_congr hset ?_ ?_
  · rw [requests, requests, hq, List.filterMap_append, hnone.1, List.append_nil]
    rcases hp with rfl | ⟨o, io, hp⟩
    · rfl
    · rw [hp]
      rfl
  · rw [entryTasks, entryTasks, hq, List.filterMap_append, hnone.2, List.append_nil]
    rcases hp with rfl | ⟨o, io, hp⟩
    · rfl
    · rw [hp]
      rfl

/-- A step of the daemon keeps the outlook of a device, or brings the next setting
on its way into force. -/
theorem step_outlook {p q : Peer} {label : PeerLabel} (hlife : Lifecycle p.entry p.recreates)
    (hlabel : ∀ buffer, label ≠ .request buffer) (hstep : p.step label = some q)
    (kind : DeviceKind) :
    q.outlook kind = p.outlook kind ∨ p.outlook kind = p.entry.setting kind :: q.outlook kind := by
  have single : ∀ (o : ℕ) (io : IoTask), ∀ t ∈ [Task.io o io], ∃ o io, t = .io o io :=
    fun o io t ht => ⟨o, io, List.mem_singleton.mp ht⟩
  have checked : ∀ queue, (∀ k, (finish queue p.fresh.checkStatusChanged).entry.setting k =
        p.entry.setting k) ∧
      (finish queue p.fresh.checkStatusChanged).requests = queue.filterMap Task.asRequest ∧
      (finish queue p.fresh.checkStatusChanged).entryTasks = queue.filterMap Task.asEntry := by
    intro queue
    rw [requests, entryTasks, finish_checkStatusChanged_queue]
    refine ⟨fun k => ?_, rfl, rfl⟩
    cases k <;> simp [ClientEntry.setting, fresh]
  cases step_cases hlife hstep with
  | arrive buffer => exact absurd rfl (hlabel buffer)
  | event role e c hc => exact Or.inl (outlook_of_io rfl (Or.inl rfl) rfl (single _ _))
  | activated value e => exact Or.inl (outlook_of_io rfl (Or.inl rfl) rfl (single _ _))
  | poll tasks htasks =>
    refine Or.inl (outlook_of_io rfl (Or.inl rfl) rfl fun t ht => ?_)
    obtain ⟨k, c, -, rfl⟩ := htasks t ht
    exact ⟨_, _, rfl⟩
  | request answers buffer queue hq =>
    refine Or.inl ?_
    -- the settings of the request move from the requests to the closures of the entry
    have hq' : p.pending kind = (queue.filterMap Task.asEntry).filterMap (EntryTask.setting kind) ++
        ((buffer :: queue.filterMap Task.asRequest).flatMap Run.requestCalls).filterMap
          (EntryCall.setting kind) := by
      rw [pending, entryTasks, requests, hq]
      rfl
    rw [outlook, outlook, hq', pending, entryTasks, requests, List.filterMap_append,
      List.filterMap_append, List.filterMap_append, requestTasks_setting,
      Run.requestTasks_asRequest, List.append_nil, List.flatMap_cons, List.filterMap_append,
      List.append_assoc]
  | keep answers task queue hq htask =>
    have hfin := checked queue
    refine outlook_entryTask hq (fun k => (hfin.1 k).trans ?_) hfin.2.1 hfin.2.2 kind
    -- a device that has a client is enabled already
    have hsynced := fun k => (hlife k).synced
    rcases htask with rfl | ⟨rfl, hsome⟩ | ⟨rfl, hsome⟩
    · cases k <;> rfl
    · rw [hsynced] at hsome
      cases k with
      | keyboard => rfl
      | pointing => simp [ClientEntry.setting, EntryTask.setting, hsome]
    · rw [hsynced] at hsome
      cases k with
      | keyboard => simp [ClientEntry.setting, EntryTask.setting, hsome]
      | pointing => rfl
  | newKeyboard answers parameters queue hq hnew =>
    have hfin := (newKeyboard_creates p parameters).finish_requests queue
    exact outlook_entryTask hq (fun k => (setting_new p 0 parameters .keyboard k).1) hfin.1 hfin.2
      kind
  | newPointing answers queue hq hnone =>
    have hfin := (newPointing_creates hnone).finish_requests queue
    exact outlook_entryTask hq (fun k => (setting_new p 0 .init .pointing k).2.1) hfin.1 hfin.2
      kind
  | terminate answers k task queue hq htask =>
    have hfin := (switchedOff_removes p k).finish_requests queue
    refine outlook_entryTask hq (fun k' => ?_) hfin.1 hfin.2 kind
    refine (setting_new p 0 .init k k').2.2.1.trans ?_
    subst htask
    cases k <;> cases k' <;> rfl
  | stale answers objectId task queue hq hrole =>
    exact Or.inl (outlook_of_io rfl (Or.inr ⟨_, _, hq⟩) (List.append_nil _).symm
      (List.forall_mem_nil _))
  | stateChanged answers objectId role queue hq hrole =>
    have hfin := checked queue
    refine Or.inl (outlook_congr (hfin.1 kind) ?_ ?_)
    · rw [hfin.2.1, requests, hq]
      rfl
    · rw [hfin.2.2, entryTasks, hq]
      rfl
  | opened answers objectId kind queue hq hrole =>
    exact Or.inl (outlook_of_io rfl (Or.inr ⟨_, _, hq⟩) rfl (single _ _))
  | unheard answers objectId s queue hq hs =>
    exact Or.inl (outlook_of_io rfl (Or.inr ⟨_, _, hq⟩) (List.append_nil _).symm
      (List.forall_mem_nil _))
  | ioTask answers objectId task role c queue hq hrole hc hid htask =>
    refine Or.inl (outlook_of_io ?_ (Or.inr ⟨_, _, hq⟩) rfl fun t ht => ?_)
    · exact ClientEntry.setting_setClient p.entry role _ kind
    · obtain ⟨io, -, rfl⟩ := List.mem_map.mp ht
      exact ⟨_, _, rfl⟩
  | idle index _ _ _ => exact Or.inl rfl
  | recreate index t ht hgen hen hready =>
    have hfin := (recreated_creates p index t.kind).finish_requests p.queue
    exact Or.inl (outlook_congr (setting_new p index .init t.kind kind).2.2.2 hfin.1 hfin.2)

end Peer

/-! ## The session follows the calls -/

namespace Session

/-- What the last call about a device asked for. -/
def asked (s : Session) (kind : DeviceKind) : Option Setting :=
  (s.calls.filterMap (ClientCall.setting kind)).getLast?

/-- What a device is set to now, and then, with all requests on their way. -/
def outlook (s : Session) (kind : DeviceKind) : List Setting :=
  s.peer.outlook kind ++
    (s.toClientEnd.requests.flatMap Run.requestCalls).filterMap (EntryCall.setting kind)

/-- No initialization is left out while the last call about the device was to
terminate it. -/
def Heard (s : Session) : SessionLabel → Prop
  | .call (.keyboardInitialize p force) =>
    s.client.suppresses (.keyboardInitialize p force) = true → s.asked .keyboard ≠ some .off
  | .call (.pointingInitialize force) =>
    s.client.suppresses (.pointingInitialize force) = true → s.asked .pointing ≠ some .off
  | _ => True

instance (s : Session) (label : SessionLabel) : Decidable (s.Heard label) :=
  match label with
  | .call (.keyboardInitialize _ _) => inferInstanceAs (Decidable (_ → _))
  | .call (.pointingInitialize _) => inferInstanceAs (Decidable (_ → _))
  | .call .keyboardTerminate | .call .keyboardReset | .call .pointingTerminate
  | .call .pointingReset | .call (.postReport _) | .clientRun | .deliverRequest
  | .deliverMessage | .daemon _ | .close => isTrue trivial

/-- A message that does not make the client believe that the pointing device is ready. -/
def Harmless (buffer : Bytes) : Prop :=
  ∀ c : ServiceClient, (c.handle buffer).lastReady .pointing = some true →
    c.lastReady .pointing = some true

/-- Nobody has asked for the pointing device, and nobody believes that it is ready. -/
structure Untouched (s : Session) : Prop where
  /-- it is off and stays off -/
  off : ∀ x ∈ s.outlook .pointing, x = .off
  /-- no message has said otherwise -/
  sent : ∀ m ∈ s.peer.sent, Harmless m.buffer
  /-- nor does one in the client's queue -/
  queued : ∀ buffer, .message buffer ∈ s.clientQueue → Harmless buffer
  /-- nor does the cache -/
  cache : s.client.lastReady .pointing ≠ some true

/-- The client and the daemon agree on what the calls have asked for. -/
structure Agreed (s : Session) : Prop where
  /-- the daemon is in order -/
  life : Lifecycle s.peer.entry s.peer.recreates
  /-- the last setting on its way is the one of the last call -/
  last : ∀ kind, (s.outlook kind).getLast? = some ((s.asked kind).getD .off)
  /-- cached parameters are those of the last initialization -/
  parameters : ∀ p q, s.asked .keyboard = some (.keyboard p) →
    s.client.lastKeyboardParameters = some q → q = p
  /-- which has been called then -/
  known : ∀ q, s.client.lastKeyboardParameters = some q → s.asked .keyboard ≠ none
  /-- the pointing device, until it is asked for -/
  untouched : s.asked .pointing = none → s.Untouched

/-! ### Steps -/

/-- A call that queues its request. -/
theorem outlook_call {s t : Session} {call : ClientCall} (hpeer : t.peer = s.peer)
    (hto : t.toDaemon = s.toDaemon)
    (hqueue : t.clientQueue = s.clientQueue ++ [.request call.operation.requestBuffer])
    (kind : DeviceKind) : t.outlook kind = s.outlook kind ++ (call.setting kind).toList := by
  have hreq : t.toClientEnd.requests =
      s.toClientEnd.requests ++ [call.operation.requestBuffer] := by
    simp [ClientEnd.requests, hto, hqueue, ClientTask.asRequest]
  rw [outlook, hreq, List.flatMap_append, List.filterMap_append, hpeer, ← List.append_assoc,
    outlook, List.flatMap_singleton, Run.requestCalls_requestBuffer]
  congr 1
  rw [List.filterMap_cons, ClientCall.setting_entryCall]
  rcases call.setting kind with _ | x <;> rfl

/-- Any other step keeps the outlook, or drops its head. -/
theorem step_outlook {s t : Session} {label : SessionLabel}
    (hlife : Lifecycle s.peer.entry s.peer.recreates) (hlabel : ∀ call, label ≠ .call call)
    (hcase : StepCase s label t) (hup : t.up = true) (kind : DeviceKind) :
    t.outlook kind = s.outlook kind ∨ ∃ x, s.outlook kind = x :: t.outlook kind := by
  have same : ∀ t : Session, t.peer = s.peer → t.toClientEnd.requests = s.toClientEnd.requests →
      t.outlook kind = s.outlook kind := by
    intro t hpeer hreq
    rw [outlook, outlook, hpeer, hreq]
  cases hcase with
  | suppressed request h => exact absurd rfl (hlabel request)
  | call request h => exact absurd rfl (hlabel request)
  | send buffer queue h =>
    refine Or.inl (same _ rfl ?_)
    simp [ClientEnd.requests, h, ClientTask.asRequest]
  | handle buffer queue h =>
    refine Or.inl (same _ rfl ?_)
    simp [ClientEnd.requests, h, ClientTask.asRequest, List.filterMap_cons]
  | closed queue h =>
    refine Or.inl (same _ rfl ?_)
    simp [ClientEnd.requests, h, ClientTask.asRequest, List.filterMap_cons]
  | deliverRequest buffer rest _ h =>
    refine Or.inl ?_
    simp [outlook, Peer.outlook, Peer.pending, Peer.requests, Peer.entryTasks, ClientEnd.requests,
      h, Task.asRequest, Task.asEntry, List.filterMap_cons]
  | deliverMessage message h =>
    refine Or.inl (same _ rfl ?_)
    simp [ClientEnd.requests, ClientTask.asRequest, List.filterMap_cons]
  | daemon label p _ hreq h =>
    rcases Peer.step_outlook hlife hreq (Peer.step_of_dispatch h) kind with heq | heq
    · exact Or.inl (by rw [outlook, outlook, heq])
    · exact Or.inr ⟨_, by rw [outlook, heq]; rfl⟩
  | close _ => cases hup

/-- What is asked for after a call. -/
theorem asked_call {s t : Session} {call : ClientCall} (h : t.calls = s.calls ++ [call])
    (kind : DeviceKind) : t.asked kind = (call.setting kind).or (s.asked kind) := by
  rw [asked, asked, h, List.filterMap_append, List.getLast?_append]
  congr 1
  rcases hs : call.setting kind with _ | x <;> simp [hs]

/-- What is asked for was the setting of some call. -/
theorem exists_call_of_asked {s : Session} {kind : DeviceKind} {x : Setting}
    (h : s.asked kind = some x) : ∃ call ∈ s.calls, call.setting kind = some x := by
  obtain ⟨call, hcall, hx⟩ := List.mem_filterMap.mp (List.mem_of_getLast? h)
  exact ⟨call, hcall, hx⟩

/-- Only calls change what is asked for. -/
theorem asked_of_not_call {s t : Session} {label : SessionLabel} (hcase : StepCase s label t)
    (hlabel : ∀ call, label ≠ .call call) (kind : DeviceKind) : t.asked kind = s.asked kind := by
  cases hcase with
  | suppressed request h => exact absurd rfl (hlabel request)
  | call request h => exact absurd rfl (hlabel request)
  | _ => rfl

theorem harmless_nil : Harmless [] := fun _ h => h

/-- A status says what the entry says. -/
theorem harmless_status {l : Local} (h : l.entry.ready .pointing = false) :
    Harmless l.makeResponse := by
  intro c hc
  rw [ServiceClient.handle_status] at hc
  cases (congrArg some h).symm.trans hc

/-- A device that is off is not ready. -/
theorem ready_of_off {e : ClientEntry} {recreates : List Recreate} (hlife : Lifecycle e recreates)
    (h : e.setting .pointing = .off) : e.ready .pointing = false := by
  have hen : (e.slots .pointing).enabled = false := by
    by_contra hen
    rw [Bool.not_eq_false] at hen
    simp [ClientEntry.setting, hen] at h
  have hsynced := (hlife .pointing).synced
  rw [hen, Option.isSome_eq_false_iff, Option.isNone_iff_eq_none] at hsynced
  exact ClientEntry.ready_of_client_none hsynced

/-- Nobody believes that a device is ready before somebody asks for it. -/
theorem step_untouched {s t : Session} {label : SessionLabel}
    (hlife : Lifecycle s.peer.entry s.peer.recreates) (h : s.Untouched)
    (hlabel : ∀ call, label ≠ .call call) (hcase : StepCase s label t) (hup : t.up = true) :
    t.Untouched := by
  have hoff : ∀ x ∈ t.outlook .pointing, x = .off := by
    rcases step_outlook hlife hlabel hcase hup .pointing with heq | ⟨y, heq⟩
    · rw [heq]
      exact h.off
    · exact fun x hx => h.off x (by rw [heq]; exact List.mem_cons_of_mem y hx)
  cases hcase with
  | suppressed request hs => exact absurd rfl (hlabel request)
  | call request hs => exact absurd rfl (hlabel request)
  | send buffer queue hq =>
    exact ⟨hoff, h.sent, fun b hb => h.queued b (hq ▸ List.mem_cons_of_mem _ hb), h.cache⟩
  | handle buffer queue hq =>
    have hbuf : Harmless buffer := h.queued buffer (hq ▸ List.mem_cons_self)
    exact ⟨hoff, h.sent, fun b hb => h.queued b (hq ▸ List.mem_cons_of_mem _ hb),
      fun hc => h.cache (hbuf _ hc)⟩
  | closed queue hq =>
    exact ⟨hoff, h.sent, fun b hb => h.queued b (hq ▸ List.mem_cons_of_mem _ hb),
      fun hc => by cases hc⟩
  | deliverRequest buffer rest _ hd => exact ⟨hoff, h.sent, h.queued, h.cache⟩
  | deliverMessage message hm =>
    refine ⟨hoff, h.sent, fun b hb => ?_, h.cache⟩
    rcases List.mem_append.mp hb with hb | hb
    · exact h.queued b hb
    · obtain rfl := ClientTask.message.inj (List.mem_singleton.mp hb)
      exact h.sent message (List.mem_of_getElem? hm)
  | daemon label p _ hreq hstep =>
    have hstep' := Peer.step_of_dispatch hstep
    -- the pointing device is off before and after, so no status says that it is ready
    have hbefore := ready_of_off hlife (h.off _ List.mem_cons_self)
    have hafter := ready_of_off (Peer.step_lifecycle hlife hstep').1 (hoff _ List.mem_cons_self)
    refine ⟨hoff, fun m hm => ?_, h.queued, h.cache⟩
    rcases Peer.step_sent hlife hstep' with heq | ⟨buffer, hb, heq⟩ | heq
    · exact h.sent m (heq ▸ hm)
    · rw [heq] at hm
      rcases List.mem_append.mp hm with hm | hm
      · exact h.sent m hm
      · obtain rfl := List.mem_singleton.mp hm
        rcases hb with rfl | rfl
        · exact harmless_nil
        · exact harmless_status hbefore
    · rw [heq] at hm
      rcases List.mem_append.mp hm with hm | hm
      · exact h.sent m hm
      · obtain rfl := List.mem_singleton.mp hm
        exact harmless_status hafter
  | close _ => cases hup

/-- An initialization that is left out, and heard, asks for what is asked for already. -/
theorem asked_of_suppressed {s : Session} {call : ClientCall} (h : s.Agreed)
    (hheard : s.Heard (.call call)) (hs : s.client.suppresses call = true) {kind : DeviceKind}
    {x : Setting} (hx : call.setting kind = some x) : s.asked kind = some x := by
  cases call with
  | keyboardInitialize p force =>
    cases kind with
    | pointing => cases hx
    | keyboard =>
      obtain rfl := Option.some.inj hx
      have hcache : s.client.lastKeyboardParameters = some p := by
        simp only [ServiceClient.suppresses, Bool.and_eq_true, beq_iff_eq] at hs
        exact hs.2.2
      rcases ha : s.asked .keyboard with _ | x
      · exact absurd ha (h.known p hcache)
      · cases x with
        -- a heard call is not left out after the device was asked to be off
        | off => exact absurd ha (hheard hs)
        | keyboard q => rw [h.parameters q p ha hcache]
        | pointing =>
          obtain ⟨call, -, hcall⟩ := exists_call_of_asked ha
          cases call <;> cases hcall
  | pointingInitialize force =>
    cases kind with
    | keyboard => cases hx
    | pointing =>
      obtain rfl := Option.some.inj hx
      have hcache : s.client.lastReady .pointing = some true := by
        simp only [ServiceClient.suppresses, Bool.and_eq_true, beq_iff_eq] at hs
        exact hs.2
      rcases ha : s.asked .pointing with _ | x
      · exact absurd hcache (h.untouched ha).cache
      · cases x with
        | off => exact absurd ha (hheard hs)
        | pointing => rfl
        | keyboard q =>
          obtain ⟨call, -, hcall⟩ := exists_call_of_asked ha
          cases call <;> cases hcall
  | _ => cases hs

/-- A step other than a call leaves the cached parameters alone, or forgets them. -/
theorem parameters_of_not_call {s t : Session} {label : SessionLabel} (hcase : StepCase s label t)
    (hlabel : ∀ call, label ≠ .call call) {q : Parameters}
    (h : t.client.lastKeyboardParameters = some q) : s.client.lastKeyboardParameters = some q := by
  cases hcase with
  | suppressed request hs => exact absurd rfl (hlabel request)
  | call request hs => exact absurd rfl (hlabel request)
  | handle buffer queue hq =>
    rw [← s.client.handle_parameters buffer]
    exact h
  | closed queue hq => cases h
  | _ => exact h

/-- The outlook is never empty, so that dropping its head keeps the last setting. -/
theorem getLast?_outlook {s t : Session} {kind : DeviceKind}
    (h : t.outlook kind = s.outlook kind ∨ ∃ x, s.outlook kind = x :: t.outlook kind) :
    (t.outlook kind).getLast? = (s.outlook kind).getLast? := by
  rcases h with heq | ⟨x, heq⟩
  · rw [heq]
  · rw [heq, outlook, Peer.outlook, List.cons_append, List.getLast?_cons_cons]

/-- Every step that is not a call keeps the agreement. -/
theorem agreed_of_not_call {s t : Session} {label : SessionLabel} (h : s.Agreed)
    (hlabel : ∀ call, label ≠ .call call) (hcase : StepCase s label t) (hup : t.up = true) :
    t.Agreed := by
  have hasked := asked_of_not_call hcase hlabel
  have hparameters : ∀ q, t.client.lastKeyboardParameters = some q →
      s.client.lastKeyboardParameters = some q :=
    fun q hq => parameters_of_not_call hcase hlabel hq
  refine ⟨step_lifecycle hcase h.life, fun kind => ?_, fun p q hp hq => ?_, fun q hq => ?_,
    fun hnone => ?_⟩
  · rw [getLast?_outlook (step_outlook h.life hlabel hcase hup kind), hasked, h.last]
  · exact h.parameters p q (by rw [← hasked]; exact hp) (hparameters q hq)
  · rw [hasked]
    exact h.known q (hparameters q hq)
  · rw [hasked] at hnone
    exact step_untouched h.life (h.untouched hnone) hlabel hcase hup

/-- A call that is left out, and heard, changes nothing. -/
theorem agreed_of_suppressed {s : Session} {call : ClientCall} (h : s.Agreed)
    (hheard : s.Heard (.call call)) (hs : s.client.suppresses call = true) :
    ({ s with calls := s.calls ++ [call] } : Session).Agreed := by
  have hasked : ∀ kind, ({ s with calls := s.calls ++ [call] } : Session).asked kind =
      s.asked kind := by
    intro kind
    rw [asked_call (s := s) rfl]
    rcases hx : call.setting kind with _ | x
    · rfl
    · rw [asked_of_suppressed h hheard hs hx]
      rfl
  refine ⟨h.life, fun kind => ?_, fun p q hp => ?_, fun q => ?_, fun hnone => ?_⟩
  · rw [hasked]
    exact h.last kind
  · rw [hasked] at hp
    exact h.parameters p q hp
  · rw [hasked]
    exact h.known q
  · rw [hasked] at hnone
    obtain ⟨off, sent, queued, cache⟩ := h.untouched hnone
    exact ⟨off, sent, queued, cache⟩

/-- A call that queues its request. -/
theorem agreed_of_call {s : Session} {call : ClientCall} (h : s.Agreed) :
    ({ s with
      client := s.client.remember call
      clientQueue := s.clientQueue ++ [.request call.operation.requestBuffer]
      calls := s.calls ++ [call] } : Session).Agreed := by
  generalize ht : ({ s with
    client := s.client.remember call
    clientQueue := s.clientQueue ++ [.request call.operation.requestBuffer]
    calls := s.calls ++ [call] } : Session) = t
  have hpeer : t.peer = s.peer := by rw [← ht]
  have hclient : t.client = s.client.remember call := by rw [← ht]
  have hqueue : t.clientQueue =
      s.clientQueue ++ [.request call.operation.requestBuffer] := by rw [← ht]
  have hasked : ∀ kind, t.asked kind = (call.setting kind).or (s.asked kind) :=
    fun kind => asked_call (by rw [← ht]) kind
  have houtlook : ∀ kind, t.outlook kind = s.outlook kind ++ (call.setting kind).toList :=
    fun kind => outlook_call hpeer (by rw [← ht]) hqueue kind
  refine ⟨hpeer ▸ h.life, fun kind => ?_, fun p q hp hq => ?_, fun q hq => ?_, fun hnone => ?_⟩
  -- the new call is the last one on its way
  · rw [houtlook, hasked, List.getLast?_append, h.last]
    rcases call.setting kind with _ | x <;> rfl
  · rw [hasked] at hp
    rw [hclient] at hq
    cases call with
    | keyboardInitialize p' force =>
      obtain rfl := Setting.keyboard.inj (Option.some.inj hp)
      exact (Option.some.inj hq).symm
    | keyboardTerminate => cases Option.some.inj hp
    | _ => exact h.parameters p q hp hq
  · rw [hasked]
    rw [hclient] at hq
    cases call with
    | keyboardInitialize p' force => exact Option.some_ne_none _
    | keyboardTerminate => exact Option.some_ne_none _
    | _ => exact h.known q hq
  · rw [hasked, Option.or_eq_none_iff] at hnone
    obtain ⟨off, sent, queued, cache⟩ := h.untouched hnone.2
    refine ⟨?_, hpeer ▸ sent, fun b hb => ?_, ?_⟩
    · rw [houtlook, hnone.1, Option.toList_none, List.append_nil]
      exact off
    · rw [hqueue] at hb
      rcases List.mem_append.mp hb with hb | hb
      · exact queued b hb
      · cases List.mem_singleton.mp hb
    · rw [hclient]
      cases call <;> exact cache

/-- One step that is heard keeps the agreement, while the connection is up. -/
theorem step_agreed {s t : Session} {label : SessionLabel} (h : s.Agreed)
    (hheard : s.Heard label) (hstep : s.step label = some t) (hup : t.up = true) : t.Agreed := by
  by_cases hlabel : ∀ call, label ≠ .call call
  · exact agreed_of_not_call h hlabel (step_cases hstep) hup
  · cases step_cases hstep with
    | suppressed call hs => exact agreed_of_suppressed h hheard hs
    | call call hs => exact agreed_of_call h
    | _ => exact absurd (fun _ heq => by cases heq) hlabel

/-- Before the first call. -/
theorem init_agreed (activated : Bool) : (init activated).Agreed := by
  have houtlook : ∀ kind, (init activated).outlook kind = [.off] := by
    intro kind
    cases kind <;> rfl
  refine ⟨lifecycle_init, fun kind => ?_, fun p q hp => (by cases hp), fun q hq => (by cases hq),
    fun _ => ⟨?_, fun m hm => (by cases hm), fun b hb => (by cases hb), fun hc => by cases hc⟩⟩
  · rw [houtlook]
    rfl
  · rw [houtlook]
    exact fun x hx => List.mem_singleton.mp hx

end Session

/-- The last call wins, in every run over one connection in which no initialization
is left out right after a termination of the same device: once nothing is queued or
in flight, the daemon has set each device to what the last call about it asked for. -/
theorem last_call_wins (activated : Bool) (labels : List SessionLabel) (s : Session)
    (hheard : Transition.Meets Session.step Session.Heard (Session.init activated) labels)
    (h : Transition.run Session.step (Session.init activated) labels = some s)
    (hup : s.up = true) (hquiet : s.Quiescent) :
    (∀ p, s.asked .keyboard = some (.keyboard p) →
      (s.peer.entry.slots .keyboard).enabled = true ∧ s.peer.entry.keyboardParameters = p) ∧
    (s.asked .keyboard = some .off → (s.peer.entry.slots .keyboard).enabled = false) ∧
    (s.asked .pointing = some .pointing → (s.peer.entry.slots .pointing).enabled = true) ∧
    (s.asked .pointing = some .off → (s.peer.entry.slots .pointing).enabled = false) := by
  have hagreed : s.up = true → s.Agreed := by
    refine Transition.run_invariant_of_meets (I := fun s : Session => s.up = true → s.Agreed)
      (fun _ => Session.init_agreed activated) (fun s label t hI hc hs ht => ?_) hheard h
    exact Session.step_agreed (hI (Session.up_of_step hs ht)) hc hs ht
  -- nothing is on its way, so that the outlook is the current setting
  have hset : ∀ kind, s.peer.entry.setting kind = (s.asked kind).getD .off := by
    intro kind
    have hlast := (hagreed hup).last kind
    simp only [Session.outlook, Peer.outlook, Peer.pending, Peer.entryTasks, Peer.requests,
      ClientEnd.requests, hquiet.queue, hquiet.clientQueue, hquiet.toDaemon] at hlast
    exact Option.some.inj hlast
  refine ⟨fun p hp => ?_, fun hoff => ?_, fun hon => ?_, fun hoff => ?_⟩
  · have hk := hset .keyboard
    rw [hp, ClientEntry.setting] at hk
    split at hk
    next hen => exact ⟨hen, Setting.keyboard.inj hk⟩
    next => cases hk
  · have hk := hset .keyboard
    rw [hoff, ClientEntry.setting] at hk
    split at hk
    next => cases hk
    next hen => exact Bool.eq_false_of_not_eq_true hen
  · have hk := hset .pointing
    rw [hon, ClientEntry.setting] at hk
    split at hk
    next hen => exact hen
    next => cases hk
  · have hk := hset .pointing
    rw [hoff, ClientEntry.setting] at hk
    split at hk
    next => cases hk
    next hen => exact Bool.eq_false_of_not_eq_true hen

/-- All that is queued or in flight after two more calls. -/
def settleTwoCalls : List SessionLabel :=
  [.clientRun, .deliverRequest, .daemon (.run {}), .daemon (.run {}), .deliverMessage,
   .deliverMessage, .clientRun, .clientRun, .daemon (.recreate 0)]

/-- The keyboard is terminated and initialized again, with the client still believing
that it is ready: the second call is left out, and the keyboard stays off. -/
theorem initialize_after_terminate_lost : ∃ s,
    Transition.run Session.step (Session.init true)
      (readySession ++ [.call .keyboardTerminate, .call (.keyboardInitialize .init false)] ++
        settleTwoCalls) = some s ∧
    s.up = true ∧ s.Quiescent ∧ s.peer.recreates = [] ∧
    s.asked .keyboard = some (.keyboard .init) ∧
    (s.peer.entry.slots .keyboard).enabled = false := by
  decide +kernel

/-- The keyboard is terminated while the client believes that it is ready, the answer arrives, and
the keyboard is asked for again. -/
def answeredTerminate : List SessionLabel :=
  readySession ++ [.call .keyboardTerminate, .clientRun, .deliverRequest, .daemon (.run {}),
    .daemon (.run {}), .deliverMessage, .deliverMessage, .clientRun, .clientRun,
    .call (.keyboardInitialize .init false), .clientRun, .deliverRequest, .daemon (.run {}),
    .daemon (.run {}), .daemon (.run {}), .deliverMessage, .clientRun]

/-- A run to which the theorem applies: the client waits for the answer. -/
theorem ready_session_last_call : ∃ s,
    Transition.run Session.step (Session.init true) answeredTerminate = some s ∧ s.Quiescent ∧
    s.calls.length = 3 ∧ s.asked .keyboard = some (.keyboard .init) ∧
    (s.peer.entry.slots .keyboard).enabled = true ∧ s.peer.entry.keyboardParameters = .init := by
  have hheard :
      Transition.Meets Session.step Session.Heard (Session.init true) answeredTerminate := by
    decide +kernel
  obtain ⟨s, hs, hup, hquiet, hcalls, hasked⟩ : ∃ s,
      Transition.run Session.step (Session.init true) answeredTerminate = some s ∧ s.up = true ∧
        s.Quiescent ∧ s.calls.length = 3 ∧ s.asked .keyboard = some (.keyboard .init) := by
    decide +kernel
  exact ⟨s, hs, hquiet, hcalls, hasked,
    (last_call_wins true answeredTerminate s hheard hs hup hquiet).1 .init hasked⟩

end VirtualHidDevice
