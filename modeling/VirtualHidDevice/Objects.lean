import VirtualHidDevice.StepCases

/-!
# The objects of an entry

Each io service client has an object id of its own, never used before and never
used again, so that a queued closure or a connection belongs to one object.

* the first lemmas say which client is in which role after each method;
* `Peer.Creates`, `Peer.Removes` — what the tasks that put a client into a slot, or
  take one away, do to the entry, the queue and the connections;
* `Peer.Objects` — ids are distinct and below the next one, also in the queue;
* `Peer.step_objects`, `Peer.run_objects` — along every run.
-/

namespace VirtualHidDevice

open Dispatcher (applyAll enqueued)

/-! ## Roles of live objects -/

namespace ClientEntry

/-- A client that is there has a role. -/
theorem role_isSome {e : ClientEntry} (role : Role) {c : IoServiceClient}
    (h : e.client role = some c) : (e.role c.objectId).isSome = true := by
  rw [ClientEntry.role, List.find?_isSome]
  refine ⟨role, ?_, by simp [h]⟩
  cases role with
  | noVirtualDevices => simp
  | device kind => cases kind <;> simp

/-- Roles depend on the object ids only. -/
theorem role_congr {e f : ClientEntry}
    (h : ∀ role, (f.client role).map (·.objectId) = (e.client role).map (·.objectId)) (o : ℕ) :
    f.role o = e.role o := by
  have hany : ∀ role, ((f.client role).any fun c => c.objectId == o) =
      (e.client role).any fun c => c.objectId == o := by
    intro role
    have := congrArg (Option.any (· == o)) (h role)
    simpa [Option.any_map] using this
  rw [ClientEntry.role, ClientEntry.role]
  exact congrArg (fun p => List.find? p _) (funext hany)

/-- Storing a new state of a client keeps all object ids. -/
theorem setClient_client {e : ClientEntry} {role : Role} {c d : IoServiceClient}
    (hc : e.client role = some c) (hid : d.objectId = c.objectId) (role' : Role) :
    ((e.setClient d role).client role').map (·.objectId) =
      (e.client role').map (·.objectId) := by
  cases role' with
  | noVirtualDevices =>
    cases role with
    | noVirtualDevices =>
      obtain rfl := Option.some.inj hc
      exact congrArg some hid
    | device kind => rfl
  | device kind => exact (Run.setClient_objectId hc hid kind).1

end ClientEntry

/-! ## Who is in which role -/

namespace ClientEntry

theorem client_setClient (e : ClientEntry) (c : IoServiceClient) (role role' : Role) :
    (e.setClient c role).client role' = if role' = role then some c else e.client role' := by
  cases role with
  | noVirtualDevices => cases role' <;> simp [setClient, client]
  | device kind =>
    cases role' with
    | noVirtualDevices => simp [setClient, client]
    | device k =>
      by_cases hk : k = kind
      · subst hk
        simp [setClient, client]
      · simp [setClient, client, hk]

@[simp] theorem setClient_nextObjectId (e : ClientEntry) (c : IoServiceClient) (role : Role) :
    (e.setClient c role).nextObjectId = e.nextObjectId := by
  cases role <;> rfl

@[simp] theorem setClient_keyboardParameters (e : ClientEntry) (c : IoServiceClient)
    (role : Role) : (e.setClient c role).keyboardParameters = e.keyboardParameters := by
  cases role <;> rfl

/-- Storing a slot without its client. -/
theorem client_setSlot (e : ClientEntry) (kind : DeviceKind) (slot : Slot) (role : Role) :
    (e.setSlot kind slot).client role =
      if role = .device kind then slot.client else e.client role := by
  cases role with
  | noVirtualDevices => simp [client]
  | device k =>
    by_cases hk : k = kind
    · subst hk
      simp [client]
    · simp [client, hk]

end ClientEntry

namespace Run

@[simp] theorem client_checkStatusChanged (r : Run) (role : Role) :
    r.checkStatusChanged.entry.client role = r.entry.client role := by
  cases role with
  | noVirtualDevices => simp [ClientEntry.client]
  | device kind => simp [ClientEntry.client]

theorem client_createVirtualHidClient (kind : DeviceKind) (r : Run) (role : Role) :
    (r.createVirtualHidClient kind).entry.client role =
      if role = .device kind then some { objectId := r.entry.nextObjectId }
      else r.entry.client role := by
  have h := ClientEntry.client_setSlot r.entry kind
    ((r.createVirtualHidClient kind).entry.slots kind) role
  rw [createVirtualHidClient_slots_self] at h
  refine Eq.trans ?_ h
  cases role <;> rfl

theorem client_resetClient (kind : DeviceKind) (r : Run) (role : Role) :
    (r.resetClient kind).entry.client role =
      if role = .device kind then none else r.entry.client role := by
  rw [resetClient_entry]
  exact ClientEntry.client_setSlot _ kind _ role

theorem client_setEnabled (kind : DeviceKind) (value : Bool) (r : Run) (role : Role) :
    (r.setEnabled kind value).entry.client role = r.entry.client role := by
  have h := ClientEntry.client_setSlot r.entry kind
    { r.entry.slots kind with enabled := value } role
  rw [setEnabled, h]
  split
  next hrole => rw [hrole]; rfl
  next => rfl

/-- Resetting a slot only closes connections. -/
theorem resetClient_userClients (kind : DeviceKind) (r : Run) (o h : ℕ) :
    (r.resetClient kind).userClients o h = r.userClients o h ∨
      (r.resetClient kind).userClients o h = none := by
  rcases hc : (r.entry.slots kind).client with _ | c
  · rw [resetClient_of_none hc]
    exact Or.inl rfl
  · rw [resetClient_of_some hc]
    obtain ⟨userClients, heq, hother, hown⟩ := destroyIoServiceClient_eq c
      { r with entry := r.entry.setSlot kind { r.entry.slots kind with client := none } }
    rw [heq]
    by_cases ho : o = c.objectId
    · rw [ho]
      exact hown h
    · exact Or.inl (hother o h ho)

end Run

namespace Peer

theorem client_newKeyboard (p : Peer) (parameters : Parameters) (role : Role) :
    (p.newKeyboard parameters).entry.client role =
      if role = .device .keyboard then some { objectId := p.entry.nextObjectId }
      else p.entry.client role := by
  rw [newKeyboard, Run.client_createVirtualHidClient]
  by_cases hrole : role = .device .keyboard
  · rw [if_pos hrole, if_pos hrole]
    simp [Run.setParameters, Run.setEnabled, fresh]
  · rw [if_neg hrole, if_neg hrole]
    have hset : (Run.setParameters parameters (Run.setEnabled .keyboard true
        (p.fresh.resetClient .keyboard))).entry.client role =
        (Run.setEnabled .keyboard true (p.fresh.resetClient .keyboard)).entry.client role := by
      cases role <;> rfl
    rw [hset, Run.client_setEnabled, Run.client_resetClient, if_neg hrole]
    rfl

theorem client_newPointing (p : Peer) (role : Role) :
    p.newPointing.entry.client role =
      if role = .device .pointing then some { objectId := p.entry.nextObjectId }
      else p.entry.client role := by
  rw [newPointing, Run.client_createVirtualHidClient, Run.client_setEnabled]
  rfl

theorem client_switchedOff (p : Peer) (kind : DeviceKind) (role : Role) :
    (p.switchedOff kind).entry.client role =
      if role = .device kind then none else p.entry.client role := by
  rw [switchedOff, Run.client_resetClient]
  by_cases hrole : role = .device kind
  · rw [if_pos hrole, if_pos hrole]
  · rw [if_neg hrole, if_neg hrole, ClientEntry.client_setSlot, if_neg hrole,
      Run.client_setEnabled]
    rfl

theorem client_recreated (p : Peer) (index : ℕ) (kind : DeviceKind) (role : Role) :
    (p.recreated index kind).entry.client role =
      if role = .device kind then some { objectId := p.entry.nextObjectId }
      else p.entry.client role := by
  rw [recreated, Run.client_createVirtualHidClient, Run.client_resetClient]
  by_cases hrole : role = .device kind
  · rw [if_pos hrole, if_pos hrole]
    simp
  · rw [if_neg hrole, if_neg hrole, if_neg hrole]

/-! ## Clients that come and go -/

/-- What a task does that leaves a client, or none, in the slot of a device. -/
structure Replaces (p : Peer) (kind : DeviceKind) (client : Option IoServiceClient) (r : Run) :
    Prop where
  /-- the other clients are kept -/
  clients : ∀ role, r.entry.client role =
    if role = .device kind then client else p.entry.client role
  /-- only a new client is started -/
  started : ∀ t ∈ enqueued r.effects, t = Task.io p.entry.nextObjectId .start
  /-- only the client that was there is detached -/
  detached : ∀ o, .detach o ∈ r.effects ↔
    ∃ c, (p.entry.slots kind).client = some c ∧ o = .io c.objectId
  /-- the driver is not called -/
  calls : r.calls = p.calls
  /-- connections are only closed -/
  userClients : ∀ o h, r.userClients o h = p.userClients o h ∨ r.userClients o h = none

/-- A task that creates a client. -/
structure Creates (p : Peer) (kind : DeviceKind) (r : Run) : Prop
    extends Replaces p kind (some { objectId := p.entry.nextObjectId }) r where
  /-- its object id is taken -/
  next : r.entry.nextObjectId = p.entry.nextObjectId + 1
  /-- only a keyboard comes with parameters -/
  parameters : kind ≠ .keyboard → r.entry.keyboardParameters = p.entry.keyboardParameters

/-- A task that takes a client away. -/
structure Removes (p : Peer) (kind : DeviceKind) (r : Run) : Prop
    extends Replaces p kind none r where
  /-- object ids are not used again -/
  next : r.entry.nextObjectId = p.entry.nextObjectId
  /-- the parameters are kept -/
  parameters : r.entry.keyboardParameters = p.entry.keyboardParameters
  /-- nothing is queued -/
  silent : enqueued r.effects = []

theorem newKeyboard_creates (p : Peer) (parameters : Parameters) :
    Creates p .keyboard (p.newKeyboard parameters).checkStatusChanged := by
  refine ⟨⟨fun role => ?_, ?_, fun o => ?_, ?_, fun o h => ?_⟩, ?_, fun hk => absurd rfl hk⟩
  · rw [Run.client_checkStatusChanged, client_newKeyboard]
  · rcases hc : (p.entry.slots .keyboard).client with _ | c <;>
      simp [newKeyboard, Run.setParameters, Run.setEnabled, fresh, hc, enqueued]
  · rcases hc : (p.entry.slots .keyboard).client with _ | c <;>
      simp [newKeyboard, Run.setParameters, Run.setEnabled, fresh, hc]
  · simp [newKeyboard, Run.setParameters, Run.setEnabled, fresh]
  · rw [Run.checkStatusChanged_userClients]
    exact Run.resetClient_userClients .keyboard p.fresh o h
  · simp [newKeyboard, Run.setParameters, Run.setEnabled, fresh]

theorem newPointing_creates {p : Peer} (hnone : (p.entry.slots .pointing).client = none) :
    Creates p .pointing p.newPointing.checkStatusChanged := by
  refine ⟨⟨fun role => ?_, ?_, fun o => ?_, ?_, fun o h => ?_⟩, ?_, fun _ => ?_⟩
  · rw [Run.client_checkStatusChanged, client_newPointing]
  · simp [newPointing, Run.setEnabled, fresh, enqueued]
  · simp [newPointing, Run.setEnabled, fresh, hnone]
  · simp [newPointing, Run.setEnabled, fresh]
  · rw [Run.checkStatusChanged_userClients]
    exact Or.inl rfl
  · simp [newPointing, Run.setEnabled, fresh]
  · simp [newPointing, Run.setEnabled, fresh]

theorem recreated_creates (p : Peer) (index : ℕ) (kind : DeviceKind) :
    Creates p kind (p.recreated index kind) := by
  refine ⟨⟨client_recreated p index kind, ?_, fun o => ?_, ?_,
    fun o h => Run.resetClient_userClients kind _ o h⟩, ?_, fun _ => ?_⟩
  · rcases hc : (p.entry.slots kind).client with _ | c <;> simp [recreated, hc, enqueued]
  · rcases hc : (p.entry.slots kind).client with _ | c <;> simp [recreated, hc]
  · simp [recreated]
  · simp [recreated]
  · simp [recreated]

theorem switchedOff_removes (p : Peer) (kind : DeviceKind) :
    Removes p kind (p.switchedOff kind).checkStatusChanged := by
  have hsilent : enqueued (p.switchedOff kind).checkStatusChanged.effects = [] := by
    rcases hc : (p.entry.slots kind).client with _ | c <;>
      simp [switchedOff, Run.setEnabled, fresh, hc, enqueued]
  refine ⟨⟨fun role => ?_, fun t ht => ?_, fun o => ?_, ?_, fun o h => ?_⟩, ?_, ?_, hsilent⟩
  · rw [Run.client_checkStatusChanged, client_switchedOff]
  · rw [hsilent] at ht
    cases ht
  · rcases hc : (p.entry.slots kind).client with _ | c <;>
      simp [switchedOff, Run.setEnabled, fresh, hc]
  · simp [switchedOff, Run.setEnabled, fresh]
  · rw [Run.checkStatusChanged_userClients]
    exact Run.resetClient_userClients kind _ o h
  · simp [switchedOff, Run.setEnabled, fresh]
  · simp [switchedOff, Run.setEnabled, fresh]

/-- A task is queued before the end of the task that runs, or by it. -/
theorem mem_finish {queue : List Task} {r : Run} {t : Task} (h : t ∈ (finish queue r).queue) :
    t ∈ queue ∨ t ∈ enqueued r.effects :=
  Dispatcher.mem_applyAll Task.owner h

/-! ## Object ids -/

/-- Object ids are distinct and below the next one. -/
structure Objects (p : Peer) : Prop where
  /-- live clients -/
  live : ∀ role c, p.entry.client role = some c → c.objectId < p.entry.nextObjectId
  /-- no two roles share an object -/
  distinct : ∀ role role' c c', p.entry.client role = some c → p.entry.client role' = some c' →
    c.objectId = c'.objectId → role = role'
  /-- queued closures -/
  queued : ∀ o t, .io o t ∈ p.queue → o < p.entry.nextObjectId

/-- The role of a client is the one it is in. -/
theorem Objects.role_eq {p : Peer} (h : p.Objects) {role : Role} {c : IoServiceClient}
    (hc : p.entry.client role = some c) : p.entry.role c.objectId = some role := by
  have hsome := ClientEntry.role_isSome role hc
  obtain ⟨role', hrole'⟩ := Option.isSome_iff_exists.mp hsome
  obtain ⟨c', hc', hid⟩ := ClientEntry.role_eq_some hrole'
  rw [hrole', h.distinct role' role c' c hc' hc hid]

/-- A step that keeps all clients and queues closures of live clients only. -/
theorem Objects.keep {p q : Peer} (h : p.Objects)
    (hclient : ∀ role, (q.entry.client role).map (·.objectId) =
      (p.entry.client role).map (·.objectId))
    (hnext : q.entry.nextObjectId = p.entry.nextObjectId)
    (hqueue : ∀ o t, .io o t ∈ q.queue → .io o t ∈ p.queue ∨
      ∃ role c, p.entry.client role = some c ∧ c.objectId = o) : q.Objects := by
  have back : ∀ role c, q.entry.client role = some c →
      ∃ d, p.entry.client role = some d ∧ d.objectId = c.objectId := by
    intro role c hc
    have hmap := hclient role
    rw [hc] at hmap
    exact Option.map_eq_some_iff.mp hmap.symm
  refine ⟨?_, ?_, ?_⟩
  · intro role c hc
    obtain ⟨d, hd, hid⟩ := back role c hc
    rw [hnext, ← hid]
    exact h.live role d hd
  · intro role role' c c' hc hc' hid
    obtain ⟨d, hd, hidd⟩ := back role c hc
    obtain ⟨d', hd', hidd'⟩ := back role' c' hc'
    exact h.distinct role role' d d' hd hd' (by rw [hidd, hidd', hid])
  · intro o t ht
    rw [hnext]
    rcases hqueue o t ht with ht | ⟨role, c, hc, rfl⟩
    · exact h.queued o t ht
    · exact h.live role c hc

/-- A task that creates a client puts a new object in its role. -/
theorem Objects.create {p : Peer} (h : p.Objects) {kind : DeviceKind} {queue : List Task} {r : Run}
    (hr : p.Creates kind r) (hsub : ∀ t ∈ queue, t ∈ p.queue) : (finish queue r).Objects := by
  refine ⟨?_, ?_, ?_⟩
  · intro role c hc
    rw [finish_entry, hr.clients] at hc
    rw [finish_entry, hr.next]
    split at hc
    · obtain rfl := Option.some.inj hc
      exact Nat.lt_succ_self _
    · exact (h.live role c hc).trans (Nat.lt_succ_self _)
  · intro role role' c c' hc hc' hid
    rw [finish_entry, hr.clients] at hc hc'
    -- the new id is above all ids that are in use
    split at hc <;> split at hc'
    next h₁ h₂ => rw [h₁, h₂]
    next h₁ h₂ =>
      obtain rfl := Option.some.inj hc
      exact absurd hid.symm (h.live role' c' hc').ne
    next h₁ h₂ =>
      obtain rfl := Option.some.inj hc'
      exact absurd hid (h.live role c hc).ne
    next h₁ h₂ => exact h.distinct role role' c c' hc hc' hid
  · intro o t ht
    rw [finish_entry, hr.next]
    rcases mem_finish ht with ht | ht
    · exact (h.queued o t (hsub _ ht)).trans (Nat.lt_succ_self _)
    · obtain ⟨rfl, -⟩ := Task.io.inj (hr.started _ ht)
      exact Nat.lt_succ_self _

/-- A task that takes an object away. -/
theorem Objects.remove {p : Peer} (h : p.Objects) {kind : DeviceKind} {queue : List Task} {r : Run}
    (hr : p.Removes kind r) (hsub : ∀ t ∈ queue, t ∈ p.queue) : (finish queue r).Objects := by
  have back : ∀ role c, r.entry.client role = some c → p.entry.client role = some c := by
    intro role c hc
    rw [hr.clients] at hc
    split at hc
    · cases hc
    · exact hc
  refine ⟨?_, ?_, ?_⟩
  · intro role c hc
    rw [finish_entry, hr.next]
    exact h.live role c (back role c hc)
  · intro role role' c c' hc hc' hid
    exact h.distinct role role' c c' (back role c hc) (back role' c' hc') hid
  · intro o t ht
    rw [finish_entry, hr.next]
    rcases mem_finish ht with ht | ht
    · exact h.queued o t (hsub _ ht)
    · rw [hr.silent] at ht
      cases ht

/-- The closures that a request queues belong to live clients. -/
theorem requestTasks_io {e : ClientEntry} {buffer : Bytes} {o : ℕ} {t : IoTask}
    (h : .io o t ∈ Run.requestTasks e buffer) :
    ∃ kind c, (e.slots kind).client = some c ∧ c.objectId = o ∧
      (t = .reset kind ∨ ∃ method data offset, t = .postReport method data offset) := by
  have hcall : ∀ call, .io o t ∈ Run.entryCallTasks e call → ∃ kind c,
      (e.slots kind).client = some c ∧ c.objectId = o ∧
        (t = .reset kind ∨ ∃ method data offset, t = .postReport method data offset) := by
    intro call hmem
    cases call with
    | reset kind =>
      obtain ⟨c, hc, heq⟩ := Option.map_eq_some_iff.mp (Option.mem_toList.mp hmem)
      obtain ⟨rfl, rfl⟩ := Task.io.inj heq
      exact ⟨kind, c, hc, rfl, Or.inl rfl⟩
    | postReport kind method data offset =>
      obtain ⟨c, hc, heq⟩ := Option.map_eq_some_iff.mp (Option.mem_toList.mp hmem)
      obtain ⟨rfl, rfl⟩ := Task.io.inj heq
      exact ⟨kind, c, hc, rfl, Or.inr ⟨method, data, offset, rfl⟩⟩
    | _ => cases List.mem_singleton.mp hmem
  rw [Run.requestTasks] at h
  split at h
  · obtain ⟨sc, -, hmem⟩ := List.mem_flatMap.mp h
    cases sc with
    | manager call =>
      simp only at hmem
      split at hmem
      · exact hcall _ hmem
      · cases hmem
    | respond reply => cases hmem
  · cases h

/-- A task that does nothing but look at the status leaves the queue alone. -/
theorem finish_checkStatusChanged_queue (p : Peer) (queue : List Task) :
    (finish queue p.fresh.checkStatusChanged).queue = queue := by
  simp [finish, fresh]

/-- One step keeps the object ids apart. -/
theorem step_objects {p q : Peer} {label : PeerLabel} (hlife : Lifecycle p.entry p.recreates)
    (h : p.Objects) (hstep : p.step label = some q) : q.Objects := by
  cases step_cases hlife hstep with
  | arrive buffer =>
    refine h.keep (fun _ => rfl) rfl fun o t ht => ?_
    rcases List.mem_append.mp ht with ht | ht
    · exact Or.inl ht
    · cases List.mem_singleton.mp ht
  | event role e c hc =>
    refine h.keep (fun _ => rfl) rfl fun o t ht => ?_
    rcases List.mem_append.mp ht with ht | ht
    · exact Or.inl ht
    · obtain ⟨rfl, -⟩ := Task.io.inj (List.mem_singleton.mp ht)
      exact Or.inr ⟨role, c, hc, rfl⟩
  | activated value e =>
    refine h.keep (fun _ => rfl) rfl fun o t ht => ?_
    rcases List.mem_append.mp ht with ht | ht
    · exact Or.inl ht
    · obtain ⟨rfl, -⟩ := Task.io.inj (List.mem_singleton.mp ht)
      exact Or.inr ⟨.noVirtualDevices, _, rfl, rfl⟩
  | poll tasks htasks =>
    refine h.keep (fun _ => rfl) rfl fun o t ht => ?_
    rcases List.mem_append.mp ht with ht | ht
    · exact Or.inl ht
    · obtain ⟨kind, c, hc, heq⟩ := htasks _ ht
      obtain ⟨rfl, -⟩ := Task.io.inj heq
      exact Or.inr ⟨.device kind, c, hc, rfl⟩
  | request answers buffer queue hq =>
    refine h.keep (fun _ => rfl) rfl fun o t ht => ?_
    rcases List.mem_append.mp ht with ht | ht
    · exact Or.inl (hq ▸ List.mem_cons_of_mem _ ht)
    · obtain ⟨kind, c, hc, hid, -⟩ := requestTasks_io ht
      exact Or.inr ⟨.device kind, c, hc, hid⟩
  | keep answers task queue hq htask =>
    refine h.keep (fun role => by simp [fresh]) (by simp [fresh]) fun o t ht => ?_
    rcases mem_finish ht with ht | ht
    · exact Or.inl (hq ▸ List.mem_cons_of_mem _ ht)
    · simp [fresh, enqueued] at ht
  | newKeyboard answers parameters queue hq hnew =>
    exact h.create (newKeyboard_creates p parameters) fun t ht => hq ▸ List.mem_cons_of_mem _ ht
  | newPointing answers queue hq hnone =>
    exact h.create (newPointing_creates hnone) fun t ht => hq ▸ List.mem_cons_of_mem _ ht
  | terminate answers kind task queue hq htask =>
    exact h.remove (switchedOff_removes p kind) fun t ht => hq ▸ List.mem_cons_of_mem _ ht
  | stale answers objectId task queue hq hrole =>
    exact h.keep (fun _ => rfl) rfl fun o t ht => Or.inl (hq ▸ List.mem_cons_of_mem _ ht)
  | stateChanged answers objectId role queue hq hrole =>
    refine h.keep (fun role => by simp [fresh]) (by simp [fresh]) fun o t ht => ?_
    rcases mem_finish ht with ht | ht
    · exact Or.inl (hq ▸ List.mem_cons_of_mem _ ht)
    · simp [fresh, enqueued] at ht
  | opened answers objectId kind queue hq hrole =>
    refine h.keep (fun _ => rfl) rfl fun o t ht => ?_
    rcases List.mem_append.mp ht with ht | ht
    · exact Or.inl (hq ▸ List.mem_cons_of_mem _ ht)
    · obtain ⟨rfl, -⟩ := Task.io.inj (List.mem_singleton.mp ht)
      obtain ⟨c, hc, hid⟩ := ClientEntry.role_eq_some hrole
      exact Or.inr ⟨_, c, hc, hid⟩
  | unheard answers objectId s queue hq hs =>
    exact h.keep (fun _ => rfl) rfl fun o t ht => Or.inl (hq ▸ List.mem_cons_of_mem _ ht)
  | ioTask answers objectId task role c queue hq hrole hc hid htask =>
    have hout := IoRun.runTask_outcome answers c htask
    refine h.keep (ClientEntry.setClient_client hc hout.objectId) (by simp) fun o t ht => ?_
    rcases List.mem_append.mp ht with ht | ht
    · exact Or.inl (hq ▸ List.mem_cons_of_mem _ ht)
    · obtain ⟨t', -, heq⟩ := List.mem_map.mp ht
      obtain ⟨rfl, -⟩ := Task.io.inj heq
      exact Or.inr ⟨role, c, hc, hid⟩
  | idle index _ _ _ => exact h.keep (fun _ => rfl) rfl fun o t ht => Or.inl ht
  | recreate index t ht hgen hen hready =>
    exact h.create (recreated_creates p index t.kind) fun t ht => ht

/-- Object ids stay apart along every run. -/
theorem run_objects (activated : Bool) (labels : List PeerLabel) {p : Peer}
    (h : Transition.run Peer.step (Peer.init activated) labels = some p) :
    Lifecycle p.entry p.recreates ∧ p.Objects := by
  refine Transition.run_invariant (I := fun p : Peer => Lifecycle p.entry p.recreates ∧ p.Objects)
    ⟨lifecycle_init, ?_, ?_, ?_⟩ ?_ h
  · intro role c hc
    cases role with
    | noVirtualDevices =>
      obtain rfl := Option.some.inj hc
      exact Nat.one_pos
    | device kind => cases hc
  · intro role role' c c' hc hc' _
    cases role with
    | noVirtualDevices =>
      cases role' with
      | noVirtualDevices => rfl
      | device kind => cases hc'
    | device kind => cases hc
  · intro o t ht
    simp only [init, ClientEntry.initTasks, List.cons_append, List.nil_append, List.mem_cons,
      Task.io.injEq, reduceCtorEq, List.not_mem_nil, or_self, or_false] at ht
    rw [ht.1]
    exact Nat.one_pos
  · rintro p label q ⟨hlife, hobj⟩ hstep
    exact ⟨(step_lifecycle hlife hstep).1, step_objects hlife hobj hstep⟩

end Peer

end VirtualHidDevice
