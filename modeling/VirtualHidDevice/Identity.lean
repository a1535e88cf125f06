import VirtualHidDevice.Objects

/-!
# The identity of the keyboard

The keyboard that the driver creates for a connection has the vendor, product
and country code that the peer asked for last: as long as a keyboard client
lives, the entry's parameters do not change, and every closure of the client
that initializes the keyboard carries them.

* the first part is about one connection: what the effects of a closure do to
  the driver's user clients;
* `Peer.Identity` — the invariant of the daemon and the driver together;
* `keyboard_has_requested_identity` — the result about whole runs.
-/

namespace VirtualHidDevice

/-! ## The user clients of one object -/

namespace Run

variable {create : CreateAnswer} {effects : List IoEffect} {f : ℕ → Option UserClient}

/-- What holds of every user client of an object, and of a new one, and is kept
by the calls that are made, holds after a closure. -/
theorem foldl_handleEffect {P : UserClient → Prop} (hnew : P {}) (hf : ∀ h u, f h = some u → P u)
    (hcall : ∀ h call, .call h call ∈ effects → ∀ u, P u → P (u.externalMethod create call)) :
    ∀ h u, effects.foldl (handleEffect create) f h = some u → P u := by
  induction effects generalizing f with
  | nil => exact hf
  | cons e effects ih =>
    refine ih (f := handleEffect create f e) ?_
      fun h call hmem => hcall h call (List.mem_cons_of_mem _ hmem)
    intro h u hu
    cases e with
    | serviceOpen id handle =>
      by_cases hh : h = handle
      · simp only [handleEffect, hh, Function.update_self] at hu
        obtain rfl := Option.some.inj hu
        exact hnew
      · simp only [handleEffect, Function.update_of_ne hh] at hu
        exact hf h u hu
    | serviceClose handle =>
      by_cases hh : h = handle
      · simp [handleEffect, hh] at hu
      · simp only [handleEffect, Function.update_of_ne hh] at hu
        exact hf h u hu
    | call handle call =>
      by_cases hh : h = handle
      · simp only [handleEffect, hh, Function.update_self] at hu
        obtain ⟨v, hv, rfl⟩ := Option.map_eq_some_iff.mp hu
        exact hcall handle call List.mem_cons_self v (hf handle v hv)
      · simp only [handleEffect, Function.update_of_ne hh] at hu
        exact hf h u hu
    | _ => exact hf h u hu

/-- Connections that were never opened are not there. -/
theorem foldl_handleEffect_none {n : ℕ} (hf : ∀ h, n ≤ h → f h = none)
    (hopen : ∀ id h, .serviceOpen id h ∈ effects → h < n) :
    ∀ h, n ≤ h → effects.foldl (handleEffect create) f h = none := by
  induction effects generalizing f with
  | nil => exact hf
  | cons e effects ih =>
    refine ih (f := handleEffect create f e) ?_
      fun id h hmem => hopen id h (List.mem_cons_of_mem _ hmem)
    intro h hn
    cases e with
    | serviceOpen id handle =>
      -- new connections are numbered below the bound
      have hlt := hopen id handle List.mem_cons_self
      have hne : h ≠ handle := by omega
      simpa [handleEffect, hne] using hf h hn
    | serviceClose handle =>
      by_cases hh : h = handle
      · simp [handleEffect, hh]
      · simpa [handleEffect, hh] using hf h hn
    | call handle call =>
      by_cases hh : h = handle
      · have := hf handle (hh ▸ hn)
        simp [handleEffect, hh, this]
      · simpa [handleEffect, hh] using hf h hn
    | _ => exact hf h hn

/-- A keyboard that is there stays, with the identity of its user client, until
the connection is closed; a new connection never takes its place. -/
theorem foldl_handleEffect_keyboard {h : ℕ} {i : KeyboardIdentity} {d : Device}
    (hf : ∀ u, f h = some u → u.keyboard = some d ∧ u.identity = i)
    (hopen : ∀ id, .serviceOpen id h ∉ effects) :
    ∀ u, effects.foldl (handleEffect create) f h = some u →
      u.keyboard = some d ∧ u.identity = i := by
  induction effects generalizing f with
  | nil => exact hf
  | cons e effects ih =>
    refine ih (f := handleEffect create f e) ?_
      fun id hmem => hopen id (List.mem_cons_of_mem _ hmem)
    intro u hu
    cases e with
    | serviceOpen id handle =>
      have hne : h ≠ handle := by
        rintro rfl
        exact hopen id List.mem_cons_self
      simp only [handleEffect, Function.update_of_ne hne] at hu
      exact hf u hu
    | serviceClose handle =>
      by_cases hh : h = handle
      · simp [handleEffect, hh] at hu
      · simp only [handleEffect, Function.update_of_ne hh] at hu
        exact hf u hu
    -- a call over the connection finds the keyboard there, and leaves it
    | call handle call =>
      by_cases hh : h = handle
      · subst hh
        simp only [handleEffect, Function.update_self] at hu
        obtain ⟨v, hv, rfl⟩ := Option.map_eq_some_iff.mp hu
        obtain ⟨hk, hi⟩ := hf v hv
        obtain ⟨hkeep, hid⟩ := UserClient.externalMethod_keyboard hk create call
        exact ⟨hkeep, hid.trans hi⟩
      · simp only [handleEffect, Function.update_of_ne hh] at hu
        exact hf u hu
    | _ => exact hf u hu

end Run

/-- The only closure that initializes the keyboard is the one made for it. -/
theorem IoTask.driverCall_keyboardInitialize {task : IoTask} {input : Parameters}
    (h : task.driverCall = some (.keyboardInitialize input)) :
    task = .keyboardInitialize input := by
  cases task with
  | keyboardInitialize parameters =>
    obtain rfl := DriverCall.keyboardInitialize.inj (Option.some.inj h)
    rfl
  | postReport method buffer offset =>
    rw [IoTask.driverCall] at h
    split at h
    · cases h
    · cases Option.some.inj h
  | _ => cases h

namespace Peer

/-! ## The invariant -/

/-- What holds between the entry, the queue and the driver. -/
structure Identity (p : Peer) : Prop where
  /-- a live client has not used the numbers of its later connections -/
  unopened : ∀ role c, p.entry.client role = some c → ∀ h, c.nextHandle ≤ h →
    p.userClients c.objectId h = none
  /-- objects that do not exist yet have no connections -/
  unborn : ∀ o, p.entry.nextObjectId ≤ o → ∀ h, p.userClients o h = none
  /-- what the keyboard client will ask for is what the entry holds -/
  requested : ∀ c, (p.entry.slots .keyboard).client = some c → ∀ parameters,
    .io c.objectId (.keyboardInitialize parameters) ∈ p.queue →
      parameters = p.entry.keyboardParameters
  /-- and so is what it has asked for -/
  identified : ∀ c, (p.entry.slots .keyboard).client = some c → ∀ h u,
    p.userClients c.objectId h = some u → u.Identified p.entry.keyboardParameters

/-- A step that changes neither the entry's clients nor the driver. -/
theorem Identity.keep {p q : Peer} (h : p.Identity)
    (hclient : ∀ role, q.entry.client role = p.entry.client role)
    (hnext : q.entry.nextObjectId = p.entry.nextObjectId)
    (hparam : q.entry.keyboardParameters = p.entry.keyboardParameters)
    (huser : q.userClients = p.userClients)
    (hqueue : ∀ o parameters, .io o (.keyboardInitialize parameters) ∈ q.queue →
      .io o (.keyboardInitialize parameters) ∈ p.queue ∨
        parameters = p.entry.keyboardParameters) : q.Identity := by
  have hslot : (q.entry.slots .keyboard).client = (p.entry.slots .keyboard).client :=
    hclient (.device .keyboard)
  refine ⟨?_, ?_, ?_, ?_⟩
  · intro role c hc
    rw [huser]
    exact h.unopened role c (hclient role ▸ hc)
  · rw [hnext, huser]
    exact h.unborn
  · intro c hc parameters hmem
    rw [hparam]
    rcases hqueue _ _ hmem with hmem | heq
    · exact h.requested c (hslot ▸ hc) parameters hmem
    · exact heq
  · intro c hc
    rw [hparam, huser]
    exact h.identified c (hslot ▸ hc)

/-- Connections that were closed stay closed. -/
theorem Replaces.userClients_none {p : Peer} {kind : DeviceKind} {client : Option IoServiceClient}
    {r : Run} (hr : p.Replaces kind client r) {o handle : ℕ}
    (hp : p.userClients o handle = none) : r.userClients o handle = none := by
  rcases hr.userClients o handle with hq | hq
  · rw [hq, hp]
  · exact hq

/-- A task that puts a new client in a slot, closing what the old one held. -/
theorem Identity.create {p : Peer} (h : p.Identity) (hobj : p.Objects) {kind : DeviceKind}
    {queue : List Task} {r : Run} (hr : p.Creates kind r) (hsub : ∀ t ∈ queue, t ∈ p.queue) :
    (finish queue r).Identity := by
  have hold : ∀ c, (r.entry.slots .keyboard).client = some c →
      c = { objectId := p.entry.nextObjectId } ∨
      (kind ≠ .keyboard ∧ (p.entry.slots .keyboard).client = some c) := by
    intro c hc
    have hc' : r.entry.client (.device .keyboard) = some c := hc
    rw [hr.clients] at hc'
    split at hc'
    · exact Or.inl (Option.some.inj hc').symm
    next hrole => exact Or.inr ⟨fun hk => hrole (by rw [hk]), hc'⟩
  refine ⟨?_, ?_, ?_, ?_⟩
  · intro role c hc handle hle
    rw [finish_entry, hr.clients] at hc
    split at hc
    · obtain rfl := Option.some.inj hc
      exact hr.userClients_none (h.unborn _ le_rfl handle)
    · exact hr.userClients_none (h.unopened role c hc handle hle)
  · intro o ho handle
    rw [finish_entry, hr.next] at ho
    exact hr.userClients_none (h.unborn o (Nat.le_of_succ_le ho) handle)
  · intro c hc parameters hmem
    rcases mem_finish hmem with hmem | hmem
    · rcases hold c hc with rfl | ⟨hk, hc⟩
      · exact absurd (hobj.queued _ _ (hsub _ hmem)) (lt_irrefl _)
      · rw [finish_entry, hr.parameters hk]
        exact h.requested c hc parameters (hsub _ hmem)
    · cases (Task.io.inj (hr.started _ hmem)).2
  · intro c hc handle u hu
    change r.userClients c.objectId handle = some u at hu
    -- a new client has no connection, the old keyboard is kept by the pointing device only
    rcases hold c hc with rfl | ⟨hk, hc⟩
    · rw [hr.userClients_none (h.unborn _ le_rfl handle)] at hu
      cases hu
    · rw [finish_entry, hr.parameters hk]
      rcases hr.userClients c.objectId handle with hq | hq
      · exact h.identified c hc handle u (hq ▸ hu)
      · rw [hq] at hu
        cases hu

/-- A task that takes a client away. -/
theorem Identity.remove {p : Peer} (h : p.Identity) {kind : DeviceKind} {queue : List Task}
    {r : Run} (hr : p.Removes kind r) (hsub : ∀ t ∈ queue, t ∈ p.queue) :
    (finish queue r).Identity := by
  have hold : ∀ role c, r.entry.client role = some c → p.entry.client role = some c := by
    intro role c hc
    rw [hr.clients] at hc
    split at hc
    · cases hc
    · exact hc
  refine ⟨?_, ?_, ?_, ?_⟩
  · intro role c hc handle hle
    exact hr.userClients_none (h.unopened role c (hold role c hc) handle hle)
  · intro o ho handle
    rw [finish_entry, hr.next] at ho
    exact hr.userClients_none (h.unborn o ho handle)
  · intro c hc parameters hmem
    rw [finish_entry, hr.parameters]
    rcases mem_finish hmem with hmem | hmem
    · exact h.requested c (hold (.device .keyboard) c hc) parameters (hsub _ hmem)
    · rw [hr.silent] at hmem
      cases hmem
  · intro c hc handle u hu
    change r.userClients c.objectId handle = some u at hu
    rw [finish_entry, hr.parameters]
    rcases hr.userClients c.objectId handle with hq | hq
    · exact h.identified c (hold (.device .keyboard) c hc) handle u (hq ▸ hu)
    · rw [hq] at hu
      cases hu

/-- A closure of a live client: connections with new numbers, and calls over
connections of its own. -/
theorem Identity.ioTask {p q : Peer} (h : p.Identity) (hobj : p.Objects) {answers : Answers}
    {objectId : ℕ} {task : IoTask} {role : Role} {c : IoServiceClient} {queue : List Task}
    (hq : p.queue = .io objectId task :: queue) (hc : p.entry.client role = some c)
    (hid : c.objectId = objectId) (htask : ∀ s, task ≠ .signal s)
    (hentry : q.entry = p.entry.setClient (IoRun.runTask answers ⟨c, []⟩ task).client role)
    (huser : q.userClients = Function.update p.userClients objectId
      ((IoRun.runTask answers ⟨c, []⟩ task).effects.foldl (Run.handleEffect answers.create)
        (p.userClients objectId)))
    (hqueue : q.queue = queue ++ ((IoRun.runTask answers ⟨c, []⟩ task).effects.filterMap
      IoEffect.queued).map (.io objectId)) : q.Identity := by
  have hout := IoRun.runTask_outcome answers c htask
  have hclient : ∀ role', q.entry.client role' = if role' = role then
      some (IoRun.runTask answers ⟨c, []⟩ task).client else p.entry.client role' := by
    rw [hentry]
    exact ClientEntry.client_setClient _ _ _
  have hparam : q.entry.keyboardParameters = p.entry.keyboardParameters := by
    rw [hentry, ClientEntry.setClient_keyboardParameters]
  have hkeep : ∀ o, o ≠ objectId → q.userClients o = p.userClients o := by
    intro o ho
    rw [huser, Function.update_of_ne ho]
  have hown : q.userClients objectId =
      (IoRun.runTask answers ⟨c, []⟩ task).effects.foldl (Run.handleEffect answers.create)
        (p.userClients objectId) := by
    rw [huser, Function.update_self]
  -- the client of another role is another object
  have hother : ∀ role' d, role' ≠ role → p.entry.client role' = some d →
      d.objectId ≠ objectId := by
    intro role' d hne hd heq
    exact hne (hobj.distinct role' role d c hd hc (heq.trans hid.symm))
  refine ⟨?_, ?_, ?_, ?_⟩
  · intro role' d hd handle hle
    rw [hclient] at hd
    split at hd
    · obtain rfl := Option.some.inj hd
      rw [hout.objectId, hid, hown]
      refine Run.foldl_handleEffect_none (fun k hk => ?_) (fun id k hk => (hout.opens id k hk).2)
        handle hle
      rw [← hid]
      exact h.unopened role c hc k (hout.nextHandle.trans hk)
    next hne =>
      rw [hkeep _ (hother role' d hne hd)]
      exact h.unopened role' d hd handle hle
  · intro o ho handle
    have hnext : q.entry.nextObjectId = p.entry.nextObjectId := by
      rw [hentry, ClientEntry.setClient_nextObjectId]
    rw [hnext] at ho
    have hlt := hobj.live role c hc
    rw [hkeep o (by omega)]
    exact h.unborn o ho handle
  · intro d hd parameters hmem
    have hd' : q.entry.client (.device .keyboard) = some d := hd
    rw [hclient] at hd'
    rw [hqueue] at hmem
    rw [hparam]
    have hold : .io d.objectId (.keyboardInitialize parameters) ∈ p.queue := by
      rcases List.mem_append.mp hmem with hmem | hmem
      · rw [hq]
        exact List.mem_cons_of_mem _ hmem
      · obtain ⟨t, ht, heq⟩ := List.mem_map.mp hmem
        obtain ⟨-, rfl⟩ := Task.io.inj heq
        rcases hout.queued _ (IoEffect.mem_queued.mp ht) with ⟨s, hs⟩ | ⟨kind, value, hs⟩
        · cases hs
        · cases hs
    split at hd'
    next hrole =>
      obtain rfl := Option.some.inj hd'
      rw [hout.objectId] at hold
      exact h.requested c (by rw [← hrole] at hc; exact hc) parameters hold
    next => exact h.requested d hd' parameters hold
  · intro d hd handle u hu
    have hd' : q.entry.client (.device .keyboard) = some d := hd
    rw [hclient] at hd'
    rw [hparam]
    split at hd'
    next hrole =>
      obtain rfl := Option.some.inj hd'
      have hkb : (p.entry.slots .keyboard).client = some c := by
        rw [← hrole] at hc
        exact hc
      rw [hout.objectId, hid, hown] at hu
      refine Run.foldl_handleEffect (P := fun u => u.Identified p.entry.keyboardParameters)
        (fun d hd => by cases hd) (fun k v hv => ?_) (fun k call hmem v hv => ?_) handle u hu
      · exact h.identified c hkb k v (hid ▸ hv)
      · refine hv.externalMethod fun input hinput => ?_
        -- the call initializes the keyboard, so the closure was queued for that
        obtain ⟨hdriver, -⟩ := hout.call_mem hmem
        rw [hinput] at hdriver
        have htask' := IoTask.driverCall_keyboardInitialize hdriver
        refine h.requested c hkb input ?_
        rw [hq, htask', hid]
        exact List.mem_cons_self
    next hne =>
      rw [hkeep _ (hother _ d (fun heq => hne heq) hd')] at hu
      exact h.identified d hd' handle u hu

/-- One step keeps the identity of the keyboard. -/
theorem step_identity {p q : Peer} {label : PeerLabel} (hlife : Lifecycle p.entry p.recreates)
    (hobj : p.Objects) (h : p.Identity) (hstep : p.step label = some q) : q.Identity := by
  have checked : ∀ queue : List Task, (∀ t ∈ queue, t ∈ p.queue) →
      (finish queue p.fresh.checkStatusChanged).Identity := by
    intro queue hsub
    refine h.keep (fun role => ?_) ?_ ?_ ?_ fun o parameters ht => ?_
    · rw [finish_entry, Run.client_checkStatusChanged]
      rfl
    · simp [fresh]
    · simp [fresh]
    · exact Run.checkStatusChanged_userClients _
    · rcases mem_finish ht with ht | ht
      · exact Or.inl (hsub _ ht)
      · simp [fresh, Dispatcher.enqueued] at ht
  cases step_cases hlife hstep with
  | arrive buffer =>
    refine h.keep (fun _ => rfl) rfl rfl rfl fun o parameters ht => ?_
    rcases List.mem_append.mp ht with ht | ht
    · exact Or.inl ht
    · cases List.mem_singleton.mp ht
  | event role e c hc =>
    refine h.keep (fun _ => rfl) rfl rfl rfl fun o parameters ht => ?_
    rcases List.mem_append.mp ht with ht | ht
    · exact Or.inl ht
    · cases e <;> cases (Task.io.inj (List.mem_singleton.mp ht)).2
  | activated value e =>
    refine h.keep (fun _ => rfl) rfl rfl rfl fun o parameters ht => ?_
    rcases List.mem_append.mp ht with ht | ht
    · exact Or.inl ht
    · cases e <;> cases (Task.io.inj (List.mem_singleton.mp ht)).2
  | poll tasks htasks =>
    refine h.keep (fun _ => rfl) rfl rfl rfl fun o parameters ht => ?_
    rcases List.mem_append.mp ht with ht | ht
    · exact Or.inl ht
    · obtain ⟨kind, c, -, heq⟩ := htasks _ ht
      cases (Task.io.inj heq).2
  | request answers buffer queue hq =>
    refine h.keep (fun _ => rfl) rfl rfl rfl fun o parameters ht => ?_
    rcases List.mem_append.mp ht with ht | ht
    · exact Or.inl (hq ▸ List.mem_cons_of_mem _ ht)
    · obtain ⟨kind, c, -, -, heq | ⟨method, data, offset, heq⟩⟩ := requestTasks_io ht
      · cases heq
      · cases heq
  | keep answers task queue hq htask =>
    exact checked queue fun t ht => hq ▸ List.mem_cons_of_mem _ ht
  | stateChanged answers objectId role queue hq hrole =>
    exact checked queue fun t ht => hq ▸ List.mem_cons_of_mem _ ht
  | newKeyboard answers parameters queue hq hnew =>
    exact h.create hobj (newKeyboard_creates p parameters)
      fun t ht => hq ▸ List.mem_cons_of_mem _ ht
  | newPointing answers queue hq hnone =>
    exact h.create hobj (newPointing_creates hnone) fun t ht => hq ▸ List.mem_cons_of_mem _ ht
  | terminate answers kind task queue hq htask =>
    exact h.remove (switchedOff_removes p kind) fun t ht => hq ▸ List.mem_cons_of_mem _ ht
  | stale answers objectId task queue hq hrole =>
    exact h.keep (fun _ => rfl) rfl rfl rfl
      fun o parameters ht => Or.inl (hq ▸ List.mem_cons_of_mem _ ht)
  | unheard answers objectId s queue hq hs =>
    exact h.keep (fun _ => rfl) rfl rfl rfl
      fun o parameters ht => Or.inl (hq ▸ List.mem_cons_of_mem _ ht)
  | opened answers objectId kind queue hq hrole =>
    refine h.keep (fun _ => rfl) rfl rfl rfl fun o parameters ht => ?_
    rcases List.mem_append.mp ht with ht | ht
    · exact Or.inl (hq ▸ List.mem_cons_of_mem _ ht)
    · obtain ⟨-, heq⟩ := Task.io.inj (List.mem_singleton.mp ht)
      cases kind with
      | keyboard => exact Or.inr (IoTask.keyboardInitialize.inj heq)
      | pointing => cases heq
  | ioTask answers objectId task role c queue hq hrole hc hid htask =>
    exact h.ioTask hobj hq hc hid htask rfl rfl rfl
  | idle index _ _ _ => exact h.keep (fun _ => rfl) rfl rfl rfl fun o parameters ht => Or.inl ht
  | recreate index t ht hgen hen hready =>
    exact h.create hobj (recreated_creates p index t.kind) fun t ht => ht

/-- A step leaves the keyboard of an open connection alone. -/
theorem step_keyboard {p q : Peer} {label : PeerLabel} (hlife : Lifecycle p.entry p.recreates)
    (hid : p.Identity) (hstep : p.step label = some q) {o handle : ℕ}
    {u v : UserClient} {d : Device} (hu : p.userClients o handle = some u)
    (hd : u.keyboard = some d) (hv : q.userClients o handle = some v) :
    v.keyboard = some d ∧ v.identity = u.identity := by
  have same : q.userClients o handle = p.userClients o handle →
      v.keyboard = some d ∧ v.identity = u.identity := by
    intro heq
    rw [heq, hu] at hv
    obtain rfl := Option.some.inj hv
    exact ⟨hd, rfl⟩
  have closed : q.userClients o handle = p.userClients o handle ∨
      q.userClients o handle = none → v.keyboard = some d ∧ v.identity = u.identity := by
    rintro (heq | hnone)
    · exact same heq
    · rw [hv] at hnone
      cases hnone
  cases step_cases hlife hstep with
  | keep answers task queue hq htask =>
    refine same ?_
    rw [finish, Run.checkStatusChanged_userClients]
    rfl
  | stateChanged answers objectId role queue hq hrole =>
    refine same ?_
    rw [finish, Run.checkStatusChanged_userClients]
    rfl
  | newKeyboard answers parameters queue hq hnew =>
    exact closed ((newKeyboard_creates p parameters).userClients o handle)
  | newPointing answers queue hq hnone =>
    exact closed ((newPointing_creates hnone).userClients o handle)
  | terminate answers kind task queue hq htask =>
    exact closed ((switchedOff_removes p kind).userClients o handle)
  | recreate index t ht hgen hen hready =>
    exact closed ((recreated_creates p index t.kind).userClients o handle)
  | ioTask answers objectId task role c queue hq hrole hc hcid htask =>
    by_cases ho : o = objectId
    · subst ho
      simp only [Function.update_self] at hv
      have hout := IoRun.runTask_outcome answers c htask
      refine Run.foldl_handleEffect_keyboard (fun w hw => ?_) (fun id hmem => ?_) v hv
      · rw [hu] at hw
        obtain rfl := Option.some.inj hw
        exact ⟨hd, rfl⟩
      · -- a new connection has a number that was not in use
        have hnone := hid.unopened role c hc handle (hout.opens id handle hmem).1
        rw [hcid, hu] at hnone
        cases hnone
    · refine same ?_
      simp only [Function.update_of_ne ho]
  | _ => exact same rfl

end Peer

/-- `static_cast<uint32_t>` keeps the value modulo 2^32. -/
theorem KeyboardIdentity.ofInput_toNat (parameters : Parameters) :
    (KeyboardIdentity.ofInput parameters).vendorId.toNat = parameters.vendorId.toNat % 2 ^ 32 ∧
      (KeyboardIdentity.ofInput parameters).productId.toNat =
        parameters.productId.toNat % 2 ^ 32 ∧
      (KeyboardIdentity.ofInput parameters).countryCode.toNat =
        parameters.countryCode.toNat % 2 ^ 32 :=
  ⟨UInt64.toNat_toUInt32 _, UInt64.toNat_toUInt32 _, UInt64.toNat_toUInt32 _⟩

/-- The keyboard has the identity that was asked for. In every reachable
state, if the current keyboard client has an open connection whose user client
holds a keyboard, the identity of the user client is that of the entry's
parameters modulo 2^32, and it was so when the keyboard was created. In every
step from there, a keyboard that a user client holds stays the same device with
the same identity for as long as the connection is open. -/
theorem keyboard_has_requested_identity (activated : Bool) (labels : List PeerLabel) (p : Peer)
    (h : Transition.run Peer.step (Peer.init activated) labels = some p) :
    (∀ c handle u d, (p.entry.slots .keyboard).client = some c → c.connection = some handle →
      p.userClients c.objectId handle = some u → u.keyboard = some d →
      u.identity.vendorId.toNat = p.entry.keyboardParameters.vendorId.toNat % 2 ^ 32 ∧
      u.identity.productId.toNat = p.entry.keyboardParameters.productId.toNat % 2 ^ 32 ∧
      u.identity.countryCode.toNat = p.entry.keyboardParameters.countryCode.toNat % 2 ^ 32 ∧
      d.identity = u.identity) ∧
    ∀ label q, p.step label = some q → ∀ o handle u v d, p.userClients o handle = some u →
      u.keyboard = some d → q.userClients o handle = some v →
      v.keyboard = some d ∧ v.identity = u.identity := by
  have key : Lifecycle p.entry p.recreates ∧ p.Objects ∧ p.Identity := by
    refine Transition.run_invariant (I := fun p : Peer =>
      Lifecycle p.entry p.recreates ∧ p.Objects ∧ p.Identity) ?_ ?_ h
    · obtain ⟨hlife, hobj⟩ := Peer.run_objects activated [] rfl
      refine ⟨hlife, hobj, fun _ _ _ _ _ => rfl, fun _ _ _ => rfl, ?_, ?_⟩
      · intro c hc
        cases hc
      · intro c hc
        cases hc
    · rintro p label q ⟨hlife, hobj, hid⟩ hstep
      exact ⟨(Peer.step_lifecycle hlife hstep).1, Peer.step_objects hlife hobj hstep,
        Peer.step_identity hlife hobj hid hstep⟩
  obtain ⟨hlife, -, hid⟩ := key
  refine ⟨fun c handle u d hc _ hu hd => ?_, ?_⟩
  · obtain ⟨hident, hdev⟩ := hid.identified c hc handle u hu d hd
    obtain ⟨hv, hp, hcc⟩ := KeyboardIdentity.ofInput_toNat p.entry.keyboardParameters
    rw [hident]
    exact ⟨hv, hp, hcc, hdev⟩
  · intro label q hstep o handle u v d hu hd hv
    exact Peer.step_keyboard hlife hid hstep hu hd hv

/-- A keyboard is asked for with a vendor id of more than 32 bits, and created at
the second attempt. -/
def longVendorId : List PeerLabel :=
  [.run {}, .run {}, .request (ClientOperation.keyboardInitialize
     ⟨0x1000016c0, 0x27db, 0⟩).requestBuffer,
   .run {}, .run {}, .run {}, .event (.device .keyboard) (.matched 7),
   .run { serviceOpen := fun _ => .opened (some 10800) },
   .run {}, .run {}, .run {}, .run { create := .createFailed },
   .event (.device .keyboard) (.terminated 7), .event (.device .keyboard) (.matched 8),
   .run {}, .run { serviceOpen := fun _ => .opened (some 10800) },
   .run {}, .run {}, .run {}, .run {}, .run {}, .run {}, .run { create := .created }]

/-- The driver keeps the low 32 bits, on the second connection. -/
theorem long_vendor_id_truncated :
    ∃ p c u d, Transition.run Peer.step (Peer.init true) longVendorId = some p ∧
      (p.entry.slots .keyboard).client = some c ∧ c.connection = some 1 ∧
      p.userClients c.objectId 1 = some u ∧ u.keyboard = some d ∧
      u.identity.vendorId.toNat = 0x1000016c0 % 2 ^ 32 := by
  have hrun : ((Transition.run Peer.step (Peer.init true) longVendorId).map fun p =>
      (p.entry.keyboardParameters, ((p.entry.slots .keyboard).client.map fun c =>
        (c.connection, (p.userClients c.objectId 1).map (·.keyboard))))) =
      some (⟨0x1000016c0, 0x27db, 0⟩, some (some 1, some (some ⟨0, ⟨0x16c0, 0x27db, 0⟩⟩))) := by
    decide +kernel
  obtain ⟨p, hp, heq⟩ := Option.map_eq_some_iff.mp hrun
  obtain ⟨hparam, hclient⟩ := Prod.mk.inj heq
  obtain ⟨c, hc, hpair⟩ := Option.map_eq_some_iff.mp hclient
  obtain ⟨hconn, huser⟩ := Prod.mk.inj hpair
  obtain ⟨u, hu, hk⟩ := Option.map_eq_some_iff.mp huser
  have hid := (keyboard_has_requested_identity true longVendorId p hp).1 c 1 u _ hc hconn hu hk
  rw [hparam] at hid
  exact ⟨p, c, u, _, hp, hc, hconn, hu, hk, hid.1⟩

end VirtualHidDevice
