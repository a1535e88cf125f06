import VirtualHidDevice.Peer

/-!
# The lifecycle of the devices

* `SlotInvariant`, `Lifecycle` — a device has an io service client exactly while
  it is enabled, and at most one delayed closure can still act on it: the one
  that was scheduled for the client that is there.
* `Run.Alive` — the same in the middle of a task; one lemma for each closure of
  the entry says that it keeps the lifecycle and leaves the other device alone.
* `Peer.step_lifecycle`, `device_lifecycle` — one step, and whole runs.
-/

namespace VirtualHidDevice

/-! ## The lifecycle of a device -/

/-- What holds for one device between tasks: its slot and the delayed closures. -/
structure SlotInvariant (kind : DeviceKind) (slot : Slot) (recreates : List Recreate) : Prop where
  /-- there is an io service client exactly while the device is enabled -/
  synced : slot.client.isSome = slot.enabled
  /-- no closure is ahead of the current generation -/
  bound : ∀ t ∈ recreates, t.kind = kind → t.generationId ≤ slot.generationId
  /-- at most one closure has the current generation -/
  single : (recreates.filter fun t =>
    t.kind = kind ∧ t.generationId = slot.generationId).length ≤ 1
  /-- that closure was scheduled for the client that is there -/
  target : ∀ t ∈ recreates, t.kind = kind → t.generationId = slot.generationId →
    ∀ c, slot.client = some c → t.scheduledFor = c.objectId

/-- The invariant of both devices. -/
def Lifecycle (e : ClientEntry) (recreates : List Recreate) : Prop :=
  ∀ kind, SlotInvariant kind (e.slots kind) recreates

/-- The object in a slot. -/
def Slot.objectId (slot : Slot) : Option ℕ := slot.client.map (·.objectId)

namespace SlotInvariant

variable {kind : DeviceKind} {slot : Slot} {recreates : List Recreate}

/-- Only the objects matter, not the state of the clients. -/
theorem congr {slot' : Slot} (h : SlotInvariant kind slot recreates)
    (hid : slot'.objectId = slot.objectId) (hgen : slot'.generationId = slot.generationId)
    (hen : slot'.enabled = slot.enabled) : SlotInvariant kind slot' recreates := by
  obtain ⟨synced, bound, single, target⟩ := h
  refine ⟨?_, hgen ▸ bound, hgen ▸ single, ?_⟩
  · have hsome : slot'.client.isSome = slot.client.isSome := by
      have := congrArg Option.isSome hid
      simpa [Slot.objectId] using this
    rw [hsome, synced, hen]
  · intro t ht hk hg c hc
    have hobj : slot.client.map (·.objectId) = some c.objectId := by
      rw [Slot.objectId, hc] at hid
      exact hid.symm
    obtain ⟨d, hd, hdc⟩ := Option.map_eq_some_iff.mp hobj
    rw [target t ht hk (hg.trans hgen) d hd, hdc]

/-- A closure that has fired is forgotten. -/
theorem sublist {recreates' : List Recreate} (h : SlotInvariant kind slot recreates)
    (hsub : recreates'.Sublist recreates) : SlotInvariant kind slot recreates' :=
  ⟨h.synced, fun t ht => h.bound t (hsub.subset ht),
    (hsub.filter _).length_le.trans h.single, fun t ht => h.target t (hsub.subset ht)⟩

/-- A new client, and a closure for it, with a new generation. -/
theorem create (h : ∀ t ∈ recreates, t.kind = kind → t.generationId ≤ slot.generationId)
    (c : IoServiceClient) :
    SlotInvariant kind ⟨some c, slot.generationId + 1, true⟩
      (recreates ++ [⟨kind, slot.generationId + 1, c.objectId⟩]) := by
  have hold : ∀ t ∈ recreates, ¬ (t.kind = kind ∧ t.generationId = slot.generationId + 1) := by
    rintro t ht ⟨hk, hg⟩
    have := h t ht hk
    omega
  refine ⟨rfl, ?_, ?_, ?_⟩
  · intro t ht hk
    rcases List.mem_append.mp ht with ht | ht
    · exact (h t ht hk).trans (Nat.le_succ _)
    · rw [List.mem_singleton.mp ht]
  · rw [List.filter_append, List.filter_eq_nil_iff.mpr (by simpa using hold)]
    exact List.length_filter_le _ _
  · intro t ht hk hg d hd
    obtain rfl := Option.some.inj hd
    rcases List.mem_append.mp ht with ht | ht
    · exact absurd ⟨hk, hg⟩ (hold t ht)
    · rw [List.mem_singleton.mp ht]

/-- A closure for the other device does not matter. -/
theorem create_other {t : Recreate} (h : SlotInvariant kind slot recreates) (ht : t.kind ≠ kind) :
    SlotInvariant kind slot (recreates ++ [t]) := by
  have hfilter : ∀ (p : Recreate → Bool), (p t = true → t.kind = kind) →
      (recreates ++ [t]).filter p = recreates.filter p := by
    intro p hp
    have : p t = false := by
      by_contra hne
      exact ht (hp (by simpa using hne))
    simp [this]
  refine ⟨h.synced, ?_, ?_, ?_⟩
  · intro u hu hk
    rcases List.mem_append.mp hu with hu | hu
    · exact h.bound u hu hk
    · rw [List.mem_singleton.mp hu] at hk
      exact absurd hk ht
  · rw [hfilter _ (by simp only [decide_eq_true_eq]; exact fun h => h.1)]
    exact h.single
  · intro u hu hk
    rcases List.mem_append.mp hu with hu | hu
    · exact h.target u hu hk
    · rw [List.mem_singleton.mp hu] at hk
      exact absurd hk ht

/-- A terminated device: no closure has its new generation. -/
theorem terminate (h : SlotInvariant kind slot recreates) :
    SlotInvariant kind ⟨none, slot.generationId + 1, false⟩ recreates := by
  refine ⟨rfl, fun t ht hk => (h.bound t ht hk).trans (Nat.le_succ _), ?_, ?_⟩
  · rw [List.filter_eq_nil_iff.mpr]
    · exact Nat.zero_le 1
    · intro t ht hcond
      obtain ⟨hk, hg⟩ := of_decide_eq_true hcond
      have := h.bound t ht hk
      simp only at hg
      omega
  · intro t _ _ _ c hc
    cases hc

end SlotInvariant

/-! ### What a task does to the devices -/

namespace Run

/-- The slots and the delayed closures are in order. -/
def Alive (r : Run) : Prop := Lifecycle r.entry r.recreates

theorem Alive.synced {r : Run} (h : r.Alive) : ∀ kind, r.entry.Synced kind :=
  fun kind => (h kind).synced

/-- A new client in a slot keeps the lifecycle, whatever was in the slot. -/
theorem create_alive {r : Run} {kind : DeviceKind}
    (hkind : ∀ t ∈ r.recreates, t.kind = kind →
      t.generationId ≤ (r.entry.slots kind).generationId)
    (hen : (r.entry.slots kind).enabled = true)
    (hother : ∀ k, k ≠ kind → SlotInvariant k (r.entry.slots k) r.recreates) :
    (r.createVirtualHidClient kind).Alive := by
  intro k
  by_cases hk : k = kind
  · subst hk
    rw [createVirtualHidClient_slots_self, createVirtualHidClient_recreates]
    simpa [hen] using SlotInvariant.create hkind { objectId := r.entry.nextObjectId }
  · rw [createVirtualHidClient_slots_of_ne hk, createVirtualHidClient_recreates]
    exact (hother k hk).create_other (Ne.symm hk)

theorem checkStatusChanged_alive {r : Run} (h : r.Alive) : r.checkStatusChanged.Alive := by
  intro k
  rw [checkStatusChanged_slots, checkStatusChanged_recreates]
  exact h k

theorem initializeKeyboard_alive {r : Run} (h : r.Alive) (parameters : Parameters) :
    (r.initializeKeyboard parameters).Alive ∧
      ∀ k, k ≠ .keyboard → (r.initializeKeyboard parameters).entry.slots k = r.entry.slots k := by
  rw [initializeKeyboard_eq h.synced]
  split
  · refine ⟨checkStatusChanged_alive h, fun k _ => ?_⟩
    rw [checkStatusChanged_slots]
  · refine ⟨checkStatusChanged_alive (create_alive ?_ ?_ ?_), fun k hk => ?_⟩
    · simpa [setParameters, setEnabled] using (h .keyboard).bound
    · simp [setParameters, setEnabled]
    · intro k hk
      simpa [setParameters, setEnabled, hk] using h k
    · rw [checkStatusChanged_slots]
      simp [setParameters, setEnabled, hk]

theorem initializePointing_alive {r : Run} (h : r.Alive) : r.initializePointing.Alive ∧
    ∀ k, k ≠ .pointing → r.initializePointing.entry.slots k = r.entry.slots k := by
  rw [initializePointing_eq h.synced]
  split
  · refine ⟨checkStatusChanged_alive h, fun k _ => ?_⟩
    rw [checkStatusChanged_slots]
  · refine ⟨checkStatusChanged_alive (create_alive ?_ ?_ ?_), fun k hk => ?_⟩
    · simpa [setEnabled] using (h .pointing).bound
    · simp [setEnabled]
    · intro k hk
      simpa [setEnabled, hk] using h k
    · rw [checkStatusChanged_slots]
      simp [setEnabled, hk]

theorem terminate_alive {r : Run} (h : r.Alive) (kind : DeviceKind) : (r.terminate kind).Alive ∧
    ∀ k, k ≠ kind → (r.terminate kind).entry.slots k = r.entry.slots k := by
  refine ⟨checkStatusChanged_alive fun k => ?_, fun k hk => ?_⟩
  · by_cases hk : k = kind
    · subst hk
      simpa [setEnabled] using (h k).terminate
    · simpa [setEnabled, hk] using h k
  · rw [terminate, checkStatusChanged_slots]
    simp [setEnabled, hk]

/-- The delayed closure: when it discards a client, it is the one the closure
was scheduled for. -/
theorem recreate_alive {r : Run} (h : r.Alive) (task : Recreate)
    (htask : task.generationId = (r.entry.slots task.kind).generationId →
      ∀ c, (r.entry.slots task.kind).client = some c → task.scheduledFor = c.objectId) :
    (r.recreate task).Alive ∧
      (∀ k, k ≠ task.kind → (r.recreate task).entry.slots k = r.entry.slots k) ∧
      ∀ c, (r.entry.slots task.kind).client = some c →
        ((r.recreate task).entry.slots task.kind).objectId ≠ some c.objectId →
        task.scheduledFor = c.objectId := by
  rw [recreate_eq h.synced]
  split
  next hcond =>
    refine ⟨create_alive ?_ ?_ ?_, fun k hk => ?_, fun c hc _ => htask hcond.1 c hc⟩
    · simpa using (h task.kind).bound
    · simp [hcond.2.1]
    · intro k hk
      simpa [hk] using h k
    · simp [hk]
  next =>
    refine ⟨h, fun _ _ => rfl, fun c hc hne => ?_⟩
    rw [Slot.objectId, hc] at hne
    exact absurd rfl hne

theorem request_alive {r : Run} (h : r.Alive) (buffer : Bytes) : (r.request buffer).Alive ∧
    (r.request buffer).entry.slots = r.entry.slots := by
  rw [request_eq]
  exact ⟨h, rfl⟩

theorem readyTimer_eq (r : Run) : ∃ tasks : List Task,
    r.readyTimer = { r with effects := r.effects ++ tasks.map .enqueue } ∧
    ∀ t ∈ tasks, ∃ kind c, (r.entry.slots kind).client = some c ∧
      t = .io c.objectId (.ready kind) := by
  rcases hk : (r.entry.slots .keyboard).client with _ | c <;>
    rcases hp : (r.entry.slots .pointing).client with _ | d
  · exact ⟨[], by simp [readyTimer, hk, hp], by simp⟩
  · refine ⟨[.io d.objectId (.ready .pointing)], by simp [readyTimer, hk, hp, enqueue], ?_⟩
    intro t ht
    exact ⟨.pointing, d, hp, List.mem_singleton.mp ht⟩
  · refine ⟨[.io c.objectId (.ready .keyboard)], by simp [readyTimer, hk, hp, enqueue], ?_⟩
    intro t ht
    exact ⟨.keyboard, c, hk, List.mem_singleton.mp ht⟩
  · refine ⟨[.io c.objectId (.ready .keyboard), .io d.objectId (.ready .pointing)],
      by simp [readyTimer, hk, hp, enqueue], ?_⟩
    intro t ht
    rcases List.mem_cons.mp ht with ht | ht
    · exact ⟨.keyboard, c, hk, ht⟩
    · exact ⟨.pointing, d, hp, List.mem_singleton.mp ht⟩

/-- Storing the new state of a client leaves the same objects in the slots. -/
theorem setClient_objectId {e : ClientEntry} {role : Role} {c d : IoServiceClient}
    (hc : e.client role = some c) (hid : d.objectId = c.objectId) (kind : DeviceKind) :
    ((e.setClient d role).slots kind).objectId = (e.slots kind).objectId ∧
      ((e.setClient d role).slots kind).generationId = (e.slots kind).generationId ∧
      ((e.setClient d role).slots kind).enabled = (e.slots kind).enabled := by
  cases role with
  | noVirtualDevices => exact ⟨rfl, rfl, rfl⟩
  | device k =>
    by_cases hk : kind = k
    · subst hk
      have hobj : (e.slots kind).client = some c := hc
      refine ⟨?_, ?_, ?_⟩ <;> simp [ClientEntry.setClient, Slot.objectId, hobj, hid]
    · refine ⟨?_, ?_, ?_⟩ <;> simp [ClientEntry.setClient, hk]

theorem signal_slots (role : Role) (objectId : ℕ) (r : Run) (s : IoSignal) :
    (r.signal role objectId s).entry.slots = r.entry.slots ∧
      (r.signal role objectId s).recreates = r.recreates := by
  cases s with
  | stateChanged => exact ⟨checkStatusChanged_slots r, checkStatusChanged_recreates r⟩
  | opened =>
    cases role with
    | noVirtualDevices => exact ⟨rfl, rfl⟩
    | device kind => cases kind <;> exact ⟨rfl, rfl⟩
  | closed => exact ⟨rfl, rfl⟩

/-- Closures of the io service clients neither create nor destroy clients. -/
theorem ioTask_slots (answers : Answers) (objectId : ℕ) (task : IoTask) (r : Run) :
    (∀ kind, ((r.ioTask answers objectId task).entry.slots kind).objectId =
        (r.entry.slots kind).objectId ∧
      ((r.ioTask answers objectId task).entry.slots kind).generationId =
        (r.entry.slots kind).generationId ∧
      ((r.ioTask answers objectId task).entry.slots kind).enabled =
        (r.entry.slots kind).enabled) ∧
    (r.ioTask answers objectId task).recreates = r.recreates := by
  rcases hrole : r.entry.role objectId with _ | role
  · rw [ioTask_of_none hrole]
    exact ⟨fun _ => ⟨rfl, rfl, rfl⟩, rfl⟩
  · obtain ⟨c, hc, -⟩ := ClientEntry.role_eq_some hrole
    by_cases htask : ∃ s, task = .signal s
    · obtain ⟨s, rfl⟩ := htask
      obtain ⟨hslots, hrec⟩ := signal_slots role objectId r s
      rw [ioTask_signal hrole hc, hslots]
      exact ⟨fun _ => ⟨rfl, rfl, rfl⟩, hrec⟩
    · have hne : ∀ s, task ≠ .signal s := fun s hs => htask ⟨s, hs⟩
      rw [ioTask_eq hrole hc hne]
      exact ⟨setClient_objectId hc (IoRun.runTask_outcome answers c hne).objectId, rfl⟩

end Run

/-- The device whose task a step runs. -/
def Peer.taskKind (p : Peer) : PeerLabel → Option DeviceKind
  | .run _ => match p.queue with
    | .entry (.initializeKeyboard _) :: _ => some .keyboard
    | .entry .terminateKeyboard :: _ => some .keyboard
    | .entry .initializePointing :: _ => some .pointing
    | .entry .terminatePointing :: _ => some .pointing
    | _ => none
  | .recreate index => (p.recreates[index]?).map (·.kind)
  | _ => none

/-- A task keeps the lifecycle, and replaces clients of its own device only. -/
theorem Peer.task_lifecycle {p : Peer} (h : Lifecycle p.entry p.recreates) (answers : Answers)
    {task : Task} {queue : List Task} (hq : p.queue = task :: queue) :
    Lifecycle (Run.task answers ⟨p.toLocal, []⟩ task).entry
        (Run.task answers ⟨p.toLocal, []⟩ task).recreates ∧
      ∀ kind, ((Run.task answers ⟨p.toLocal, []⟩ task).entry.slots kind).objectId ≠
        (p.entry.slots kind).objectId → p.taskKind (.run answers) = some kind := by
  -- a task of the entry acts on one device
  have acts : ∀ (r : Run) (kind : DeviceKind), r.Alive → p.taskKind (.run answers) = some kind →
      (∀ k, k ≠ kind → r.entry.slots k = p.entry.slots k) →
      Lifecycle r.entry r.recreates ∧ (∀ k, (r.entry.slots k).objectId ≠
        (p.entry.slots k).objectId → p.taskKind (.run answers) = some k) := by
    intro r kind halive hkind hother
    refine ⟨halive, fun k hne => ?_⟩
    by_cases hk : k = kind
    · rw [hk]
      exact hkind
    · rw [hother k hk] at hne
      exact absurd rfl hne
  cases task with
  | request buffer =>
    obtain ⟨halive, hslots⟩ := Run.request_alive (r := ⟨p.toLocal, []⟩) h buffer
    exact ⟨halive, fun kind hne => absurd (by rw [Run.task, hslots]) hne⟩
  | io objectId t =>
    obtain ⟨hslots, hrec⟩ := Run.ioTask_slots answers objectId t ⟨p.toLocal, []⟩
    refine ⟨fun kind => ?_, fun kind hne => absurd (hslots kind).1 hne⟩
    rw [Run.task, hrec]
    exact (h kind).congr (hslots kind).1 (hslots kind).2.1 (hslots kind).2.2
  | entry t =>
    cases t with
    | initializeKeyboard parameters =>
      obtain ⟨halive, hother⟩ := Run.initializeKeyboard_alive (r := ⟨p.toLocal, []⟩) h parameters
      exact acts _ .keyboard halive (by simp [Peer.taskKind, hq]) hother
    | terminateKeyboard =>
      obtain ⟨halive, hother⟩ := Run.terminate_alive (r := ⟨p.toLocal, []⟩) h .keyboard
      exact acts _ .keyboard halive (by simp [Peer.taskKind, hq]) hother
    | initializePointing =>
      obtain ⟨halive, hother⟩ := Run.initializePointing_alive (r := ⟨p.toLocal, []⟩) h
      exact acts _ .pointing halive (by simp [Peer.taskKind, hq]) hother
    | terminatePointing =>
      obtain ⟨halive, hother⟩ := Run.terminate_alive (r := ⟨p.toLocal, []⟩) h .pointing
      exact acts _ .pointing halive (by simp [Peer.taskKind, hq]) hother
    | checkStatusChanged =>
      refine ⟨Run.checkStatusChanged_alive (r := ⟨p.toLocal, []⟩) h, fun kind hne => ?_⟩
      exact absurd (by rw [Run.task, Run.entryTask, Run.checkStatusChanged_slots]) hne

/-- One step keeps the lifecycle, replaces clients of the task's own device
only, and discards a client in a delayed closure only if it is the one the
closure was scheduled for. -/
theorem Peer.step_lifecycle {p q : Peer} {label : PeerLabel} (h : Lifecycle p.entry p.recreates)
    (hstep : p.step label = some q) :
    Lifecycle q.entry q.recreates ∧
    (∀ kind, (q.entry.slots kind).objectId ≠ (p.entry.slots kind).objectId →
      p.taskKind label = some kind) ∧
    ∀ index t, label = .recreate index → p.recreates[index]? = some t →
      ∀ c, (p.entry.slots t.kind).client = some c →
        (q.entry.slots t.kind).objectId ≠ some c.objectId → t.scheduledFor = c.objectId := by
  cases label with
  | run answers =>
    rcases hq : p.queue with _ | ⟨task, queue⟩
    · simp [Peer.step, hq] at hstep
    · simp only [Peer.step, hq, Option.some.injEq] at hstep
      obtain rfl := hstep
      obtain ⟨hlife, hkind⟩ := Peer.task_lifecycle h answers hq
      exact ⟨hlife, hkind, fun index t hl => by cases hl⟩
  | request buffer =>
    obtain rfl := Option.some.inj hstep
    exact ⟨h, fun kind hne => absurd rfl hne, fun index t hl => by cases hl⟩
  | event role event =>
    rcases hc : p.entry.client role with _ | c
    · simp [Peer.step, hc] at hstep
    · simp only [Peer.step, hc] at hstep
      split at hstep
      · obtain rfl := Option.some.inj hstep
        exact ⟨h, fun kind hne => absurd rfl hne, fun index t hl => by cases hl⟩
      · cases hstep
  | driverActivated value event =>
    rw [Peer.step] at hstep
    split at hstep
    · obtain rfl := Option.some.inj hstep
      exact ⟨h, fun kind hne => absurd rfl hne, fun index t hl => by cases hl⟩
    · cases hstep
  | readyTimer =>
    obtain rfl := Option.some.inj hstep
    obtain ⟨tasks, heq, -⟩ := Run.readyTimer_eq ⟨p.toLocal, []⟩
    rw [heq]
    exact ⟨h, fun kind hne => absurd rfl hne, fun index t hl => by cases hl⟩
  | recreate index =>
    rcases ht : p.recreates[index]? with _ | task
    · simp [Peer.step, ht] at hstep
    · simp only [Peer.step, ht, Option.some.injEq] at hstep
      obtain rfl := hstep
      have hmem : task ∈ p.recreates := List.mem_of_getElem? ht
      have halive : Run.Alive ⟨{ p.toLocal with recreates := p.recreates.eraseIdx index }, []⟩ :=
        fun kind => (h kind).sublist (List.eraseIdx_sublist _ _)
      obtain ⟨halive', hother, htarget⟩ := Run.recreate_alive halive task
        fun hgen c hc => (h task.kind).target task hmem rfl hgen c hc
      refine ⟨halive', fun kind hne => ?_, ?_⟩
      · by_cases hk : kind = task.kind
        · simp [Peer.taskKind, ht, hk]
        · exact absurd (congrArg Slot.objectId (hother kind hk)) hne
      · intro i t hl hti c hc hne
        obtain rfl := PeerLabel.recreate.inj hl
        rw [ht] at hti
        obtain rfl := Option.some.inj hti
        exact htarget c hc hne

/-- A new entry has no devices. -/
theorem lifecycle_init : Lifecycle ClientEntry.init [] := by
  intro kind
  refine ⟨rfl, ?_, Nat.zero_le 1, ?_⟩
  · intro t ht
    cases ht
  · intro t ht
    cases ht

/-- The lifecycle holds along every run, from a new entry. -/
theorem Peer.run_lifecycle {activated : Bool} {labels : List PeerLabel} {p : Peer}
    (h : Transition.run Peer.step (Peer.init activated) labels = some p) :
    Lifecycle p.entry p.recreates := by
  refine Transition.run_invariant (I := fun p : Peer => Lifecycle p.entry p.recreates)
    lifecycle_init ?_ h
  intro p label q hp hstep
  exact (Peer.step_lifecycle hp hstep).1

/-- The lifecycle of the devices. In every reachable state, whenever the
delayed closures fire: a device has an io service client exactly while it is
enabled, and at most one pending closure carries its current generation. In
every step from there: a client is created, destroyed or replaced only by a task
of its own device, and a delayed closure that discards a client discards the
very one it was scheduled for. -/
theorem device_lifecycle (activated : Bool) (labels : List PeerLabel) (p : Peer)
    (h : Transition.run Peer.step (Peer.init activated) labels = some p) :
    (∀ kind, ((p.entry.slots kind).client.isSome ↔ (p.entry.slots kind).enabled = true) ∧
      (p.recreates.filter fun t =>
        t.kind = kind ∧ t.generationId = (p.entry.slots kind).generationId).length ≤ 1) ∧
    ∀ label q, p.step label = some q →
      (∀ index t, label = .recreate index → p.recreates[index]? = some t →
        ∀ c, (p.entry.slots t.kind).client = some c →
          (q.entry.slots t.kind).objectId ≠ some c.objectId → t.scheduledFor = c.objectId) ∧
      ∀ kind, (q.entry.slots kind).objectId ≠ (p.entry.slots kind).objectId →
        p.taskKind label = some kind := by
  have hlife := Peer.run_lifecycle h
  refine ⟨fun kind => ⟨?_, (hlife kind).single⟩, fun label q hstep => ?_⟩
  · rw [(hlife kind).synced]
  · obtain ⟨-, hkind, htarget⟩ := Peer.step_lifecycle hlife hstep
    exact ⟨htarget, hkind⟩

/-- The keyboard is requested, and its delayed closure fires before the driver
has answered. -/
def slowKeyboard : List PeerLabel :=
  [.request (ClientOperation.keyboardInitialize .init).requestBuffer,
   .run {}, .run {}, .run {}, .run {}, .recreate 0]

/-- The first client has been discarded, the second one has a closure of its own. -/
theorem slow_keyboard_recreated :
    ∃ p, Transition.run Peer.step (Peer.init true) slowKeyboard = some p ∧
      (p.entry.slots .keyboard).objectId = some 2 ∧ p.recreates = [⟨.keyboard, 2, 2⟩] ∧
      ∀ kind, ((p.entry.slots kind).client.isSome ↔ (p.entry.slots kind).enabled = true) ∧
        (p.recreates.filter fun t =>
          t.kind = kind ∧ t.generationId = (p.entry.slots kind).generationId).length ≤ 1 :=
  ⟨_, rfl, rfl, rfl, (device_lifecycle true slowKeyboard _ rfl).1⟩

end VirtualHidDevice
