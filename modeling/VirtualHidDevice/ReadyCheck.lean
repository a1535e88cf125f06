import VirtualHidDevice.StepCases

/-!
# The check of a new client

With each client a delayed closure is scheduled, which looks once whether the device is ready, and
replaces the client if it is not.

* `Peer.fired`, `Peer.kept` — the delayed closure that a step runs, and those that it does not.
* `Peer.ClientCase` — what a step does to the clients and their closures.
* `Fired`, `FoundReady` — a closure has run, or has run and found the device ready.
* `Peer.Checked` — along every run, each client has its closure pending, or was found ready by it.

`initialize_way_to_ready` is the result, and `lost_keyboard_stays_lost` the case in which nothing
is left to look after a device.
-/

namespace VirtualHidDevice

/-! ## The closure of a client -/

/-- The delayed closure that was scheduled for the client of a device. -/
def ClientEntry.check (e : ClientEntry) (kind : DeviceKind) (c : IoServiceClient) : Recreate :=
  ⟨kind, (e.slots kind).generationId, c.objectId⟩

/-- The device is ready, or a delayed closure of its generation will look after it. -/
def Local.WayToReady (l : Local) (kind : DeviceKind) : Prop :=
  l.entry.ready kind = true ∨
    ∃ t ∈ l.recreates, t.kind = kind ∧ t.generationId = (l.entry.slots kind).generationId

instance (l : Local) (kind : DeviceKind) : Decidable (l.WayToReady kind) :=
  inferInstanceAs (Decidable (_ ∨ _))

namespace Peer

/-- The delayed closure that a step runs. -/
def fired (p : Peer) : PeerLabel → Option Recreate
  | .recreate index => p.recreates[index]?
  | _ => none

/-- The delayed closures that a step does not run. -/
def kept (p : Peer) : PeerLabel → List Recreate
  | .recreate index => p.recreates.eraseIdx index
  | _ => p.recreates

variable {p q : Peer} {label : PeerLabel} {t : Recreate}

theorem kept_sublist (p : Peer) (label : PeerLabel) : (p.kept label).Sublist p.recreates := by
  cases label with
  | recreate index => exact List.eraseIdx_sublist _ _
  | _ => exact List.Sublist.refl _

/-- A closure that does not run stays. -/
theorem mem_kept (ht : t ∈ p.recreates) : t ∈ p.kept label ∨ p.fired label = some t := by
  cases label with
  | recreate index =>
    obtain ⟨i, hi⟩ := List.mem_iff_getElem?.mp ht
    by_cases heq : i = index
    · exact Or.inr (heq ▸ hi)
    · exact Or.inl (List.mem_eraseIdx_iff_getElem?.mpr ⟨i, heq, hi⟩)
  | _ => exact Or.inl ht

theorem mem_of_fired (ht : p.fired label = some t) : t ∈ p.recreates := by
  cases label with
  | recreate index => exact List.mem_of_getElem? ht
  | _ => cases ht

/-- And one that runs is gone, if there is no other like it. -/
theorem not_mem_kept (hnodup : p.recreates.Nodup) (ht : p.fired label = some t) :
    t ∉ p.kept label := by
  cases label with
  | recreate index =>
    intro hmem
    obtain ⟨i, hne, hi⟩ := List.mem_eraseIdx_iff_getElem?.mp hmem
    obtain ⟨hlt, -⟩ := List.getElem?_eq_some_iff.mp hi
    exact hne ((List.getElem?_inj hlt hnodup).mp (hi.trans ht.symm))
  | _ => cases ht

/-! ## What a step does to the clients -/

/-- A device keeps its client, with its generation. -/
def SameClient (p q : Peer) (kind : DeviceKind) : Prop :=
  (q.entry.slots kind).objectId = (p.entry.slots kind).objectId ∧
    (q.entry.slots kind).generationId = (p.entry.slots kind).generationId

/-- What a step does to the clients of the devices and to their delayed closures. -/
inductive ClientCase (p : Peer) (label : PeerLabel) (q : Peer) : Prop
  /-- the clients stay, and a closure that runs is out of date, or finds its device ready -/
  | same (hsame : ∀ kind, SameClient p q kind) (hrecreates : q.recreates = p.kept label)
      (hfound : ∀ t, p.fired label = some t →
        t.generationId = (p.entry.slots t.kind).generationId →
        (p.entry.slots t.kind).enabled = true → p.entry.ready t.kind = true)
  /-- one device gets a new client, and a closure for it -/
  | create (kind : DeviceKind) (hothers : ∀ k, k ≠ kind → SameClient p q k)
      (hobject : (q.entry.slots kind).objectId = some p.entry.nextObjectId)
      (hgeneration : (q.entry.slots kind).generationId = (p.entry.slots kind).generationId + 1)
      (hrecreates : q.recreates = p.kept label ++
        [⟨kind, (p.entry.slots kind).generationId + 1, p.entry.nextObjectId⟩])
      (hown : ∀ t, p.fired label = some t → t.kind = kind)
  /-- one device has no client any more -/
  | remove (kind : DeviceKind) (hothers : ∀ k, k ≠ kind → SameClient p q k)
      (hclient : (q.entry.slots kind).client = none)
      (hgeneration : (q.entry.slots kind).generationId = (p.entry.slots kind).generationId + 1)
      (hrecreates : q.recreates = p.kept label) (hown : p.fired label = none)

/-- A step that leaves the slots alone and runs no delayed closure. -/
theorem ClientCase.of_slots (hslots : q.entry.slots = p.entry.slots)
    (hrecreates : q.recreates = p.kept label) (hfired : p.fired label = none) :
    ClientCase p label q := by
  refine .same (fun kind => ?_) hrecreates fun t ht => ?_
  · rw [SameClient, hslots]
    exact ⟨rfl, rfl⟩
  · rw [hfired] at ht
    cases ht

theorem clientCase (h : StepCase p label q) : ClientCase p label q := by
  cases h with
  | arrive buffer => exact .of_slots rfl rfl rfl
  | event role e c hc => exact .of_slots rfl rfl rfl
  | activated value e => exact .of_slots rfl rfl rfl
  | poll tasks htasks => exact .of_slots rfl rfl rfl
  | request answers buffer queue hq => exact .of_slots rfl rfl rfl
  | keep answers task queue hq htask =>
    exact .of_slots (Run.checkStatusChanged_slots _) (Run.checkStatusChanged_recreates _) rfl
  | newKeyboard answers parameters queue hq hnew =>
    refine .create .keyboard (fun k hk => ?_) ?_ ?_ ?_ fun t ht => by cases ht
    · simp [SameClient, newKeyboard, Run.setParameters, Run.setEnabled, fresh, hk]
    · simp [Slot.objectId, newKeyboard, Run.setParameters, Run.setEnabled, fresh]
    · simp [newKeyboard, Run.setParameters, Run.setEnabled, fresh]
    · simp [newKeyboard, Run.setParameters, Run.setEnabled, fresh, kept]
  | newPointing answers queue hq hnone =>
    refine .create .pointing (fun k hk => ?_) ?_ ?_ ?_ fun t ht => by cases ht
    · simp [SameClient, newPointing, Run.setEnabled, fresh, hk]
    · simp [Slot.objectId, newPointing, Run.setEnabled, fresh]
    · simp [newPointing, Run.setEnabled, fresh]
    · simp [newPointing, Run.setEnabled, fresh, kept]
  | terminate answers kind task queue hq htask =>
    refine .remove kind (fun k hk => ?_) ?_ ?_ ?_ rfl
    · simp [SameClient, switchedOff, Run.setEnabled, fresh, hk]
    · simp [switchedOff, Run.setEnabled, fresh]
    · simp [switchedOff, Run.setEnabled, fresh]
    · simp [switchedOff, Run.setEnabled, fresh, kept]
  | stale answers objectId task queue hq hrole => exact .of_slots rfl rfl rfl
  | stateChanged answers objectId role queue hq hrole =>
    exact .of_slots (Run.checkStatusChanged_slots _) (Run.checkStatusChanged_recreates _) rfl
  | opened answers objectId kind queue hq hrole => exact .of_slots rfl rfl rfl
  | unheard answers objectId s queue hq hs => exact .of_slots rfl rfl rfl
  | ioTask answers objectId task role c queue hq hrole hc hid htask =>
    refine .same (fun kind => ?_) rfl fun t ht => by cases ht
    obtain ⟨hobject, hgeneration, -⟩ := Run.setClient_objectId hc
      (IoRun.runTask_outcome answers c htask).objectId kind
    exact ⟨hobject, hgeneration⟩
  | idle index t ht hidle =>
    refine .same (fun _ => ⟨rfl, rfl⟩) rfl fun u hu => ?_
    obtain rfl := Option.some.inj (ht.symm.trans hu)
    exact hidle
  | recreate index t ht hgen hen hready =>
    refine .create t.kind (fun k hk => ?_) ?_ ?_ ?_ fun u hu => ?_
    · simp [SameClient, recreated, hk]
    · simp [Slot.objectId, recreated]
    · simp [recreated]
    · simp [recreated, kept]
    · rw [Option.some.inj (ht.symm.trans hu)]

end Peer

/-! ## The closures that have run -/

section

variable (activated : Bool)

/-- Along the labels, the delayed closure has run in this state. -/
def Fired (labels : List PeerLabel) (t : Recreate) (u : Peer) : Prop :=
  ∃ past label rest, labels = past ++ label :: rest ∧
    Transition.run Peer.step (Peer.init activated) past = some u ∧ u.fired label = some t

/-- Along the labels, the delayed closure has run while the client was there for which it was
scheduled, and the device was ready. -/
def FoundReady (labels : List PeerLabel) (t : Recreate) : Prop :=
  ∃ u, Fired activated labels t u ∧ (u.entry.slots t.kind).objectId = some t.scheduledFor ∧
    t.generationId = (u.entry.slots t.kind).generationId ∧ u.entry.ready t.kind = true

end

variable {activated : Bool} {labels : List PeerLabel} {p q u : Peer} {label : PeerLabel}
  {t : Recreate}

theorem Fired.append (h : Fired activated labels t u) (label : PeerLabel) :
    Fired activated (labels ++ [label]) t u := by
  obtain ⟨past, first, rest, rfl, hpast, hfired⟩ := h
  exact ⟨past, first, rest ++ [label], List.append_assoc .., hpast, hfired⟩

theorem FoundReady.append (h : FoundReady activated labels t) (label : PeerLabel) :
    FoundReady activated (labels ++ [label]) t := by
  obtain ⟨u, hfired, hfound⟩ := h
  exact ⟨u, hfired.append label, hfound⟩

/-- A closure runs in the last step, or has run before. -/
theorem fired_concat (hrun : Transition.run Peer.step (Peer.init activated) labels = some p) :
    Fired activated (labels ++ [label]) t u ↔
      Fired activated labels t u ∨ u = p ∧ p.fired label = some t := by
  constructor
  · rintro ⟨past, first, rest, heq, hpast, hfired⟩
    rcases List.eq_nil_or_concat rest with rfl | ⟨rest, last, rfl⟩
    · obtain ⟨rfl, hsingle⟩ := List.append_inj' heq rfl
      obtain ⟨rfl, -⟩ := List.cons.inj hsingle
      obtain rfl := Option.some.inj (hpast.symm.trans hrun)
      exact Or.inr ⟨rfl, hfired⟩
    · rw [List.concat_eq_append, ← List.cons_append, ← List.append_assoc] at heq
      exact Or.inl ⟨past, first, rest, (List.append_inj' heq rfl).1, hpast, hfired⟩
  · rintro (h | ⟨rfl, hfired⟩)
    · exact h.append label
    · exact ⟨labels, label, [], rfl, hrun, hfired⟩

namespace Peer

/-- The invariant of all runs: a client is checked once, and then it is there because its device
was ready. -/
structure Checked (activated : Bool) (labels : List PeerLabel) (p : Peer) : Prop where
  /-- the devices have their clients -/
  lifecycle : Lifecycle p.entry p.recreates
  /-- no closure is scheduled twice -/
  nodup : p.recreates.Nodup
  /-- none comes back after it has run -/
  once : ∀ t u, Fired activated labels t u →
    t ∉ p.recreates ∧ t.generationId ≤ (p.entry.slots t.kind).generationId
  /-- the closure of a client is pending, or the client was kept by it -/
  checked : ∀ kind c, (p.entry.slots kind).client = some c →
    p.entry.check kind c ∈ p.recreates ∨ FoundReady activated labels (p.entry.check kind c)

theorem Checked.init (activated : Bool) : Checked activated [] (Peer.init activated) where
  lifecycle := lifecycle_init
  nodup := List.nodup_nil
  once := by
    rintro t u ⟨past, label, rest, heq, -, -⟩
    exact absurd heq.symm (List.append_ne_nil_of_right_ne_nil past (List.cons_ne_nil label rest))
  checked := fun _ _ hc => nomatch hc

/-- A closure that has run is not among those that are kept. -/
theorem Checked.once_kept (h : p.Checked activated labels)
    (hrun : Transition.run Peer.step (Peer.init activated) labels = some p)
    (hfired : Fired activated (labels ++ [label]) t u) :
    t ∉ p.kept label ∧ t.generationId ≤ (p.entry.slots t.kind).generationId := by
  rcases (fired_concat hrun).mp hfired with hfired | ⟨-, hfired⟩
  · obtain ⟨hmem, hle⟩ := h.once t u hfired
    exact ⟨fun hkept => hmem ((kept_sublist p label).subset hkept), hle⟩
  · exact ⟨not_mem_kept h.nodup hfired,
      (h.lifecycle t.kind).bound t (mem_of_fired hfired) rfl⟩

/-- A client that stays: if its closure runs, it has found the device ready. -/
theorem Checked.stays (h : p.Checked activated labels)
    (hrun : Transition.run Peer.step (Peer.init activated) labels = some p) {kind : DeviceKind}
    (hsame : SameClient p q kind) (hkept : ∀ t ∈ p.kept label, t ∈ q.recreates)
    (hfound : ∀ t, p.fired label = some t → t.kind = kind →
      t.generationId = (p.entry.slots t.kind).generationId →
      (p.entry.slots t.kind).enabled = true → p.entry.ready t.kind = true)
    {c : IoServiceClient} (hc : (q.entry.slots kind).client = some c) :
    q.entry.check kind c ∈ q.recreates ∨
      FoundReady activated (labels ++ [label]) (q.entry.check kind c) := by
  obtain ⟨hobject, hgeneration⟩ := hsame
  rw [Slot.objectId, Slot.objectId, hc] at hobject
  obtain ⟨d, hd, hid⟩ := Option.map_eq_some_iff.mp hobject.symm
  have hcheck : q.entry.check kind c = p.entry.check kind d := by
    rw [ClientEntry.check, ClientEntry.check, hgeneration, hid]
  rw [hcheck]
  rcases h.checked kind d hd with hpending | hfoundReady
  · refine (mem_kept hpending).imp (hkept _) fun hfired => ?_
    have henabled : (p.entry.slots kind).enabled = true := by
      rw [← (h.lifecycle kind).synced, hd]
      rfl
    have hobject : (p.entry.slots kind).objectId = some d.objectId := by
      rw [Slot.objectId, hd]
      rfl
    exact ⟨p, (fired_concat hrun).mpr (Or.inr ⟨rfl, hfired⟩), hobject, rfl,
      hfound _ hfired rfl rfl henabled⟩
  · exact Or.inr (hfoundReady.append label)

/-- One step. -/
theorem Checked.step (h : p.Checked activated labels)
    (hrun : Transition.run Peer.step (Peer.init activated) labels = some p)
    (hstep : p.step label = some q) : q.Checked activated (labels ++ [label]) := by
  have hlife : Lifecycle q.entry q.recreates := (step_lifecycle h.lifecycle hstep).1
  have hsub := kept_sublist p label
  cases clientCase (step_cases h.lifecycle hstep) with
  | same hsame hrecreates hfound =>
    refine ⟨hlife, hrecreates ▸ h.nodup.sublist hsub, fun t u hfired => ?_, fun kind c hc => ?_⟩
    · rw [hrecreates, (hsame t.kind).2]
      exact h.once_kept hrun hfired
    · exact h.stays hrun (hsame kind) (fun t ht => hrecreates ▸ ht)
        (fun t ht _ => hfound t ht) hc
  | create kind hothers hobject hgeneration hrecreates hown =>
    -- the new closure is ahead of all others of its device
    have hnew : ∀ t : Recreate, t.generationId ≤ (p.entry.slots t.kind).generationId →
        t ≠ ⟨kind, (p.entry.slots kind).generationId + 1, p.entry.nextObjectId⟩ := by
      rintro t hle rfl
      exact absurd hle (Nat.not_succ_le_self _)
    refine ⟨hlife, ?_, fun t u hfired => ?_, fun k c hc => ?_⟩
    · rw [hrecreates]
      refine List.nodup_append.mpr ⟨h.nodup.sublist hsub, List.pairwise_singleton _ _, ?_⟩
      intro t ht s hs
      rw [List.mem_singleton.mp hs]
      exact hnew t ((h.lifecycle t.kind).bound t (hsub.subset ht) rfl)
    · obtain ⟨hmem, hle⟩ := h.once_kept hrun hfired
      refine ⟨?_, ?_⟩
      · rw [hrecreates, List.mem_append, List.mem_singleton]
        exact not_or.mpr ⟨hmem, hnew t hle⟩
      · by_cases hk : t.kind = kind
        · rw [hk, hgeneration]
          exact (hk ▸ hle).trans (Nat.le_succ _)
        · rw [(hothers t.kind hk).2]
          exact hle
    · by_cases hk : k = kind
      · subst hk
        rw [Slot.objectId, hc] at hobject
        have hid : c.objectId = p.entry.nextObjectId := Option.some.inj hobject
        refine Or.inl ?_
        rw [ClientEntry.check, hgeneration, hid, hrecreates]
        exact List.mem_append_right _ List.mem_cons_self
      · refine h.stays hrun (hothers k hk) (fun t ht => ?_)
          (fun t ht hkind => absurd (hkind.symm.trans (hown t ht)) hk) hc
        rw [hrecreates]
        exact List.mem_append_left _ ht
  | remove kind hothers hclient hgeneration hrecreates hown =>
    refine ⟨hlife, hrecreates ▸ h.nodup.sublist hsub, fun t u hfired => ?_, fun k c hc => ?_⟩
    · obtain ⟨hmem, hle⟩ := h.once_kept hrun hfired
      refine ⟨hrecreates ▸ hmem, ?_⟩
      by_cases hk : t.kind = kind
      · rw [hk, hgeneration]
        exact (hk ▸ hle).trans (Nat.le_succ _)
      · rw [(hothers t.kind hk).2]
        exact hle
    · by_cases hk : k = kind
      · rw [hk, hclient] at hc
        cases hc
      · refine h.stays hrun (hothers k hk) (fun t ht => hrecreates ▸ ht) (fun t ht => ?_) hc
        rw [hown] at ht
        cases ht

/-- The invariant holds along every run, from a new entry. -/
theorem run_checked (h : Transition.run Peer.step (Peer.init activated) labels = some p) :
    p.Checked activated labels := by
  refine (Transition.run_history (P := fun labels p =>
    Transition.run Peer.step (Peer.init activated) labels = some p ∧ p.Checked activated labels)
    ⟨rfl, Checked.init activated⟩ ?_ h).2
  rintro labels p label q ⟨hrun, hchecked⟩ hstep
  exact ⟨(Transition.run_concat hrun label).trans hstep, hchecked.step hrun hstep⟩

/-- The closure of a client is pending exactly until it has run. -/
theorem Checked.pending_iff (h : p.Checked activated labels) {kind : DeviceKind}
    {c : IoServiceClient} (hc : (p.entry.slots kind).client = some c) :
    p.entry.check kind c ∈ p.recreates ↔ ¬ ∃ u, Fired activated labels (p.entry.check kind c) u := by
  constructor
  · rintro hpending ⟨u, hfired⟩
    exact (h.once _ u hfired).1 hpending
  · intro hfired
    refine (h.checked kind c hc).resolve_right ?_
    rintro ⟨u, hu, -⟩
    exact hfired ⟨u, hu⟩

end Peer

/-! ## Initialize requests -/

/-- The device that a closure initializes. -/
def EntryTask.initializes : EntryTask → Option DeviceKind
  | initializeKeyboard _ => some .keyboard
  | initializePointing => some .pointing
  | _ => none

/-- The closure finds no client of its device, or a keyboard client with other parameters. -/
def EntryTask.renews (e : ClientEntry) : EntryTask → Prop
  | initializeKeyboard parameters =>
    (e.slots .keyboard).client = none ∨ e.keyboardParameters ≠ parameters
  | initializePointing => (e.slots .pointing).client = none
  | _ => False

namespace Run

/-- A new client comes with its closure. -/
theorem check_createVirtualHidClient (kind : DeviceKind) (r : Run) :
    ∃ c, ((r.createVirtualHidClient kind).entry.slots kind).client = some c ∧
      (r.createVirtualHidClient kind).entry.check kind c ∈
        (r.createVirtualHidClient kind).recreates := by
  refine ⟨{ objectId := r.entry.nextObjectId }, ?_, ?_⟩
  · rw [createVirtualHidClient_slots_self]
  · rw [ClientEntry.check, createVirtualHidClient_slots_self, createVirtualHidClient_recreates]
    exact List.mem_append_right _ List.mem_cons_self

/-- A closure that initializes a device leaves a client, and a new one is to be checked. -/
theorem check_entryTask {r : Run} (h : r.Alive) {task : EntryTask} {kind : DeviceKind}
    (hkind : task.initializes = some kind) :
    ∃ c, ((r.entryTask task).entry.slots kind).client = some c ∧
      (task.renews r.entry → (r.entryTask task).entry.check kind c ∈
        (r.entryTask task).recreates) := by
  -- the status is published at the end, whatever was done before
  have status : ∀ (r' : Run) (P : Prop), (∃ c, (r'.entry.slots kind).client = some c ∧
        (P → r'.entry.check kind c ∈ r'.recreates)) →
      ∃ c, (r'.checkStatusChanged.entry.slots kind).client = some c ∧
        (P → r'.checkStatusChanged.entry.check kind c ∈ r'.checkStatusChanged.recreates) := by
    rintro r' P ⟨c, hc, hcheck⟩
    refine ⟨c, ?_, fun hP => ?_⟩
    · rw [checkStatusChanged_slots]
      exact hc
    · rw [ClientEntry.check, checkStatusChanged_slots, checkStatusChanged_recreates]
      exact hcheck hP
  cases task with
  | initializeKeyboard parameters =>
    obtain rfl := Option.some.inj hkind
    rw [entryTask, initializeKeyboard_eq h.synced]
    refine status _ _ ?_
    split
    next hkeep =>
      obtain ⟨c, hc⟩ := Option.isSome_iff_exists.mp hkeep.1
      refine ⟨c, hc, ?_⟩
      rintro (hnone | hne)
      · rw [hnone] at hc
        cases hc
      · exact absurd hkeep.2 hne
    next =>
      obtain ⟨c, hc, hcheck⟩ := check_createVirtualHidClient .keyboard _
      exact ⟨c, hc, fun _ => hcheck⟩
  | initializePointing =>
    obtain rfl := Option.some.inj hkind
    rw [entryTask, initializePointing_eq h.synced]
    refine status _ _ ?_
    split
    next hkeep =>
      obtain ⟨c, hc⟩ := Option.isSome_iff_exists.mp hkeep
      refine ⟨c, hc, fun hnone => ?_⟩
      have hnone : (r.entry.slots .pointing).client = none := hnone
      rw [hnone] at hc
      cases hc
    next =>
      obtain ⟨c, hc, hcheck⟩ := check_createVirtualHidClient .pointing _
      exact ⟨c, hc, fun _ => hcheck⟩
  | _ => cases hkind

end Run

/-- After a device was initialized it has a client. It is ready, or a delayed closure of its
generation is pending, or the closure that was scheduled for this client has run and found the
device ready: the closure is pending exactly until it has run, and so it is after the creation of
a client, which happens if there was none or if the keyboard's parameters are new. -/
theorem initialize_way_to_ready (activated : Bool) (labels : List PeerLabel) (p q : Peer)
    (h : Transition.run Peer.step (Peer.init activated) labels = some p)
    (task : EntryTask) (queue : List Task) (hq : p.queue = .entry task :: queue)
    (kind : DeviceKind) (hkind : task.initializes = some kind) (answers : Answers)
    (hstep : p.step (.run answers) = some q) :
    ∃ c, (q.entry.slots kind).client = some c ∧
      (q.WayToReady kind ∨
        FoundReady activated (labels ++ [.run answers]) (q.entry.check kind c)) ∧
      (q.entry.check kind c ∈ q.recreates ↔
        ¬ ∃ u, Fired activated (labels ++ [.run answers]) (q.entry.check kind c) u) ∧
      (task.renews p.entry → q.entry.check kind c ∈ q.recreates) := by
  have hchecked := Peer.run_checked ((Transition.run_concat h _).trans hstep)
  have hlife := Peer.run_lifecycle h
  simp only [Peer.step, hq, Option.some.injEq] at hstep
  obtain rfl := hstep
  obtain ⟨c, hc, hcheck⟩ := Run.check_entryTask (r := ⟨p.toLocal, []⟩) hlife hkind
  refine ⟨c, hc, ?_, hchecked.pending_iff hc, hcheck⟩
  refine (hchecked.checked kind c hc).imp_left fun hpending => ?_
  exact Or.inr ⟨_, hpending, rfl, rfl⟩

/-- The keyboard is requested while there is none. -/
def firstKeyboard : List PeerLabel :=
  [.request (ClientOperation.keyboardInitialize .init).requestBuffer, .run {}, .run {}, .run {}]

/-- The keyboard becomes ready, its delayed closure fires and finds it so, the driver is
terminated, and the same keyboard is requested again. -/
def lostKeyboard : List PeerLabel :=
  [.request (ClientOperation.keyboardInitialize .init).requestBuffer,
   .run {}, .run {}, .run {}, .run {}, .run {},
   .event (.device .keyboard) (.matched 1),
   .run { serviceOpen := fun _ => .opened (some 10800) }, .run {}, .run {}, .run {},
   .run { create := .created }, .readyTimer, .run { ready := some true }, .run {}, .run {},
   .recreate 0,
   .event (.device .keyboard) (.terminated 1), .run {}, .run {}, .run {}, .run {}, .run {},
   .request (ClientOperation.keyboardInitialize .init).requestBuffer, .run {}]

/-- The closure of the first request creates a client that is to be checked. The second request
keeps the client, which was checked while the keyboard was ready. -/
theorem lost_keyboard_found_ready :
    (∃ p q c, Transition.run Peer.step (Peer.init true) firstKeyboard = some p ∧
      p.step (.run {}) = some q ∧ (q.entry.slots .keyboard).client = some c ∧
      q.entry.check .keyboard c ∈ q.recreates) ∧
    ∃ p q c, Transition.run Peer.step (Peer.init true) lostKeyboard = some p ∧
      p.step (.run {}) = some q ∧ (q.entry.slots .keyboard).client = some c ∧
      FoundReady true (lostKeyboard ++ [.run {}]) (q.entry.check .keyboard c) := by
  constructor
  · obtain ⟨c, hc, -, -, hpending⟩ := initialize_way_to_ready true firstKeyboard _ _ rfl
      (.initializeKeyboard .init) [] rfl .keyboard rfl {} rfl
    exact ⟨_, _, c, rfl, rfl, hc, hpending (.inl rfl)⟩
  · obtain ⟨p, hrun, hq, q, hstep, hlost⟩ : ∃ p,
        Transition.run Peer.step (Peer.init true) lostKeyboard = some p ∧
        p.queue = [.entry (.initializeKeyboard .init)] ∧
        ∃ q, p.step (.run {}) = some q ∧ ¬ q.WayToReady .keyboard := by
      decide +kernel
    obtain ⟨c, hc, hway, -⟩ := initialize_way_to_ready true lostKeyboard p q hrun
      (.initializeKeyboard .init) [] hq .keyboard rfl {} hstep
    exact ⟨p, q, c, hrun, hstep, hc, hway.resolve_left hlost⟩

/-- The request keeps the client: the keyboard is not ready, and nothing is pending for it. -/
theorem lost_keyboard_stays_lost :
    ∃ p, Transition.run Peer.dispatch (Peer.init true) lostKeyboard = some p ∧
      (p.queue = [.entry (.initializeKeyboard .init)] ∧
        ∃ q, p.dispatch (.run {}) = some q ∧ ¬ q.WayToReady .keyboard) := by
  decide +kernel

end VirtualHidDevice
