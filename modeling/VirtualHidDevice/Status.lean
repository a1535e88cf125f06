import VirtualHidDevice.Objects
import Mathlib.Data.List.Chain

/-!
# No status change is forgotten

The status of an entry is published when it differs from the last one that was
published, and only then. Whatever changes it leads to a check: at once, or by a
task that is still queued.

* `Task.Checks` — the tasks that will end in `check_status_changed`.
* `Peer.Settled` — a property of the entry holds, or a check is on its way;
  `Peer.dispatch_settled` is the rule for it: a check must establish the
  property, and changes that leave the status alone must keep it.
* `Local.Emitted` — the published statuses, the last one being `last_response_`.
* `status_is_published` — the result about whole runs in dispatcher order.
-/

namespace VirtualHidDevice

/-! ## The status -/

/-- The status depends on these values only. -/
theorem Local.makeResponse_congr {l m : Local} (hact : m.activated = l.activated)
    (hver : m.entry.noVirtualDevices.driverVersion = l.entry.noVirtualDevices.driverVersion)
    (hready : ∀ kind, m.entry.ready kind = l.entry.ready kind) :
    m.makeResponse = l.makeResponse := by
  simp only [Local.makeResponse, IoServiceClient.driverConnected,
    IoServiceClient.driverVersionMismatched, hact, hver, hready]

/-- A client whose version and ready states have not changed reports the same. -/
theorem ready_setClient {e : ClientEntry} {role : Role} {c d : IoServiceClient}
    (hc : e.client role = some c) (hver : d.driverVersion = c.driverVersion)
    (hready : ∀ kind, d.ready kind = c.ready kind) :
    (e.setClient d role).noVirtualDevices.driverVersion = e.noVirtualDevices.driverVersion ∧
      ∀ kind, (e.setClient d role).ready kind = e.ready kind := by
  have hget : ∀ kind, d.getReady kind = c.getReady kind := by
    intro kind
    have hconn : d.driverConnected = c.driverConnected := by
      rw [IoServiceClient.driverConnected, hver, ← IoServiceClient.driverConnected]
    have hmis : d.driverVersionMismatched = c.driverVersionMismatched := by
      rw [IoServiceClient.driverVersionMismatched, hver, ← IoServiceClient.driverVersionMismatched]
    rw [IoServiceClient.getReady, hconn, hmis, hready, ← IoServiceClient.getReady]
  cases role with
  | noVirtualDevices =>
    obtain rfl := Option.some.inj hc
    exact ⟨hver, fun _ => rfl⟩
  | device k =>
    refine ⟨rfl, fun kind => ?_⟩
    by_cases hk : kind = k
    · subst hk
      have hobj : (e.slots kind).client = some c := hc
      simp [ClientEntry.ready, ClientEntry.setClient, hobj, hget]
    · simp [ClientEntry.ready, ClientEntry.setClient, hk]

/-- A check leaves the status as it is and the last response equal to it. -/
theorem Run.checkStatusChanged_lastResponse (r : Run) :
    r.checkStatusChanged.entry.lastResponse = some r.checkStatusChanged.makeResponse := by
  obtain ⟨sent, heq⟩ := r.checkStatusChanged_eq
  rw [heq]
  rfl

/-! ## Checks on their way -/

/-- A task that will end in `check_status_changed`: at once, or through the
notification that an event for `no_virtual_devices_io_service_client_` queues. -/
def Task.Checks (e : ClientEntry) : Task → Prop
  | .entry _ => True
  | .io objectId (.signal .stateChanged) => (e.role objectId).isSome
  | .io objectId (.serviceMatched _) => objectId = e.noVirtualDevices.objectId
  | .io objectId (.serviceTerminated _) => objectId = e.noVirtualDevices.objectId
  | _ => False

/-- The entry is in order, or a check is on its way. -/
def Peer.Settled (Q : Local → Prop) (p : Peer) : Prop :=
  Q p.toLocal ∨ ∃ t ∈ p.queue, t.Checks p.entry

/-- The point at which the first task in the queue calls `check_status_changed`,
if it does. -/
def Peer.atCheck (p : Peer) : Option Run :=
  match p.queue with
  | .entry (.initializeKeyboard parameters) :: _ =>
    if (p.entry.slots .keyboard).client.isSome ∧ p.entry.keyboardParameters = parameters then
      some p.fresh
    else some (p.newKeyboard parameters)
  | .entry .initializePointing :: _ =>
    if (p.entry.slots .pointing).client.isSome then some p.fresh else some p.newPointing
  | .entry .terminateKeyboard :: _ => some (p.switchedOff .keyboard)
  | .entry .terminatePointing :: _ => some (p.switchedOff .pointing)
  | .entry .checkStatusChanged :: _ => some p.fresh
  | .io objectId (.signal .stateChanged) :: _ =>
    if (p.entry.role objectId).isSome then some p.fresh else none
  | _ => none

/-- A change that leaves the status and the last response alone: at most a
request was answered. -/
structure Local.Quiet (l m : Local) : Prop where
  /-- the status -/
  response : m.makeResponse = l.makeResponse
  /-- `last_response_` -/
  last : m.entry.lastResponse = l.entry.lastResponse
  /-- what was sent -/
  sent : m.sent = l.sent ∨ ∃ buffer, (buffer = [] ∨ buffer = l.makeResponse) ∧
    m.sent = l.sent ++ [.response buffer]

/-- Checks do not get lost while the same objects are alive. -/
theorem Task.Checks.congr {e f : ClientEntry} {t : Task} (h : t.Checks e)
    (hids : ∀ role, (f.client role).map (·.objectId) = (e.client role).map (·.objectId)) :
    t.Checks f := by
  have hnvd : f.noVirtualDevices.objectId = e.noVirtualDevices.objectId :=
    Option.some.inj (hids .noVirtualDevices)
  cases t with
  | request buffer => exact h
  | entry task => exact h
  | io objectId task =>
    cases task with
    | signal s =>
      cases s with
      | stateChanged =>
        rw [Task.Checks, ClientEntry.role_congr hids]
        exact h
      | _ => exact h
    | serviceMatched id =>
      rw [Task.Checks, hnvd]
      exact h
    | serviceTerminated id =>
      rw [Task.Checks, hnvd]
      exact h
    | _ => exact h

/-- The events of the monitor always notify. -/
theorem IoRun.runTask_notifies (answers : Answers) (c : IoServiceClient) (id : UInt64) :
    .enqueue (.signal .stateChanged) ∈
      (IoRun.runTask answers ⟨c, []⟩ (.serviceMatched id)).effects ∧
    .enqueue (.signal .stateChanged) ∈
      (IoRun.runTask answers ⟨c, []⟩ (.serviceTerminated id)).effects :=
  ⟨List.mem_append_right _ List.mem_cons_self, List.mem_append_right _ List.mem_cons_self⟩

/-- A request is answered with the status or with nothing. -/
theorem Run.requestReply_cases (l : Local) (buffer : Bytes) :
    Run.requestReply l buffer = [] ∨ Run.requestReply l buffer = l.makeResponse := by
  rw [Run.requestReply]
  split
  · split
    · exact Or.inr rfl
    · exact Or.inl rfl
  · exact Or.inl rfl

namespace Peer

variable {Q : Local → Prop}

/-- The rest of the queue still holds the check, if the first task is none. -/
theorem Settled.tail {p : Peer} {t : Task} {queue : List Task} (h : p.Settled Q)
    (hq : p.queue = t :: queue) (ht : ¬ t.Checks p.entry) :
    Q p.toLocal ∨ ∃ u ∈ queue, u.Checks p.entry := by
  rcases h with h | ⟨u, hu, hcheck⟩
  · exact Or.inl h
  · rw [hq] at hu
    rcases List.mem_cons.mp hu with rfl | hu
    · exact absurd hcheck ht
    · exact Or.inr ⟨u, hu, hcheck⟩

/-- A closure of a live client: a notification is queued, or nothing changed. -/
theorem settled_ioTask {p : Peer} (hquiet : ∀ m, p.toLocal.Quiet m → Q p.toLocal → Q m)
    (h : p.Settled Q) {answers : Answers} {objectId : ℕ} {task : IoTask} {role : Role}
    {c : IoServiceClient} {queue : List Task} (hq : p.queue = .io objectId task :: queue)
    (hrole : p.entry.role objectId = some role) (hc : p.entry.client role = some c)
    (htask : ∀ s, task ≠ .signal s) {q : Peer}
    (hentry : q.entry = p.entry.setClient (IoRun.runTask answers ⟨c, []⟩ task).client role)
    (hact : q.activated = p.activated) (hsent : q.sent = p.sent)
    (hqueue : q.queue = queue ++ ((IoRun.runTask answers ⟨c, []⟩ task).effects.filterMap
      IoEffect.queued).map (.io objectId)) : q.Settled Q := by
  have hout := IoRun.runTask_outcome answers c htask
  have hids : ∀ role', (q.entry.client role').map (·.objectId) =
      (p.entry.client role').map (·.objectId) := by
    rw [hentry]
    exact ClientEntry.setClient_client hc hout.objectId
  by_cases hnotified : .enqueue (.signal .stateChanged) ∈
      (IoRun.runTask answers ⟨c, []⟩ task).effects
  · refine Or.inr ⟨.io objectId (.signal .stateChanged), ?_, ?_⟩
    · rw [hqueue]
      refine List.mem_append_right _ (List.mem_map.mpr ⟨_, ?_, rfl⟩)
      exact IoEffect.mem_queued.mpr hnotified
    · rw [Task.Checks, ClientEntry.role_congr hids, hrole]
      rfl
  · -- no notification: the status is the same, and the task was not an event
    have hsame := hout.status.resolve_left hnotified
    obtain ⟨hver, hready⟩ := ready_setClient hc hsame.1 hsame.2
    rw [← hentry] at hver hready
    have hlast : q.entry.lastResponse = p.entry.lastResponse := by
      rw [hentry]
      cases role <;> rfl
    have hnot : ¬ (Task.io objectId task).Checks p.entry := by
      intro hcheck
      cases task with
      | serviceMatched id => exact hnotified (IoRun.runTask_notifies answers c id).1
      | serviceTerminated id => exact hnotified (IoRun.runTask_notifies answers c id).2
      | signal s => exact htask s rfl
      | _ => exact hcheck
    rcases h.tail hq hnot with h | ⟨u, hu, hcheck⟩
    · exact Or.inl (hquiet q.toLocal
        ⟨Local.makeResponse_congr hact hver hready, hlast, Or.inl hsent⟩ h)
    · exact Or.inr ⟨u, by rw [hqueue]; exact List.mem_append_left _ hu, hcheck.congr hids⟩

/-- A client that is not ready reports the same as the one that replaces it. -/
theorem makeResponse_recreated {p : Peer} {index : ℕ} {kind : DeviceKind}
    (hready : p.entry.ready kind = false) :
    (p.recreated index kind).makeResponse = p.makeResponse := by
  refine Local.makeResponse_congr (by simp [recreated]) (by simp [recreated]) fun k => ?_
  by_cases hk : k = kind
  · subst hk
    rw [hready]
    simp [recreated, ClientEntry.ready, IoServiceClient.getReady, IoServiceClient.driverConnected]
  · simp [recreated, ClientEntry.ready, hk]

/-- One step in dispatcher order: whatever a check establishes, and a quiet change
keeps, stays settled. -/
theorem dispatch_settled {p q : Peer} {label : PeerLabel} (hlife : Lifecycle p.entry p.recreates)
    (hcheck : ∀ answers r, label = .run answers → p.atCheck = some r →
      Q r.checkStatusChanged.toLocal)
    (hquiet : ∀ m, p.toLocal.Quiet m → Q p.toLocal → Q m)
    (h : p.Settled Q) (hstep : p.dispatch label = some q) : q.Settled Q := by
  have append : ∀ (tasks : List Task), ({ p with queue := p.queue ++ tasks } : Peer).Settled Q := by
    intro tasks
    refine h.imp id ?_
    rintro ⟨t, ht, hc⟩
    exact ⟨t, List.mem_append_left _ ht, hc⟩
  cases step_cases hlife (step_of_dispatch hstep) with
  | arrive buffer => exact append _
  | event role e c hc => exact append _
  | poll tasks htasks => exact append _
  -- the status may have changed, and the event that is queued will check it
  | activated value e =>
    refine Or.inr ⟨_, List.mem_append_right _ List.mem_cons_self, ?_⟩
    cases e <;> exact rfl
  | request answers buffer queue hq =>
    -- a request itself checks nothing, so a check on its way is still there
    rcases h.tail hq id with h | ⟨t, ht, hc⟩
    · exact Or.inl (hquiet _
        ⟨rfl, rfl, Or.inr ⟨_, Run.requestReply_cases p.toLocal buffer, rfl⟩⟩ h)
    · exact Or.inr ⟨t, List.mem_append_left _ ht, hc⟩
  | keep answers task queue hq htask =>
    refine Or.inl (hcheck answers p.fresh rfl ?_)
    rcases htask with rfl | ⟨rfl, hsome⟩ | ⟨rfl, hsome⟩
    · simp [atCheck, hq]
    · simp [atCheck, hq, hsome]
    · simp [atCheck, hq, hsome]
  | newKeyboard answers parameters queue hq hnew =>
    refine Or.inl (hcheck answers (p.newKeyboard parameters) rfl ?_)
    rcases hnew with hnone | hne
    · simp [atCheck, hq, hnone]
    · simp [atCheck, hq, hne]
  | newPointing answers queue hq hnone =>
    exact Or.inl (hcheck answers p.newPointing rfl (by simp [atCheck, hq, hnone]))
  | terminate answers kind task queue hq htask =>
    refine Or.inl (hcheck answers (p.switchedOff kind) rfl ?_)
    cases kind <;> simp [atCheck, hq, htask]
  | stateChanged answers objectId role queue hq hrole =>
    exact Or.inl (hcheck answers p.fresh rfl (by simp [atCheck, hq, hrole]))
  | stale answers objectId task queue hq hrole =>
    have hnot : ¬ (Task.io objectId task).Checks p.entry := by
      have hnvd : objectId ≠ p.entry.noVirtualDevices.objectId := by
        rintro rfl
        have := ClientEntry.role_isSome (e := p.entry) .noVirtualDevices rfl
        rw [hrole] at this
        cases this
      intro hc
      cases task with
      | signal s =>
        cases s with
        | stateChanged =>
          rw [Task.Checks, hrole] at hc
          cases hc
        | _ => exact hc
      | serviceMatched id => exact hnvd hc
      | serviceTerminated id => exact hnvd hc
      | _ => exact hc
    exact h.tail hq hnot
  | opened answers objectId kind queue hq hrole =>
    rcases h.tail hq id with h | ⟨t, ht, hc⟩
    · exact Or.inl h
    · exact Or.inr ⟨t, List.mem_append_left _ ht, hc⟩
  | unheard answers objectId s queue hq hs =>
    have hnot : ¬ (Task.io objectId (.signal s)).Checks p.entry := by
      intro hc
      cases s with
      | stateChanged => exact hs rfl
      | _ => exact hc
    exact h.tail hq hnot
  | ioTask answers objectId task role c queue hq hrole hc hid htask =>
    exact settled_ioTask hquiet h hq hrole hc htask rfl rfl rfl rfl
  | idle index _ _ _ => exact h.imp (hquiet _ ⟨rfl, rfl, Or.inl rfl⟩) id
  | recreate index t ht hgen hen hready =>
    -- the dispatcher runs the delayed closure only when the queue is empty
    have hempty : p.queue = [] := by
      rw [dispatch] at hstep
      split at hstep
      next hnil => exact List.isEmpty_iff.mp hnil
      next => cases hstep
    rcases h with h | ⟨u, hu, -⟩
    · exact Or.inl (hquiet _ ⟨makeResponse_recreated hready, by simp [recreated],
        Or.inl (by simp [finish, recreated])⟩ h)
    · rw [hempty] at hu
      cases hu

end Peer

/-! ## What was published -/

/-- The status that a message carries to the peer. -/
def Message.published : Message → Option Bytes
  | status buffer => some buffer
  | response _ => none

/-- What `status_changed` has carried so far. -/
def Local.published (l : Local) : List Bytes := l.sent.filterMap Message.published

/-- The last published status is `last_response_`, and no two in a row are equal. -/
structure Local.Emitted (l : Local) : Prop where
  /-- the last one -/
  last : l.published.getLast? = l.entry.lastResponse
  /-- each differs from the one before -/
  changes : l.published.IsChain (· ≠ ·)

theorem Local.Emitted.congr {l m : Local} (h : l.Emitted) (hsent : m.published = l.published)
    (hlast : m.entry.lastResponse = l.entry.lastResponse) : m.Emitted :=
  ⟨by rw [hsent, hlast]; exact h.last, by rw [hsent]; exact h.changes⟩

/-- A check publishes the status only if it differs from the last one. -/
theorem Run.checkStatusChanged_emitted {r : Run} (h : r.Emitted) :
    r.checkStatusChanged.Emitted := by
  by_cases hsame : r.entry.lastResponse = some r.makeResponse
  · rw [Run.checkStatusChanged, if_pos hsame]
    exact h
  · rw [Run.checkStatusChanged, if_neg hsame]
    have hpub : (Run.send (.status r.makeResponse) { r with entry :=
        { r.entry with lastResponse := some r.makeResponse } }).published =
        r.published ++ [r.makeResponse] := by
      simp [Local.published, Run.send, Message.published]
    refine ⟨?_, ?_⟩
    · rw [hpub, List.getLast?_concat]
      rfl
    · rw [hpub, List.isChain_append]
      refine ⟨h.changes, List.isChain_singleton _, ?_⟩
      intro x hx y hy
      rw [h.last] at hx
      obtain rfl := Option.some.inj hy
      rintro rfl
      exact hsame hx

/-- One step keeps the published statuses in order. -/
theorem Peer.step_emitted {p q : Peer} {label : PeerLabel} (hlife : Lifecycle p.entry p.recreates)
    (h : p.Emitted) (hstep : p.step label = some q) : q.Emitted := by
  have checked : ∀ (queue : List Task) (r : Run), r.sent = p.sent →
      r.entry.lastResponse = p.entry.lastResponse →
      (finish queue r.checkStatusChanged).Emitted := by
    intro queue r hsent hlast
    refine Run.checkStatusChanged_emitted (h.congr ?_ hlast)
    rw [Local.published, hsent, Local.published]
  cases step_cases hlife hstep with
  | request answers buffer queue hq =>
    refine h.congr ?_ rfl
    simp [Local.published, Message.published]
  | keep answers task queue hq htask => exact checked queue _ rfl rfl
  | newKeyboard answers parameters queue hq hnew =>
    refine checked queue _ ?_ ?_
    · simp [newKeyboard, Run.setParameters, Run.setEnabled, fresh]
    · simp [newKeyboard, Run.setParameters, Run.setEnabled, fresh]
  | newPointing answers queue hq hnone => exact checked queue _ rfl rfl
  | terminate answers kind task queue hq htask =>
    refine checked queue _ ?_ ?_
    · simp [switchedOff, Run.setEnabled, fresh]
    · simp [switchedOff, Run.setEnabled, fresh]
  | stateChanged answers objectId role queue hq hrole => exact checked queue _ rfl rfl
  | ioTask answers objectId task role c queue hq hrole hc hid htask =>
    refine h.congr rfl ?_
    cases role <;> rfl
  | recreate index t ht hgen hen hready =>
    refine h.congr ?_ ?_
    · simp [Local.published, finish, recreated]
    · simp [recreated]
  | _ => exact h.congr rfl rfl

/-- The last response is the current status. -/
def Local.UpToDate (l : Local) : Prop := l.entry.lastResponse = some l.makeResponse

/-- No status change is forgotten. In every state that a run in dispatcher
order reaches without a task of the entry or of its clients left in the queue,
the last response is the current status and was the last one published; and at
any time no two consecutive published statuses are equal. -/
theorem status_is_published (activated : Bool) (labels : List PeerLabel) (p : Peer)
    (h : Transition.run Peer.dispatch (Peer.init activated) labels = some p) :
    ((∀ t ∈ p.queue, ∃ buffer, t = .request buffer) →
      p.entry.lastResponse = some p.makeResponse ∧
        p.published.getLast? = some p.makeResponse) ∧
    p.published.IsChain (· ≠ ·) := by
  have key : Lifecycle p.entry p.recreates ∧ p.Settled Local.UpToDate ∧ p.Emitted := by
    refine Transition.run_invariant (I := fun p : Peer =>
      Lifecycle p.entry p.recreates ∧ p.Settled Local.UpToDate ∧ p.Emitted) ?_ ?_ h
    · refine ⟨lifecycle_init, ?_, rfl, .nil⟩
      exact Or.inr ⟨.entry .checkStatusChanged, List.mem_append_right _ List.mem_cons_self,
        trivial⟩
    · rintro p label q ⟨hlife, hup, hem⟩ hstep
      have hstep' := Peer.step_of_dispatch hstep
      refine ⟨(Peer.step_lifecycle hlife hstep').1, ?_, Peer.step_emitted hlife hem hstep'⟩
      refine Peer.dispatch_settled hlife (fun answers r _ _ => ?_) (fun m hm hp => ?_) hup hstep
      · exact r.checkStatusChanged_lastResponse
      · rw [Local.UpToDate, hm.response, hm.last]
        exact hp
  obtain ⟨-, hup, hem⟩ := key
  refine ⟨fun hquiet => ?_, hem.changes⟩
  rcases hup with hlast | ⟨t, ht, hcheck⟩
  · exact ⟨hlast, hem.last.trans hlast⟩
  · obtain ⟨buffer, rfl⟩ := hquiet t ht
    exact hcheck.elim

/-- A driver appears, answers, and its keyboard becomes ready. -/
def readyKeyboard : List PeerLabel :=
  [.run {}, .run {}, .event .noVirtualDevices (.matched 1),
   .run { serviceOpen := fun _ => .opened (some 10800) },
   .request (ClientOperation.keyboardInitialize .init).requestBuffer,
   .run {}, .run {}, .run {}, .run {}, .run {}, .run {},
   .event (.device .keyboard) (.matched 1),
   .run { serviceOpen := fun _ => .opened (some 10800) },
   .run {}, .run {}, .run {}, .run { create := .created }, .readyTimer,
   .run { ready := some true }, .run {}, .run {}]

/-- The queue is empty and the last status published says that it is ready. -/
theorem ready_keyboard_published :
    ∃ p, Transition.run Peer.dispatch (Peer.init true) readyKeyboard = some p ∧
      p.queue = [] ∧ p.published.getLast? = some [1, 1, 2, 1, 3, 0, 4, 1, 5, 0] ∧
      p.entry.lastResponse = some p.makeResponse := by
  have hrun : ((Transition.run Peer.dispatch (Peer.init true) readyKeyboard).map fun p =>
      (p.queue, p.published.getLast?)) =
      some ([], some [1, 1, 2, 1, 3, 0, 4, 1, 5, 0]) := by decide +kernel
  obtain ⟨p, hp, heq⟩ := Option.map_eq_some_iff.mp hrun
  obtain ⟨hq, hpub⟩ := Prod.mk.inj heq
  refine ⟨p, hp, hq, hpub, ((status_is_published true readyKeyboard p hp).1 ?_).1⟩
  rw [hq]
  exact fun _ ht => by cases ht

end VirtualHidDevice
