import VirtualHidDevice.ReadyPoll
import VirtualHidDevice.Peer

/-!
# The service monitor

`iokit_service_monitor`, which tells `io_service_client` what services of the driver there are. The
system's notifications may be lost or come late, and a scan every three seconds makes up for that.

* `ServiceMonitor.invoke` — a queued closure, with the listeners of the client.
* `ServiceMonitor.scanMatched`, `ServiceMonitor.scanTerminated` — the two loops of a scan.
* `ServiceEvent.News`, `AllNews` — what signals may follow each other.
* `ServiceMonitor.Inv` — what holds in every run.

`services_are_tracked` is the result.
-/

namespace VirtualHidDevice

/-- The monitor of a client. -/
structure ServiceMonitor where
  /-- `registry_entry_ids_` -/
  registryEntryIds : List UInt64 := []
  /-- the closures on the dispatcher, `invoke_service_matched` and `invoke_service_terminated` -/
  queue : List ServiceEvent := []
  /-- the signals that were invoked -/
  signals : List ServiceEvent := []
  /-- the client that listens -/
  client : IoServiceClient
  /-- what the client has done so far -/
  trace : List IoEffect := []

/-- What can happen. Where services are looked at, `find_registry_entry_id` may fail for each. -/
inductive MonitorLabel where
  /-- `matched_callback` on the run loop thread -/
  | matchedCallback (services : List (Option UInt64))
  /-- `terminated_callback` -/
  | terminatedCallback (services : List (Option UInt64))
  /-- the dispatcher runs a closure of the monitor -/
  | dispatch
  /-- the scan timer expires; `again` are the services when they are compared with a stored id,
  and `order` is the order of the set of those that are gone -/
  | scan (services : List (Option UInt64)) (again : UInt64 → List (Option UInt64))
    (order : List UInt64)
  /-- the scan timer expires, and there is an error -/
  | scanFailed
  /-- the dispatcher runs a closure of the client -/
  | task (task : IoTask) (answers : Answers)

namespace ServiceMonitor

/-- What the client does in a function that runs on the dispatcher. -/
def runClient (f : IoRun → IoRun) (m : ServiceMonitor) : ServiceMonitor :=
  { m with client := (f ⟨m.client, []⟩).client, trace := m.trace ++ (f ⟨m.client, []⟩).effects }

@[simp] theorem runClient_registryEntryIds (f : IoRun → IoRun) (m : ServiceMonitor) :
    (m.runClient f).registryEntryIds = m.registryEntryIds := rfl

section

variable (answers : ℕ → UInt64 → OpenAnswer)

/-- `invoke_service_matched`. The answers are what opening services leads to, signal by signal. -/
def invokeServiceMatched (id : UInt64) (m : ServiceMonitor) : ServiceMonitor :=
  if id ∈ m.registryEntryIds then m
  else runClient (IoRun.serviceMatched (answers m.signals.length) id) { m with
    registryEntryIds := m.registryEntryIds ++ [id]
    signals := m.signals ++ [.matched id] }

/-- `invoke_service_terminated`. -/
def invokeServiceTerminated (id : UInt64) (m : ServiceMonitor) : ServiceMonitor :=
  if id ∈ m.registryEntryIds then
    runClient (IoRun.serviceTerminated (answers m.signals.length) id) { m with
      registryEntryIds := m.registryEntryIds.erase id
      signals := m.signals ++ [.terminated id] }
  else m

/-- Run a queued closure. -/
def invoke (m : ServiceMonitor) : ServiceEvent → ServiceMonitor
  | .matched id => m.invokeServiceMatched answers id
  | .terminated id => m.invokeServiceTerminated answers id

/-- The first loop of a scan: the services that are there. -/
def scanMatched (services : List (Option UInt64)) (m : ServiceMonitor) : ServiceMonitor :=
  (services.filterMap id).foldl (fun m found => m.invokeServiceMatched answers found) m

/-- `terminated_registry_entry_ids`: the stored ids that no service has. -/
def terminatedRegistryEntryIds (again : UInt64 → List (Option UInt64)) (m : ServiceMonitor) :
    List UInt64 :=
  m.registryEntryIds.filter fun stored => !(again stored).contains (some stored)

/-- The last loop of a scan. -/
def scanTerminated (order : List UInt64) (m : ServiceMonitor) : ServiceMonitor :=
  order.foldl (fun m terminated => m.invokeServiceTerminated answers terminated) m

/-- One step. The client's other closures run in between, but only the monitor invokes listeners. -/
def step (m : ServiceMonitor) : MonitorLabel → Option ServiceMonitor
  | .matchedCallback services =>
    some { m with queue := m.queue ++ (services.filterMap id).map .matched }
  | .terminatedCallback services =>
    some { m with queue := m.queue ++ (services.filterMap id).map .terminated }
  | .dispatch =>
    match m.queue with
    | [] => none
    | event :: rest => some (invoke answers { m with queue := rest } event)
  | .scan services again order =>
    let matched := m.scanMatched answers services
    if order.Perm (matched.terminatedRegistryEntryIds again) then
      some (matched.scanTerminated answers order)
    else none
  | .scanFailed => some m
  | .task (.serviceMatched _) _ => none
  | .task (.serviceTerminated _) _ => none
  | .task task taskAnswers => some (m.runClient (IoRun.runTask taskAnswers · task))

end

end ServiceMonitor

/-! ## The services of the client -/

/-- The registry entries of the services that a client knows. -/
def IoServiceClient.registryEntryIds (c : IoServiceClient) : List UInt64 :=
  c.matchedServices.map (·.registryEntryId)

namespace IoRun

variable (answer : UInt64 → OpenAnswer) {id : UInt64}

theorem map_openServices (services : List MatchedService) (r : IoRun) :
    (openServices answer services r).1.map (·.registryEntryId) =
      services.map (·.registryEntryId) := by
  induction services generalizing r with
  | nil => rfl
  | cons s services ih =>
    by_cases hinv : s.invalidated = true
    · simp [openServices, hinv, ih]
    · rcases hanswer : answer s.registryEntryId with _ | _ | version
      · simp [openServices, hinv, hanswer, ih]
      · simp [openServices, hinv, hanswer, ih]
      · simp [openServices, hinv, hanswer]

/-- Opening a connection changes what is known of the services, but not which there are. -/
theorem openConnection_registryEntryIds (r : IoRun) :
    (r.openConnection answer).client.registryEntryIds = r.client.registryEntryIds := by
  by_cases hconnection : r.client.connection.isSome = true
  · rw [openConnection, if_pos hconnection]
  · rw [openConnection, if_neg hconnection]
    exact map_openServices answer r.client.matchedServices r.forgetDriver

/-- And so does closing it. -/
theorem closeConnection_registryEntryIds (id : UInt64) (r : IoRun) :
    (r.closeConnection id).client.registryEntryIds = r.client.registryEntryIds := by
  rw [closeConnection]
  split
  next => rfl
  next s hfind =>
    split
    next => rfl
    next =>
      dsimp only
      split
      next => exact map_setClosed id r.client.matchedServices
      next handle _ =>
        obtain ⟨n, hforget⟩ := forgetDriver_eq (enqueue (.signal .closed)
          (emit (.serviceClose handle) { r with client := { r.client with
            matchedServices := MatchedServices.setClosed id r.client.matchedServices,
            connection := none } }))
        rw [hforget]
        exact map_setClosed id r.client.matchedServices

theorem serviceMatched_registryEntryIds (r : IoRun) (hnew : id ∉ r.client.registryEntryIds) :
    (r.serviceMatched answer id).client.registryEntryIds = r.client.registryEntryIds ++ [id] := by
  have hunknown : ¬ (r.client.matchedServices.any fun s => s.registryEntryId == id) = true := by
    intro hany
    obtain ⟨s, hs, hid⟩ := List.any_eq_true.mp hany
    exact hnew (List.mem_map.mpr ⟨s, hs, eq_of_beq hid⟩)
  refine (openConnection_registryEntryIds answer _).trans ?_
  rw [IoServiceClient.registryEntryIds, MatchedServices.insert, if_neg hunknown]
  exact List.map_append

theorem serviceTerminated_registryEntryIds (r : IoRun)
    (hnodup : r.client.registryEntryIds.Nodup) :
    (r.serviceTerminated answer id).client.registryEntryIds =
      r.client.registryEntryIds.erase id := by
  refine (openConnection_registryEntryIds answer _).trans ?_
  rw [hnodup.erase_eq_filter, ← closeConnection_registryEntryIds id r,
    IoServiceClient.registryEntryIds, IoServiceClient.registryEntryIds, List.filter_map]
  rfl

/-- The other closures of the client leave its services alone. -/
theorem runTask_registryEntryIds (answers : Answers) (r : IoRun) (task : IoTask)
    (hmatched : ∀ id, task ≠ .serviceMatched id)
    (hterminated : ∀ id, task ≠ .serviceTerminated id) :
    (r.runTask answers task).client.registryEntryIds = r.client.registryEntryIds := by
  have hcall : ∀ call, (r.callDriver call).client.registryEntryIds =
      r.client.registryEntryIds := by
    intro call
    rw [callDriver]
    split <;> rfl
  cases task with
  | start =>
    rw [runTask, IoRun.start]
    split <;> rfl
  | serviceMatched id => exact absurd rfl (hmatched id)
  | serviceTerminated id => exact absurd rfl (hterminated id)
  | signal signal => rfl
  | keyboardInitialize parameters => exact hcall _
  | pointingInitialize => exact hcall _
  | ready kind =>
    rw [runTask, callReady]
    split <;> rfl
  | setReady kind value =>
    cases kind with
    | keyboard =>
      obtain ⟨n, hset, -⟩ := setVirtualHidKeyboardReady_eq value r
      rw [runTask, setReady, hset]
      rfl
    | pointing =>
      obtain ⟨n, hset, -⟩ := setVirtualHidPointingReady_eq value r
      rw [runTask, setReady, hset]
      rfl
  | reset kind => exact hcall _
  | postReport method buffer reportOffset =>
    rw [runTask, postReport]
    split
    next => rfl
    next => exact hcall _

end IoRun

/-! ## The signals -/

/-- What a signal changes of the services that a listener knows. -/
def ServiceEvent.apply (ids : List UInt64) : ServiceEvent → List UInt64
  | matched id => ids ++ [id]
  | terminated id => ids.erase id

/-- The services that a listener knows after some signals. -/
def reported (signals : List ServiceEvent) : List UInt64 := signals.foldl ServiceEvent.apply []

theorem reported_concat (signals : List ServiceEvent) (event : ServiceEvent) :
    reported (signals ++ [event]) = event.apply (reported signals) := by
  rw [reported, List.foldl_append]
  rfl

/-- A signal that says something new. -/
def ServiceEvent.News (ids : List UInt64) : ServiceEvent → Prop
  | matched id => id ∉ ids
  | terminated id => id ∈ ids

/-- No service is matched twice, or terminated without being matched. -/
def AllNews (signals : List ServiceEvent) : Prop :=
  ∀ past event rest, signals = past ++ event :: rest → event.News (reported past)

theorem AllNews.concat {signals : List ServiceEvent} {event : ServiceEvent}
    (h : AllNews signals) (hevent : event.News (reported signals)) :
    AllNews (signals ++ [event]) := by
  intro past first rest heq
  rcases List.eq_nil_or_concat rest with rfl | ⟨rest, last, rfl⟩
  · obtain ⟨rfl, hsingle⟩ := List.append_inj' heq rfl
    obtain ⟨rfl, -⟩ := List.cons.inj hsingle
    exact hevent
  · rw [List.concat_eq_append, ← List.cons_append, ← List.append_assoc] at heq
    exact h past first rest (List.append_inj' heq rfl).1

namespace ServiceMonitor

/-- The invariant of all runs. -/
structure Inv (m : ServiceMonitor) : Prop where
  /-- `registry_entry_ids_` is a set -/
  nodup : m.registryEntryIds.Nodup
  /-- the client knows the same services -/
  services : m.client.registryEntryIds = m.registryEntryIds
  /-- which are those of the signals -/
  reported : reported m.signals = m.registryEntryIds
  /-- each signal was new to the client -/
  news : AllNews m.signals
  /-- a connection belongs to one of the services -/
  core : ConnectionCore m.client m.trace

variable {answers : ℕ → UInt64 → OpenAnswer} {m t : ServiceMonitor}

theorem Inv.init (objectId : ℕ) : Inv { client := { objectId } } where
  nodup := List.nodup_nil
  services := rfl
  reported := rfl
  news := by
    intro past event rest heq
    exact absurd heq.symm (List.append_ne_nil_of_right_ne_nil past (List.cons_ne_nil event rest))
  core := ⟨List.nodup_nil, fun _ => ⟨rfl, rfl, rfl⟩, fun _ hsome => nomatch hsome⟩

theorem Inv.core₀ (h : m.Inv) : ConnectionCore m.client (m.trace ++ []) :=
  (List.append_nil m.trace).symm ▸ h.core

theorem Inv.invokeServiceMatched (h : m.Inv) (id : UInt64) :
    (m.invokeServiceMatched answers id).Inv := by
  by_cases hid : id ∈ m.registryEntryIds
  · rw [ServiceMonitor.invokeServiceMatched, if_pos hid]
    exact h
  · rw [ServiceMonitor.invokeServiceMatched, if_neg hid]
    have hnew : id ∉ m.client.registryEntryIds := fun hmem => hid (h.services ▸ hmem)
    exact {
      nodup := (List.perm_append_singleton id _).nodup_iff.mpr (List.nodup_cons.mpr ⟨hid, h.nodup⟩)
      services := (IoRun.serviceMatched_registryEntryIds _ ⟨m.client, []⟩ hnew).trans
        (congrArg (· ++ [id]) h.services)
      reported := (reported_concat _ _).trans (congrArg (· ++ [id]) h.reported)
      news := h.news.concat fun hmem => hid (h.reported ▸ hmem)
      core := (serviceMatched_core _ id h.core₀).1 }

theorem Inv.invokeServiceTerminated (h : m.Inv) (id : UInt64) :
    (m.invokeServiceTerminated answers id).Inv := by
  by_cases hid : id ∈ m.registryEntryIds
  · rw [ServiceMonitor.invokeServiceTerminated, if_pos hid]
    have hnodup : m.client.registryEntryIds.Nodup := h.services.symm ▸ h.nodup
    exact {
      nodup := h.nodup.erase id
      services := (IoRun.serviceTerminated_registryEntryIds _ ⟨m.client, []⟩ hnodup).trans
        (congrArg (List.erase · id) h.services)
      reported := (reported_concat _ _).trans (congrArg (List.erase · id) h.reported)
      news := h.news.concat (h.reported.symm ▸ hid : id ∈ VirtualHidDevice.reported m.signals)
      core := (serviceTerminated_core _ id h.core₀).1 }
  · rw [ServiceMonitor.invokeServiceTerminated, if_neg hid]
    exact h

/-! ## A scan -/

theorem mem_invokeServiceMatched (id stored : UInt64) :
    stored ∈ (m.invokeServiceMatched answers id).registryEntryIds ↔
      stored ∈ m.registryEntryIds ∨ stored = id := by
  rw [invokeServiceMatched]
  split
  next hid =>
    constructor
    · exact .inl
    · rintro (hstored | rfl)
      · exact hstored
      · exact hid
  next => rw [runClient_registryEntryIds, List.mem_append, List.mem_singleton]

theorem Inv.mem_invokeServiceTerminated (h : m.Inv) (id stored : UInt64) :
    stored ∈ (m.invokeServiceTerminated answers id).registryEntryIds ↔
      stored ∈ m.registryEntryIds ∧ stored ≠ id := by
  rw [ServiceMonitor.invokeServiceTerminated]
  split
  next =>
    rw [runClient_registryEntryIds, h.nodup.mem_erase_iff]
    exact and_comm
  next hid =>
    refine ⟨fun hstored => ⟨hstored, ?_⟩, And.left⟩
    rintro rfl
    exact hid hstored

/-- After the first loop, the services that were found are stored as well. -/
theorem Inv.scanMatched (h : m.Inv) (services : List (Option UInt64)) :
    (m.scanMatched answers services).Inv ∧
    ∀ stored, stored ∈ (m.scanMatched answers services).registryEntryIds ↔
      stored ∈ m.registryEntryIds ∨ some stored ∈ services := by
  induction services generalizing m with
  | nil => exact ⟨h, fun stored => (or_iff_left List.not_mem_nil).symm⟩
  | cons service services ih =>
    cases service with
    | none =>
      obtain ⟨hinv, hmem⟩ := ih h
      refine ⟨hinv, fun stored => (hmem stored).trans (or_congr_right ?_)⟩
      rw [List.mem_cons, or_iff_right (Option.some_ne_none stored)]
    | some id =>
      have hinvoked : (m.invokeServiceMatched answers id).Inv := h.invokeServiceMatched id
      obtain ⟨hinv, hmem⟩ := ih hinvoked
      refine ⟨hinv, fun stored => (hmem stored).trans ?_⟩
      rw [mem_invokeServiceMatched, List.mem_cons, Option.some.injEq, or_assoc]

/-- After the last loop, those that are gone are not. -/
theorem Inv.scanTerminated (h : m.Inv) (order : List UInt64) :
    (m.scanTerminated answers order).Inv ∧
    ∀ stored, stored ∈ (m.scanTerminated answers order).registryEntryIds ↔
      stored ∈ m.registryEntryIds ∧ stored ∉ order := by
  induction order generalizing m with
  | nil => exact ⟨h, fun stored => (and_iff_left List.not_mem_nil).symm⟩
  | cons id order ih =>
    have hinvoked : (m.invokeServiceTerminated answers id).Inv := h.invokeServiceTerminated id
    obtain ⟨hinv, hmem⟩ := ih hinvoked
    refine ⟨hinv, fun stored => (hmem stored).trans ?_⟩
    rw [h.mem_invokeServiceTerminated, List.mem_cons, not_or, and_assoc]

/-- A scan leaves the stored ids and the services found, as far as they were there to the end. -/
theorem Inv.scan (h : m.Inv) {services : List (Option UInt64)}
    {again : UInt64 → List (Option UInt64)} {order : List UInt64}
    (hstep : m.step answers (.scan services again order) = some t) :
    t.Inv ∧ ∀ stored, stored ∈ t.registryEntryIds ↔
      (stored ∈ m.registryEntryIds ∨ some stored ∈ services) ∧ some stored ∈ again stored := by
  rw [step] at hstep
  split at hstep
  next hperm =>
    obtain rfl := Option.some.inj hstep
    obtain ⟨hmatched, hfound⟩ : (m.scanMatched answers services).Inv ∧ _ := h.scanMatched services
    refine (hmatched.scanTerminated order).imp_right fun hmem stored => (hmem stored).trans ?_
    rw [hperm.mem_iff, terminatedRegistryEntryIds, List.mem_filter, hfound]
    refine and_congr_right fun hstored => ?_
    rw [not_and, Bool.not_eq_true', Bool.not_eq_false, List.contains_iff_mem]
    exact ⟨fun hthere => hthere hstored, fun hthere _ => hthere⟩
  next => cases hstep

/-! ## Every run -/

theorem Inv.step (h : m.Inv) {label : MonitorLabel} (hstep : m.step answers label = some t) :
    t.Inv := by
  cases label with
  | matchedCallback services =>
    obtain rfl := Option.some.inj hstep
    exact ⟨h.nodup, h.services, h.reported, h.news, h.core⟩
  | terminatedCallback services =>
    obtain rfl := Option.some.inj hstep
    exact ⟨h.nodup, h.services, h.reported, h.news, h.core⟩
  | dispatch =>
    rw [ServiceMonitor.step] at hstep
    split at hstep
    next => cases hstep
    next event rest hqueue =>
      obtain rfl := Option.some.inj hstep
      have hrest : Inv { m with queue := rest } :=
        ⟨h.nodup, h.services, h.reported, h.news, h.core⟩
      cases event with
      | matched id => exact hrest.invokeServiceMatched id
      | terminated id => exact hrest.invokeServiceTerminated id
  | scan services again order => exact (h.scan hstep).1
  | scanFailed =>
    obtain rfl := Option.some.inj hstep
    exact h
  | task task taskAnswers =>
    obtain ⟨hmatched, hterminated, hrun⟩ : (∀ id, task ≠ .serviceMatched id) ∧
        (∀ id, task ≠ .serviceTerminated id) ∧
        some (m.runClient (IoRun.runTask taskAnswers · task)) = some t := by
      cases task with
      | serviceMatched id => cases hstep
      | serviceTerminated id => cases hstep
      | _ => exact ⟨fun _ => IoTask.noConfusion, fun _ => IoTask.noConfusion, hstep⟩
    obtain rfl := Option.some.inj hrun
    refine ⟨h.nodup, ?_, h.reported, h.news, ReadyPoll.runTask_core h.core task⟩
    exact (IoRun.runTask_registryEntryIds taskAnswers ⟨m.client, []⟩ task hmatched
      hterminated).trans h.services

/-- A connection was opened on a service that is known. -/
theorem Inv.connected (h : m.Inv) {handle : ℕ} (hconnection : m.client.connection = some handle) :
    ∃ id ∈ m.client.registryEntryIds, .serviceOpen id handle ∈ m.trace := by
  obtain ⟨s, version, hopened, hopen, -⟩ := h.core.connected handle hconnection
  have hs : s ∈ openedServices m.client.matchedServices := hopened ▸ List.mem_singleton_self s
  exact ⟨s.registryEntryId, List.mem_map.mpr ⟨s, (List.mem_filter.mp hs).1, rfl⟩, hopen⟩

/-- In every run of the monitor with its client, whatever notifications come, and however opening
services ends: no service is matched again before it is terminated, or terminated without being
matched, the client knows the services that it was told of, and its connection is to one of them.
After a scan, which can always be made, it knows exactly those that were known or found, and that
are still there. -/
theorem services_are_tracked (objectId : ℕ) (labels : List MonitorLabel)
    (h : Transition.run (step answers) { client := { objectId } } labels = some m) :
    AllNews m.signals ∧ m.client.registryEntryIds = reported m.signals ∧
    (∀ handle, m.client.connection = some handle →
      ∃ id ∈ m.client.registryEntryIds, .serviceOpen id handle ∈ m.trace) ∧
    ∀ services again, (∃ order t, m.step answers (.scan services again order) = some t) ∧
      ∀ order t, m.step answers (.scan services again order) = some t →
        ∀ id, id ∈ t.client.registryEntryIds ↔
          (id ∈ m.client.registryEntryIds ∨ some id ∈ services) ∧ some id ∈ again id := by
  have hinv : m.Inv :=
    Transition.run_invariant (Inv.init objectId) (fun _ _ _ hu hstep => hu.step hstep) h
  refine ⟨hinv.news, hinv.services.trans hinv.reported.symm, fun _ => hinv.connected,
    fun services again => ⟨?_, ?_⟩⟩
  · exact ⟨_, _, if_pos (.refl _)⟩
  · intro order t hstep id
    obtain ⟨hafter, hmem⟩ := hinv.scan hstep
    rw [hafter.services, hinv.services]
    exact hmem id

/-- A service is matched, and a scan finds another one in its place. That the first was terminated
is notified after that. -/
def replacedService : List MonitorLabel :=
  [.matchedCallback [some 1, none], .dispatch, .task (.ready .keyboard) {},
    .scan [some 2] (fun _ => [some 2]) [1], .terminatedCallback [some 1], .dispatch]

theorem services_are_tracked_replaced :
    ∃ m, Transition.run (step fun _ _ => .opened (some embeddedDriverVersion))
        { client := { objectId := 0 } } replacedService = some m ∧
      m.signals = [.matched 1, .matched 2, .terminated 1] ∧ AllNews m.signals ∧
      m.client.registryEntryIds = [2] ∧
      ∃ handle, m.client.connection = some handle ∧ .serviceOpen 2 handle ∈ m.trace := by
  obtain ⟨m, hrun, hsignals, hconnection⟩ : ∃ m, Transition.run
      (step fun _ _ => .opened (some embeddedDriverVersion)) { client := { objectId := 0 } }
      replacedService = some m ∧ m.signals = [.matched 1, .matched 2, .terminated 1] ∧
      m.client.connection = some 1 := ⟨_, rfl, rfl, rfl⟩
  obtain ⟨hnews, hknown, hconnected, -⟩ := services_are_tracked 0 replacedService hrun
  have hids : m.client.registryEntryIds = [2] := by
    rw [hknown, hsignals]
    rfl
  obtain ⟨id, hid, hopen⟩ := hconnected 1 hconnection
  obtain rfl := List.mem_singleton.mp (hids ▸ hid)
  exact ⟨m, hrun, hsignals, hnews, hids, 1, hconnection, hopen⟩

end ServiceMonitor

end VirtualHidDevice
