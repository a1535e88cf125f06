import VirtualHidDevice.IoServiceClient
import VirtualHidDevice.Transition

/-!
# The connection invariant of `io_service_client`

The services, the connection, the driver's version and the open handles of one
client, over any sequence of matched and terminated services.

* `handlesAfter`, `openHandles` — the handles that a trace of effects leaves open.
* `ConnectionInvariant` — what holds after each event.
* `ConnectionCore` — its inductive part, kept by `insert`, `erase`,
  `open_connection`, `close_connection` and the destructor, one lemma each.
* `connection_invariant` — the invariant holds along every run of events.
-/

namespace VirtualHidDevice

/-! ## Open handles -/

/-- The handles open after some effects, from the ones open before. -/
def handlesAfter (handles : List ℕ) (effects : List IoEffect) : List ℕ :=
  effects.foldl (fun hs e => match e with
    | .serviceOpen _ handle => hs ++ [handle]
    | .serviceClose handle => hs.erase handle
    | _ => hs) handles

/-- The handles opened and not yet closed along a trace. -/
def openHandles (trace : List IoEffect) : List ℕ := handlesAfter [] trace

@[simp] theorem handlesAfter_nil (hs : List ℕ) : handlesAfter hs [] = hs := rfl

@[simp] theorem handlesAfter_serviceOpen (hs : List ℕ) (id : UInt64) (h : ℕ)
    (es : List IoEffect) :
    handlesAfter hs (.serviceOpen id h :: es) = handlesAfter (hs ++ [h]) es := rfl

@[simp] theorem handlesAfter_serviceClose (hs : List ℕ) (h : ℕ) (es : List IoEffect) :
    handlesAfter hs (.serviceClose h :: es) = handlesAfter (hs.erase h) es := rfl

@[simp] theorem handlesAfter_driverVersion (hs : List ℕ) (h : ℕ) (version : Option UInt64)
    (es : List IoEffect) :
    handlesAfter hs (.driverVersion h version :: es) = handlesAfter hs es := rfl

@[simp] theorem handlesAfter_enqueue (hs : List ℕ) (task : IoTask) (es : List IoEffect) :
    handlesAfter hs (.enqueue task :: es) = handlesAfter hs es := rfl

@[simp] theorem handlesAfter_append (hs : List ℕ) (es fs : List IoEffect) :
    handlesAfter hs (es ++ fs) = handlesAfter (handlesAfter hs es) fs :=
  List.foldl_append

@[simp] theorem handlesAfter_notifications (hs : List ℕ) (n : ℕ) :
    handlesAfter hs (IoRun.notifications n) = hs := by
  induction n with
  | zero => rfl
  | succ n ih => exact ih

/-! ## The connection invariant -/

/-- The services whose `opened_` is true. -/
def openedServices (services : List MatchedService) : List MatchedService :=
  services.filter (·.opened)

/-- What holds between the connection, the services and the driver's version,
given the trace of all effects and the effects of the last event. -/
structure ConnectionInvariant (c : IoServiceClient) (trace last : List IoEffect) : Prop where
  /-- registry entry ids are pairwise distinct -/
  nodup : (c.matchedServices.map (·.registryEntryId)).Nodup
  /-- a connection is there exactly when one service is marked as opened -/
  opened_iff : c.connection.isSome ↔ (openedServices c.matchedServices).length = 1
  /-- without a connection no service is marked as opened -/
  none_opened : c.connection = none → openedServices c.matchedServices = []
  /-- the connection was opened on the marked service, which is in the list -/
  opened_service : ∀ h, c.connection = some h → ∃ s ∈ c.matchedServices, s.opened = true ∧
    IoEffect.serviceOpen s.registryEntryId h ∈ trace
  /-- a version is known exactly while there is a connection -/
  version_iff : c.driverVersion.isSome ↔ c.connection.isSome
  /-- the version was answered over that very connection -/
  version_answered : ∀ v, c.driverVersion = some v → ∃ h, c.connection = some h ∧
    IoEffect.driverVersion h (some v) ∈ trace
  /-- the open handles are exactly the connection -/
  handles : openHandles trace = c.connection.toList
  /-- without a connection every service is invalidated or failed in the last event -/
  failed : c.connection = none → ∀ s ∈ c.matchedServices,
    s.invalidated = true ∨ IoEffect.openFailed s.registryEntryId ∈ last

/-- The part of the invariant that a single event builds on: the services and
the connection, without the last event. -/
structure ConnectionCore (c : IoServiceClient) (trace : List IoEffect) : Prop where
  /-- registry entry ids are pairwise distinct -/
  nodup : (c.matchedServices.map (·.registryEntryId)).Nodup
  /-- no connection: nothing is opened or known -/
  closed : c.connection = none → openedServices c.matchedServices = [] ∧
    c.driverVersion = none ∧ openHandles trace = []
  /-- a connection: one service, its version, its handle -/
  connected : ∀ h, c.connection = some h → ∃ s v, openedServices c.matchedServices = [s] ∧
    IoEffect.serviceOpen s.registryEntryId h ∈ trace ∧ c.driverVersion = some v ∧
    IoEffect.driverVersion h (some v) ∈ trace ∧ openHandles trace = [h]

/-- The core and the outcome of the last event make the invariant. -/
theorem ConnectionCore.invariant {c : IoServiceClient} {trace last : List IoEffect}
    (core : ConnectionCore c trace) (failed : c.connection = none → ∀ s ∈ c.matchedServices,
      s.invalidated = true ∨ IoEffect.openFailed s.registryEntryId ∈ last) :
    ConnectionInvariant c trace last := by
  obtain ⟨nodup, closed, connected⟩ := core
  rcases hc : c.connection with _ | h
  · obtain ⟨hopened, hversion, hhandles⟩ := closed hc
    exact {
      nodup
      opened_iff := by simp [hc, hopened]
      none_opened := fun _ => hopened
      opened_service := by simp [hc]
      version_iff := by simp [hc, hversion]
      version_answered := by simp [hversion]
      handles := by simp [hc, hhandles]
      failed }
  · obtain ⟨s, v, hopened, hserv, hversion, hanswer, hhandles⟩ := connected h hc
    have hmem : s ∈ openedServices c.matchedServices := by simp [hopened]
    obtain ⟨hs, hso⟩ := List.mem_filter.mp hmem
    exact {
      nodup
      opened_iff := by simp [hc, hopened]
      none_opened := by simp [hc]
      opened_service := by
        intro h' h'eq
        rw [hc] at h'eq
        obtain rfl := Option.some.inj h'eq
        exact ⟨s, hs, hso, hserv⟩
      version_iff := by simp [hc, hversion]
      version_answered := by
        intro v' hv'
        rw [hversion] at hv'
        obtain rfl := Option.some.inj hv'
        exact ⟨h, hc, hanswer⟩
      handles := by simp [hc, hhandles]
      failed }

/-- How the loop of `open_connection` can end: nothing opened and every service
given up, or one service opened with its version. -/
def OpenOutcome (services : List MatchedService) (c : IoServiceClient) (new : List IoEffect) :
    Prop :=
  (c.connection = none ∧ openedServices services = [] ∧ c.driverVersion = none ∧
    openHandles new = [] ∧ ∀ s ∈ services,
      s.invalidated = true ∨ IoEffect.openFailed s.registryEntryId ∈ new) ∨
  ∃ h s v, c.connection = some h ∧ openedServices services = [s] ∧
    IoEffect.serviceOpen s.registryEntryId h ∈ new ∧ c.driverVersion = some v ∧
    IoEffect.driverVersion h (some v) ∈ new ∧ openHandles new = [h]

/-- One more service in front, not opened, and effects that leave no handle open. -/
theorem OpenOutcome.cons {services : List MatchedService} {c : IoServiceClient}
    {new : List IoEffect} (outcome : OpenOutcome services c new) {s : MatchedService}
    (first : List IoEffect) (hs : s.opened = false) (hfirst : openHandles first = [])
    (hfailed : s.invalidated = true ∨ IoEffect.openFailed s.registryEntryId ∈ first) :
    OpenOutcome (s :: services) c (first ++ new) := by
  have hopened : openedServices (s :: services) = openedServices services := by
    simp [openedServices, hs]
  have hhandles : openHandles (first ++ new) = openHandles new := by
    rw [openHandles, handlesAfter_append, ← openHandles, hfirst, openHandles]
  rcases outcome with ⟨hc, ho, hv, hh, hf⟩ | ⟨h, t, v, hc, ho, hserv, hv, hans, hh⟩
  · refine Or.inl ⟨hc, hopened.trans ho, hv, hhandles.trans hh, ?_⟩
    intro t ht
    rcases List.mem_cons.mp ht with rfl | ht
    · exact hfailed.imp id fun h => List.mem_append_left _ h
    · exact (hf t ht).imp id fun h => List.mem_append_right _ h
  · exact Or.inr ⟨h, t, v, hc, hopened.trans ho, List.mem_append_right _ hserv, hv,
      List.mem_append_right _ hans, hhandles.trans hh⟩

/-- The loop of `open_connection`, from a client without a connection. -/
theorem openServices_spec (answer : UInt64 → OpenAnswer) (services : List MatchedService)
    (r : IoRun) (hserv : openedServices services = []) (hconn : r.client.connection = none)
    (hver : r.client.driverVersion = none) :
    ∃ new, (IoRun.openServices answer services r).2.effects = r.effects ++ new ∧
      (IoRun.openServices answer services r).1.map (·.registryEntryId) =
        services.map (·.registryEntryId) ∧
      OpenOutcome (IoRun.openServices answer services r).1
        (IoRun.openServices answer services r).2.client new := by
  induction services generalizing r with
  | nil =>
    refine ⟨[], (List.append_nil _).symm, rfl, Or.inl ⟨hconn, rfl, hver, rfl, ?_⟩⟩
    intro s hs
    cases hs
  | cons s services ih =>
    have hs : s.opened = false := by
      by_contra h
      simp [openedServices, h] at hserv
    have hrest : openedServices services = [] := by
      simpa [openedServices, hs] using hserv
    by_cases hinv : s.invalidated = true
    -- an invalidated service is not tried again
    · obtain ⟨new, heff, hids, hout⟩ := ih r hrest hconn hver
      refine ⟨new, ?_, ?_, ?_⟩
      · simpa [IoRun.openServices, hinv] using heff
      · simpa [IoRun.openServices, hinv] using hids
      · simpa [IoRun.openServices, hinv] using hout.cons [] hs rfl (.inl hinv)
    · rcases hans : answer s.registryEntryId with _ | version
      · obtain ⟨new, heff, hids, hout⟩ := ih (r.emit (.openFailed s.registryEntryId)) hrest
          hconn hver
        refine ⟨.openFailed s.registryEntryId :: new, ?_, ?_, ?_⟩
        · simpa [IoRun.openServices, hinv, hans, IoRun.emit] using heff
        · simpa [IoRun.openServices, hinv, hans] using hids
        · simpa [IoRun.openServices, hinv, hans] using
            hout.cons [.openFailed s.registryEntryId] hs rfl (.inr (by simp))
      · obtain ⟨n, hopen⟩ := IoRun.openService_eq s.registryEntryId version r
        rcases version with _ | v
        · -- no version: the connection is closed at once and the loop goes on
          obtain ⟨new, heff, hids, hout⟩ := ih ((r.openService s.registryEntryId none).emit
            (.serviceClose r.client.nextHandle)) hrest (by rw [hopen]; exact hconn)
            (by rw [hopen]; rfl)
          refine ⟨([.serviceOpen s.registryEntryId r.client.nextHandle,
            .driverVersion r.client.nextHandle none] ++ IoRun.notifications n ++
            [.serviceClose r.client.nextHandle]) ++ new, ?_, ?_, ?_⟩
          · rw [hopen] at heff
            simpa [IoRun.openServices, hinv, hans, hopen, IoRun.emit] using heff
          · simpa [IoRun.openServices, hinv, hans] using hids
          · have hcons := hout.cons (s := { s with invalidated := true })
              ([.serviceOpen s.registryEntryId r.client.nextHandle,
                .driverVersion r.client.nextHandle none] ++ IoRun.notifications n ++
                [.serviceClose r.client.nextHandle]) hs (by simp [openHandles]) (.inl rfl)
            simpa [IoRun.openServices, hinv, hans] using hcons
        -- the first service that answers with a version ends the loop
        · have heq : IoRun.openServices answer (s :: services) r =
              ({ s with opened := true } :: services, IoRun.enqueue (.signal .opened)
                { r.openService s.registryEntryId (some v) with
                  client := { (r.openService s.registryEntryId (some v)).client with
                    connection := some r.client.nextHandle } }) := by
            simp [IoRun.openServices, hinv, hans]
          rw [heq, hopen]
          refine ⟨[.serviceOpen s.registryEntryId r.client.nextHandle,
            .driverVersion r.client.nextHandle (some v)] ++ IoRun.notifications n ++
            [.enqueue (.signal .opened)], ?_, rfl,
            Or.inr ⟨r.client.nextHandle, { s with opened := true }, v, rfl, ?_, ?_, rfl, ?_, ?_⟩⟩
          · simp [IoRun.enqueue, IoRun.emit]
          · simpa [openedServices] using hrest
          · simp
          · simp
          · simp [openHandles]

/-! ## Events -/

/-- `open_connection` on a client that has no connection. -/
theorem openConnection_closed (answer : UInt64 → OpenAnswer) (r : IoRun)
    (hserv : openedServices r.client.matchedServices = []) (hconn : r.client.connection = none) :
    ∃ new, (r.openConnection answer).effects = r.effects ++ new ∧
      (r.openConnection answer).client.matchedServices.map (·.registryEntryId) =
        r.client.matchedServices.map (·.registryEntryId) ∧
      OpenOutcome (r.openConnection answer).client.matchedServices
        (r.openConnection answer).client new := by
  obtain ⟨n, hforget⟩ := r.forgetDriver_eq
  obtain ⟨new, heff, hids, hout⟩ := openServices_spec answer r.client.matchedServices
    r.forgetDriver hserv (by rw [hforget]; exact hconn) (by rw [hforget])
  have hopen : r.openConnection answer = _ := if_neg (by simp [hconn])
  rw [hopen]
  refine ⟨IoRun.notifications n ++ new, ?_, hids, ?_⟩
  · rw [heff, hforget, List.append_assoc]
  · have hhandles : openHandles (IoRun.notifications n ++ new) = openHandles new := by
      simp [openHandles]
    rcases hout with ⟨hc, ho, hv, hh, hf⟩ | ⟨h, t, v, hc, ho, hs, hv, hans, hh⟩
    · exact Or.inl ⟨hc, ho, hv, hhandles.trans hh, fun s hs =>
        (hf s hs).imp id fun h => List.mem_append_right _ h⟩
    · exact Or.inr ⟨h, t, v, hc, ho, List.mem_append_right _ hs, hv,
        List.mem_append_right _ hans, hhandles.trans hh⟩

/-- What holds at the end of an event: the core, and every service that could
have been opened was tried in vain. -/
def EventOutcome (r : IoRun) (trace : List IoEffect) : Prop :=
  ConnectionCore r.client (trace ++ r.effects) ∧ (r.client.connection = none →
    ∀ s ∈ r.client.matchedServices, s.invalidated = true ∨
      IoEffect.openFailed s.registryEntryId ∈ r.effects)

/-- A client that is about to open a connection, or has one: the connection is
the only open handle and belongs to the only opened service. -/
theorem openConnection_core {answer : UInt64 → OpenAnswer} {r : IoRun} {trace : List IoEffect}
    (core : ConnectionCore r.client (trace ++ r.effects)) :
    EventOutcome (r.openConnection answer) trace := by
  rw [EventOutcome]
  rcases hc : r.client.connection with _ | h
  · obtain ⟨hopened, -, hhandles⟩ := core.closed hc
    obtain ⟨new, heff, hids, hout⟩ := openConnection_closed answer r hopened hc
    have hnodup := core.nodup
    rw [← hids] at hnodup
    have hnew : openHandles (trace ++ (r.effects ++ new)) = openHandles new := by
      rw [← List.append_assoc, openHandles, handlesAfter_append, ← openHandles, hhandles,
        openHandles]
    rw [heff]
    rcases hout with ⟨hc', ho, hv, hh, hf⟩ | ⟨h, s, v, hc', ho, hs, hv, hans, hh⟩
    · refine ⟨⟨hnodup, fun _ => ⟨ho, hv, hnew.trans hh⟩, ?_⟩, ?_⟩
      · intro h hsome
        rw [hc'] at hsome
        cases hsome
      · intro _ s hs
        exact (hf s hs).imp id fun h => List.mem_append_right _ h
    · refine ⟨⟨hnodup, ?_, ?_⟩, ?_⟩
      · intro hnone
        rw [hc'] at hnone
        cases hnone
      · intro h' hsome
        rw [hc'] at hsome
        obtain rfl := Option.some.inj hsome
        exact ⟨s, v, ho, by simp [hs], hv, by simp [hans], hnew.trans hh⟩
      · intro hnone
        rw [hc'] at hnone
        cases hnone
  · -- `open_connection` does nothing while there is a connection
    have hsame : r.openConnection answer = r := if_pos (by simp [hc])
    rw [hsame]
    refine ⟨core, fun hnone => ?_⟩
    rw [hc] at hnone
    cases hnone

/-- Effects that touch no handle, and changes of members other than the
services, the connection and the version, keep the core. -/
theorem ConnectionCore.frame {c d : IoServiceClient} {trace new : List IoEffect}
    (core : ConnectionCore c trace) (hserv : d.matchedServices = c.matchedServices)
    (hconn : d.connection = c.connection) (hver : d.driverVersion = c.driverVersion)
    (hnew : ∀ hs, handlesAfter hs new = hs) : ConnectionCore d (trace ++ new) := by
  have hhandles : openHandles (trace ++ new) = openHandles trace := by
    rw [openHandles, handlesAfter_append, hnew, openHandles]
  obtain ⟨nodup, closed, connected⟩ := core
  refine ⟨hserv ▸ nodup, fun hnone => ?_, fun h hsome => ?_⟩
  · rw [hserv, hver, hhandles]
    exact closed (hconn ▸ hnone)
  · rw [hserv, hver, hhandles]
    obtain ⟨s, v, ho, hs, hv, hans, hh⟩ := connected h (hconn ▸ hsome)
    exact ⟨s, v, ho, List.mem_append_left _ hs, hv, List.mem_append_left _ hans, hh⟩

/-- A list of services with the same ids and the same opened services will do. -/
theorem ConnectionCore.services {c : IoServiceClient} {trace : List IoEffect}
    (core : ConnectionCore c trace) {services : List MatchedService}
    (hnodup : (services.map (·.registryEntryId)).Nodup)
    (hopened : openedServices services = openedServices c.matchedServices) :
    ConnectionCore { c with matchedServices := services } trace :=
  ⟨hnodup, fun hnone => hopened ▸ core.closed hnone,
    fun h hsome => hopened ▸ core.connected h hsome⟩

theorem insert_core {c : IoServiceClient} {trace : List IoEffect} (core : ConnectionCore c trace)
    (id : UInt64) : ConnectionCore { c with
      matchedServices := MatchedServices.insert c.matchedServices id } trace := by
  by_cases hknown : c.matchedServices.any fun s => s.registryEntryId == id
  · have hsame : MatchedServices.insert c.matchedServices id = c.matchedServices := if_pos hknown
    rw [hsame]
    exact core
  · have hnew : MatchedServices.insert c.matchedServices id =
        c.matchedServices ++ [⟨id, false, false⟩] := if_neg hknown
    rw [hnew]
    refine core.services ?_ (by simp [openedServices])
    have hfresh : id ∉ c.matchedServices.map (·.registryEntryId) := by
      intro hmem
      obtain ⟨s, hs, rfl⟩ := List.mem_map.mp hmem
      exact hknown (List.any_eq_true.mpr ⟨s, hs, by simp⟩)
    rw [List.map_append, List.map_singleton]
    refine List.nodup_append.mpr ⟨core.nodup, by simp, ?_⟩
    rintro a ha b hb rfl
    obtain rfl := List.mem_singleton.mp hb
    exact hfresh ha

/-- With distinct ids, `find` returns the very service that has the id. -/
theorem find_of_mem {services : List MatchedService} {s : MatchedService}
    (hnodup : (services.map (·.registryEntryId)).Nodup) (hs : s ∈ services) :
    MatchedServices.find services s.registryEntryId = some s := by
  induction services with
  | nil => cases hs
  | cons t services ih =>
    rw [List.map_cons, List.nodup_cons] at hnodup
    by_cases hid : t.registryEntryId = s.registryEntryId
    · rcases List.mem_cons.mp hs with rfl | hs
      · simp [MatchedServices.find]
      · exact absurd (List.mem_map.mpr ⟨s, hs, hid.symm⟩) hnodup.1
    · rcases List.mem_cons.mp hs with rfl | hs
      · exact absurd rfl hid
      · have hfind := ih hnodup.2 hs
        rw [MatchedServices.find] at hfind ⊢
        rw [List.find?_cons_of_neg (by simpa using hid), hfind]

theorem map_setClosed (id : UInt64) (services : List MatchedService) :
    (MatchedServices.setClosed id services).map (·.registryEntryId) =
      services.map (·.registryEntryId) := by
  induction services with
  | nil => rfl
  | cons s services ih =>
    by_cases hid : s.registryEntryId = id
    · simp [MatchedServices.setClosed, hid]
    · simp [MatchedServices.setClosed, hid, ih]

/-- Closing the only opened service leaves none opened. -/
theorem openedServices_setClosed {id : UInt64} {services : List MatchedService}
    {s t : MatchedService} (hfind : MatchedServices.find services id = some s)
    (hs : s.opened = true) (hopened : openedServices services = [t]) :
    openedServices (MatchedServices.setClosed id services) = [] := by
  induction services with
  | nil => cases hfind
  | cons a services ih =>
    rw [MatchedServices.find] at hfind
    by_cases hid : a.registryEntryId = id
    · rw [List.find?_cons_of_pos (by simpa using hid)] at hfind
      obtain rfl := Option.some.inj hfind
      have hrest : openedServices services = [] := by
        simp only [openedServices, List.filter_cons_of_pos hs, List.cons.injEq] at hopened
        exact hopened.2
      simpa [MatchedServices.setClosed, hid, openedServices] using hrest
    · rw [List.find?_cons_of_neg (by simpa using hid)] at hfind
      have hmem : s ∈ openedServices services :=
        List.mem_filter.mpr ⟨List.mem_of_find?_eq_some hfind, hs⟩
      have ha : a.opened = false := by
        by_contra h
        rw [Bool.not_eq_false] at h
        simp only [openedServices, List.filter_cons_of_pos h, List.cons.injEq] at hopened
        rw [openedServices, hopened.2] at hmem
        cases hmem
      have hrest : openedServices services = [t] := by
        simpa [openedServices, ha] using hopened
      simpa [MatchedServices.setClosed, hid, openedServices, ha] using ih hfind hrest

/-- `close_connection` on the opened service. -/
theorem closeConnection_opened {r : IoRun} {id : UInt64} {s : MatchedService} {h : ℕ}
    (hfind : MatchedServices.find r.client.matchedServices id = some s) (hs : s.opened = true)
    (hc : r.client.connection = some h) :
    ∃ n, r.closeConnection id = ⟨{ r.client with
        matchedServices := MatchedServices.setClosed id r.client.matchedServices,
        connection := none, driverVersion := none, keyboardReady := none, pointingReady := none },
      r.effects ++ [IoEffect.serviceClose h, .enqueue (.signal .closed)] ++
        IoRun.notifications n⟩ := by
  obtain ⟨n, hforget⟩ := IoRun.forgetDriver_eq (IoRun.enqueue (.signal .closed)
    (IoRun.emit (.serviceClose h) { r with client := { r.client with
      matchedServices := MatchedServices.setClosed id r.client.matchedServices,
      connection := none } }))
  refine ⟨n, ?_⟩
  simp only [IoRun.closeConnection, hfind, hs, hc]
  refine Eq.trans hforget ?_
  simp [IoRun.enqueue, IoRun.emit]

/-- `close_connection`, with what it leaves of the service it is given. -/
theorem closeConnection_core {r : IoRun} {trace : List IoEffect} (id : UInt64)
    (core : ConnectionCore r.client (trace ++ r.effects)) :
    ConnectionCore (r.closeConnection id).client (trace ++ (r.closeConnection id).effects) ∧
    ∀ s ∈ (r.closeConnection id).client.matchedServices, s.registryEntryId = id →
      s.opened = false := by
  have hkeep : (∀ s, MatchedServices.find r.client.matchedServices id = some s →
      s.opened = false) → ∀ s ∈ r.client.matchedServices, s.registryEntryId = id →
      s.opened = false := by
    rintro hnot s hs rfl
    exact hnot s (find_of_mem core.nodup hs)
  rcases hfind : MatchedServices.find r.client.matchedServices id with _ | s
  · have hsame : r.closeConnection id = r := by
      rw [IoRun.closeConnection, hfind]
    rw [hsame]
    exact ⟨core, hkeep fun s hs => by rw [hfind] at hs; cases hs⟩
  · by_cases hs : s.opened = true
    · -- the service is the opened one, so there is a connection to close
      have hmem : s ∈ openedServices r.client.matchedServices :=
        List.mem_filter.mpr ⟨List.mem_of_find?_eq_some hfind, hs⟩
      rcases hc : r.client.connection with _ | h
      · rw [(core.closed hc).1] at hmem
        cases hmem
      · obtain ⟨t, v, hopened, -, -, -, hhandles⟩ := core.connected h hc
        have hafter := openedServices_setClosed hfind hs hopened
        obtain ⟨n, hclose⟩ := closeConnection_opened hfind hs hc
        rw [hclose]
        refine ⟨⟨?_, fun _ => ⟨hafter, rfl, ?_⟩, fun _ hsome => (by cases hsome)⟩, ?_⟩
        · exact (map_setClosed id _).symm ▸ core.nodup
        · rw [← List.append_assoc, ← List.append_assoc, openHandles, handlesAfter_append,
            handlesAfter_append, ← openHandles, hhandles]
          simp
        · intro u hu _
          by_contra hopen
          rw [Bool.not_eq_false] at hopen
          have : u ∈ openedServices (MatchedServices.setClosed id r.client.matchedServices) :=
            List.mem_filter.mpr ⟨hu, hopen⟩
          rw [hafter] at this
          cases this
    · have hsame : r.closeConnection id = r := by
        simp [IoRun.closeConnection, hfind, hs]
      rw [hsame]
      refine ⟨core, hkeep fun t ht => ?_⟩
      rw [hfind] at ht
      obtain rfl := Option.some.inj ht
      simpa using hs

theorem erase_core {c : IoServiceClient} {trace : List IoEffect} (core : ConnectionCore c trace)
    {id : UInt64} (hid : ∀ s ∈ c.matchedServices, s.registryEntryId = id → s.opened = false) :
    ConnectionCore { c with
      matchedServices := MatchedServices.erase c.matchedServices id } trace := by
  refine core.services ?_ ?_
  · exact core.nodup.sublist (List.filter_sublist.map _)
  · rw [openedServices, MatchedServices.erase, List.filter_filter]
    refine List.filter_congr fun s hs => ?_
    by_cases heq : s.registryEntryId = id
    · simp [hid s hs heq]
    · simp [heq]

theorem openConnection_insert {r : IoRun} {trace : List IoEffect} (answer : UInt64 → OpenAnswer)
    (id : UInt64) (core : ConnectionCore r.client (trace ++ r.effects)) :
    EventOutcome (IoRun.openConnection answer { r with client := { r.client with
      matchedServices := MatchedServices.insert r.client.matchedServices id } }) trace :=
  openConnection_core (insert_core core id)

theorem openConnection_erase {r : IoRun} {trace : List IoEffect} (answer : UInt64 → OpenAnswer)
    {id : UInt64} (core : ConnectionCore r.client (trace ++ r.effects))
    (hid : ∀ s ∈ r.client.matchedServices, s.registryEntryId = id → s.opened = false) :
    EventOutcome (IoRun.openConnection answer { r with client := { r.client with
      matchedServices := MatchedServices.erase r.client.matchedServices id } }) trace :=
  openConnection_core (erase_core core hid)

/-- Queuing one more closure keeps the outcome of an event. -/
theorem EventOutcome.enqueue {r : IoRun} {trace : List IoEffect} (h : EventOutcome r trace)
    (task : IoTask) : EventOutcome (r.enqueue task) trace := by
  obtain ⟨core, failed⟩ := h
  refine ⟨?_, fun hnone s hs => (failed hnone s hs).imp id fun h => List.mem_append_left _ h⟩
  have hframe : ConnectionCore r.client (trace ++ r.effects ++ [.enqueue task]) :=
    core.frame rfl rfl rfl fun _ => rfl
  rwa [List.append_assoc] at hframe

/-- The listener of `service_matched`. -/
theorem serviceMatched_core {r : IoRun} {trace : List IoEffect} (answer : UInt64 → OpenAnswer)
    (id : UInt64) (core : ConnectionCore r.client (trace ++ r.effects)) :
    EventOutcome (r.serviceMatched answer id) trace :=
  (openConnection_insert answer id core).enqueue (.signal .stateChanged)

/-- The listener of `service_terminated`. -/
theorem serviceTerminated_core {r : IoRun} {trace : List IoEffect} (answer : UInt64 → OpenAnswer)
    (id : UInt64) (core : ConnectionCore r.client (trace ++ r.effects)) :
    EventOutcome (r.serviceTerminated answer id) trace := by
  obtain ⟨hclosed, hnot⟩ := closeConnection_core id core
  exact (openConnection_erase answer hclosed hnot).enqueue (.signal .stateChanged)

/-! ## Runs of events -/

/-- What can happen to a client after `async_start`. -/
inductive ConnectionEvent where
  /-- the monitor reports a matched service -/
  | matched (id : UInt64) (answer : UInt64 → OpenAnswer)
  /-- the monitor reports a terminated service -/
  | terminated (id : UInt64) (answer : UInt64 → OpenAnswer)
  /-- the client is destroyed -/
  | destroyed

/-- A client with the effects of its past. -/
structure ConnectionState where
  /-- the client -/
  client : IoServiceClient
  /-- the effects of the earlier events -/
  past : List IoEffect := []
  /-- the effects of the last event -/
  last : List IoEffect := []
  /-- the destructor has run -/
  destroyed : Bool := false

/-- All effects so far. -/
def ConnectionState.trace (s : ConnectionState) : List IoEffect := s.past ++ s.last

/-- What an event does. -/
def ConnectionEvent.apply (r : IoRun) : ConnectionEvent → IoRun
  | matched id answer => r.serviceMatched answer id
  | terminated id answer => r.serviceTerminated answer id
  | destroyed => r.destroy

/-- The event ends the client's life. -/
def ConnectionEvent.isDestroyed : ConnectionEvent → Bool
  | destroyed => true
  | _ => false

/-- One event; nothing happens to a destroyed client. -/
def ConnectionState.step (s : ConnectionState) (event : ConnectionEvent) :
    Option ConnectionState :=
  if s.destroyed then none
  else some ⟨(event.apply ⟨s.client, []⟩).client, s.trace, (event.apply ⟨s.client, []⟩).effects,
    event.isDestroyed⟩

/-- The destructor closes the connection. -/
theorem destroy_core {r : IoRun} {trace : List IoEffect}
    (core : ConnectionCore r.client (trace ++ r.effects)) :
    ConnectionCore r.destroy.client (trace ++ r.destroy.effects) ∧
      r.destroy.client.connection = none ∧ r.destroy.client.matchedServices = [] := by
  rcases hfind : MatchedServices.findOpened r.client.matchedServices with _ | s
  · have hopened : openedServices r.client.matchedServices = [] := by
      rw [openedServices, List.filter_eq_nil_iff]
      exact List.find?_eq_none.mp hfind
    rcases hc : r.client.connection with _ | h
    · obtain ⟨-, hv, hh⟩ := core.closed hc
      simp only [IoRun.destroy, hfind]
      exact ⟨⟨List.nodup_nil, fun _ => ⟨rfl, hv, hh⟩, by simp [hc]⟩, hc, trivial⟩
    · obtain ⟨t, v, ho, -⟩ := core.connected h hc
      rw [hopened] at ho
      cases ho
  · have hs : s.opened = true := List.find?_some hfind
    have hmem : s ∈ r.client.matchedServices := List.mem_of_find?_eq_some hfind
    rcases hc : r.client.connection with _ | h
    · have : s ∈ openedServices r.client.matchedServices := List.mem_filter.mpr ⟨hmem, hs⟩
      rw [(core.closed hc).1] at this
      cases this
    · obtain ⟨n, hclose⟩ := closeConnection_opened (find_of_mem core.nodup hmem) hs hc
      obtain ⟨hcore, -⟩ := closeConnection_core s.registryEntryId core
      rw [hclose] at hcore
      simp only [IoRun.destroy, hfind, hclose]
      obtain ⟨-, -, hh⟩ := hcore.closed rfl
      exact ⟨⟨List.nodup_nil, fun _ => ⟨rfl, rfl, hh⟩, fun _ h => (by cases h)⟩, trivial, trivial⟩

/-- The core holds along every run, and after an event the services without a
connection are invalidated or have just failed. -/
theorem connectionState_step {s t : ConnectionState} {event : ConnectionEvent}
    (core : ConnectionCore s.client s.trace) (h : s.step event = some t) :
    ConnectionCore t.client t.trace ∧ (t.client.connection = none →
      ∀ m ∈ t.client.matchedServices, m.invalidated = true ∨
        IoEffect.openFailed m.registryEntryId ∈ t.last) ∧
      (t.destroyed = true → t.client.connection = none) := by
  rw [ConnectionState.step] at h
  split at h
  · cases h
  · obtain rfl := Option.some.inj h
    have core₀ : ConnectionCore s.client (s.trace ++ []) := (List.append_nil s.trace).symm ▸ core
    cases event with
    | matched id answer =>
      obtain ⟨hcore, hfailed⟩ := serviceMatched_core (r := ⟨s.client, []⟩) answer id core₀
      exact ⟨hcore, hfailed, fun h => by cases h⟩
    | terminated id answer =>
      obtain ⟨hcore, hfailed⟩ := serviceTerminated_core (r := ⟨s.client, []⟩) answer id core₀
      exact ⟨hcore, hfailed, fun h => by cases h⟩
    | destroyed =>
      obtain ⟨hcore, hnone, hempty⟩ := destroy_core (r := ⟨s.client, []⟩) core₀
      refine ⟨hcore, fun _ m hm => ?_, fun _ => hnone⟩
      have hm : m ∈ (IoRun.destroy ⟨s.client, []⟩).client.matchedServices := hm
      rw [hempty] at hm
      cases hm

/-- The connection invariant. From a new client, after any sequence of
matched and terminated services, with any answers of the system, and after
destruction: the invariant holds, and a destroyed client has no handle open. -/
theorem connection_invariant (objectId : ℕ) (events : List ConnectionEvent)
    (t : ConnectionState)
    (h : Transition.run ConnectionState.step ⟨{ objectId }, [], [], false⟩ events = some t) :
    ConnectionInvariant t.client t.trace t.last ∧
      (t.destroyed = true → openHandles t.trace = []) := by
  have key : ConnectionCore t.client t.trace ∧ (t.client.connection = none →
      ∀ m ∈ t.client.matchedServices, m.invalidated = true ∨
        IoEffect.openFailed m.registryEntryId ∈ t.last) ∧
      (t.destroyed = true → t.client.connection = none) := by
    refine Transition.run_invariant (I := fun t : ConnectionState =>
      ConnectionCore t.client t.trace ∧ (t.client.connection = none →
        ∀ m ∈ t.client.matchedServices, m.invalidated = true ∨
          IoEffect.openFailed m.registryEntryId ∈ t.last) ∧
        (t.destroyed = true → t.client.connection = none)) ?_ ?_ h
    · refine ⟨⟨List.nodup_nil, fun _ => ⟨rfl, rfl, rfl⟩, fun _ h => (by cases h)⟩, ?_, ?_⟩
      · intro _ m hm
        cases hm
      · intro h
        cases h
    · rintro s event u ⟨core, -, -⟩ hstep
      exact connectionState_step core hstep
  obtain ⟨core, failed, destroyed⟩ := key
  have inv := core.invariant failed
  refine ⟨inv, fun hd => ?_⟩
  rw [inv.handles, destroyed hd]
  rfl

/-- A driver that is replaced: the second service is matched, and reported again,
before the first one is terminated. -/
def replacedDriver : List ConnectionEvent :=
  [.matched 1 fun _ => .opened (some 10800), .matched 2 fun _ => .failed,
   .matched 2 fun _ => .failed, .terminated 1 fun _ => .opened (some 10900)]

/-- The client moves on to the second service within one event. -/
theorem connection_moves_on :
    ∃ t, Transition.run ConnectionState.step ⟨{ objectId := 0 }, [], [], false⟩ replacedDriver =
        some t ∧
      t.client.connection = some 1 ∧ ConnectionInvariant t.client t.trace t.last :=
  ⟨_, rfl, rfl, (connection_invariant 0 replacedDriver _ rfl).1⟩

end VirtualHidDevice
