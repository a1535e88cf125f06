import VirtualHidDevice.Manager

/-!
# Peers do not interfere

All peers share one dispatcher and one table of entries. Seen by one of them, a run of the
clients manager is the run in which the others are left out.

* `Manager.operate` — the operations of the manager one by one, in any order, with the tasks
  they queue, the events of the driver and the timers in between.
* `Manager.concerns` — the steps that are addressed to a peer, or run a task of its own.
* `Manager.observe` — what a step shows of a peer: calls of the driver through its io service
  clients, `status_changed`, answers to its requests and results of `make_response`.
* `Manager.SeenBy` — two managers that look the same to a peer, the second of which has no
  other peers.
* `Manager.operate_records` — nothing is left out: the records of a peer grow by what is
  observed.
* `peers_do_not_interfere` — the steps that concern a peer make a run on their own, which
  shows the same of it and leaves it with the same entry, devices and tasks. All other steps
  leave the peer as it was.
-/

namespace VirtualHidDevice

open Dispatcher (project)

/-! ## The operations of the manager -/

/-- An operation on the manager, or something that happens to it. -/
inductive ManagerOperation where
  /-- `create_client(id)`, with the result of `driver_activated()` -/
  | createClient (id : ℕ) (activated : Bool)
  /-- `erase_client(id)` -/
  | eraseClient (id : ℕ)
  /-- `async_check_status_changed(id)` -/
  | asyncCheckStatusChanged (id : ℕ)
  /-- a method that initializes, terminates or resets a device of a peer, or posts a report -/
  | call (id : ℕ) (call : ManagerCall)
  /-- `make_response(id)` -/
  | makeResponse (id : ℕ)
  /-- the dispatcher runs the first task of the queue, and the system answers its calls -/
  | run (answers : Answers)
  /-- a request arrives from a peer, an event from the driver, or a timer of its fires -/
  | peer (id : ℕ) (label : PeerLabel)

/-- What can be seen of a peer. -/
inductive Observation where
  /-- a call of the driver, through one of its io service clients -/
  | driverCall (record : DriverRecord)
  /-- a status that `status_changed` carries, or an answer to a request -/
  | message (message : Message)
  /-- a result of `make_response` -/
  | response (buffer : Bytes)
deriving DecidableEq, Repr

namespace Manager

/-- `make_response(id)`. -/
def makeResponse (m : Manager) (id : ℕ) : Bytes :=
  match m.live id, m.entries id with
  | true, some l => l.makeResponse
  | _, _ => []

/-- The methods that look up an entry and call it. `post_report` looks at the offset before it
subtracts, so it does not fault. -/
def call (m : Manager) (id : ℕ) (call : ManagerCall) : Manager :=
  match call.onEntry, m.live id, m.entries id with
  | .ok (some e), true, some l => m.finish id m.queue (Run.entryCall ⟨l, []⟩ e)
  | _, _, _ => m

/-- One step, in the order of the dispatcher. -/
def operate (m : Manager) : ManagerOperation → Option Manager
  | .createClient id activated => some (m.createClient id activated)
  | .eraseClient id => some (m.eraseClient id)
  | .asyncCheckStatusChanged id => some (m.asyncCheckStatusChanged id)
  | .call id call => some (m.call id call)
  | .makeResponse _ => some m
  | .run answers => m.dispatch (.run answers)
  | .peer id label => m.dispatch (.peer id label)

/-- The step is addressed to the peer, or runs a task of the peer. -/
def concerns (id : ℕ) (m : Manager) : ManagerOperation → Bool
  | .createClient j _ => j = id
  | .eraseClient j => j = id
  | .asyncCheckStatusChanged j => j = id
  | .call j _ => j = id
  | .makeResponse j => j = id
  | .run _ => m.queue.head?.any fun task => task.1 = id
  | .peer j _ => j = id

/-- What an entry has done since it was as `before`. -/
def newObservations (before after : Option Local) : List Observation :=
  match before, after with
  | some l, some l' => (l'.calls.drop l.calls.length).map .driverCall ++
      (l'.sent.drop l.sent.length).map .message
  | _, _ => []

/-- What a step shows of a peer. -/
def observe (id : ℕ) (m : Manager) (operation : ManagerOperation) : List Observation :=
  match operation with
  | .makeResponse j => if j = id then [.response (m.makeResponse id)] else []
  | _ => match m.operate operation with
    | none => []
    | some n => newObservations (m.entries id) (n.entries id)

/-- Nothing new is seen of an entry that has not changed. -/
theorem newObservations_self (l : Option Local) : newObservations l l = [] := by
  rcases l with _ | l
  · rfl
  · simp [newObservations]

/-! ## Two managers that look the same -/

/-- The second manager is the first one as a peer sees it: with that peer alone. -/
structure SeenBy (id : ℕ) (m m' : Manager) : Prop where
  /-- queued tasks of the first one belong to peers that are there -/
  owned : m.Owned
  /-- the entry is the same -/
  entries : m'.entries id = m.entries id
  /-- and it is there in both, or in none -/
  live : m'.live id = m.live id
  /-- the queue is the part of the peer -/
  queue : m'.queue = (project id m.queue).map (id, ·)
  /-- there are no other entries -/
  alone : ∀ j, j ≠ id → m'.entries j = none ∧ m'.live j = false

namespace SeenBy

variable {id : ℕ} {m m' : Manager}

/-- The peer is the same. -/
theorem peer (h : SeenBy id m m') : m'.peer id = m.peer id := by
  rw [Manager.peer, Manager.peer, h.entries, h.queue, Dispatcher.project_map]

/-- A step of the first manager that leaves the peer alone. -/
theorem skip (h : SeenBy id m m') {n : Manager} (howned : n.Owned)
    (hentries : n.entries id = m.entries id) (hlive : n.live id = m.live id)
    (hqueue : project id n.queue = project id m.queue) : SeenBy id n m' :=
  ⟨howned, h.entries.trans hentries.symm, h.live.trans hlive.symm, hqueue ▸ h.queue, h.alone⟩

/-- The end of a task of the peer, in both managers. -/
theorem finish (h : SeenBy id m m') (hlive : m.live id = true) {queue : List (ℕ × Task)}
    (hsub : ∀ task ∈ queue, task ∈ m.queue) (r : Run) :
    SeenBy id (m.finish id queue r) (m'.finish id ((project id queue).map (id, ·)) r) := by
  refine ⟨finish_owned h.owned hlive hsub r, ?_, h.live, ?_, fun j hj => ?_⟩
  · simp [Manager.finish]
  · simp only [Manager.finish, Dispatcher.applyAll_map_tag, Dispatcher.project_applyAll]
  · obtain ⟨hentry, hnot⟩ := h.alone j hj
    exact ⟨(Function.update_of_ne hj _ _).trans hentry, hnot⟩

end SeenBy

/-! ## Steps of the others -/

theorem operate_owned {m n : Manager} {operation : ManagerOperation} (howned : m.Owned)
    (h : m.operate operation = some n) : n.Owned := by
  cases operation with
  | createClient j activated =>
    obtain rfl := Option.some.inj h
    exact createClient_owned howned j activated
  | eraseClient j =>
    obtain rfl := Option.some.inj h
    exact eraseClient_owned howned j
  | asyncCheckStatusChanged j =>
    obtain rfl := Option.some.inj h
    exact asyncCheckStatusChanged_owned howned j
  | call j call =>
    obtain rfl := Option.some.inj h
    rw [Manager.call]
    split
    next hlive _ => exact finish_owned howned hlive (fun _ ht => ht) _
    next => exact howned
  | makeResponse j =>
    obtain rfl := Option.some.inj h
    exact howned
  | run answers =>
    have hrun : m.dispatch (.run answers) = some n := h
    exact dispatch_owned howned hrun
  | peer j label =>
    have hpeer : m.dispatch (.peer j label) = some n := h
    exact dispatch_owned howned hpeer

/-- The members of the manager that a peer depends on are as they were. -/
structure Untouched (id : ℕ) (m n : Manager) : Prop where
  /-- its entry -/
  entries : n.entries id = m.entries id
  /-- whether it is there -/
  live : n.live id = m.live id
  /-- its tasks -/
  queue : project id n.queue = project id m.queue

/-- A step that does not concern the peer leaves it alone. -/
def Confined (id : ℕ) (m : Manager) (operation : ManagerOperation) : Prop :=
  concerns id m operation = false → ∀ n, m.operate operation = some n → Untouched id m n

theorem Untouched.refl (id : ℕ) (m : Manager) : Untouched id m m := ⟨rfl, rfl, rfl⟩

/-- The end of a task of another peer. -/
theorem untouched_finish {m : Manager} {id j : ℕ} (h : id ≠ j) {queue : List (ℕ × Task)}
    (hqueue : project id queue = project id m.queue) (r : Run) :
    Untouched id m (m.finish j queue r) :=
  ⟨Function.update_of_ne h _ _, rfl, (Dispatcher.project_applyAll_of_ne _ h _ _).trans hqueue⟩

/-- Every step is confined to the peers that it concerns. -/
theorem confined {m : Manager} (howned : m.Owned) (id : ℕ) (operation : ManagerOperation) :
    Confined id m operation := by
  intro hnot n h
  cases operation with
  | createClient j activated =>
    obtain rfl := Option.some.inj h
    have hj : id ≠ j := Ne.symm (of_decide_eq_false hnot)
    rw [createClient]
    split
    · exact .refl id m
    · refine ⟨Function.update_of_ne hj _ _, by simp [live, hj], ?_⟩
      simp [ClientEntry.initTasks, Dispatcher.project_cons_of_ne hj.symm]
  | eraseClient j =>
    obtain rfl := Option.some.inj h
    have hj : id ≠ j := Ne.symm (of_decide_eq_false hnot)
    refine ⟨rfl, by simp [live_eraseClient, hj], ?_⟩
    rw [project_eraseClient, if_neg hj]
  | asyncCheckStatusChanged j =>
    obtain rfl := Option.some.inj h
    have hj : id ≠ j := Ne.symm (of_decide_eq_false hnot)
    rw [asyncCheckStatusChanged]
    split
    · exact ⟨rfl, rfl, by simp [Dispatcher.project_cons_of_ne hj.symm]⟩
    · exact .refl id m
  | call j call =>
    obtain rfl := Option.some.inj h
    rw [Manager.call]
    split
    · exact untouched_finish (Ne.symm (of_decide_eq_false hnot)) rfl _
    · exact .refl id m
  | makeResponse j =>
    obtain rfl := Option.some.inj h
    exact .refl id m
  | run answers =>
    -- the first task belongs to another peer, and so does all that it queues
    obtain ⟨j, task, queue, l, hq, -, -, rfl⟩ := run_cases howned (step_of_dispatch h)
    have hj : j ≠ id := by simpa [concerns, hq] using hnot
    refine untouched_finish hj.symm ?_ _
    rw [hq, Dispatcher.project_cons_of_ne hj]
  | peer j label =>
    obtain ⟨l, r, -, -, -, rfl⟩ := react_cases (step_of_dispatch h)
    exact untouched_finish (Ne.symm (of_decide_eq_false hnot)) rfl r

/-! ## Steps of the peer itself -/

/-- A step that concerns the peer can be made with that peer alone. -/
theorem SeenBy.operate {id : ℕ} {m m' n : Manager} {operation : ManagerOperation}
    (h : SeenBy id m m') (hconcerns : concerns id m operation = true)
    (hstep : m.operate operation = some n) :
    ∃ n', m'.operate operation = some n' ∧ SeenBy id n n' := by
  have howned := operate_owned h.owned hstep
  -- tasks that are appended to both queues
  have append : ∀ tasks : List Task, m'.queue ++ tasks.map (id, ·) =
      (project id (m.queue ++ tasks.map (id, ·))).map (id, ·) := by
    intro tasks
    rw [Dispatcher.project_append, Dispatcher.project_map, List.map_append, h.queue]
  cases operation with
  | createClient j activated =>
    obtain rfl : j = id := of_decide_eq_true hconcerns
    obtain rfl := Option.some.inj hstep
    refine ⟨_, rfl, ?_⟩
    -- the entry is there in both managers or in none, so both take the same branch
    rw [createClient] at howned ⊢
    rw [createClient, h.live]
    split
    next => exact h
    next hnot =>
      rw [if_neg hnot] at howned
      refine ⟨howned, by simp, by simp [live_cons], append _, fun k hk => ?_⟩
      obtain ⟨hentry, hlive⟩ := h.alone k hk
      refine ⟨(Function.update_of_ne hk _ _).trans hentry, ?_⟩
      rw [live_cons, decide_eq_false hk]
      exact hlive
  | eraseClient j =>
    obtain rfl : j = id := of_decide_eq_true hconcerns
    obtain rfl := Option.some.inj hstep
    refine ⟨_, rfl, howned, h.entries, by simp [live_eraseClient], ?_, fun k hk => ?_⟩
    · rw [project_eraseClient, if_pos rfl, eraseClient, h.queue]
      simp
    · obtain ⟨hentry, hlive⟩ := h.alone k hk
      exact ⟨hentry, by simp [live_eraseClient, hlive]⟩
  | asyncCheckStatusChanged j =>
    obtain rfl : j = id := of_decide_eq_true hconcerns
    obtain rfl := Option.some.inj hstep
    refine ⟨_, rfl, ?_⟩
    rw [asyncCheckStatusChanged] at howned ⊢
    rw [asyncCheckStatusChanged, h.live]
    split
    next hlive =>
      rw [if_pos hlive] at howned
      exact ⟨howned, h.entries, h.live, append [_], h.alone⟩
    next => exact h
  | call j call =>
    obtain rfl : j = id := of_decide_eq_true hconcerns
    obtain rfl := Option.some.inj hstep
    refine ⟨_, rfl, ?_⟩
    rw [Manager.call, Manager.call, h.live, h.entries]
    split
    next hlive _ =>
      rw [h.queue]
      exact h.finish hlive (fun _ ht => ht) _
    next => exact h
  | makeResponse j =>
    obtain rfl := Option.some.inj hstep
    exact ⟨m', rfl, h⟩
  | run answers =>
    obtain ⟨j, task, queue, l, hq, hlive, hl, rfl⟩ := run_cases h.owned (step_of_dispatch hstep)
    obtain rfl : j = id := by simpa [concerns, hq] using hconcerns
    -- the first task of all is also the first task of the peer alone
    have hqueue : m'.queue = (j, task) :: (project j queue).map (j, ·) := by
      rw [h.queue, hq, Dispatcher.project_cons_self, List.map_cons]
    refine ⟨m'.finish j ((project j queue).map (j, ·)) (Run.task answers ⟨l, []⟩ task), ?_,
      h.finish hlive (fun t ht => hq ▸ List.mem_cons_of_mem _ ht) _⟩
    simp only [Manager.operate, dispatch, step, hqueue, h.live, hlive, h.entries, hl]
  | peer j label =>
    obtain rfl : j = id := of_decide_eq_true hconcerns
    obtain ⟨l, r, hlive, hl, hr, rfl⟩ := react_cases (step_of_dispatch hstep)
    have hreact : m'.step (.peer j label) = some (m'.finish j m'.queue r) := by
      simp only [step, h.live, hlive, h.entries, hl, hr, Option.map_some]
    refine ⟨m'.finish j m'.queue r, ?_, ?_⟩
    · cases label with
      | recreate index =>
        -- no task of any peer is queued, so none of this one is
        have hempty : m.queue.isEmpty = true := by
          by_contra hne
          rw [Manager.operate, dispatch, if_neg hne] at hstep
          cases hstep
        have hempty' : m'.queue.isEmpty = true := by
          rw [h.queue, List.isEmpty_iff.mp hempty]
          rfl
        rw [Manager.operate, dispatch, if_pos hempty']
        exact hreact
      | _ => exact hreact
    · rw [h.queue]
      exact h.finish hlive (fun _ ht => ht) r

/-- The step shows the same of the peer. -/
theorem SeenBy.observe {id : ℕ} {m m' n n' : Manager} {operation : ManagerOperation}
    (h : SeenBy id m m') (h' : SeenBy id n n') (hstep : m.operate operation = some n)
    (hstep' : m'.operate operation = some n') :
    Manager.observe id m' operation = Manager.observe id m operation := by
  cases operation with
  | makeResponse j =>
    simp only [Manager.observe, makeResponse, h.live, h.entries]
  | _ => simp only [Manager.observe, hstep, hstep', h.entries, h'.entries]

/-- A step that does not concern the peer shows nothing of it. -/
theorem observe_of_not_concerns {id : ℕ} {m n : Manager} {operation : ManagerOperation}
    (hnot : concerns id m operation = false) (hstep : m.operate operation = some n)
    (hentries : n.entries id = m.entries id) : observe id m operation = [] := by
  cases operation with
  | makeResponse j => exact if_neg (of_decide_eq_false hnot)
  | _ => simp only [observe, hstep, hentries, newObservations_self]

end Manager

/-! ## What is observed is what happened -/

/-- Driver calls and messages are only added. -/
structure Local.Grows (l l' : Local) : Prop where
  /-- the driver calls -/
  calls : l.calls <+: l'.calls
  /-- the messages -/
  sent : l.sent <+: l'.sent

namespace Local.Grows

theorem refl (l : Local) : Grows l l := ⟨List.prefix_rfl, List.prefix_rfl⟩

theorem trans {l l' l'' : Local} (h : Grows l l') (h' : Grows l' l'') : Grows l l'' :=
  ⟨h.calls.trans h'.calls, h.sent.trans h'.sent⟩

/-- The other members do not matter. -/
theorem of_eq {l l' : Local} (hcalls : l'.calls = l.calls) (hsent : l'.sent = l.sent) :
    Grows l l' :=
  ⟨hcalls ▸ List.prefix_rfl, hsent ▸ List.prefix_rfl⟩

/-- A loop adds what its rounds add. -/
theorem foldl {β : Type} {f : Run → β → Run} (h : ∀ r b, Grows r.toLocal (f r b).toLocal)
    (bs : List β) (r : Run) : Grows r.toLocal (bs.foldl f r).toLocal := by
  induction bs generalizing r with
  | nil => exact refl _
  | cons b bs ih => exact (h r b).trans (ih (f r b))

end Local.Grows

namespace Run

open Local (Grows)

theorem checkStatusChanged_grows (r : Run) : Grows r.toLocal r.checkStatusChanged.toLocal := by
  rw [checkStatusChanged]
  split
  · exact .refl _
  · exact ⟨List.prefix_rfl, List.prefix_append _ _⟩

theorem resetClient_grows (kind : DeviceKind) (r : Run) :
    Grows r.toLocal (r.resetClient kind).toLocal :=
  .of_eq (resetClient_calls kind r) (resetClient_sent kind r)

theorem setupVirtualHidDevice_grows (kind : DeviceKind) (r : Run) :
    Grows r.toLocal (r.setupVirtualHidDevice kind).toLocal := by
  rw [setupVirtualHidDevice]
  split
  · split
    · exact .of_eq rfl rfl
    · exact .refl _
  · exact resetClient_grows kind r

theorem setupVirtualHidDevices_grows (r : Run) :
    Grows r.toLocal r.setupVirtualHidDevices.toLocal :=
  (setupVirtualHidDevice_grows .keyboard r).trans (setupVirtualHidDevice_grows .pointing _)

theorem entryTask_grows (r : Run) (task : EntryTask) :
    Grows r.toLocal (r.entryTask task).toLocal := by
  have terminated : ∀ kind, Grows r.toLocal (r.terminate kind).toLocal := by
    intro kind
    simp only [terminate]
    refine Grows.trans ?_ (checkStatusChanged_grows _)
    refine Grows.trans ?_ (resetClient_grows kind _)
    exact .of_eq rfl rfl
  cases task with
  | initializeKeyboard parameters =>
    have hreset : Grows r.toLocal (if (r.entry.slots .keyboard).client.isSome &&
        r.entry.keyboardParameters ≠ parameters then r.resetClient .keyboard else r).toLocal := by
      split
      · exact resetClient_grows .keyboard r
      · exact .refl _
    refine Grows.trans ?_ (checkStatusChanged_grows _)
    refine Grows.trans ?_ (setupVirtualHidDevices_grows _)
    exact hreset.trans (.of_eq rfl rfl)
  | terminateKeyboard => exact terminated .keyboard
  | initializePointing =>
    refine Grows.trans ?_ (checkStatusChanged_grows _)
    refine Grows.trans ?_ (setupVirtualHidDevices_grows _)
    exact .of_eq rfl rfl
  | terminatePointing => exact terminated .pointing
  | checkStatusChanged => exact checkStatusChanged_grows r

theorem signal_grows (role : Role) (objectId : ℕ) (r : Run) (s : IoSignal) :
    Grows r.toLocal (r.signal role objectId s).toLocal := by
  cases s with
  | stateChanged => exact checkStatusChanged_grows r
  | opened =>
    cases role with
    | noVirtualDevices => exact .refl _
    | device kind => cases kind <;> exact .refl _
  | closed => exact .refl _

theorem ioEffect_grows (create : CreateAnswer) (role : Role) (objectId : ℕ) (r : Run)
    (e : IoEffect) : Grows r.toLocal (r.ioEffect create role objectId e).toLocal := by
  cases e with
  | signal s => exact signal_grows role objectId r s
  | call handle call => exact ⟨List.prefix_append _ _, List.prefix_rfl⟩
  | _ => exact .of_eq rfl rfl

theorem ioTask_grows (answers : Answers) (objectId : ℕ) (task : IoTask) (r : Run) :
    Grows r.toLocal (r.ioTask answers objectId task).toLocal := by
  rw [ioTask]
  split
  · exact .refl _
  · split
    · exact .refl _
    · refine Grows.trans ?_ (Grows.foldl (fun r e => ioEffect_grows _ _ objectId r e) _ _)
      exact .of_eq rfl rfl

theorem entryCall_grows (r : Run) (call : EntryCall) :
    Grows r.toLocal (r.entryCall call).toLocal := by
  rw [entryCall_eq]
  exact .refl _

theorem task_grows (answers : Answers) (r : Run) (task : Task) :
    Grows r.toLocal (r.task answers task).toLocal := by
  cases task with
  | request buffer =>
    rw [Run.task, request_eq]
    exact ⟨List.prefix_rfl, List.prefix_append _ _⟩
  | entry t => exact entryTask_grows r t
  | io objectId t => exact ioTask_grows answers objectId t r

end Run

theorem Local.react_grows {l : Local} {label : PeerLabel} {r : Run} (h : l.react label = some r) :
    Local.Grows l r.toLocal := by
  cases label with
  | run answers => cases h
  | request buffer =>
    obtain rfl := Option.some.inj h
    exact .refl _
  | event role e =>
    rw [Local.react] at h
    split at h
    · cases h
    · split at h
      · obtain rfl := Option.some.inj h
        exact .refl _
      · cases h
  | driverActivated value e =>
    rw [Local.react] at h
    split at h
    · obtain rfl := Option.some.inj h
      exact .of_eq rfl rfl
    · cases h
  | readyTimer =>
    obtain rfl := Option.some.inj h
    obtain ⟨tasks, heq, -⟩ := Run.readyTimer_eq ⟨l, []⟩
    rw [heq]
    exact .refl _
  | recreate index =>
    rw [Local.react] at h
    split at h
    · cases h
    · obtain rfl := Option.some.inj h
      rw [Run.recreate]
      split
      · exact .of_eq rfl rfl
      · split
        · refine Grows.trans ?_ (Run.setupVirtualHidDevices_grows _)
          refine Grows.trans ?_ (Run.resetClient_grows _ _)
          exact .of_eq rfl rfl
        · exact .of_eq rfl rfl

/-- The driver call that is observed. -/
def Observation.asDriverCall : Observation → Option DriverRecord
  | driverCall record => some record
  | _ => none

/-- The message that is observed. -/
def Observation.asMessage : Observation → Option Message
  | message m => some m
  | _ => none

namespace Manager

/-- The records of an entry that is there only grow. -/
theorem operate_grows {id : ℕ} {m n : Manager} {operation : ManagerOperation} {l : Local}
    (howned : m.Owned) (hlive : m.live id = true) (hl : m.entries id = some l)
    (h : m.operate operation = some n) : ∃ l', n.entries id = some l' ∧ l.Grows l' := by
  have finished : ∀ (queue : List (ℕ × Task)) (r : Run), l.Grows r.toLocal →
      ∃ l', (m.finish id queue r).entries id = some l' ∧ l.Grows l' :=
    fun queue r hr => ⟨r.toLocal, Function.update_self _ _ _, hr⟩
  rcases hconcerns : concerns id m operation with _ | _
  · have hsame := (confined howned id operation hconcerns n h).entries
    exact ⟨l, hsame.trans hl, .refl l⟩
  · cases operation with
    | createClient j activated =>
      obtain rfl : j = id := of_decide_eq_true hconcerns
      obtain rfl := Option.some.inj h
      rw [createClient, if_pos hlive]
      exact ⟨l, hl, .refl l⟩
    | eraseClient j =>
      obtain rfl := Option.some.inj h
      exact ⟨l, hl, .refl l⟩
    | asyncCheckStatusChanged j =>
      obtain rfl := Option.some.inj h
      refine ⟨l, ?_, .refl l⟩
      rw [asyncCheckStatusChanged]
      split <;> exact hl
    | call j call =>
      obtain rfl : j = id := of_decide_eq_true hconcerns
      obtain rfl := Option.some.inj h
      rw [Manager.call]
      split
      next l' _ _ hl' =>
        obtain rfl := Option.some.inj (hl.symm.trans hl')
        exact finished m.queue _ (Run.entryCall_grows ⟨l, []⟩ _)
      next => exact ⟨l, hl, .refl l⟩
    | makeResponse j =>
      obtain rfl := Option.some.inj h
      exact ⟨l, hl, .refl l⟩
    | run answers =>
      obtain ⟨j, task, queue, l', hq, -, hl', rfl⟩ := run_cases howned (step_of_dispatch h)
      obtain rfl : j = id := by simpa [concerns, hq] using hconcerns
      obtain rfl := Option.some.inj (hl.symm.trans hl')
      exact finished queue _ (Run.task_grows answers ⟨l, []⟩ task)
    | peer j label =>
      obtain rfl : j = id := of_decide_eq_true hconcerns
      obtain ⟨l', r, -, hl', hr, rfl⟩ := react_cases (step_of_dispatch h)
      obtain rfl := Option.some.inj (hl.symm.trans hl')
      exact finished m.queue r (Local.react_grows hr)

/-- What a step shows of a peer is what it adds to the records of its entry. -/
theorem operate_records {id : ℕ} {m n : Manager} {operation : ManagerOperation} {l : Local}
    (howned : m.Owned) (hlive : m.live id = true) (hl : m.entries id = some l)
    (h : m.operate operation = some n) : ∃ l', n.entries id = some l' ∧
      l'.calls = l.calls ++ (observe id m operation).filterMap Observation.asDriverCall ∧
      l'.sent = l.sent ++ (observe id m operation).filterMap Observation.asMessage := by
  obtain ⟨l', hl', hgrows⟩ := operate_grows howned hlive hl h
  refine ⟨l', hl', ?_⟩
  have hcalls := List.prefix_iff_eq_append.mp hgrows.calls
  have hsent := List.prefix_iff_eq_append.mp hgrows.sent
  have hnew : newObservations (some l) (some l') =
      (l'.calls.drop l.calls.length).map .driverCall ++
        (l'.sent.drop l.sent.length).map .message := rfl
  have hcall : Observation.asDriverCall ∘ Observation.driverCall = some := rfl
  have hmessage : Observation.asMessage ∘ Observation.message = some := rfl
  have hnone : Observation.asDriverCall ∘ Observation.message = fun _ => none := rfl
  have hnone' : Observation.asMessage ∘ Observation.driverCall = fun _ => none := rfl
  cases operation with
  | makeResponse j =>
    obtain rfl := Option.some.inj h
    obtain rfl := Option.some.inj (hl.symm.trans hl')
    rw [observe]
    split <;> simp [Observation.asDriverCall, Observation.asMessage]
  | _ =>
    simp only [observe, h, hl, hl', hnew, List.filterMap_append, List.filterMap_map, hcall,
      hmessage, hnone, hnone', List.filterMap_some, List.filterMap_none]
    simp [hcalls, hsent]

end Manager

/-! ## Two runs -/

/-- Peers do not interfere. From an empty manager, for every run of its operations over any
number of peers and for each of them: the steps that concern the peer make a run on their own,
in which no other peer exists. The same driver calls, status changes and responses are seen of
the peer along both runs, and its entry, its devices and its tasks are the same in the end.
Every step that does not concern the peer leaves them as they were. -/
theorem peers_do_not_interfere (id : ℕ) (operations : List ManagerOperation) (m : Manager)
    (h : Transition.run Manager.operate {} operations = some m) :
    ∃ m', Transition.run Manager.operate {}
        (Transition.purge Manager.operate (Manager.concerns id) {} operations) = some m' ∧
      Transition.observations Manager.operate (Manager.observe id) {}
        (Transition.purge Manager.operate (Manager.concerns id) {} operations) =
        Transition.observations Manager.operate (Manager.observe id) {} operations ∧
      m'.peer id = m.peer id ∧ m'.live id = m.live id ∧
      (∀ j, j ≠ id → m'.entries j = none ∧ m'.live j = false) ∧
      Transition.Meets Manager.operate (Manager.Confined id) {} operations := by
  have hinit : Manager.SeenBy id {} {} :=
    ⟨World.init_owned, rfl, rfl, rfl, fun _ _ => ⟨rfl, rfl⟩⟩
  -- a step of the others is made in the first run only
  have skip : ∀ u operation t v, Manager.SeenBy id u v →
      Manager.concerns id u operation = false → u.operate operation = some t →
      Manager.SeenBy id t v ∧ Manager.observe id u operation = [] := by
    intro u operation t v hR hnot hstep
    obtain ⟨hentries, hlive, hqueue⟩ := Manager.confined hR.owned id operation hnot t hstep
    exact ⟨hR.skip (Manager.operate_owned hR.owned hstep) hentries hlive hqueue,
      Manager.observe_of_not_concerns hnot hstep hentries⟩
  -- a step of the peer is made in both
  have copy : ∀ u operation t v, Manager.SeenBy id u v →
      Manager.concerns id u operation = true → u.operate operation = some t →
      ∃ t', v.operate operation = some t' ∧ Manager.SeenBy id t t' ∧
        Manager.observe id v operation = Manager.observe id u operation := by
    intro u operation t v hR hconcerns hstep
    obtain ⟨t', hstep', hR'⟩ := hR.operate hconcerns hstep
    exact ⟨t', hstep', hR', hR.observe hR' hstep hstep'⟩
  obtain ⟨m', hrun, hseen, hsame⟩ := Transition.run_purge skip copy hinit h
  refine ⟨m', hrun, hsame, hseen.peer, hseen.live, hseen.alone, ?_⟩
  exact Transition.meets_of_invariant World.init_owned
    (fun u operation t howned hstep => Manager.operate_owned howned hstep)
    (fun u operation howned => Manager.confined howned id operation) operations

/-- A driver that is found, and whose keyboard is ready at once. -/
def readyDriver : Answers :=
  { serviceOpen := fun _ => .opened (some embeddedDriverVersion)
    ready := some true
    create := .created }

/-- Two peers ask for a keyboard and get one. The second peer takes its keyboard back and is
closed, while the first one posts a report. -/
def twoKeyboards : List ManagerOperation :=
  List.flatten
    [[.createClient 1 true, .createClient 2 true, .asyncCheckStatusChanged 1,
      .call 1 (.initializeKeyboard .init), .call 2 (.initializeKeyboard .init)],
     List.replicate 7 (.run readyDriver),
     [.peer 1 (.event (.device .keyboard) (.matched 1)),
      .peer 2 (.event (.device .keyboard) (.matched 1)), .makeResponse 1],
     List.replicate 10 (.run readyDriver),
     [.call 2 .terminateKeyboard, .peer 1 .readyTimer,
      .call 1 (.postKeyboardReport KeyboardInput.init.bytes 0 .virtualHidKeyboardPostReport
        sizeofKeyboardInput),
      .run readyDriver, .eraseClient 2],
     List.replicate 4 (.run readyDriver), [.makeResponse 1]]

/-- A run to which the theorem applies: 21 of the 35 steps concern the first peer. -/
theorem two_keyboards_apart : ∃ m m',
    Transition.run Manager.operate {} twoKeyboards = some m ∧
    (Transition.purge Manager.operate (Manager.concerns 1) {} twoKeyboards).length = 21 ∧
    (Transition.observations Manager.operate (Manager.observe 1) {} twoKeyboards).length = 7 ∧
    Transition.run Manager.operate {}
      (Transition.purge Manager.operate (Manager.concerns 1) {} twoKeyboards) = some m' ∧
    Transition.observations Manager.operate (Manager.observe 1) {}
      (Transition.purge Manager.operate (Manager.concerns 1) {} twoKeyboards) =
      Transition.observations Manager.operate (Manager.observe 1) {} twoKeyboards ∧
    m'.peer 1 = m.peer 1 := by
  obtain ⟨m, hm⟩ : ∃ m, Transition.run Manager.operate {} twoKeyboards = some m :=
    Option.isSome_iff_exists.mp (by decide +kernel)
  obtain ⟨m', hrun, hsame, hpeer, -⟩ := peers_do_not_interfere 1 twoKeyboards m hm
  exact ⟨m, m', hm, by decide +kernel, by decide +kernel, hrun, hsame, hpeer⟩

end VirtualHidDevice
