import VirtualHidDevice.Session

/-!
# What the client is told

The ready states travel to the client in two ways: as the status that a check
publishes, and as the answer to a management request. `last_response_` remembers
the first only, so that a check can find the status unchanged although the last
answer said otherwise.

* `Local.told` — the ready states that all messages sent so far amount to.
* `Session.Covered` — the condition on a check that publishes nothing.
* `Session.Delivered` — the client believes, or will when all messages on their
  way are handled, what it was told; and what it was told is right, or a check is
  on its way.
-/

namespace VirtualHidDevice

/-! ## What was sent -/

/-- The ready states after all messages that were sent. -/
def Local.told (l : Local) : DeviceKind → Option Bool :=
  ((l.sent.map Message.buffer).foldl ServiceClient.handle {}).lastReady

/-- The client was told the ready states of the entry. -/
def Local.Informed (l : Local) : Prop := ∀ kind, l.told kind = some (l.entry.ready kind)

/-- Equal statuses have equal ready states. -/
theorem Local.ready_of_makeResponse {l m : Local} (h : m.makeResponse = l.makeResponse)
    (kind : DeviceKind) : m.entry.ready kind = l.entry.ready kind := by
  have hhandle := congrArg (ServiceClient.handle {}) h
  rw [ServiceClient.handle_status, ServiceClient.handle_status] at hhandle
  exact Option.some.inj (congrFun (congrArg ServiceClient.lastReady hhandle) kind)

/-- A message more. -/
theorem Local.told_append {l m : Local} {message : Message} (h : m.sent = l.sent ++ [message])
    (kind : DeviceKind) : m.told kind =
      (((l.sent.map Message.buffer).foldl ServiceClient.handle {}).handle
        message.buffer).lastReady kind := by
  rw [told, h, List.map_append, List.foldl_append]
  rfl

/-- A status tells its own ready states. -/
theorem Local.told_status {l m k : Local} {message : Message} (h : m.sent = l.sent ++ [message])
    (hbuf : message.buffer = k.makeResponse) (kind : DeviceKind) :
    m.told kind = some (k.entry.ready kind) := by
  rw [told_append h, hbuf, ServiceClient.handle_status]

/-- An answer that carries the status, or nothing, keeps the client informed. -/
theorem Local.Informed.quiet {l m : Local} (h : l.Informed) (hquiet : l.Quiet m) :
    m.Informed := by
  intro kind
  rw [Local.ready_of_makeResponse hquiet.response]
  rcases hquiet.sent with hsent | ⟨buffer, hb, hsent⟩
  · rw [Local.told, hsent]
    exact h kind
  · rcases hb with rfl | rfl
    · rw [Local.told_append hsent]
      exact h kind
    · exact Local.told_status hsent rfl kind

/-- A check informs the client if it publishes the status, or if the client was
told the same before. -/
theorem Run.checkStatusChanged_informed {r : Run}
    (h : r.entry.lastResponse = some r.makeResponse → r.Informed) :
    r.checkStatusChanged.Informed := by
  by_cases hsame : r.entry.lastResponse = some r.makeResponse
  · rw [Run.checkStatusChanged, if_pos hsame]
    exact h hsame
  · rw [Run.checkStatusChanged, if_neg hsame]
    exact fun kind => Local.told_status (l := r.toLocal) (k := r.toLocal) rfl rfl kind

/-- The point of the check has sent what the peer has sent. -/
theorem Peer.atCheck_sent {p : Peer} {r : Run} (h : p.atCheck = some r) : r.sent = p.sent := by
  rw [atCheck] at h
  split at h
  · split at h
    · obtain rfl := Option.some.inj h
      rfl
    · obtain rfl := Option.some.inj h
      simp [newKeyboard, Run.setParameters, Run.setEnabled, fresh]
  · split at h
    · obtain rfl := Option.some.inj h
      rfl
    · obtain rfl := Option.some.inj h
      rfl
  · obtain rfl := Option.some.inj h
    simp [switchedOff, Run.setEnabled, fresh]
  · obtain rfl := Option.some.inj h
    simp [switchedOff, Run.setEnabled, fresh]
  · obtain rfl := Option.some.inj h
    rfl
  · split at h
    · obtain rfl := Option.some.inj h
      rfl
    · cases h
  · cases h

/-! ## Delivery -/

namespace Session

/-- If the task that the daemon runs comes to a check that publishes nothing,
because the status is `last_response_`, then the client was told the same ready
states by the last status it was sent, as a notification or as an answer. -/
def Covered (s : Session) : SessionLabel → Prop
  | .daemon (.run _) => match s.peer.atCheck with
    | none => True
    | some r => r.entry.lastResponse = some r.makeResponse →
      s.peer.told .keyboard = some (r.entry.ready .keyboard) ∧
        s.peer.told .pointing = some (r.entry.ready .pointing)
  | _ => True

instance (s : Session) (label : SessionLabel) : Decidable (s.Covered label) :=
  match label with
  | .daemon (.run _) => match h : s.peer.atCheck with
    | none => decidable_of_iff True (by simp only [Covered, h])
    | some r => decidable_of_iff (r.entry.lastResponse = some r.makeResponse →
        s.peer.told .keyboard = some (r.entry.ready .keyboard) ∧
          s.peer.told .pointing = some (r.entry.ready .pointing)) (by simp only [Covered, h])
  | .daemon (.request _) | .daemon (.event _ _) | .daemon (.driverActivated _ _)
  | .daemon .readyTimer | .daemon (.recreate _) | .call _ | .clientRun | .deliverRequest
  | .deliverMessage | .close => isTrue trivial

/-- The messages that the client has not handled, in order. -/
def messages (s : Session) : List Bytes :=
  s.clientQueue.filterMap ClientTask.asMessage ++ (s.peer.sent.drop s.received).map Message.buffer

/-- The client will believe what it was told, while the connection is up. -/
structure Delivered (s : Session) : Prop where
  /-- messages are delivered after they are sent -/
  bound : s.received ≤ s.peer.sent.length
  /-- the cache is not cleared -/
  uncleared : .closed ∉ s.clientQueue
  /-- the cache, after all messages on their way -/
  cache : (s.messages.foldl ServiceClient.handle s.client).lastReady = s.peer.told

/-- What is stored about a call does not concern the ready states. -/
theorem lastReady_remember (c : ServiceClient) (call : ClientCall) :
    (c.remember call).lastReady = c.lastReady := by
  cases call <;> rfl

/-- The cache follows what the client is told, as long as the connection is up. -/
theorem step_delivered {s t : Session} {label : SessionLabel}
    (hlife : Lifecycle s.peer.entry s.peer.recreates) (h : s.Delivered)
    (hcase : StepCase s label t) (hup : t.up = true) : t.Delivered := by
  obtain ⟨hbound, huncleared, hcache⟩ := h
  cases hcase with
  | suppressed request hs => exact ⟨hbound, huncleared, hcache⟩
  | call request hs =>
    refine ⟨hbound, by simpa using huncleared, ?_⟩
    rw [← hcache]
    simp only [messages, List.filterMap_append, List.filterMap_cons, ClientTask.asMessage,
      List.filterMap_nil, List.append_nil]
    exact ServiceClient.lastReady_foldl_handle (lastReady_remember s.client request) _
  | send buffer queue hq =>
    refine ⟨hbound, fun hc => huncleared (hq ▸ List.mem_cons_of_mem _ hc), ?_⟩
    rw [← hcache, messages, messages, hq]
    rfl
  | handle buffer queue hq =>
    refine ⟨hbound, fun hc => huncleared (hq ▸ List.mem_cons_of_mem _ hc), ?_⟩
    rw [← hcache, messages, messages, hq]
    rfl
  -- the cache is cleared only when the connection is closed
  | closed queue hq => exact absurd (hq ▸ List.mem_cons_self) huncleared
  | deliverRequest buffer rest _ hd => exact ⟨hbound, huncleared, hcache⟩
  | deliverMessage message hm =>
    obtain ⟨hlt, hget⟩ := List.getElem?_eq_some_iff.mp hm
    refine ⟨hlt, by simpa using huncleared, ?_⟩
    rw [← hcache, messages, messages, List.drop_eq_getElem_cons hlt, hget]
    simp [ClientTask.asMessage]
  | daemon label p _ hreq hstep =>
    -- what the daemon sends is still to be delivered, behind all messages before it
    have hsent : ∃ new, p.sent = s.peer.sent ++ new := by
      rcases Peer.step_sent hlife (Peer.step_of_dispatch hstep) with heq | ⟨_, -, heq⟩ | heq
      · exact ⟨[], by rw [heq, List.append_nil]⟩
      · exact ⟨_, heq⟩
      · exact ⟨_, heq⟩
    obtain ⟨new, hnew⟩ := hsent
    refine ⟨?_, huncleared, ?_⟩
    · rw [hnew, List.length_append]
      exact hbound.trans (Nat.le_add_right _ _)
    · have hmessages : ({ s with peer := p } : Session).messages =
          s.messages ++ new.map Message.buffer := by
        simp only [messages, hnew, List.drop_append_of_le_length hbound, List.map_append,
          List.append_assoc]
      rw [hmessages, List.foldl_append, Local.told, hnew, List.map_append, List.foldl_append]
      exact ServiceClient.lastReady_foldl_handle hcache _
  | close _ => cases hup

/-- Every step keeps the client informed, or a check on its way. -/
theorem step_settled {s t : Session} {label : SessionLabel}
    (hlife : Lifecycle s.peer.entry s.peer.recreates) (hcovered : s.Covered label)
    (h : s.peer.Settled Local.Informed) (hcase : StepCase s label t) (hup : t.up = true) :
    t.peer.Settled Local.Informed := by
  have hquiet : ∀ m, s.peer.toLocal.Quiet m → s.peer.Informed → m.Informed :=
    fun _ hm hinf => hinf.quiet hm
  cases hcase with
  | deliverRequest buffer rest _ hd =>
    have hreceived : s.peer.dispatch (.request buffer) =
        some { s.peer with queue := s.peer.queue ++ [.request buffer] } := rfl
    refine Peer.dispatch_settled hlife ?_ hquiet h hreceived
    exact fun answers r hl => by cases hl
  | daemon label p _ hreq hstep =>
    refine Peer.dispatch_settled hlife (fun answers r hl hat => ?_) hquiet h hstep
    subst hl
    refine Run.checkStatusChanged_informed fun hsame kind => ?_
    have htold : r.told = s.peer.told := by
      rw [Local.told, Peer.atCheck_sent hat, Local.told]
    simp only [Covered, hat] at hcovered
    rw [htold]
    cases kind with
    | keyboard => exact (hcovered hsame).1
    | pointing => exact (hcovered hsame).2
  | close _ => cases hup
  | _ => exact h

end Session

/-- No status update is lost, in every run in which every check that publishes
nothing is covered by what the client was told: once nothing is queued for
immediate execution and nothing is in flight, with the connection still up, the
client's ready states are those of the daemon. -/
theorem client_knows_ready (activated : Bool) (labels : List SessionLabel) (s : Session)
    (hcovered : Transition.Meets Session.step Session.Covered (Session.init activated) labels)
    (h : Transition.run Session.step (Session.init activated) labels = some s)
    (hup : s.up = true) (hquiet : s.Quiescent) (kind : DeviceKind) :
    s.client.lastReady kind = some (s.peer.entry.ready kind) := by
  have key : Lifecycle s.peer.entry s.peer.recreates ∧
      (s.up = true → s.peer.Settled Local.Informed ∧ s.Delivered) := by
    refine Transition.run_invariant_of_meets (I := fun s : Session =>
      Lifecycle s.peer.entry s.peer.recreates ∧
        (s.up = true → s.peer.Settled Local.Informed ∧ s.Delivered)) ?_ ?_ hcovered h
    · refine ⟨lifecycle_init, fun _ => ⟨?_, Nat.zero_le _, fun hm => (by cases hm), rfl⟩⟩
      exact Or.inr ⟨.entry .checkStatusChanged, List.mem_append_right _ List.mem_cons_self,
        trivial⟩
    · rintro s label t ⟨hlife, hI⟩ hcov hstep
      have hcase := Session.step_cases hstep
      refine ⟨Session.step_lifecycle hcase hlife, fun ht => ?_⟩
      obtain ⟨hsettled, hdel⟩ := hI (Session.up_of_step hstep ht)
      exact ⟨Session.step_settled hlife hcov hsettled hcase ht,
        Session.step_delivered hlife hdel hcase ht⟩
  obtain ⟨hsettled, hdel⟩ := key.2 hup
  -- nothing is queued, so that no check is on its way and the client was told
  have hinf : s.peer.Informed := by
    rcases hsettled with hinf | ⟨t, ht, -⟩
    · exact hinf
    · rw [hquiet.queue] at ht
      cases ht
  have hcache := hdel.cache
  rw [Session.messages, hquiet.clientQueue, List.drop_eq_nil_of_le hquiet.received] at hcache
  exact (congrFun hcache kind).trans (hinf kind)

/-- The keyboard becomes ready between the requests to terminate and to reset it. The
answer to the second says so, and then the first takes the keyboard away. -/
def terminateWhileReady : List SessionLabel :=
  keyboardSession ++
  [.daemon .readyTimer, .call .keyboardTerminate, .call .keyboardReset, .clientRun, .clientRun,
   .deliverRequest, .daemon (.run { ready := some true }), .deliverRequest] ++
  List.replicate 4 (.daemon (.run {})) ++ List.replicate 5 .deliverMessage ++
  List.replicate 5 .clientRun

/-- The status after that is the one that was published last, so that nothing is
published, and the client goes on believing that the keyboard is ready. -/
theorem ready_answer_outlives_keyboard : ∃ s,
    Transition.run Session.step (Session.init true) terminateWhileReady = some s ∧
    s.up = true ∧ s.Quiescent ∧ s.client.lastReady .keyboard = some true ∧
    s.peer.entry.ready .keyboard = false := by
  decide +kernel

/-- A run to which the theorem applies: the keyboard becomes ready. -/
theorem ready_session_known : ∃ s,
    Transition.run Session.step (Session.init true) readySession = some s ∧ s.Quiescent ∧
    s.peer.entry.ready .keyboard = true ∧ s.client.lastReady .keyboard = some true := by
  have hcovered : Transition.Meets Session.step Session.Covered (Session.init true)
      readySession := by
    decide +kernel
  obtain ⟨s, hs, hup, hquiet, hready⟩ : ∃ s,
      Transition.run Session.step (Session.init true) readySession = some s ∧ s.up = true ∧
        s.Quiescent ∧ s.peer.entry.ready .keyboard = true := by
    decide +kernel
  have hknown := client_knows_ready true readySession s hcovered hs hup hquiet .keyboard
  exact ⟨s, hs, hquiet, hready, by rw [hknown, hready]⟩

end VirtualHidDevice
