import VirtualHidDevice.UnixDomainStream.PeerMoves

/-!
# The closures that tell the program of a peer

A mark comes from a closure of the peer, goes into a closure of the server, and from there to the
program.

* `EventInv.dispatched` — a closure that carries no mark.
* `EventInv.relay`, `EventInv.deliver` — a mark is handed on, and arrives.
* `EventInv.verified`, `EventInv.peerClosed` — what it does to what the program knows.

`EventInv.runTask` is the result for any closure on the dispatcher.
-/

namespace VirtualHidDevice.UnixDomainStream

namespace Server

/-! ## The way of a mark -/

/-- A peer that was not accepted has no marks. -/
theorem emitted_of_accepted {s : Server} {peer peer' id : ℕ} {p : Peer} {signal : Signal}
    (hother : ∀ id p, s.peers[peer]? ≠ some (.accepted id, p))
    (hp : s.peers[peer']? = some (.accepted id, p)) :
    (ServerTask.peerSignal peer signal).emitted peer' = none := by
  refine if_neg ?_
  rintro rfl
  exact hother id p hp

/-- A closure is run that carries no mark of an accepted peer. -/
theorem EventInv.dispatched {s : Server} (h : s.EventInv) {task : ServerTask}
    {tasks : List ServerTask} (hqueue : s.dispatcher = task :: tasks)
    (hrelayed : ∀ id, task.relayed id = none)
    (hemitted : ∀ (peer id : ℕ) (p : Peer), s.peers[peer]? = some (.accepted id, p) →
      task.emitted peer = none) :
    EventInv { s with dispatcher := tasks } := by
  have hmem : ∀ t ∈ tasks, t ∈ s.dispatcher := fun t ht => hqueue ▸ List.mem_cons_of_mem _ ht
  refine ⟨h.ids, h.unique, fun id hknows => h.known id (hknows.mono (List.Subset.refl _)
    (List.Subset.refl _) (fun t ht _ => hmem t ht) fun hio => hio),
    fun peer signal ht => h.signals peer signal (hmem _ ht), h.peerIds,
    fun id event ht => h.exposed id event (hmem _ ht), h.peer, fun peer id p hp => ?_⟩
  obtain ⟨done, hpeer⟩ := h.accepted peer id p hp
  have hmarks : s.marks id peer =
      Relay.marks (ServerTask.relayed id) (ServerTask.emitted peer) tasks := by
    rw [Server.marks, hqueue]
    exact Relay.marks_cons_of_none tasks (hrelayed id) (hemitted peer id p hp)
  have hlist : s.dispatcher.filterMap (ServerTask.relayed id) =
      tasks.filterMap (ServerTask.relayed id) := by
    rw [hqueue]
    exact List.filterMap_cons_none (hrelayed id)
  refine ⟨done, ?_, fun hentry => ?_, fun hentry => ?_, fun hio => ?_, hpeer.phase, hpeer.late⟩
  · have horder := hpeer.order
    rw [hmarks] at horder
    exact horder
  · have hkept := hpeer.kept hentry
    rw [hmarks] at hkept
    exact hkept
  · have hgone := hpeer.gone hentry
    rw [hlist] at hgone
    exact hgone
  · have htold := hpeer.told hio
    rw [hlist] at htold
    exact htold

/-- A signal with a mark is relayed. -/
theorem EventInv.relay {s : Server} (h : s.EventInv) {peer id : ℕ} {p : Peer} {signal : Signal}
    {mark : Mark} {new : ServerTask} {tasks : List ServerTask}
    (hqueue : s.dispatcher = .peerSignal peer signal :: tasks)
    (hp : s.peers[peer]? = some (.accepted id, p)) (hmark : signal.mark? = some mark)
    (hnew : ∀ i, new.relayed i = if i = id then some mark else none)
    (hquiet : (∀ i, new.emitted i = none) ∧ (∀ i e, new ≠ .exposed i e) ∧
      ∀ i e, new ≠ .peerSignal i e)
    (io : List ServerIoTask) (hio : ∀ i, .peerClosed i ∈ io → i = id ∧ mark = .closed) :
    EventInv { s with dispatcher := tasks ++ [new], ioCtx := s.ioCtx ++ io } := by
  have hmem : ∀ t ∈ tasks, t ∈ s.dispatcher := fun t ht => hqueue ▸ List.mem_cons_of_mem _ ht
  have hlist : ∀ i, (tasks ++ [new]).filterMap (ServerTask.relayed i) =
      s.dispatcher.filterMap (ServerTask.relayed i) ++ if i = id then [mark] else [] := by
    intro i
    have hfirst : (ServerTask.peerSignal peer signal).relayed i = none := rfl
    rw [hqueue, List.filterMap_append, List.filterMap_cons_none hfirst]
    congr 1
    split
    next heq => exact List.filterMap_cons_some ((hnew i).trans (if_pos heq))
    next hne => exact List.filterMap_cons_none ((hnew i).trans (if_neg hne))
  refine ⟨h.ids, h.unique, fun i hknows => ?_, fun q sig ht => ?_, h.peerIds, fun i event ht => ?_,
    h.peer, fun q i r hr => ?_⟩
  · by_cases hi : i = id
    · exact ⟨peer, p, hi ▸ hp⟩
    · refine h.known i (hknows.mono (List.Subset.refl _) (List.Subset.refl _) ?_ ?_)
      · intro t ht hm
        rcases List.mem_append.mp ht with ht | ht
        · exact hmem t ht
        · rw [List.mem_singleton.mp ht, hnew i, if_neg hi] at hm
          exact absurd rfl hm
      · exact fun hmem => (List.mem_append.mp hmem).resolve_right fun hnew => hi (hio i hnew).1
  · rcases List.mem_append.mp ht with ht | ht
    · exact h.signals q sig (hmem _ ht)
    · exact absurd (List.mem_singleton.mp ht).symm (hquiet.2.2 q sig)
  · rcases List.mem_append.mp ht with ht | ht
    · exact h.exposed i event (hmem _ ht)
    · exact absurd (List.mem_singleton.mp ht).symm (hquiet.2.1 i event)
  · obtain ⟨done, hpeer⟩ := h.accepted q i r hr
    have hmarks : Relay.marks (ServerTask.relayed i) (ServerTask.emitted q) (tasks ++ [new]) =
        s.marks i q := by
      rw [Server.marks, hqueue]
      by_cases hi : i = id
      · obtain rfl : q = peer := h.unique q peer id r p (hi ▸ hr) hp
        refine Relay.marks_relay tasks rfl ?_ ((hnew i).trans (if_pos hi)) (hquiet.1 q)
        exact (if_pos rfl).trans hmark
      · have hne : q ≠ peer := by
          rintro rfl
          exact hi (PeerKind.accepted.inj (Prod.mk.inj (Option.some.inj (hr.symm.trans hp))).1)
        rw [Relay.marks_append_of_none tasks, Relay.marks_cons_of_none tasks rfl (if_neg hne.symm)]
        · intro t ht
          rw [List.mem_singleton.mp ht, hnew i, if_neg hi]
        · intro t ht
          rw [List.mem_singleton.mp ht]
          exact hquiet.1 q
    refine ⟨done, ?_, fun hentry => ?_, fun hentry => ?_, fun hi => ?_, hpeer.phase, hpeer.late⟩
    · exact (congrArg (done ++ ·) hmarks).symm ▸ hpeer.order
    · exact (congrArg (done ++ ·) hmarks).trans (hpeer.kept hentry)
    · dsimp only
      rw [hlist i, ← List.append_assoc]
      exact (hpeer.gone hentry).imp_right fun hclosed => List.mem_append_left _ hclosed
    · dsimp only
      rw [hlist i, ← List.append_assoc]
      rcases List.mem_append.mp hi with hi | hi
      · exact List.mem_append_left _ (hpeer.told hi)
      · obtain ⟨rfl, rfl⟩ := hio i hi
        rw [if_pos rfl]
        exact List.mem_append_right _ List.mem_cons_self

/-- The closure of the server that carries a mark is run. -/
theorem EventInv.deliver {s : Server} (h : s.EventInv) {id : ℕ} {task : ServerTask} {mark : Mark}
    {tasks : List ServerTask} (hqueue : s.dispatcher = task :: tasks)
    (hmark : ∀ i, task.relayed i = if i = id then some mark else none)
    (hemitted : ∀ peer, task.emitted peer = none) {exposed : List ℕ} {events : List ServerEvent}
    (hexposed : ∀ i, i ≠ id → (i ∈ exposed ↔ i ∈ s.exposedPeerIds))
    (hevents : ∀ i, i ≠ id → phase i events = phase i s.events)
    (hknown : ∀ event ∈ events, event ∈ s.events ∨ event.peerId? = some id)
    (hself : ∀ (peer : ℕ) (p : Peer) (done : List Mark),
      s.peers[peer]? = some (.accepted id, p) → PeerInv s peer id p.signals done →
      (∃ ph, phase id events = some ph ∧ (ph ≠ .unknown → .ready ∈ done ++ [mark]) ∧
        (id ∈ exposed → ph = .connected)) ∧
      (id ∈ exposed → .closed ∈ done ++ [mark] → Late p.signals)) :
    EventInv { s with dispatcher := tasks, exposedPeerIds := exposed, events } := by
  have hmem : ∀ t ∈ tasks, t ∈ s.dispatcher := fun t ht => hqueue ▸ List.mem_cons_of_mem _ ht
  have hlist : ∀ i, s.dispatcher.filterMap (ServerTask.relayed i) =
      (if i = id then [mark] else []) ++ tasks.filterMap (ServerTask.relayed i) := by
    intro i
    rw [hqueue]
    split
    next heq => exact List.filterMap_cons_some ((hmark i).trans (if_pos heq))
    next hne => exact List.filterMap_cons_none ((hmark i).trans (if_neg hne))
  have hid : ∃ (peer : ℕ) (p : Peer), s.peers[peer]? = some (.accepted id, p) := by
    refine h.known id (.task task (hqueue ▸ List.mem_cons_self) ?_)
    rw [hmark, if_pos rfl]
    exact Option.some_ne_none _
  refine ⟨h.ids, h.unique, fun i hknows => ?_, fun q sig ht => h.signals q sig (hmem _ ht),
    h.peerIds, fun i event ht => h.exposed i event (hmem _ ht), h.peer, fun peer i p hp => ?_⟩
  · by_cases hi : i = id
    · exact hi ▸ hid
    · refine h.known i ?_
      rcases hknows with ⟨event, he, hid⟩ | he | ⟨t, ht, hm⟩ | hio
      · refine .event event ((hknown event he).resolve_right fun hother => hi ?_) hid
        exact Option.some.inj (hid.symm.trans hother)
      · exact .exposed ((hexposed i hi).mp he)
      · exact .task t (hmem t ht) hm
      · exact .io hio
  · obtain ⟨done, hpeer⟩ := h.accepted peer i p hp
    by_cases hi : i = id
    · subst hi
      obtain ⟨hphase, hlate⟩ := hself peer p done hp hpeer
      have hmarks : s.marks i peer = mark ::
          Relay.marks (ServerTask.relayed i) (ServerTask.emitted peer) tasks := by
        rw [Server.marks, hqueue]
        exact Relay.marks_cons_relayed tasks ((hmark i).trans (if_pos rfl)) (hemitted peer)
      have hcons : done ++ s.marks i peer = done ++ [mark] ++
          Relay.marks (ServerTask.relayed i) (ServerTask.emitted peer) tasks := by
        rw [hmarks, List.append_assoc, List.singleton_append]
      have hcons' : done ++ s.dispatcher.filterMap (ServerTask.relayed i) =
          done ++ [mark] ++ tasks.filterMap (ServerTask.relayed i) := by
        rw [hlist, if_pos rfl, List.append_assoc]
      refine ⟨done ++ [mark], ?_, fun hentry => ?_, fun hentry => ?_, fun hio => ?_, hphase, hlate⟩
      · have horder := hpeer.order
        rw [hcons] at horder
        exact horder
      · have hkept := hpeer.kept hentry
        rw [hcons] at hkept
        exact hkept
      · have hgone := hpeer.gone hentry
        rw [hcons'] at hgone
        exact hgone
      · have htold := hpeer.told hio
        rw [hcons'] at htold
        exact htold
    · have hmarks : s.marks i peer =
          Relay.marks (ServerTask.relayed i) (ServerTask.emitted peer) tasks := by
        rw [Server.marks, hqueue]
        exact Relay.marks_cons_of_none tasks ((hmark i).trans (if_neg hi)) (hemitted peer)
      have hlist' := hlist i
      rw [if_neg hi, List.nil_append] at hlist'
      refine ⟨done, ?_, fun hentry => ?_, fun hentry => ?_, fun hio => ?_, ?_, fun he => ?_⟩
      · have horder := hpeer.order
        rw [hmarks] at horder
        exact horder
      · have hkept := hpeer.kept hentry
        rw [hmarks] at hkept
        exact hkept
      · have hgone := hpeer.gone hentry
        rw [hlist'] at hgone
        exact hgone
      · have htold := hpeer.told hio
        rw [hlist'] at htold
        exact htold
      · obtain ⟨ph, hph, hready, hexp⟩ := hpeer.phase
        exact ⟨ph, (hevents i hi).trans hph, hready, fun he => hexp ((hexposed i hi).mp he)⟩
      · exact hpeer.late ((hexposed i hi).mp he)

/-! ## Events and exposed peers -/

/-- Something is raised that is not about a peer, or about one that is exposed. -/
theorem EventInv.raise {s : Server} (h : s.EventInv) (event : ServerEvent)
    (hevent : ∀ id, event.peerId? = some id → id ∈ s.exposedPeerIds ∧ event.ofConnected id) :
    (s.raise event).EventInv := by
  refine ⟨h.ids, h.unique, fun id hknows => ?_, h.signals, h.peerIds, h.exposed, h.peer,
    fun peer id p hp => ?_⟩
  · refine h.known id ?_
    rcases hknows with ⟨e, he, hid⟩ | he | ⟨t, ht, hm⟩ | hio
    · rcases List.mem_append.mp he with he | he
      · exact .event e he hid
      · rw [List.mem_singleton.mp he] at hid
        exact .exposed (hevent id hid).1
    · exact .exposed he
    · exact .task t ht hm
    · exact .io hio
  · obtain ⟨done, hpeer⟩ := h.accepted peer id p hp
    refine ⟨done, hpeer.order, hpeer.kept, hpeer.gone, hpeer.told, ?_, hpeer.late⟩
    obtain ⟨ph, hph, hready, hexposed⟩ := hpeer.phase
    by_cases hid : event.peerId? = some id
    · obtain ⟨hmem, hof⟩ := hevent id hid
      obtain rfl := hexposed hmem
      exact ⟨.connected, (phase_concat hid hph).trans hof.2, hready, fun _ => rfl⟩
    · exact ⟨ph, (phase_concat_of_ne s.events hid).trans hph, hready, hexposed⟩

/-- The server forgets which peers it has exposed. -/
theorem EventInv.clearExposed {s : Server} (h : s.EventInv) :
    EventInv { s with stopped := true, exposedPeerIds := [] } := by
  refine ⟨h.ids, h.unique, fun id hknows => h.known id (hknows.mono (List.Subset.refl _)
    (List.nil_subset _) (fun _ ht _ => ht) fun hio => hio), h.signals, h.peerIds, h.exposed, h.peer,
    fun peer id p hp => ?_⟩
  obtain ⟨done, hpeer⟩ := h.accepted peer id p hp
  obtain ⟨ph, hph, hready, -⟩ := hpeer.phase
  exact ⟨done, hpeer.order, hpeer.kept, hpeer.gone, hpeer.told,
    ⟨ph, hph, hready, fun he => absurd he List.not_mem_nil⟩, fun he => absurd he List.not_mem_nil⟩

/-- A signal of an accepted peer that the program is told of as it is. -/
theorem EventInv.enqueueExposed {s : Server} (h : s.EventInv) (id : ℕ) (event : ServerEvent)
    (hevent : event.ofConnected id) : (s.enqueue [.exposed id event]).EventInv := by
  have hlist : ∀ i, (s.dispatcher ++ [ServerTask.exposed id event]).filterMap
      (ServerTask.relayed i) =
      s.dispatcher.filterMap (ServerTask.relayed i) := by
    intro i
    rw [List.filterMap_append]
    exact List.append_nil _
  have hmarks : ∀ i peer, Relay.marks (ServerTask.relayed i) (ServerTask.emitted peer)
      (s.dispatcher ++ [ServerTask.exposed id event]) = s.marks i peer := by
    intro i peer
    refine Relay.marks_append_of_none _ (fun t ht => ?_) fun t ht => ?_ <;>
      · rw [List.mem_singleton.mp ht]
        rfl
  refine ⟨h.ids, h.unique, fun i hknows => h.known i (hknows.mono (List.Subset.refl _)
    (List.Subset.refl _) ?_ fun hio => hio), fun peer signal ht => ?_, h.peerIds,
    fun i e ht => ?_, h.peer, fun peer i p hp => ?_⟩
  · intro t ht hm
    refine (List.mem_append.mp ht).resolve_right fun hnew => hm ?_
    rw [List.mem_singleton.mp hnew]
    rfl
  · refine h.signals peer signal ((List.mem_append.mp ht).resolve_right fun hnew => ?_)
    exact ServerTask.noConfusion (List.mem_singleton.mp hnew)
  · rcases List.mem_append.mp ht with ht | ht
    · exact h.exposed i e ht
    · obtain ⟨rfl, rfl⟩ := ServerTask.exposed.inj (List.mem_singleton.mp ht)
      exact hevent
  · obtain ⟨done, hpeer⟩ := h.accepted peer i p hp
    refine ⟨done, ?_, fun hentry => ?_, fun hentry => ?_, fun hio => ?_, hpeer.phase, hpeer.late⟩
    · exact (congrArg (done ++ ·) (hmarks i peer)).symm ▸ hpeer.order
    · exact (congrArg (done ++ ·) (hmarks i peer)).trans (hpeer.kept hentry)
    · have hgone := hpeer.gone hentry
      rw [← hlist] at hgone
      exact hgone
    · have htold := hpeer.told hio
      rw [← hlist] at htold
      exact htold

/-! ## Verified and closed peers -/

/-- `ready` counts as often as it was raised. -/
theorem count_mark_ready (signals : List Signal) :
    (signals.filterMap Signal.mark?).count .ready = signals.count .ready := by
  induction signals with
  | nil => rfl
  | cons signal signals ih =>
    cases signal with
    | ready =>
      rw [List.filterMap_cons_some (f := Signal.mark?) rfl, List.count_cons_self,
        List.count_cons_self, ih]
    | closed =>
      rw [List.filterMap_cons_some (f := Signal.mark?) rfl, List.count_cons_of_ne Mark.noConfusion,
        List.count_cons_of_ne Signal.noConfusion, ih]
    | _ =>
      rw [List.filterMap_cons_none rfl, List.count_cons_of_ne Signal.noConfusion, ih]

/-- `ready` is raised once. -/
theorem PeerInv.ready_once {s : Server} {peer id : ℕ} {p : Peer} {done : List Mark}
    (h : PeerInv s peer id p.signals done) (hsignals : p.SignalInv)
    (hmark : .ready ∈ s.marks id peer) : .ready ∉ done := by
  intro hdone
  have hle := h.order.count_le .ready
  have hone : p.signals.count .ready ≤ 1 := by
    rw [hsignals.ready]
    split <;> decide
  rw [count_mark_ready, List.count_append] at hle
  have h₁ := List.count_pos_iff.mpr hdone
  have h₂ := List.count_pos_iff.mpr hmark
  omega

/-- The mark of the closure that asks `verify_peer_`. -/
theorem relayed_verify (id i : ℕ) :
    (ServerTask.verify id).relayed i = if i = id then some .ready else none := by
  rw [ServerTask.relayed]
  exact if_congr eq_comm rfl rfl

/-- The mark of the closure that tells of the end. -/
theorem relayed_peerClosed (id i : ℕ) :
    (ServerTask.peerClosed id).relayed i = if i = id then some .closed else none := by
  rw [ServerTask.relayed]
  exact if_congr eq_comm rfl rfl

/-- The marks of the peer when the first closure carries one. -/
theorem mem_marks_of_relayed {s : Server} {id peer : ℕ} {task : ServerTask} {mark : Mark}
    {tasks : List ServerTask} (hqueue : s.dispatcher = task :: tasks)
    (hmark : task.relayed id = some mark) : mark ∈ s.marks id peer := by
  rw [Server.marks, Relay.marks, hqueue, List.filterMap_cons_some hmark]
  exact List.mem_append_left _ List.mem_cons_self

/-- `verify_peer_` accepts the peer: it was not known yet. -/
theorem EventInv.verified {s : Server} (h : s.EventInv) {id : ℕ} {tasks : List ServerTask}
    (hqueue : s.dispatcher = .verify id :: tasks) :
    EventInv { s with
      dispatcher := tasks
      exposedPeerIds := s.exposedPeerIds.insert id
      events := s.events ++ [.peerConnected id] } := by
  refine h.deliver hqueue (relayed_verify id) (fun _ => rfl) (fun i hi => ?_) (fun i hi => ?_)
    (fun event he => ?_) fun peer p done hp hpeer => ?_
  · rw [List.mem_insert_iff, or_iff_right hi]
  · exact phase_concat_of_ne s.events fun heq => hi (Option.some.inj heq).symm
  · rcases List.mem_append.mp he with he | he
    · exact .inl he
    · rw [List.mem_singleton.mp he]
      exact .inr rfl
  · have hmark : Mark.ready ∈ s.marks id peer :=
      mem_marks_of_relayed hqueue ((relayed_verify id id).trans (if_pos rfl))
    have hready := hpeer.ready_once (h.peer peer _ p hp) hmark
    obtain ⟨ph, hph, hunknown, -⟩ := hpeer.phase
    obtain rfl : ph = .unknown := by
      by_contra hne
      exact hready (hunknown hne)
    refine ⟨⟨.connected, (phase_concat rfl hph).trans rfl, fun _ => ?_, fun _ => rfl⟩,
      fun _ hclosed => ?_⟩
    · exact List.mem_append_right _ List.mem_cons_self
    · -- `closed` was told before, so it was raised before
      have hdone : Mark.closed ∈ done := by
        rcases List.mem_append.mp hclosed with hclosed | hclosed
        · exact hclosed
        · exact Mark.noConfusion (List.mem_singleton.mp hclosed)
      refine List.Sublist.trans ?_ hpeer.order
      exact (List.singleton_sublist.mpr hdone).append (List.singleton_sublist.mpr hmark)

/-- `verify_peer_` does not accept the peer. -/
theorem EventInv.notVerified {s : Server} (h : s.EventInv) {id : ℕ} {tasks : List ServerTask}
    (hqueue : s.dispatcher = .verify id :: tasks) : EventInv { s with dispatcher := tasks } := by
  refine h.deliver hqueue (relayed_verify id) (fun _ => rfl) (fun _ _ => Iff.rfl) (fun _ _ => rfl)
    (fun _ he => .inl he) fun peer p done hp hpeer => ?_
  have hmark : Mark.ready ∈ s.marks id peer :=
    mem_marks_of_relayed hqueue ((relayed_verify id id).trans (if_pos rfl))
  have hready := hpeer.ready_once (h.peer peer _ p hp) hmark
  obtain ⟨ph, hph, hunknown, hexposed⟩ := hpeer.phase
  obtain rfl : ph = .unknown := by
    by_contra hne
    exact hready (hunknown hne)
  refine ⟨⟨.unknown, hph, fun hne => absurd rfl hne, hexposed⟩, fun he => ?_⟩
  exact PeerPhase.noConfusion (hexposed he)

/-- The program is told that a peer is closed, if it is exposed. -/
theorem EventInv.peerClosed {s : Server} (h : s.EventInv) {id : ℕ} {tasks : List ServerTask}
    (hqueue : s.dispatcher = .peerClosed id :: tasks) (verified : Bool) :
    ({ s with dispatcher := tasks }.runTask verified (.peerClosed id)).EventInv := by
  rw [Server.runTask]
  split
  next hexposed =>
    refine h.deliver hqueue (relayed_peerClosed id) (fun _ => rfl) (fun i hi => ?_) (fun i hi => ?_)
      (fun event he => ?_) fun peer p done hp hpeer => ?_
    · rw [List.mem_filter, and_iff_left (decide_eq_true hi)]
    · exact phase_concat_of_ne s.events fun heq => hi (Option.some.inj heq).symm
    · rcases List.mem_append.mp he with he | he
      · exact .inl he
      · rw [List.mem_singleton.mp he]
        exact .inr rfl
    · have hnot : id ∉ s.exposedPeerIds.filter (· ≠ id) := fun hmem =>
        absurd rfl (of_decide_eq_true (List.mem_filter.mp hmem).2)
      obtain ⟨ph, hph, hready, hconnected⟩ := hpeer.phase
      obtain rfl := hconnected hexposed
      refine ⟨⟨.closed, (phase_concat rfl hph).trans rfl, fun _ => ?_, fun he => absurd he hnot⟩,
        fun he => absurd he hnot⟩
      exact List.mem_append_left _ (hready PeerPhase.noConfusion)
  next hexposed =>
    refine h.deliver hqueue (relayed_peerClosed id) (fun _ => rfl) (fun _ _ => Iff.rfl)
      (fun _ _ => rfl) (fun _ he => .inl he) fun peer p done hp hpeer => ?_
    obtain ⟨ph, hph, hready, hconnected⟩ := hpeer.phase
    exact ⟨⟨ph, hph, fun hne => List.mem_append_left _ (hready hne), hconnected⟩,
      fun he => absurd he hexposed⟩

/-! ## Any closure -/

/-- A signal of an accepted peer: `ready` and `closed` are relayed. -/
theorem EventInv.acceptedSignal {s : Server} (h : s.EventInv) {peer id : ℕ} {p : Peer}
    {signal : Signal} {tasks : List ServerTask}
    (hqueue : s.dispatcher = .peerSignal peer signal :: tasks)
    (hp : s.peers[peer]? = some (.accepted id, p)) :
    ({ s with dispatcher := tasks }.acceptedSignal id peer signal).EventInv := by
  have hplain : signal.mark? = none → EventInv { s with dispatcher := tasks } := by
    intro hmark
    refine h.dispatched hqueue (fun _ => rfl) fun other i q _ => ?_
    rw [ServerTask.emitted, hmark]
    exact ite_self _
  cases signal with
  | ready =>
    have hrelay := h.relay hqueue hp rfl (relayed_verify id)
      ⟨fun _ => rfl, fun _ _ => ServerTask.noConfusion, fun _ _ => ServerTask.noConfusion⟩ []
      fun _ hmem => absurd hmem List.not_mem_nil
    rw [List.append_nil] at hrelay
    exact hrelay
  | closed =>
    refine h.relay hqueue hp rfl (relayed_peerClosed id)
      ⟨fun _ => rfl, fun _ _ => ServerTask.noConfusion, fun _ _ => ServerTask.noConfusion⟩
      [.peerClosed id] fun i hmem => ⟨?_, rfl⟩
    exact ServerIoTask.peerClosed.inj (List.mem_singleton.mp hmem)
  | received buffer => exact (hplain rfl).enqueueExposed id _ ⟨rfl, rfl⟩
  | requestReceived request buffer => exact (hplain rfl).enqueueExposed id _ ⟨rfl, rfl⟩
  | responseReceived request buffer => exact (hplain rfl).keeps (Keeps.post _ _ (by simp))
  | errorOccurred errorCode =>
    exact ((hplain rfl).keeps (Keeps.post _ _ (by simp))).enqueueExposed id _ ⟨rfl, rfl⟩
  | healthCheckResponseReceived => exact hplain rfl

/-- A signal of any peer; health checks are not told to the program. -/
theorem EventInv.handleSignal {s : Server} (h : s.EventInv) {peer : ℕ} {signal : Signal}
    {tasks : List ServerTask} (hqueue : s.dispatcher = .peerSignal peer signal :: tasks) :
    ({ s with dispatcher := tasks }.handleSignal peer signal).EventInv := by
  have hother : (∀ id p, s.peers[peer]? ≠ some (.accepted id, p)) →
      EventInv { s with dispatcher := tasks } := fun hnot =>
    h.dispatched hqueue (fun _ => rfl) fun _ _ _ hq => emitted_of_accepted hnot hq
  rw [Server.handleSignal]
  split
  next hnone =>
    refine hother fun id p hp => ?_
    exact Option.some_ne_none _ (hp.symm.trans hnone)
  next id p hp => exact h.acceptedSignal hqueue hp
  next check p hp =>
    have hpopped := hother fun id q hq =>
      PeerKind.noConfusion (Prod.mk.inj (Option.some.inj (hq.symm.trans hp))).1
    cases signal with
    | healthCheckResponseReceived | errorOccurred | closed =>
      exact hpopped.keeps (Keeps.post _ _ (by simp))
    | _ => exact hpopped

/-- A closure on the dispatcher. -/
theorem EventInv.runTask {s : Server} (h : s.EventInv) {task : ServerTask}
    {tasks : List ServerTask} (hqueue : s.dispatcher = task :: tasks) (verified : Bool) :
    ({ s with dispatcher := tasks }.runTask verified task).EventInv := by
  have hquiet : task.quiet = true → EventInv { s with dispatcher := tasks } := fun hq =>
    h.dispatched hqueue (relayed_of_quiet hq) fun peer _ _ _ => emitted_of_quiet hq peer
  cases task with
  | start =>
    have hstarted : EventInv { s with dispatcher := tasks, stopped := false } :=
      (hquiet rfl).keeps { Keeps.refl _ with }
    exact hstarted.keeps (Keeps.post _ [.bind] (by simp))
  | stop =>
    refine ((hquiet rfl).clearExposed.keeps (Keeps.enqueue _ _ ?_)).keeps (Keeps.post _ _ (by simp))
    simp [ServerTask.quiet]
  | cancel | debounce | stopTimer => exact (hquiet rfl).keeps { Keeps.refl _ with }
  | startTimer =>
    have hstarted : EventInv { s with
        dispatcher := tasks
        timer := { s.timer with
          currentFunctionId := s.timer.currentFunctionId + 1, function := true } } :=
      (hquiet rfl).keeps { Keeps.refl _ with }
    exact hstarted.keeps (Keeps.callFunction _ _)
  | healthCheck => exact (hquiet rfl).keeps (Keeps.post _ _ (by simp))
  | bound =>
    have hraised := (hquiet rfl).raise .bound fun _ hid => absurd hid (Option.some_ne_none _).symm
    rw [Server.runTask, Server.startHealthCheckTimer]
    split
    next => exact hraised
    next => exact hraised.keeps (Keeps.enqueue _ _ (by simp))
  | bindFailed errorCode | closed =>
    refine EventInv.keeps ?_ (Keeps.scheduleBindRetry _)
    exact (hquiet rfl).raise _ fun _ hid => absurd hid (Option.some_ne_none _).symm
  | peerSignal peer signal => exact h.handleSignal hqueue
  | verify id =>
    cases verified with
    | true => exact h.verified hqueue
    | false => exact (h.notVerified hqueue).keeps (Keeps.post _ _ (by simp))
  | exposed id event =>
    have hof := h.exposed id event (hqueue ▸ List.mem_cons_self)
    have hpopped := h.dispatched hqueue (fun _ => rfl) fun _ _ _ _ => rfl
    rw [Server.runTask]
    split
    next hexposed =>
      refine hpopped.raise event fun i hi => ?_
      obtain rfl := Option.some.inj (hof.1.symm.trans hi)
      exact ⟨hexposed, hof⟩
    next => exact hpopped
  | peerClosed id => exact h.peerClosed hqueue verified
  | callback completion =>
    exact (hquiet rfl).raise _ fun _ hid => absurd hid (Option.some_ne_none _).symm

end Server

end VirtualHidDevice.UnixDomainStream
