import VirtualHidDevice.UnixDomainStream.PeerMarks

/-!
# Peers come, move and go

The steps that change the list of peers of a server keep what it knows of them.

* `EventInv.addPeer`, `EventInv.addCheckPeer` — a connection is accepted, or one is made by a health
  check.
* `EventInv.stepPeer` — a peer takes a step, and its signals are handed to the dispatcher.
* `EventInv.ioPeerClosed`, `EventInv.destroyPeer` — a peer is let go, and destroyed.
-/

namespace VirtualHidDevice.UnixDomainStream

namespace Server

/-! ## A peer comes -/

/-- An element of a list that got longer is an old one or the new one. -/
theorem getElem?_concat {α : Type} {l : List α} {a b : α} {i : ℕ}
    (h : (l ++ [a])[i]? = some b) : l[i]? = some b ∨ i = l.length ∧ b = a := by
  rw [List.getElem?_append] at h
  split at h
  next => exact .inl h
  next hle =>
    obtain ⟨hlt, hget⟩ := List.getElem?_eq_some_iff.mp h
    have hzero : i - l.length = 0 := Nat.lt_one_iff.mp hlt
    refine .inr ⟨by omega, ?_⟩
    rw [← hget]
    simp [hzero]

/-- A connection is accepted. -/
theorem EventInv.addPeer {s : Server} (h : s.EventInv) :
    EventInv { s with
      nextPeerId := s.nextPeerId + 1
      peers := s.peers ++ [(PeerKind.accepted (s.nextPeerId + 1), Peer.init s.options.common)]
      peerIds := s.peerIds ++ [(s.nextPeerId + 1, s.peers.length)] } := by
  have hold : ∀ {peer : ℕ} {x : PeerKind × Peer}, s.peers[peer]? = some x →
      (s.peers ++ [(PeerKind.accepted (s.nextPeerId + 1), Peer.init s.options.common)])[peer]? =
        some x := by
    intro peer x hx
    rw [List.getElem?_append_left (List.getElem?_eq_some_iff.mp hx).1]
    exact hx
  have hfresh : ∀ id, s.Knows id → id ≠ s.nextPeerId + 1 := by
    intro id hknows heq
    obtain ⟨peer, p, hp⟩ := h.known id hknows
    have := h.ids peer id p hp
    omega
  refine ⟨?_, ?_, ?_, ?_, ?_, h.exposed, ?_, ?_⟩
  · intro peer id p hp
    rcases getElem?_concat hp with hp | ⟨-, heq⟩
    · exact (h.ids peer id p hp).trans (Nat.le_succ _)
    · rw [PeerKind.accepted.inj (Prod.mk.inj heq).1]
  · intro peer peer' id p p' hp hp'
    rcases getElem?_concat hp with hp | ⟨rfl, heq⟩
    · rcases getElem?_concat hp' with hp' | ⟨-, heq'⟩
      · exact h.unique peer peer' id p p' hp hp'
      · have hid := PeerKind.accepted.inj (Prod.mk.inj heq').1
        have := h.ids peer id p hp
        omega
    · rcases getElem?_concat hp' with hp' | ⟨rfl, -⟩
      · have hid := PeerKind.accepted.inj (Prod.mk.inj heq).1
        have := h.ids peer' id p' hp'
        omega
      · rfl
  · intro id hknows
    obtain ⟨peer, p, hp⟩ := h.known id (hknows.mono (List.Subset.refl _) (List.Subset.refl _)
      (fun task htask _ => htask) fun hio => hio)
    exact ⟨peer, p, hold hp⟩
  · intro peer signal htask
    have := h.signals peer signal htask
    dsimp only
    rw [List.length_append]
    omega
  · intro id peer hentry
    rcases List.mem_append.mp hentry with hentry | hentry
    · obtain ⟨p, hp⟩ := h.peerIds id peer hentry
      exact ⟨p, hold hp⟩
    · obtain ⟨rfl, rfl⟩ := Prod.mk.inj (List.mem_singleton.mp hentry)
      exact ⟨_, List.getElem?_concat_length⟩
  · intro peer kind p hp
    rcases getElem?_concat hp with hp | ⟨-, heq⟩
    · exact h.peer peer kind p hp
    · rw [(Prod.mk.inj heq).2]
      exact (Peer.init_inv s.options.common).1
  · intro peer id p hp
    rcases getElem?_concat hp with hp | ⟨rfl, heq⟩
    · have hle := h.ids peer id p hp
      obtain ⟨done, hpeer⟩ := h.accepted peer id p hp
      refine ⟨done, hpeer.order, fun hentry => hpeer.kept ?_, fun hentry => hpeer.gone ?_,
        hpeer.told, hpeer.phase, hpeer.late⟩
      · rcases List.mem_append.mp hentry with hentry | hentry
        · exact hentry
        · have := (Prod.mk.inj (List.mem_singleton.mp hentry)).1
          omega
      · exact fun hmem => hentry (List.mem_append_left _ hmem)
    · obtain ⟨hid, rfl⟩ := Prod.mk.inj heq
      obtain rfl := PeerKind.accepted.inj hid
      have hnot : ¬ s.Knows (s.nextPeerId + 1) := fun hknows => hfresh _ hknows rfl
      have hrelayed : ∀ task ∈ s.dispatcher, task.relayed (s.nextPeerId + 1) = none := by
        intro task htask
        by_contra hmark
        exact hnot (.task task htask hmark)
      have hemitted : ∀ task ∈ s.dispatcher, task.emitted s.peers.length = none := by
        intro task htask
        cases task with
        | peerSignal peer signal =>
          exact if_neg (h.signals peer signal htask).ne
        | _ => rfl
      have hmarks : Relay.marks (ServerTask.relayed (s.nextPeerId + 1))
          (ServerTask.emitted s.peers.length) s.dispatcher = [] := by
        rw [Relay.marks, List.filterMap_eq_nil_iff.mpr hrelayed,
          List.filterMap_eq_nil_iff.mpr hemitted, List.append_nil]
      refine ⟨[], ?_, fun _ => ?_, fun hentry => absurd ?_ hentry, fun hio => absurd (.io hio) hnot,
        ⟨.unknown, ?_, fun hne => absurd rfl hne, fun hexposed => absurd (.exposed hexposed) hnot⟩,
        fun hexposed => absurd (.exposed hexposed) hnot⟩
      · rw [List.nil_append, Server.marks, hmarks]
        exact List.nil_sublist _
      · exact hmarks
      · exact List.mem_append_right _ List.mem_cons_self
      · exact phase_unknown fun event he hid => hnot (.event event he hid)

/-- A health check has connected. -/
theorem EventInv.addCheckPeer {s : Server} (h : s.EventInv) (check : ℕ)
    (healthCheckPeer : Option ℕ) :
    EventInv { s with
      peers := s.peers ++ [(PeerKind.healthCheck check, Peer.init s.options.common)]
      healthCheckPeer } := by
  have hold : ∀ {peer : ℕ} {x : PeerKind × Peer}, s.peers[peer]? = some x →
      (s.peers ++ [(PeerKind.healthCheck check, Peer.init s.options.common)])[peer]? = some x := by
    intro peer x hx
    rw [List.getElem?_append_left (List.getElem?_eq_some_iff.mp hx).1]
    exact hx
  have hnew : ∀ {peer id : ℕ} {p : Peer},
      (s.peers ++ [(PeerKind.healthCheck check, Peer.init s.options.common)])[peer]? =
        some (.accepted id, p) → s.peers[peer]? = some (.accepted id, p) := by
    intro peer id p hp
    rcases getElem?_concat hp with hp | ⟨-, heq⟩
    · exact hp
    · exact PeerKind.noConfusion (Prod.mk.inj heq).1
  refine ⟨fun peer id p hp => h.ids peer id p (hnew hp),
    fun peer peer' id p p' hp hp' => h.unique peer peer' id p p' (hnew hp) (hnew hp'), ?_, ?_, ?_,
    h.exposed, ?_, fun peer id p hp => ?_⟩
  · intro id hknows
    obtain ⟨peer, p, hp⟩ := h.known id (hknows.mono (List.Subset.refl _) (List.Subset.refl _)
      (fun task htask _ => htask) fun hio => hio)
    exact ⟨peer, p, hold hp⟩
  · intro peer signal htask
    have := h.signals peer signal htask
    dsimp only
    rw [List.length_append]
    omega
  · intro id peer hentry
    obtain ⟨p, hp⟩ := h.peerIds id peer hentry
    exact ⟨p, hold hp⟩
  · intro peer kind p hp
    rcases getElem?_concat hp with hp | ⟨-, heq⟩
    · exact h.peer peer kind p hp
    · rw [(Prod.mk.inj heq).2]
      exact (Peer.init_inv s.options.common).1
  · obtain ⟨done, hpeer⟩ := h.accepted peer id p (hnew hp)
    exact ⟨done, hpeer.order, hpeer.kept, hpeer.gone, hpeer.told, hpeer.phase, hpeer.late⟩

/-! ## A peer moves -/

/-- What a step of a peer adds to its signals. -/
theorem signals_append {p q : Peer} {label : PeerLabel} (hinv : p.SignalInv)
    (hstep : p.step label = some q) : p.signals ++ q.signals.drop p.signals.length = q.signals :=
  List.prefix_iff_eq_append.mp (Peer.signals_prefix hinv hstep)

/-- The marks that a peer hands over are its own. -/
theorem filterMap_emitted (peer peer' : ℕ) (signals : List Signal) :
    (signals.map (ServerTask.peerSignal peer)).filterMap (ServerTask.emitted peer') =
      if peer = peer' then signals.filterMap Signal.mark? else [] := by
  rw [List.filterMap_map]
  split
  next heq =>
    refine List.filterMap_congr fun signal _ => ?_
    exact if_pos heq
  next hne =>
    refine List.filterMap_eq_nil_iff.mpr fun signal _ => ?_
    exact if_neg hne

/-- A peer that is found is in the list. -/
theorem mem_of_lookup {entries : List (ℕ × ℕ)} {id peer : ℕ}
    (h : entries.lookup id = some peer) : (id, peer) ∈ entries := by
  obtain ⟨l₁, l₂, rfl, -⟩ := List.lookup_eq_some_iff.mp h
  exact List.mem_append_right l₁ List.mem_cons_self

/-- What a step of a peer does to the server. -/
theorem stepPeer_eq_some {s t : Server} {index : ℕ} {label : PeerLabel}
    (h : s.stepPeer index label = some t) :
    ∃ kind p q, s.peers[index]? = some (kind, p) ∧ p.step label = some q ∧
      t = { s with peers := s.peers.set index (kind, q) }.enqueue
        ((q.signals.drop p.signals.length).map (.peerSignal index)) := by
  rw [Server.stepPeer] at h
  split at h
  next => cases h
  next kind p hp =>
    obtain ⟨q, hq, rfl⟩ := Option.map_eq_some_iff.mp h
    exact ⟨kind, p, q, hp, hq, rfl⟩

/-- It does not matter what is queued for `io_ctx_`. -/
theorem stepPeer_ioCtx (s : Server) (tasks : List ServerIoTask) (index : ℕ) (label : PeerLabel) :
    { s with ioCtx := tasks }.stepPeer index label =
      (s.stepPeer index label).map fun t => { t with ioCtx := tasks } := by
  rw [Server.stepPeer, Server.stepPeer]
  dsimp only
  split
  next => rfl
  next _ p _ => cases p.step label <;> rfl

/-- A peer that was late stays so. -/
theorem late_append {signals : List Signal} (h : Late signals) (new : List Signal) :
    Late (signals ++ new) := by
  rw [Late, List.filterMap_append]
  exact h.trans (List.sublist_append_left _ _)

/-- A peer takes a step, and its signals are handed to the dispatcher. -/
theorem EventInv.stepPeer {s t : Server} (h : s.EventInv) {index : ℕ} {label : PeerLabel}
    (hstep : s.stepPeer index label = some t) : t.EventInv := by
  rw [Server.stepPeer] at hstep
  split at hstep
  next => cases hstep
  next kind p hp =>
    obtain ⟨q, hq, rfl⟩ := Option.map_eq_some_iff.mp hstep
    have hsignals := signals_append (h.peer index kind p hp) hq
    have hindex : index < s.peers.length := (List.getElem?_eq_some_iff.mp hp).1
    -- the peers have the same kinds as before
    have hback : ∀ {peer : ℕ} {k : PeerKind} {r : Peer},
        (s.peers.set index (kind, q))[peer]? = some (k, r) →
          (peer = index ∧ k = kind ∧ r = q) ∨ peer ≠ index ∧ s.peers[peer]? = some (k, r) := by
      intro peer k r hr
      by_cases heq : peer = index
      · subst heq
        rw [List.getElem?_set_self hindex] at hr
        obtain ⟨rfl, rfl⟩ := Prod.mk.inj (Option.some.inj hr)
        exact .inl ⟨rfl, rfl, rfl⟩
      · rw [List.getElem?_set_ne (Ne.symm heq)] at hr
        exact .inr ⟨heq, hr⟩
    have hkind : ∀ {peer : ℕ} {k : PeerKind} {r : Peer},
        (s.peers.set index (kind, q))[peer]? = some (k, r) →
          ∃ r', s.peers[peer]? = some (k, r') := by
      intro peer k r hr
      rcases hback hr with ⟨rfl, rfl, -⟩ | ⟨-, hr⟩
      · exact ⟨p, hp⟩
      · exact ⟨r, hr⟩
    have hfront : ∀ {peer : ℕ} {k : PeerKind} {r : Peer}, s.peers[peer]? = some (k, r) →
        ∃ r', (s.peers.set index (kind, q))[peer]? = some (k, r') := by
      intro peer k r hr
      by_cases heq : peer = index
      · subst heq
        obtain ⟨rfl, -⟩ := Prod.mk.inj (Option.some.inj (hp.symm.trans hr))
        exact ⟨q, List.getElem?_set_self hindex⟩
      · rw [List.getElem?_set_ne (Ne.symm heq)]
        exact ⟨r, hr⟩
    have hnone : ∀ id, ∀ task ∈ (q.signals.drop p.signals.length).map (ServerTask.peerSignal index),
        task.relayed id = none := by
      intro id task htask
      obtain ⟨signal, -, rfl⟩ := List.mem_map.mp htask
      rfl
    have hrelayed : ∀ id, (s.dispatcher ++ (q.signals.drop p.signals.length).map
        (ServerTask.peerSignal index)).filterMap (ServerTask.relayed id) =
          s.dispatcher.filterMap (ServerTask.relayed id) := by
      intro id
      rw [List.filterMap_append, List.filterMap_eq_nil_iff.mpr (hnone id), List.append_nil]
    refine ⟨?_, ?_, ?_, ?_, ?_, ?_, ?_, ?_⟩
    · intro peer id r hr
      obtain ⟨r', hr'⟩ := hkind hr
      exact h.ids peer id r' hr'
    · intro peer peer' id r r' hr hr'
      obtain ⟨r₁, hr₁⟩ := hkind hr
      obtain ⟨r₂, hr₂⟩ := hkind hr'
      exact h.unique peer peer' id r₁ r₂ hr₁ hr₂
    · intro id hknows
      obtain ⟨peer, r, hr⟩ := h.known id (hknows.mono (List.Subset.refl _) (List.Subset.refl _)
        (fun task htask hmark => (List.mem_append.mp htask).resolve_right fun hnew =>
          hmark (hnone id task hnew)) fun hio => hio)
      exact ⟨peer, hfront hr⟩
    · intro peer signal htask
      have hlength : (s.peers.set index (kind, q)).length = s.peers.length := List.length_set
      rcases List.mem_append.mp htask with htask | htask
      · exact hlength ▸ h.signals peer signal htask
      · obtain ⟨signal', -, heq⟩ := List.mem_map.mp htask
        obtain ⟨rfl, -⟩ := ServerTask.peerSignal.inj heq
        exact hlength ▸ hindex
    · intro id peer hentry
      obtain ⟨r, hr⟩ := h.peerIds id peer hentry
      exact hfront hr
    · intro id event htask
      refine h.exposed id event ((List.mem_append.mp htask).resolve_right fun hnew => ?_)
      obtain ⟨signal, -, heq⟩ := List.mem_map.mp hnew
      exact ServerTask.noConfusion heq
    · intro peer k r hr
      rcases hback hr with ⟨-, -, rfl⟩ | ⟨-, hr⟩
      · exact (h.peer index kind p hp).step hq
      · exact h.peer peer k r hr
    · intro peer id r hr
      have hmarks : Relay.marks (ServerTask.relayed id) (ServerTask.emitted peer)
          (s.dispatcher ++ (q.signals.drop p.signals.length).map (ServerTask.peerSignal index)) =
          s.marks id peer ++ if index = peer then
            (q.signals.drop p.signals.length).filterMap Signal.mark? else [] := by
        rw [Relay.marks_emit _ (hnone id), filterMap_emitted]
        rfl
      rcases hback hr with ⟨rfl, rfl, rfl⟩ | ⟨hne, hr⟩
      · obtain ⟨done, hpeer⟩ := h.accepted peer id p hp
        rw [if_pos rfl] at hmarks
        have hsplit : r.signals.filterMap Signal.mark? = p.signals.filterMap Signal.mark? ++
            (r.signals.drop p.signals.length).filterMap Signal.mark? := by
          rw [← List.filterMap_append, hsignals]
        refine ⟨done, ?_, fun hentry => ?_, fun hentry => ?_, fun hio => ?_, hpeer.phase,
          fun hexposed hclosed => ?_⟩
        · refine (congrArg (done ++ ·) hmarks).symm ▸ ?_
          rw [← List.append_assoc, hsplit]
          exact hpeer.order.append (List.Sublist.refl _)
        · refine (congrArg (done ++ ·) hmarks).trans ?_
          rw [← List.append_assoc, hsplit, hpeer.kept hentry]
        · have hgone := hpeer.gone hentry
          rw [← hrelayed] at hgone
          exact hgone
        · have htold := hpeer.told hio
          rw [← hrelayed] at htold
          exact htold
        · rw [← hsignals]
          exact late_append (hpeer.late hexposed hclosed) _
      · obtain ⟨done, hpeer⟩ := h.accepted peer id r hr
        rw [if_neg (Ne.symm hne), List.append_nil] at hmarks
        refine ⟨done, ?_, fun hentry => ?_, fun hentry => ?_, fun hio => ?_, hpeer.phase,
          hpeer.late⟩
        · exact (congrArg (done ++ ·) hmarks).symm ▸ hpeer.order
        · exact (congrArg (done ++ ·) hmarks).trans (hpeer.kept hentry)
        · have hgone := hpeer.gone hentry
          rw [← hrelayed] at hgone
          exact hgone
        · have htold := hpeer.told hio
          rw [← hrelayed] at htold
          exact htold

/-! ## A peer goes -/

/-- The server lets a peer go that is closed. -/
theorem EventInv.ioPeerClosed {s : Server} (h : s.EventInv) {id : ℕ} {tasks : List ServerIoTask}
    (hio : s.ioCtx = .peerClosed id :: tasks) :
    EventInv { s with ioCtx := tasks, peerIds := s.peerIds.filter (·.1 ≠ id) } := by
  have hsub : ∀ i, .peerClosed i ∈ tasks → .peerClosed i ∈ s.ioCtx := by
    intro i hi
    rw [hio]
    exact List.mem_cons_of_mem _ hi
  refine ⟨h.ids, h.unique, fun i hknows => h.known i (hknows.mono (List.Subset.refl _)
    (List.Subset.refl _) (fun _ htask _ => htask) (hsub i)), h.signals,
    fun i peer hentry => h.peerIds i peer (List.mem_of_mem_filter hentry), h.exposed, h.peer, ?_⟩
  intro peer i p hp
  obtain ⟨done, hpeer⟩ := h.accepted peer i p hp
  refine ⟨done, hpeer.order, fun hentry => hpeer.kept (List.mem_of_mem_filter hentry),
    fun hentry => ?_, fun hi => hpeer.told (hsub i hi), hpeer.phase, hpeer.late⟩
  by_cases hid : i = id
  · subst hid
    exact .inr (hpeer.told (hio ▸ List.mem_cons_self))
  · exact hpeer.gone fun hmem => hentry (List.mem_filter.mpr ⟨hmem, decide_eq_true hid⟩)

/-- A peer that the server has let go is destroyed: its closures are dropped. -/
theorem EventInv.destroyPeer {s : Server} (h : s.EventInv) {index : ℕ}
    (hgone : index ∉ s.peerIds.map Prod.snd) :
    EventInv { s with dispatcher := s.dispatcher.filter fun task => !task.ownedBy index } := by
  have hrelayed : ∀ id, (s.dispatcher.filter fun task => !task.ownedBy index).filterMap
      (ServerTask.relayed id) = s.dispatcher.filterMap (ServerTask.relayed id) := by
    intro id
    rw [List.filterMap_filter]
    refine List.filterMap_congr fun task _ => ?_
    cases task <;> first | rfl | exact ite_self _
  have hmem : ∀ task ∈ s.dispatcher.filter fun task => !task.ownedBy index, task ∈ s.dispatcher :=
    fun task htask => List.mem_of_mem_filter htask
  refine ⟨h.ids, h.unique, fun i hknows => h.known i (hknows.mono (List.Subset.refl _)
    (List.Subset.refl _) (fun task htask _ => hmem task htask) fun hio => hio),
    fun peer signal htask => h.signals peer signal (hmem _ htask), h.peerIds,
    fun id event htask => h.exposed id event (hmem _ htask), h.peer, fun peer id p hp => ?_⟩
  obtain ⟨done, hpeer⟩ := h.accepted peer id p hp
  have hemitted : ((s.dispatcher.filter fun task => !task.ownedBy index).filterMap
      (ServerTask.emitted peer)).Sublist (s.dispatcher.filterMap (ServerTask.emitted peer)) :=
    List.filter_sublist.filterMap _
  refine ⟨done, ?_, fun hentry => ?_, fun hentry => ?_, fun hio => ?_, hpeer.phase, hpeer.late⟩
  · refine List.Sublist.trans ?_ hpeer.order
    rw [Server.marks, Relay.marks, hrelayed]
    exact (List.Sublist.refl _).append ((List.Sublist.refl _).append hemitted)
  · -- the peer that is destroyed is another one
    have hne : peer ≠ index := by
      rintro rfl
      exact hgone (List.mem_map_of_mem (f := Prod.snd) hentry)
    refine Eq.trans ?_ (hpeer.kept hentry)
    rw [Server.marks, Server.marks, Relay.marks, Relay.marks, hrelayed, List.filterMap_filter]
    congr 2
    refine List.filterMap_congr fun task _ => ?_
    cases task with
    | peerSignal other signal =>
      by_cases hother : other = index
      · subst hother
        simp [ServerTask.ownedBy, ServerTask.emitted, Ne.symm hne]
      · simp [ServerTask.ownedBy, hother]
    | _ => rfl
  · have hg := hpeer.gone hentry
    rw [← hrelayed] at hg
    exact hg
  · have htold := hpeer.told hio
    rw [← hrelayed] at htold
    exact htold

end Server

end VirtualHidDevice.UnixDomainStream
