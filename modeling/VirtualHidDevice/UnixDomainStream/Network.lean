import VirtualHidDevice.UnixDomainStream.Link
import VirtualHidDevice.UnixDomainStream.PeersStep
import VirtualHidDevice.UnixDomainStream.ClientOrigin
import VirtualHidDevice.UnixDomainStream.ServerOrigin

/-!
# A client and a server

A client and the server it connects to. Each peer of the client is one end of a link; the other
end is the peer of the server that was accepted for it, if there is one. The server has other
peers too, which may send anything.

* `Network`, `Network.step` — the two programs and the links between them.
* `Network.Inv` — each link is in a state that two connected peers reach, and what they were asked
  to send has its origin in what the two programs asked for.

`responses_answer_requests` is the result: the response that a callback gets is the one that the
server's program gave to that request.
-/

namespace VirtualHidDevice.UnixDomainStream

/-! ## The system -/

/-- A client, a server, and the links of the client's peers. -/
structure Network where
  /-- the client -/
  client : Client
  /-- the server -/
  server : Server
  /-- the link that each peer of the client is an end of -/
  links : ℕ → Link

/-- A step of one of the two. -/
inductive NetworkLabel where
  /-- a step of the client -/
  | client (label : ClientLabel)
  /-- a step of the server -/
  | server (label : ServerLabel)
deriving DecidableEq, Repr

/-- The client's step. -/
def NetworkLabel.client? : NetworkLabel → Option ClientLabel
  | client label => some label
  | server _ => none

/-- The server's step. -/
def NetworkLabel.server? : NetworkLabel → Option ServerLabel
  | client _ => none
  | server label => some label

/-- The limits of the two ends of a link. -/
def sideOptions (client server : CommonOptions) : Side → CommonOptions
  | .client => client
  | .server => server

namespace Network

/-- A client and a server that were constructed. -/
def init (clientOptions : ClientOptions) (serverOptions : ServerOptions) : Network where
  client := Client.init clientOptions
  server := Server.init serverOptions
  links _ := Link.init (sideOptions clientOptions.common serverOptions.common)

/-- What a step does to the two programs. -/
def programs (n : Network) : NetworkLabel → Option (Client × Server)
  | .client label => (n.client.step label).map fun client => (client, n.server)
  | .server label => (n.server.step label).map fun server => (n.client, server)

/-- The step of a link that a step consists of, if it is one. `accepted` tells which peer of the
client is at the other end of a peer of the server. -/
def moves (accepted : ℕ → Option ℕ) (n : Network) : NetworkLabel → Option (ℕ × Side × PeerLabel)
  | .client label => (n.client.executes label).map fun (peer, l) => (peer, .client, l)
  | .server label => (n.server.executes label).bind fun (peer, l) =>
    (accepted peer).map fun index => (index, .server, l)

/-- A step of the client or of the server. If it is the step of a peer with a link, the link takes
it, so that the peer reads what the other end has written. -/
def step (accepted : ℕ → Option ℕ) (n : Network) (label : NetworkLabel) : Option Network :=
  (n.programs label).bind fun (client, server) => match n.moves accepted label with
    | none => some { client, server, links := n.links }
    | some (index, l) => ((n.links index).step l).map fun link =>
      { client, server, links := Function.update n.links index link }

/-- The steps of the client. -/
def clientLabels (labels : List NetworkLabel) : List ClientLabel :=
  labels.filterMap NetworkLabel.client?

/-- The steps of the server. -/
def serverLabels (labels : List NetworkLabel) : List ServerLabel :=
  labels.filterMap NetworkLabel.server?

/-- A label of the client. -/
theorem mem_clientLabels {labels : List NetworkLabel} {label : ClientLabel} :
    label ∈ clientLabels labels ↔ .client label ∈ labels := by
  refine ⟨fun h => ?_, fun h => List.mem_filterMap.mpr ⟨_, h, rfl⟩⟩
  obtain ⟨other, hmem, heq⟩ := List.mem_filterMap.mp h
  cases other with
  | client l =>
    obtain rfl := Option.some.inj heq
    exact hmem
  | server l => exact absurd heq (Option.some_ne_none _).symm

/-- A label of the server. -/
theorem mem_serverLabels {labels : List NetworkLabel} {label : ServerLabel} :
    label ∈ serverLabels labels ↔ .server label ∈ labels := by
  refine ⟨fun h => ?_, fun h => List.mem_filterMap.mpr ⟨_, h, rfl⟩⟩
  obtain ⟨other, hmem, heq⟩ := List.mem_filterMap.mp h
  cases other with
  | server l =>
    obtain rfl := Option.some.inj heq
    exact hmem
  | client l => exact absurd heq (Option.some_ne_none _).symm

/-! ## The links -/

variable {accepted : ℕ → Option ℕ} {issued : List (ℕ × Bytes)}

/-- A request on a link was issued by the client, and a response was given by the server's program
for the peer at the other end. -/
structure LinkOrigin (accepted : ℕ → Option ℕ) (issued : List (ℕ × Bytes))
    (labels : List ServerLabel) (peers : List (PeerKind × Peer)) (index : ℕ)
    (history : List (Side × PeerLabel)) : Prop where
  request : ∀ requestId data, .request requestId data ∈ Link.sent .client history →
    ∃ callback, Issued issued requestId callback data
  response : ∀ requestId data, .response requestId data ∈ Link.sent .server history →
    ∃ peer, accepted peer = some index ∧ Responds labels peers peer requestId data

/-- What a connection has carried keeps its origin. -/
theorem LinkOrigin.grows {past labels : List ServerLabel}
    {before after : List (PeerKind × Peer)} {index : ℕ} {history : List (Side × PeerLabel)}
    (h : LinkOrigin accepted issued past before index history)
    (new : List (ℕ × Bytes)) (hlabels : past ⊆ labels) (hkinds : KeepsKinds before after) :
    LinkOrigin accepted (issued ++ new) labels after index history := by
  refine ⟨fun requestId data hmem => ?_, fun requestId data hmem => ?_⟩
  · obtain ⟨callback, hissued⟩ := h.request requestId data hmem
    exact ⟨callback, hissued.append new⟩
  · obtain ⟨peer, haccepted, hresponds⟩ := h.response requestId data hmem
    exact ⟨peer, haccepted, hresponds.keepsKinds hlabels hkinds⟩

/-- What a peer of the client is asked to send was queued. -/
theorem mem_of_clientExecutes {c d : Client} {label : ClientLabel} {peer : ℕ} {message : Message}
    (hstep : c.step label = some d) (h : c.executes label = some (peer, .send message)) :
    .peer peer (.send message) ∈ c.ioCtx := by
  cases label with
  | peer index l =>
    obtain ⟨rfl, rfl⟩ := Prod.mk.inj (Option.some.inj h)
    rw [Client.step, if_neg (by simp [PeerLabel.isHandler])] at hstep
    cases hstep
  | io =>
    rw [Client.executes] at h
    split at h
    next hqueue =>
      split at h
      next =>
        obtain ⟨rfl, rfl⟩ := Prod.mk.inj (Option.some.inj h)
        exact hqueue ▸ List.mem_cons_self
      next => cases h
    next => cases h
  | _ => cases h

/-- What a peer of the server is asked to send was queued. -/
theorem mem_of_serverExecutes {s t : Server} {label : ServerLabel} {peer : ℕ} {message : Message}
    (hstep : s.step label = some t) (h : s.executes label = some (peer, .send message)) :
    .peer peer (.send message) ∈ s.ioCtx := by
  cases label with
  | peer index l =>
    obtain ⟨rfl, rfl⟩ := Prod.mk.inj (Option.some.inj h)
    rw [Server.step, if_neg (by simp [PeerLabel.isSocketHandler])] at hstep
    cases hstep
  | io =>
    rw [Server.executes] at h
    split at h
    next hqueue =>
      split at h
      next =>
        obtain ⟨rfl, rfl⟩ := Prod.mk.inj (Option.some.inj h)
        exact hqueue ▸ List.mem_cons_self
      next => cases h
    next => cases h
  | _ => cases h

/-- The history of a link that takes a step. -/
theorem LinkOrigin.concat {index : ℕ} {sent : List ServerLabel} {peers : List (PeerKind × Peer)}
    {history : List (Side × PeerLabel)} (h : LinkOrigin accepted issued sent peers index history)
    (side : Side) {l : PeerLabel}
    (hrequest : ∀ requestId data, side = .client → l = .send (.request requestId data) →
      ∃ callback, Issued issued requestId callback data)
    (hresponse : ∀ requestId data, side = .server → l = .send (.response requestId data) →
      ∃ peer, accepted peer = some index ∧ Responds sent peers peer requestId data) :
    LinkOrigin accepted issued sent peers index (history ++ [(side, l)]) := by
  have hsent : ∀ {other : Side} {message : Message},
      message ∈ Link.sent other (history ++ [(side, l)]) →
        message ∈ Link.sent other history ∨ side = other ∧ l = .send message := by
    intro other message hmem
    rw [Link.sent_concat] at hmem
    refine (List.mem_append.mp hmem).imp_right fun hlast => ?_
    split at hlast
    next hside =>
      cases l with
      | send other =>
        rw [List.mem_singleton.mp hlast]
        exact ⟨hside, rfl⟩
      | _ => exact absurd hlast List.not_mem_nil
    next => exact absurd hlast List.not_mem_nil
  refine ⟨fun requestId data hmem => ?_, fun requestId data hmem => ?_⟩
  · rcases hsent hmem with hmem | ⟨hside, hl⟩
    · exact h.request requestId data hmem
    · exact hrequest requestId data hside hl
  · rcases hsent hmem with hmem | ⟨hside, hl⟩
    · exact h.response requestId data hmem
    · exact hresponse requestId data hside hl

/-! ## What a step does to a link -/

/-- Nothing happens to the links, or one of them takes a step. -/
inductive LinksStep (before after : ℕ → Link) (moved : Option (ℕ × Side × PeerLabel)) : Prop where
  | same (hnone : moved = none) (h : after = before)
  | moves (index : ℕ) (l : Side × PeerLabel) (hsome : moved = some (index, l)) (link : Link)
    (hlink : (before index).step l = some link) (h : after = Function.update before index link)

variable {n m : Network}

/-- Every step of the system. -/
theorem step_eq_some {label : NetworkLabel} (h : n.step accepted label = some m) :
    n.programs label = some (m.client, m.server) ∧
      LinksStep n.links m.links (n.moves accepted label) := by
  obtain ⟨⟨client, server⟩, hprograms, h⟩ := Option.bind_eq_some_iff.mp h
  dsimp only at h
  split at h
  next hnone =>
    obtain rfl := Option.some.inj h
    exact ⟨hprograms, .same hnone rfl⟩
  next index l hsome =>
    obtain ⟨link, hlink, rfl⟩ := Option.map_eq_some_iff.mp h
    exact ⟨hprograms, .moves index l hsome link hlink rfl⟩

/-- A step of a connection moves one of its ends. -/
theorem link_step_eq_some {s t : Link} {side : Side} {label : PeerLabel}
    (h : s.step (side, label) = some t) :
    ∃ q, (s.peer side).step label = some q ∧ t.peer = Function.update s.peer side q := by
  rw [Link.step] at h
  split at h
  next =>
    obtain ⟨q, hq, rfl⟩ := Option.map_eq_some_iff.mp h
    exact ⟨q, hq, rfl⟩
  next => cases h

section

variable {before after : ℕ → Link} {moved : Option (ℕ × Side × PeerLabel)}

/-- A peer takes the step of its link, and no other. -/
theorem LinksStep.peer (h : LinksStep before after moved) (index : ℕ) (side : Side) :
    (∀ l, moved = some (index, side, l) → ((before index).peer side).step l =
        some ((after index).peer side)) ∧
      ((∀ l, moved ≠ some (index, side, l)) →
        (after index).peer side = (before index).peer side) := by
  cases h with
  | same hnone heq =>
    refine ⟨fun l hsome => absurd (hsome.symm.trans hnone) (Option.some_ne_none _), fun _ => ?_⟩
    rw [heq]
  | moves other l hsome link hlink heq =>
    obtain ⟨q, hq, hpeer⟩ := link_step_eq_some hlink
    refine ⟨fun l' hsome' => ?_, fun hnot => ?_⟩
    · obtain ⟨rfl, rfl⟩ := Prod.mk.inj (Option.some.inj (hsome.symm.trans hsome'))
      rw [hq, heq, Function.update_self, hpeer, Function.update_self]
    · rw [heq]
      by_cases hindex : index = other
      · subst hindex
        have hside : side ≠ l.1 := fun hside => hnot l.2 (hside ▸ hsome)
        rw [Function.update_self, hpeer, Function.update_of_ne hside]
      · rw [Function.update_of_ne hindex]

/-- The history of a link after a step of the system. -/
theorem LinksStep.history (h : LinksStep before after moved) (start : Link) {index : ℕ}
    {history : List (Side × PeerLabel)}
    (hrun : Transition.run Link.step start history = some (before index)) :
    after index = before index ∨ ∃ l, moved = some (index, l) ∧
      Transition.run Link.step start (history ++ [l]) = some (after index) := by
  cases h with
  | same hnone heq => exact .inl (congrFun heq index)
  | moves other l hsome link hlink heq =>
    by_cases hindex : index = other
    · subst hindex
      refine .inr ⟨l, hsome, ?_⟩
      rw [Transition.run_concat hrun, heq, Function.update_self]
      exact hlink
    · exact .inl (heq ▸ Function.update_of_ne hindex _ _)

/-- A peer of a program stays the end of its link. -/
theorem LinksStep.getD (h : LinksStep before after moved) {options : CommonOptions}
    {ps qs : List Peer} {executed : Option (ℕ × PeerLabel)}
    (hpeers : PeersStep options ps qs executed) {index peer : ℕ} {side : Side}
    (hmoved : ∀ l, moved = some (index, side, l) ↔ executed = some (peer, l))
    (hend : (before index).peer side = (ps[peer]?).getD (Peer.init options)) :
    (after index).peer side = (qs[peer]?).getD (Peer.init options) := by
  obtain ⟨hmoves, hstays⟩ := h.peer index side
  rcases hpeers.getD peer with ⟨l, p, q, hexecuted, hp, hq, hafter⟩ | ⟨hnot, hsame⟩
  · have hlink := hmoves l ((hmoved l).mpr hexecuted)
    rw [hend, hp, Option.getD_some, hq] at hlink
    rw [hafter, Option.getD_some]
    exact (Option.some.inj hlink).symm
  · rw [hstays fun l hsome => hnot l ((hmoved l).mp hsome), hend, hsame]

end

/-- The client moves its ends of the links. -/
theorem moves_client {label : ClientLabel} {index : ℕ} {side : Side} {l : PeerLabel} :
    n.moves accepted (.client label) = some (index, side, l) ↔
      side = .client ∧ n.client.executes label = some (index, l) := by
  rw [moves, Option.map_eq_some_iff]
  constructor
  · rintro ⟨⟨peer, l'⟩, hexecutes, heq⟩
    obtain ⟨rfl, rfl, rfl⟩ := heq
    exact ⟨rfl, hexecutes⟩
  · rintro ⟨rfl, hexecutes⟩
    exact ⟨(index, l), hexecutes, rfl⟩

/-- The server moves the ends of the peers that were accepted. -/
theorem moves_server {label : ServerLabel} {index : ℕ} {side : Side} {l : PeerLabel} :
    n.moves accepted (.server label) = some (index, side, l) ↔ side = .server ∧
      ∃ peer, accepted peer = some index ∧ n.server.executes label = some (peer, l) := by
  rw [moves, Option.bind_eq_some_iff]
  constructor
  · rintro ⟨⟨peer, l'⟩, hexecutes, hsome⟩
    obtain ⟨other, haccepted, heq⟩ := Option.map_eq_some_iff.mp hsome
    obtain ⟨rfl, rfl, rfl⟩ := heq
    exact ⟨rfl, peer, haccepted, hexecutes⟩
  · rintro ⟨rfl, peer, haccepted, hexecutes⟩
    exact ⟨(peer, l), hexecutes, Option.map_eq_some_iff.mpr ⟨index, haccepted, rfl⟩⟩

/-! ## The invariant -/

/-- The invariant of all runs. -/
structure Inv (accepted : ℕ → Option ℕ) (clientOptions : ClientOptions)
    (serverOptions : ServerOptions) (labels : List NetworkLabel) (issued : List (ℕ × Bytes))
    (n : Network) : Prop where
  /-- the client takes its steps -/
  client : Transition.run Client.step (Client.init clientOptions) (clientLabels labels) =
    some n.client
  /-- the server takes its steps -/
  server : Transition.run Server.step (Server.init serverOptions) (serverLabels labels) =
    some n.server
  /-- the client keeps its options -/
  clientKeeps : n.client.options = clientOptions
  /-- and so does the server -/
  serverKeeps : n.server.options = serverOptions
  /-- what the client has queued has an origin -/
  clientOrigin : n.client.Origin (clientLabels labels) issued
  /-- and so has what the server has queued -/
  serverOrigin : n.server.Origin (serverLabels labels)
  /-- the peers of the client are ends of the links -/
  clientPeer : ∀ index, (n.links index).peer .client =
    (n.client.peers[index]?).getD (Peer.init clientOptions.common)
  /-- and so are the peers of the server that were accepted for them -/
  serverPeer : ∀ peer index, accepted peer = some index → (n.links index).peer .server =
    (n.server.allPeers[peer]?).getD (Peer.init serverOptions.common)
  /-- what goes over the links has an origin -/
  links : ∀ index, ∃ history, Transition.run Link.step
      (Link.init (sideOptions clientOptions.common serverOptions.common)) history =
        some (n.links index) ∧
    LinkOrigin accepted issued (serverLabels labels) n.server.peers index history

variable {clientOptions : ClientOptions} {serverOptions : ServerOptions}
  {labels : List NetworkLabel}

/-- No connection was used. -/
theorem Inv.init (accepted : ℕ → Option ℕ) (clientOptions : ClientOptions)
    (serverOptions : ServerOptions) :
    Inv accepted clientOptions serverOptions [] [] (init clientOptions serverOptions) where
  client := rfl
  server := rfl
  clientKeeps := rfl
  serverKeeps := rfl
  clientOrigin := Client.Origin.init clientOptions
  serverOrigin := Server.Origin.init serverOptions
  clientPeer _ := rfl
  serverPeer _ _ _ := rfl
  links _ := ⟨[], rfl, fun _ _ hmem => absurd hmem List.not_mem_nil,
    fun _ _ hmem => absurd hmem List.not_mem_nil⟩

theorem clientLabels_concat (labels : List NetworkLabel) (label : NetworkLabel) :
    clientLabels (labels ++ [label]) = clientLabels labels ++ label.client?.toList := by
  rw [clientLabels, List.filterMap_append, List.filterMap_cons]
  cases label.client? <;> rfl

theorem serverLabels_concat (labels : List NetworkLabel) (label : NetworkLabel) :
    serverLabels (labels ++ [label]) = serverLabels labels ++ label.server?.toList := by
  rw [serverLabels, List.filterMap_append, List.filterMap_cons]
  cases label.server? <;> rfl

/-- A step of the client. It may issue requests. -/
theorem Inv.stepClient (h : Inv accepted clientOptions serverOptions labels issued n)
    {label : ClientLabel}
    (hbound : ((clientLabels labels).filterMap ClientLabel.callback?).length < 2 ^ 64)
    (hstep : n.step accepted (.client label) = some m) :
    ∃ new, Inv accepted clientOptions serverOptions (labels ++ [.client label])
      (issued ++ new) m := by
  obtain ⟨hprograms, hlinks⟩ := step_eq_some hstep
  obtain ⟨client, hclient, heq⟩ := Option.map_eq_some_iff.mp hprograms
  obtain ⟨rfl, hserver⟩ := Prod.mk.inj heq
  have hclientLabels : clientLabels (labels ++ [.client label]) = clientLabels labels ++ [label] :=
    clientLabels_concat labels _
  have hserverLabels : serverLabels (labels ++ [.client label]) = serverLabels labels :=
    (serverLabels_concat labels _).trans (List.append_nil _)
  have hinv := (Client.inv_of_run clientOptions _ h.client).2
  have hrequests := Client.requestInv_of_run clientOptions _ h.client hbound
  obtain ⟨new, horigin⟩ := h.clientOrigin.step hinv
    (Nat.lt_of_le_of_lt hrequests.bound hbound) hclient
  obtain ⟨hpeers, hoptions⟩ := Client.peersStep hclient
  rw [h.clientKeeps] at hpeers
  refine ⟨new, ?_, ?_, hoptions.trans h.clientKeeps, ?_, ?_, ?_, fun index => ?_,
    fun peer index haccepted => ?_, fun index => ?_⟩
  · rw [hclientLabels, Transition.run_concat h.client]
    exact hclient
  · rw [hserverLabels, ← hserver]
    exact h.server
  · rw [← hserver]
    exact h.serverKeeps
  · rw [hclientLabels]
    exact horigin
  · rw [hserverLabels, ← hserver]
    exact h.serverOrigin
  · exact hlinks.getD hpeers (fun l => moves_client.trans (and_iff_right rfl))
      (h.clientPeer index)
  · rw [(hlinks.peer index .server).2 fun l hmoved => Side.noConfusion (moves_client.mp hmoved).1,
      ← hserver]
    exact h.serverPeer peer index haccepted
  · obtain ⟨history, hrun, hhistory⟩ := h.links index
    have hgrown := hhistory.grows new (List.Subset.refl _) (Grows.refl _).keepsKinds
    rw [hserverLabels, ← hserver]
    rcases hlinks.history _ hrun with hsame | ⟨⟨side, l⟩, hmoved, hrun'⟩
    · exact ⟨history, hsame ▸ hrun, hgrown⟩
    · obtain ⟨rfl, hexecutes⟩ := moves_client.mp hmoved
      refine ⟨_, hrun', hgrown.concat .client ?_ fun _ _ hside => Side.noConfusion hside⟩
      rintro requestId data - rfl
      obtain ⟨callback, hissued⟩ := h.clientOrigin.ioCtx _ (mem_of_clientExecutes hclient hexecutes)
      exact ⟨callback, hissued.append new⟩

/-- A step of the server. -/
theorem Inv.stepServer (h : Inv accepted clientOptions serverOptions labels issued n)
    (hinjective : ∀ peer peer' index, accepted peer = some index →
      accepted peer' = some index → peer = peer')
    {label : ServerLabel} (hstep : n.step accepted (.server label) = some m) :
    Inv accepted clientOptions serverOptions (labels ++ [.server label]) issued m := by
  obtain ⟨hprograms, hlinks⟩ := step_eq_some hstep
  obtain ⟨server, hserver, heq⟩ := Option.map_eq_some_iff.mp hprograms
  obtain ⟨hclient, rfl⟩ := Prod.mk.inj heq
  have hclientLabels : clientLabels (labels ++ [.server label]) = clientLabels labels :=
    (clientLabels_concat labels _).trans (List.append_nil _)
  have hserverLabels : serverLabels (labels ++ [.server label]) = serverLabels labels ++ [label] :=
    serverLabels_concat labels _
  have horigin := h.serverOrigin.step (Server.eventInv_of_run serverOptions _ h.server) hserver
  obtain ⟨hpeers, hkinds, hoptions⟩ := Server.peersStep hserver
  rw [h.serverKeeps] at hpeers
  refine ⟨?_, ?_, ?_, hoptions.trans h.serverKeeps, ?_, ?_, fun index => ?_,
    fun peer index haccepted => ?_, fun index => ?_⟩
  · rw [hclientLabels, ← hclient]
    exact h.client
  · rw [hserverLabels, Transition.run_concat h.server]
    exact hserver
  · rw [← hclient]
    exact h.clientKeeps
  · rw [hclientLabels, ← hclient]
    exact h.clientOrigin
  · rw [hserverLabels]
    exact horigin
  · rw [(hlinks.peer index .client).2 fun l hmoved => Side.noConfusion (moves_server.mp hmoved).1,
      ← hclient]
    exact h.clientPeer index
  · refine hlinks.getD hpeers (fun l => moves_server.trans ⟨?_, ?_⟩)
      (h.serverPeer peer index haccepted)
    · rintro ⟨-, other, hother, hexecutes⟩
      rw [hinjective peer other index haccepted hother]
      exact hexecutes
    · exact fun hexecutes => ⟨rfl, peer, haccepted, hexecutes⟩
  · obtain ⟨history, hrun, hhistory⟩ := h.links index
    have hgrown := hhistory.grows [] (List.subset_append_left _ [label]) hkinds
    rw [List.append_nil] at hgrown
    rw [hserverLabels]
    rcases hlinks.history _ hrun with hsame | ⟨⟨side, l⟩, hmoved, hrun'⟩
    · exact ⟨history, hsame ▸ hrun, hgrown⟩
    · obtain ⟨rfl, peer, haccepted, hexecutes⟩ := moves_server.mp hmoved
      refine ⟨_, hrun', hgrown.concat .server (fun _ _ hside => Side.noConfusion hside) ?_⟩
      rintro requestId data - rfl
      have hresponds : Responds (serverLabels labels) n.server.peers peer requestId data :=
        h.serverOrigin.ioCtx _ (mem_of_serverExecutes hserver hexecutes)
      exact ⟨peer, haccepted, hresponds.keepsKinds (List.subset_append_left _ _) hkinds⟩

/-! ## Every run -/

/-- Every run keeps the invariant. -/
theorem inv_of_run (accepted : ℕ → Option ℕ)
    (hinjective : ∀ peer peer' index, accepted peer = some index →
      accepted peer' = some index → peer = peer')
    (clientOptions : ClientOptions) (serverOptions : ServerOptions) (labels : List NetworkLabel)
    (h : Transition.run (step accepted) (init clientOptions serverOptions) labels = some n)
    (hbound : ((clientLabels labels).filterMap ClientLabel.callback?).length < 2 ^ 64) :
    ∃ issued, Inv accepted clientOptions serverOptions labels issued n := by
  refine Transition.run_history
    (P := fun labels n => ((clientLabels labels).filterMap ClientLabel.callback?).length < 2 ^ 64 →
      ∃ issued, Inv accepted clientOptions serverOptions labels issued n)
    (fun _ => ⟨[], Inv.init accepted clientOptions serverOptions⟩) ?_ h hbound
  intro labels n label m hn hstep hlength
  rw [clientLabels_concat, List.filterMap_append, List.length_append] at hlength
  have hbefore := Nat.lt_of_le_of_lt (Nat.le_add_right _ _) hlength
  obtain ⟨issued, hinv⟩ := hn hbefore
  cases label with
  | client label =>
    obtain ⟨new, hnew⟩ := hinv.stepClient hbefore hstep
    exact ⟨issued ++ new, hnew⟩
  | server label => exact ⟨issued, hinv.stepServer hinjective hstep⟩

/-- What one end of a link has raised, the other was asked to send. -/
theorem sent_of_signal {options : Side → CommonOptions} {history : List (Side × PeerLabel)}
    {s : Link} (hrun : Transition.run Link.step (Link.init options) history = some s) (side : Side)
    {signal : Signal} {message : Message} (hsignal : signal ∈ (s.peer side.other).signals)
    (hmessage : signal.message? = some message) : message ∈ Link.sent side history := by
  have hdelivered : message ∈ (s.peer side.other).delivered :=
    List.mem_filterMap.mpr ⟨signal, hsignal, hmessage⟩
  exact List.mem_of_mem_filter ((delivered_of_sent options history hrun side).subset hdelivered)

/-- A request that the server's program is told of, by a peer of the client, was issued. -/
theorem Inv.request (h : Inv accepted clientOptions serverOptions labels issued n)
    {peer index id : ℕ} {p : Peer} (haccepted : accepted peer = some index)
    (hp : n.server.peers[peer]? = some (.accepted id, p)) {requestId : UInt64} {buffer : Bytes}
    (hevent : .requestReceived id requestId buffer ∈ n.server.events) :
    ∃ callback, Issued issued requestId callback buffer := by
  obtain ⟨peer', p', hp', hsignal⟩ := h.serverOrigin.events _ hevent
  have hinv := Server.eventInv_of_run serverOptions _ h.server
  obtain rfl := hinv.unique peer peer' id p p' hp hp'
  obtain ⟨history, hrun, hhistory⟩ := h.links index
  have hend : (n.links index).peer Side.client.other = p' := by
    have hget : n.server.allPeers[peer]? = some p' := by
      rw [Server.allPeers, List.getElem?_map, hp']
      rfl
    exact (h.serverPeer peer index haccepted).trans (congrArg (Option.getD · _) hget)
  exact hhistory.request requestId buffer
    (sent_of_signal hrun .client (hend ▸ hsignal) rfl)

/-- A response that a peer of the client has raised was given by the server's program, for the peer
at the other end. -/
theorem Inv.response (h : Inv accepted clientOptions serverOptions labels issued n) {index : ℕ}
    {requestId : UInt64} {response : Bytes}
    (hraised : RaisedBy n.client.peers index (.responseReceived requestId response)) :
    ∃ peer, accepted peer = some index ∧
      Responds (serverLabels labels) n.server.peers peer requestId response := by
  obtain ⟨p, hp, hsignal⟩ := hraised
  obtain ⟨history, hrun, hhistory⟩ := h.links index
  have hend : (n.links index).peer Side.server.other = p :=
    (h.clientPeer index).trans (congrArg (Option.getD · _) hp)
  exact hhistory.response requestId response
    (sent_of_signal hrun .server (hend ▸ hsignal) rfl)

/-- In every run of a client and a server, whatever the order of their threads, the sockets, the
timers, and other clients do, and as long as the ids of the requests do not wrap around: what the
server's program is told of as a request of a peer of the client, the client's program has
requested. And if a callback is called with a response, then the server's program has given this
response to the request with this callback: under an id under which it was told of nothing but the
data of this request. -/
theorem responses_answer_requests (accepted : ℕ → Option ℕ)
    (hinjective : ∀ peer peer' index, accepted peer = some index →
      accepted peer' = some index → peer = peer')
    (clientOptions : ClientOptions) (serverOptions : ServerOptions) (labels : List NetworkLabel)
    (h : Transition.run (step accepted) (init clientOptions serverOptions) labels = some n)
    (hbound : ((clientLabels labels).filterMap ClientLabel.callback?).length < 2 ^ 64) :
    (∀ peer index id p requestId buffer, accepted peer = some index →
      n.server.peers[peer]? = some (.accepted id, p) →
      .requestReceived id requestId buffer ∈ n.server.events →
      ∃ callback, .client (.asyncRequest buffer callback) ∈ labels) ∧
    (∀ completion response, .callback completion ∈ n.client.events →
      completion.data = some response → ∃ id requestId data,
        .client (.asyncRequest data completion.callback) ∈ labels ∧
        .server (.asyncRespond id requestId response) ∈ labels ∧
        ∀ buffer, .requestReceived id requestId buffer ∈ n.server.events → buffer = data) := by
  obtain ⟨issued, hinv⟩ :=
    inv_of_run accepted hinjective clientOptions serverOptions labels h hbound
  have hasked : ∀ {requestId callback data}, Issued issued requestId callback data →
      .client (.asyncRequest data callback) ∈ labels := fun hissued =>
    mem_clientLabels.mp (hinv.clientOrigin.asked _ hissued.mem)
  constructor
  · intro peer index id p requestId buffer haccepted hp hevent
    obtain ⟨callback, hissued⟩ := hinv.request haccepted hp hevent
    exact ⟨callback, hasked hissued⟩
  · intro completion response hevent hdata
    obtain ⟨index, requestId, data, hraised, hissued⟩ :=
      hinv.clientOrigin.events _ hevent response hdata
    obtain ⟨peer, haccepted, id, p, hp, hresponded⟩ := hinv.response hraised
    refine ⟨id, requestId, data, hasked hissued, mem_serverLabels.mp hresponded, ?_⟩
    intro buffer hreceived
    obtain ⟨callback, hissued'⟩ := hinv.request haccepted hp hreceived
    exact (hissued'.unique hissued).2

/-- The client requests `0x7`, and the server's program responds with `0x9`. -/
def requestAndResponse : List NetworkLabel :=
  [.server .asyncStart, .server (.dispatch true), .server (.io none), .client .asyncStart,
    .client (.dispatch true), .client .io, .client (.connectDone 0 none), .client (.dispatch true),
    .client .io, .client .io, .client .io, .client (.dispatch true), .server (.acceptDone 0 none),
    .server (.io none), .client (.asyncRequest [7] 5), .client .io, .client .io,
    .client (.peer 0 (.writeSome 14)), .client (.peer 0 (.writeDone none)),
    .server (.peer 0 (.readDone none [0, 0, 0, 10])),
    .server (.peer 0 (.readDone none [4, 0, 0, 0, 0, 0, 0, 0, 1, 7])), .server (.dispatch true),
    .server (.dispatch true), .server (.dispatch true), .server (.dispatch true),
    .server (.dispatch true), .server (.dispatch true), .server (.asyncRespond 1 1 [9]),
    .server (.io none), .server (.io none), .server (.peer 0 (.writeSome 14)),
    .server (.peer 0 (.writeDone none)), .client (.peer 0 (.readDone none [0, 0, 0, 10])),
    .client (.peer 0 (.readDone none [5, 0, 0, 0, 0, 0, 0, 0, 1, 9])), .client (.dispatch true),
    .client (.dispatch true), .client .io, .client (.dispatch true)]

/-- The callback was called with the response to its request. -/
theorem responses_answer_requests_answered :
    ∃ n, Transition.run (step some) (init ⟨⟨1024, 1024⟩, true⟩ ⟨⟨1024, 1024⟩, true⟩)
        requestAndResponse = some n ∧
      (∃ callback, .client (.asyncRequest [7] callback) ∈ requestAndResponse) ∧
      ∃ id requestId data, .client (.asyncRequest data 5) ∈ requestAndResponse ∧
        .server (.asyncRespond id requestId [9]) ∈ requestAndResponse ∧
        ∀ buffer, .requestReceived id requestId buffer ∈ n.server.events → buffer = data := by
  obtain ⟨n, hrun, hpeer, hserver, hclient⟩ : ∃ n, Transition.run (step some)
        (init ⟨⟨1024, 1024⟩, true⟩ ⟨⟨1024, 1024⟩, true⟩) requestAndResponse = some n ∧
      (n.server.peers[0]?).map Prod.fst = some (.accepted 1) ∧
      n.server.events = [.bound, .peerConnected 1, .requestReceived 1 1 [7]] ∧
      n.client.events = [.connected, .callback ⟨5, none, some [9]⟩] :=
    ⟨_, rfl, rfl, rfl, rfl⟩
  obtain ⟨⟨kind, p⟩, hp, rfl⟩ := Option.map_eq_some_iff.mp hpeer
  have hresult := responses_answer_requests some
    (fun peer peer' index h h' => (Option.some.inj h).trans (Option.some.inj h').symm)
    ⟨⟨1024, 1024⟩, true⟩ ⟨⟨1024, 1024⟩, true⟩ requestAndResponse hrun (by decide)
  exact ⟨n, hrun, hresult.1 0 0 1 p 1 [7] rfl hp (by simp [hserver]),
    hresult.2 ⟨5, none, some [9]⟩ [9] (by simp [hclient]) rfl⟩

end Network

end VirtualHidDevice.UnixDomainStream
