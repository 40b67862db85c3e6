import MessageRouting.System.Progress

/-!
A node comes back: whatever calls failed and whatever connections broke, a node can connect
again, and the router finds it under its id, if `select` can watch one more client.

* `Online`: the node and the router are connected, and the registry leads from the id of
  the node to its connection.
* `exists_connect_run`: from everywhere in `Node::start` the node can come back to
  `connect_to_server`; `exists_subscribe_run`: then it connects and sends its id message.
* `exists_announce_run`: the router accepts the connection and takes the id message.
* `node_comes_back`: all of it, from every state that the system can reach.
-/

namespace MessageRouting

open Node (buildIdMessage)

variable {N T : Type} {cfg : N → Node} {w w' : World N T} {c : ℕ} {x : Connection N}
  {tr : List (WorldEvent N T)}

/-- The connection that the node uses is up and accepted, and is the one that the registry
has for the id of the node. -/
def Online (cfg : N → Node) (w : World N T) (n : N) : Prop :=
  (w.nodes n).place.Subscribed ∧ ∃ (x : Connection N) (s : ℤ) (a : Addr),
    w.conns[(w.nodes n).socket]? = some x ∧ x.node = n ∧ x.up = true ∧ x.socket = some s ∧
      w.router.shared.sessions.findSessionBySocket s = some a ∧
      w.router.shared.sessions.findSessionById (cfg n).id = some a ∧
      w.router.shared.sessions.getId (some a) = (cfg n).id

/-- How far the node is from `connect_to_server` when every call fails. -/
def Node.Place.retreat : Node.Place → ℕ
  | .send _ retry => 3 - retry + 2
  | .receive => 2
  | .close => 1
  | _ => 0

lemma Node.retreat_afterSend (node : Node) (p : Node.Purpose) (retry : ℕ) :
    (node.afterSend p retry (-1)).retreat < (Node.Place.send p retry).retreat := by
  have hneg : ¬ (0 : ℤ) < -1 := by omega
  rw [afterSend, if_neg hneg]
  split_ifs with hretry
  · simp only [Place.retreat, maxRetry] at hretry ⊢
    omega
  · cases p <;> simp [afterFailed, Place.retreat]

variable [DecidableEq N] [DecidableEq T] [Fintype N] [Fintype T]

omit [Fintype N] [Fintype T] in
/-- A step of a node leaves the router alone. -/
lemma router_of_nodeStep {n : N} {e : Node.Event} (h : (network T cfg).step w (.node n e) w') :
    w'.router = w.router := by
  obtain ⟨act, h⟩ := h
  cases act with
  | thread i o =>
      obtain ⟨inp, e', pc', sh', -, -, hlabel, -⟩ := thread_step h
      cases hlabel
  | accept s c =>
      simp only [World.step, Option.ite_none_right_eq_some, Option.map_eq_some_iff,
        Prod.mk.injEq, reduceCtorEq, false_and, and_false, exists_false] at h
  | readable s =>
      simp only [World.step, Option.map_eq_some_iff, Prod.mk.injEq, reduceCtorEq, false_and,
        and_false, exists_false] at h
  | node m o =>
      simp only [World.step, Option.bind_eq_some_iff, Option.map_eq_some_iff, Prod.mk.injEq] at h
      obtain ⟨inp, -, r, -, -, rfl⟩ := h
      exact observeNode_router m r.1
  | cut c k l => cases h

/-- **A node can always come back** to `connect_to_server`. -/
lemma exists_connect_run (hr : Ranged cfg) (h : (network T cfg).Reaches tr w) (n : N)
    (serverSocket : ℤ) :
    ∃ tr' w', ((network T cfg).restrict (World.Selects serverSocket)).Run w tr' w' ∧
      (w'.nodes n).place = .connect ∧ w'.router = w.router := by
  have hretreat : ∃ tr' w',
      ((network T cfg).restrict fun _ e => ∃ e', e = .node n e').Run w tr' w' ∧
        (w'.nodes n).place = .connect := by
    refine Lts.exists_run_to (fun w => (w.nodes n).place.retreat)
      (fun w => ∃ tr, (network T cfg).Reaches tr w) (fun w => (w.nodes n).place = .connect) ?_ ?_
      ⟨tr, h⟩
    · rintro u e v ⟨tr, hu⟩ hs
      exact ⟨_, hu.append (.single hs.1)⟩
    · rintro u ⟨tr, hu⟩ hpl
      -- a step of the node on the failure of the call that it makes
      have hfail : ∀ o inp e pl, u.nodeInput cfg n o = some inp →
          (cfg n).next (u.nodes n) inp = some (e, { u.nodes n with place := pl }) →
          pl.retreat < (u.nodes n).place.retreat →
          ∃ e v, ((network T cfg).restrict fun _ e => ∃ e', e = .node n e').step u e v ∧
            (v.nodes n).place.retreat < (u.nodes n).place.retreat := by
        intro o inp e pl ho hn hlt
        refine ⟨_, _, ⟨node_step ho hn, e, rfl⟩, ?_⟩
        simp only [Function.update_self]
        exact hlt
      cases hplace : (u.nodes n).place with
      | connect => exact absurd hplace hpl
      | stopped => exact absurd hplace ((network_refines hr hu).1.running n)
      | send p retry =>
          rw [← hplace]
          refine hfail (.sent false) (.sent (-1)) (.sent p (-1)) ((cfg n).afterSend p retry (-1))
            ?_ ?_ ?_
          · simp [World.nodeInput, hplace]
          · rw [Node.next_sent]
            exact ⟨p, retry, hplace, rfl, rfl⟩
          · rw [hplace]
            exact (cfg n).retreat_afterSend p retry
      | receive =>
          rw [← hplace]
          refine hfail .failed (.recv .error) (.received .error) .close rfl ?_ ?_
          · rw [Node.next_recv]
            exact ⟨hplace, rfl, rfl⟩
          · rw [hplace]
            exact Nat.lt_succ_self 1
      | close =>
          rw [← hplace]
          refine hfail .go .go .closed .connect rfl ?_ ?_
          · rw [Node.next_go]
            exact ⟨hplace, rfl, rfl⟩
          · rw [hplace]
            exact Nat.zero_lt_one
  obtain ⟨tr', w', hrun, hpl⟩ := hretreat
  refine ⟨tr', w', ?_, hpl, ?_⟩
  · refine hrun.mono ?_
    rintro u e v ⟨hs, e', rfl⟩
    exact ⟨hs, trivial⟩
  · refine hrun.invariant (fun w' => w'.router = w.router) rfl ?_
    rintro u e v heq ⟨hs, e', rfl⟩
    exact (router_of_nodeStep hs).trans heq

/-- A node connects and sends its id message. -/
lemma exists_subscribe_run (hr : Ranged cfg) (h : (network T cfg).Reaches tr w) {n : N}
    (hpl : (w.nodes n).place = .connect) (serverSocket : ℤ) :
    ∃ tr' w' x, ((network T cfg).restrict (World.Selects serverSocket)).Run w tr' w' ∧
      w'.router = w.router ∧
      (w'.nodes n).place.Subscribed ∧ w'.conns[(w'.nodes n).socket]? = some x ∧ x.node = n ∧
      x.up = true ∧ x.socket = none ∧ x.toRouter = [.idMessage (buildIdMessage (cfg n).id)] := by
  have hconnect : (network T cfg).step w (.node n (.connected w.conns.length)) { w with
      conns := w.conns ++ [.new n]
      nodes := Function.update w.nodes n ⟨.send .subscribe 0, w.conns.length⟩ } :=
    node_step (o := .connected) rfl (Node.next_connected.mpr ⟨hpl, rfl, rfl⟩)
  obtain ⟨e, m, hsend⟩ := exists_send_step hr (h.append (.single hconnect)) (n := n)
    (p := .subscribe) (k := 0) (by simp only [Function.update_self])
  have hconnect' : ((network T cfg).restrict (World.Selects serverSocket)).step w _ _ :=
    ⟨hconnect, trivial⟩
  have hsend' : ((network T cfg).restrict (World.Selects serverSocket)).step _ _ _ :=
    ⟨hsend.1, trivial⟩
  refine ⟨_, _, (Connection.new n).sendToRouter (.idMessage (buildIdMessage (cfg n).id)),
    (Lts.Run.single hconnect').snoc hsend', rfl, ?_, ?_, rfl, rfl, rfl, rfl⟩
  · simp only [Function.update_self]
    exact (cfg n).afterSent_subscribed .subscribe
  · simp only [Function.update_self]
    rw [List.getElem?_modify]
    simp [World.packet, Node.message]

/-- The router accepts a connection and takes the id message from it. -/
lemma exists_announce_run (hr : Ranged cfg) (h : (network T cfg).Reaches tr w)
    (hm : Manned w.router) {serverSocket : ℤ} (hserver : serverSocket ∉ w.router.shared.opened)
    (hroom : w.router.shared.sessions.acceptedClients.length + 1 < fdSetSize)
    (hrest : AtRest w.router) (hx : w.conns[c]? = some x) (hsocket : x.socket = none)
    (hch : x.toRouter = [.idMessage (buildIdMessage (cfg x.node).id)]) :
    ∃ tr' w' y s a, (selectNetwork T cfg serverSocket).Run w tr' w' ∧ w'.nodes = w.nodes ∧
      w'.conns[c]? = some y ∧
      y.node = x.node ∧ y.up = x.up ∧ y.socket = some s ∧
      w'.router.shared.sessions.findSessionBySocket s = some a ∧
      w'.router.shared.sessions.findSessionById (cfg x.node).id = some a ∧
      w'.router.shared.sessions.getId (some a) = (cfg x.node).id := by
  obtain ⟨s, S, hS, haccept⟩ := exists_accept_step h hx hsocket serverSocket
  obtain ⟨-, hbySocket, -, -, hheap⟩ := Sessions.acceptClient_spec hS
  obtain ⟨a, ha⟩ : ∃ a, a = w.router.shared.sessions.heap.length := ⟨_, rfl⟩
  have hreg : S.sessionsBySocket s = some (some a) := by
    rw [hbySocket, Function.update_self, ha]
  have hnew : S.heap[a]? = some (Session.new s) := by simp [hheap, ha]
  have hx' : (w.conns.modify c fun x => { x with socket := some s })[c]? =
      some { x with socket := some s } := by simp [hx]
  -- with the new client there is still room in the set
  have h₁ := h.append (.single haccept.1.1)
  obtain ⟨hst, -⟩ := standing_of_reaches (router_reaches h)
  obtain ⟨hst₁, -⟩ := standing_of_reaches (router_reaches h₁)
  have hclients := hst.consistent.listed.acceptedClients_acceptClient hS
  have hsel : World.Selects serverSocket _ (.router (.readable s)) :=
    selects_readable hst₁ (not_opened_of_run hserver (.single haccept))
      ((hst₁.consistent.mem_accepted s).mpr (by rw [hreg]; exact Option.some_ne_none _))
      (by rw [hclients, List.length_append]; exact hroom)
  obtain ⟨tr', i, st, k, g, hrun, -, hsessions, htaken⟩ :=
    exists_take_run hr h₁ hm hrest hx' rfl hsel hreg hch
  obtain ⟨-, hpc⟩ : _ ∧ st.loc i = .addNode s a a (buildIdMessage (cfg x.node).id) := by
    rcases htaken with htaken | ⟨f, hf, -⟩
    · exact htaken
    · cases hf
  have hsessions' : st.shared.sessions = S := hsessions
  have hadd : (router T).step st (.thread i .go) = some
      (.added i s (announcedId (buildIdMessage (cfg x.node).id)),
        ⟨{ st.shared with sessions := S.addNode s (cfg x.node).id },
          Function.update st.loc i (.turn s a a)⟩) := by
    simp [Program.step, router, next, hpc, hsessions', hr.announcedId]
  have hrange : (cfg x.node).id < maxClientsCount := by
    have hid := (hr x.node).1.2
    simp only [maxClientsCount]
    omega
  refine ⟨_, _, { x with socket := some s, toRouter := dropBytes k x.toRouter }, s, a,
    ((Lts.Run.single haccept).append hrun).snoc
      ⟨faultless_step (o := .go) rfl hadd rfl, trivial⟩, rfl, ?_, rfl, rfl, rfl, ?_, ?_, ?_⟩
  · simp [hx', World.observe]
  · rw [Sessions.findSessionBySocket_eq_some, Sessions.addNode_sessionsBySocket, hreg]
  · rw [Sessions.findSessionById_eq_some, Sessions.addNode_sessionsById hreg hrange,
      Function.update_self]
  · refine Sessions.getId_of_heap (x := { Session.new s with id := (cfg x.node).id }) ?_
    rw [Sessions.addNode_heap hreg hrange, if_pos rfl, hnew, Option.map_some]

omit [Fintype N] [Fintype T] in
/-- A run without a failure is a run of the system. -/
lemma restrict_of_select {serverSocket : ℤ} (h : (selectNetwork T cfg serverSocket).Run w tr w') :
    ((network T cfg).restrict (World.Selects serverSocket)).Run w tr w' := by
  refine h.mono ?_
  rintro u e v ⟨⟨hs, -⟩, hsel⟩
  exact ⟨hs, hsel⟩

/-- **A node comes back.** From every state that the nodes and a router with a reader and a
writer can reach, in whatever interleaving, whatever calls have failed and whatever
connections are broken, there is a run after which the node is connected, its id message is
sent, and the router has the session of its connection under its id. At the beginning the router
has at most 62 clients, so that there is room for the server socket and one more in the set of
`select`, and in the run the event loop reports only clients that are in the set, and `accept`
does not return the server socket, which was not returned before either. The nodes have ids up to
998 and destinations up to 999 (`Ranged`), and a `recv` takes whole packets (`recvFrom`). -/
theorem node_comes_back (hr : Ranged cfg) (h : (network T cfg).Reaches tr w)
    (hm : Manned w.router) {serverSocket : ℤ} (hserver : serverSocket ∉ w.router.shared.opened)
    (hroom : w.router.shared.sessions.acceptedClients.length + 1 < fdSetSize) (n : N) :
    ∃ tr' w', ((network T cfg).restrict (World.Selects serverSocket)).Run w tr' w' ∧
      Online cfg w' n := by
  obtain ⟨tr₁, w₁, hrun₁, hpl₁, hrouter₁⟩ := exists_connect_run hr h n serverSocket
  have hreach₁ := h.append hrun₁.of_restrict
  obtain ⟨tr₂, w₂, hrun₂, hrest, -, hnodes, hclients⟩ := exists_calm_run hr hreach₁ serverSocket
  have hreach₂ := hreach₁.append hrun₂.of_restrict.of_restrict
  obtain ⟨tr₃, w₃, x, hrun₃, hrouter, hsub, hx, hnode, hup, hsocket, hch⟩ :=
    exists_subscribe_run hr hreach₂ (n := n) (hnodes ▸ hpl₁) serverSocket
  have hm₂ : Manned w₂.router := (hm.run hrun₁.of_restrict).run hrun₂.of_restrict.of_restrict
  have hserver₂ := not_opened_of_run (hrouter₁ ▸ hserver) hrun₂
  have hroom₂ : w₂.router.shared.sessions.acceptedClients.length + 1 < fdSetSize := by
    refine lt_of_le_of_lt (Nat.succ_le_succ hclients.length_le) ?_
    rw [hrouter₁]
    exact hroom
  obtain ⟨tr₄, w₄, y, s, a, hrun₄, hnodes₄, hy, hynode, hyup, hys, hbySocket, hbyId, hid⟩ :=
    exists_announce_run hr (hreach₂.append hrun₃.of_restrict) (hrouter ▸ hm₂) (hrouter ▸ hserver₂)
      (hrouter ▸ hroom₂) (hrouter ▸ hrest) hx hsocket (hnode ▸ hch)
  refine ⟨_, w₄, ((hrun₁.append (restrict_of_select hrun₂)).append hrun₃).append
    (restrict_of_select hrun₄), ?_⟩
  subst hnode
  refine ⟨hnodes₄ ▸ hsub, y, s, a, ?_, hynode, hyup.trans hup, hys, hbySocket, hbyId, hid⟩
  rw [hnodes₄]
  exact hy

/-- The connection of node 5 breaks before the router has accepted it. -/
theorem node_comes_back_broken :
    ∃ tr, ∃ w : World (Fin 2) (Fin 2), (network (Fin 2) twoNodes).Reaches tr w ∧
      (∀ x ∈ w.conns, x.up = false) ∧
      ∃ tr' w', ((network (Fin 2) twoNodes).restrict (World.Selects 3)).Run w tr' w' ∧
        Online twoNodes w' 0 := by
  obtain ⟨tr, w, hreach, hdown, hserver, hroom, hread, hwrite⟩ : ∃ tr, ∃ w : World (Fin 2) (Fin 2),
      (network (Fin 2) twoNodes).Reaches tr w ∧ (∀ x ∈ w.conns, x.up = false) ∧
        3 ∉ w.router.shared.opened ∧
        w.router.shared.sessions.acceptedClients.length + 1 < fdSetSize ∧
        (w.router.loc 0).handler = .workerThreadRead ∧
        (w.router.loc 1).handler = .workerThreadWrite :=
    Lts.reaches_of_execute twoNodesStart [.node 0 .connected, .node 0 (.sent true), .cut 0 0 0]
      initial_twoNodesStart (by decide +kernel)
  exact ⟨tr, w, hreach, hdown, node_comes_back ranged_twoNodes hreach ⟨⟨0, hread⟩, 1, hwrite⟩
    hserver hroom 0⟩

end MessageRouting
