import MessageRouting.System.Progress

/-!
The ping-pong goes on: no interleaving brings the system, with a message in flight, to a
state from which the messages cannot come to the nodes any more.

* `Registered`: without a failure the router knows every client that it accepted. There are
  no more of them than nodes (`length_acceptedClients_le`), so with less than `FD_SETSIZE` nodes
  `select` watches them all, and a reader can take the next packet of any connection
  (`exists_read_run`).
* `exists_next_run`: at rest, with a message in flight, a reader or a node can go on, and
  the backlog gets smaller.
* `exists_arrival`: so from every reachable state with a message in flight a run leads to the
  step in which a node receives one, or the router finds no session for one;
  `ping_pong_goes_on`: and further on.
-/

namespace MessageRouting

variable {N T : Type} {cfg : N → Node} {w w' : World N T} {c : ℕ} {x : Connection N}
  {tr : List (WorldEvent N T)}

/-! ### What is left to do -/

/-- What a node still sends before it receives. A message in its hands counts twice, as it
has to be taken from the channel afterwards. -/
def Node.Place.pending : Node.Place → ℕ
  | .send .subscribe _ => 4
  | .send _ _ => 2
  | _ => 0

/-- What the readers still have to take, and the nodes still have to send. -/
def World.backlog [Fintype N] (w : World N T) : ℕ :=
  inbound w.conns + ∑ n, (w.nodes n).place.pending

lemma Node.pending_afterSent (node : Node) (p : Node.Purpose) (retry : ℕ) :
    (node.afterSent p).pending + 2 ≤ (Node.Place.send p retry).pending := by
  cases p with
  | subscribe =>
      rw [afterSent]
      split_ifs
      · exact le_rfl
      · exact Nat.le_of_ble_eq_true rfl
  | _ => exact le_rfl

variable [DecidableEq N] [DecidableEq T]

/-! ### Runs without a failure -/

/-- A node receives a message. -/
def WorldEvent.arrives : WorldEvent N T → Bool
  | .node _ (.received (.bytes _)) => true
  | _ => false

/-- First messages are only added. -/
lemma initiated_le (h : (faultlessNetwork T cfg).Run w tr w') : w.initiated ≤ w'.initiated := by
  refine h.invariant (fun w' => w.initiated ≤ w'.initiated) le_rfl ?_
  rintro u e v hle ⟨hs, -⟩
  refine hle.trans ?_
  cases move_of_step hs with
  | send _ _ =>
      show u.initiated ≤ if _ then u.initiated + 1 else u.initiated
      split_ifs
      · exact Nat.le_succ _
      · exact le_rfl
  | _ => exact le_rfl

variable [Fintype N] [Fintype T]

/-! ### A reader takes a packet -/

/-- The clients that were accepted are registered. -/
def Registered (w : World N T) : Prop :=
  ∀ x ∈ w.conns, ∀ s, x.socket = some s → w.router.shared.sessions.sessionsBySocket s ≠ none

omit [DecidableEq N] [DecidableEq T] [Fintype N] [Fintype T] in
lemma Registered.modify {f : Connection N → Connection N} (h : Registered w)
    (hconns : w'.conns = w.conns.modify c f) (hf : ∀ x, (f x).socket = x.socket)
    (hreg : w'.router.shared.sessions.sessionsBySocket =
      w.router.shared.sessions.sessionsBySocket) : Registered w' := by
  intro y hy s hs
  obtain ⟨d, hd⟩ := List.mem_iff_getElem?.mp hy
  rw [hconns, List.getElem?_modify] at hd
  obtain ⟨x, hx, rfl⟩ := Option.map_eq_some_iff.mp hd
  rw [hreg]
  refine h x (List.mem_of_getElem? hx) s ?_
  split_ifs at hs
  · rwa [hf] at hs
  · exact hs

/-- No client that was accepted is forgotten, as no session is removed. -/
lemma registered_of_reaches (hr : Ranged cfg) (h : (faultlessNetwork T cfg).Reaches tr w) :
    Registered w := by
  refine h.induct_reached (fun _ w => Registered w) ?_ ?_
  · intro w hw x hx
    rw [hw.2.1] at hx
    cases hx
  · rintro tr w e w' hreach ih ⟨hs, -⟩
    obtain ⟨-, hlive⟩ := account_of_reaches hr hreach
    cases move_of_step hs with
    | @quiet i e pc' sh' hstep _ =>
        intro x hx s hs
        show sh'.sessions.sessionsBySocket s ≠ none
        rw [hstep.bySocket_of_not_removing (hlive.kept i)]
        exact ih x hx s hs
    | recv _ _ _ _ _ => exact ih.modify rfl (fun _ => rfl) rfl
    | deliver _ _ =>
        refine ih.modify rfl (fun y => ?_) rfl
        rw [Connection.sendToNode]
        split_ifs
        · rfl
        · rfl
    | @accept t S c x hx _ _ hS =>
        intro y hy s hs
        obtain ⟨-, hbs, -⟩ := Sessions.acceptClient_spec hS
        show S.sessionsBySocket s ≠ none
        rw [hbs]
        by_cases hst : s = t
        · rw [hst, Function.update_self]
          exact Option.some_ne_none _
        · rw [Function.update_of_ne hst]
          obtain ⟨d, hd⟩ := List.mem_iff_getElem?.mp hy
          rw [List.getElem?_modify] at hd
          obtain ⟨z, hz, rfl⟩ := Option.map_eq_some_iff.mp hd
          split_ifs at hs
          · exact absurd (Option.some.inj hs).symm hst
          · exact ih z (List.mem_of_getElem? hz) s hs
    | connect _ =>
        intro y hy s hs
        rcases List.mem_append.mp hy with hy | hy
        · exact ih y hy s hs
        · rw [List.mem_singleton.mp hy] at hs
          cases hs
    | send _ _ =>
        refine ih.modify rfl (fun y => ?_) rfl
        rw [Connection.sendToRouter]
        split_ifs
        · rfl
        · rfl
    | answer _ _ _ => exact ih.modify rfl (fun _ => rfl) rfl
    | cut => exact ih.modify rfl (fun _ => rfl) rfl
    | _ => exact ih

/-- Without a failure a node has one client at most. -/
lemma length_acceptedClients_le (hr : Ranged cfg) (h : (faultlessNetwork T cfg).Reaches tr w) :
    w.router.shared.sessions.acceptedClients.length ≤ Fintype.card N := by
  obtain ⟨hst, -⟩ := standing_of_reaches (router_reaches h.of_restrict)
  obtain ⟨-, hlive⟩ := account_of_reaches hr h
  have hlinked := (network_refines hr h.of_restrict).1
  have hsockets : w.router.shared.sessions.acceptedClients ⊆
      w.conns.filterMap Connection.socket := by
    intro s hs
    obtain ⟨a, -, hsession⟩ := hst.exists_session ((hst.consistent.mem_accepted s).mp hs)
    obtain ⟨c, x, -, hx, hsocket⟩ := hlinked.behind_of_session hsession
    exact List.mem_filterMap.mpr ⟨x, List.mem_of_getElem? hx, hsocket⟩
  -- the only connection of a node is the one that it uses
  have hnodes : (w.conns.map Connection.node).Nodup := by
    rw [List.nodup_iff_getElem?_ne_getElem?]
    intro c d hcd hd heq
    rw [List.length_map] at hd
    have hy := List.getElem?_eq_getElem hd
    have hx := List.getElem?_eq_getElem (hcd.trans hd)
    rw [List.getElem?_map, List.getElem?_map, hx, hy] at heq
    have hc := (hlive.inUse c _ _ (ends_getElem? hx)).1
    have hd := (hlive.inUse d _ _ (ends_getElem? hy)).1
    rw [Option.some.inj heq] at hc
    exact hcd.ne (hc.symm.trans hd)
  calc w.router.shared.sessions.acceptedClients.length
      ≤ (w.conns.filterMap Connection.socket).length :=
        (hst.consistent.nodup.subperm hsockets).length_le
    _ ≤ w.conns.length := List.length_filterMap_le _ _
    _ = (w.conns.map Connection.node).length := (List.length_map _).symm
    _ ≤ Fintype.card N := hnodes.length_le_card

/-- With less than `FD_SETSIZE` nodes every client is watched. -/
lemma watches_of_reaches (hr : Ranged cfg) (h : (faultlessNetwork T cfg).Reaches tr w)
    (hN : Fintype.card N < fdSetSize) (hx : x ∈ w.conns) {s : ℤ} (hs : x.socket = some s)
    (serverSocket : ℤ) : w.Watches serverSocket s := by
  obtain ⟨hst, -⟩ := standing_of_reaches (router_reaches h.of_restrict)
  have hmem := (hst.consistent.mem_accepted s).mpr (registered_of_reaches hr h x hx s hs)
  exact watches_of_mem hst hmem ((length_acceptedClients_le hr h).trans_lt hN)

variable {serverSocket : ℤ}

omit [Fintype T] in
/-- A connection that waits for it is accepted. -/
lemma exists_accept_run (h : (faultlessNetwork T cfg).Reaches tr w) (hrest : AtRest w.router)
    (hx : w.conns[c]? = some x) (serverSocket : ℤ) :
    ∃ tr' w' s y, (selectNetwork T cfg serverSocket).Run w tr' w' ∧ AtRest w'.router ∧
      w'.conns[c]? = some y ∧ y.socket = some s ∧ y.toRouter = x.toRouter ∧
      w'.backlog = w.backlog := by
  cases hsocket : x.socket with
  | some s => exact ⟨[], w, s, x, .nil, hrest, hx, hsocket, rfl, rfl⟩
  | none =>
      obtain ⟨s, S, -, hstep⟩ := exists_accept_step h.of_restrict hx hsocket serverSocket
      refine ⟨_, _, s, { x with socket := some s }, .single hstep, hrest, ?_, rfl, rfl, ?_⟩
      · simp [hx]
      · exact congrArg (· + ∑ n, (w.nodes n).place.pending) (inbound_modify_of_eq fun _ => rfl)

/-- A reader takes the next packet of any connection. -/
lemma exists_read_run (hr : Ranged cfg) (h : (faultlessNetwork T cfg).Reaches tr w)
    (hm : Manned w.router) (hN : Fintype.card N < fdSetSize)
    (hserver : serverSocket ∉ w.router.shared.opened) (hrest : AtRest w.router)
    (hx : w.conns[c]? = some x) (hne : x.toRouter ≠ []) :
    ∃ tr' w', (selectNetwork T cfg serverSocket).Run w tr' w' ∧ w'.backlog < w.backlog := by
  obtain ⟨tr₁, w₁, s, y, hrun₁, hrest₁, hy, hs, htoRouter, hback⟩ :=
    exists_accept_run h hrest hx serverSocket
  have h₁ := h.append hrun₁.of_restrict
  obtain ⟨hst₁, -⟩ := standing_of_reaches (router_reaches h₁.of_restrict)
  have hknown := registered_of_reaches hr h₁ y (List.mem_of_getElem? hy) s hs
  obtain ⟨a, hreg, -⟩ := hst₁.exists_session hknown
  have hsel := selects_readable hst₁ (not_opened_of_run hserver hrun₁)
    ((hst₁.consistent.mem_accepted s).mpr hknown) ((length_acceptedClients_le hr h₁).trans_lt hN)
  obtain ⟨p, ps, hch⟩ := List.exists_cons_of_ne_nil (htoRouter ▸ hne)
  obtain ⟨tr₂, i, st, k, g, hrun₂, hdrop, -, -⟩ := exists_take_run hr h₁.of_restrict
    (hm.run hrun₁.of_restrict.of_restrict) hrest₁ hy hs hsel hreg hch
  refine ⟨_, _, hrun₁.append hrun₂, ?_⟩
  have hin := inbound_modify (fun x => { x with toRouter := dropBytes k x.toRouter }) hy
  simp only [hdrop] at hin
  rw [hch, List.length_cons] at hin
  simp only [World.backlog] at hback ⊢
  omega

/-- A node that has something to send sends it. -/
lemma exists_sent_run (hr : Ranged cfg) (h : (faultlessNetwork T cfg).Reaches tr w) {n : N}
    {p : Node.Purpose} {k : ℕ} (hpl : (w.nodes n).place = .send p k) :
    ∃ tr' w', (selectNetwork T cfg serverSocket).Run w tr' w' ∧ w'.backlog < w.backlog := by
  obtain ⟨e, m, hstep⟩ := exists_send_step hr h.of_restrict hpl
  refine ⟨_, _, .single ⟨hstep, trivial⟩, ?_⟩
  obtain ⟨o, ho⟩ := (network_refines hr h.of_restrict).1.nodes n (by rw [hpl]; trivial)
  rw [World.wires, List.getElem?_map] at ho
  obtain ⟨x, hx, -⟩ := Option.map_eq_some_iff.mp ho
  have hin := inbound_modify (fun x => x.sendToRouter (w.packet cfg n p)) hx
  have hsent : (x.sendToRouter (w.packet cfg n p)).toRouter.length ≤ x.toRouter.length + 1 := by
    rw [Connection.sendToRouter]
    split_ifs
    · simp
    · exact Nat.le_succ _
  have hnodes := Program.sum_update (fun st : Node.State => st.place.pending) w.nodes n
    { w.nodes n with place := (cfg n).afterSent p }
  have hpend := (cfg n).pending_afterSent p k
  simp only [hpl] at hnodes
  simp only [World.backlog]
  omega

/-! ### The ping-pong -/

omit [DecidableEq N] [DecidableEq T] in
/-- At rest a message that is in flight is in a channel, or in the hands of a node. -/
lemma exists_message (hrest : AtRest w.router) (hm : Manned w.router) (hpos : 0 < w.count) :
    (∃ n m k, (w.nodes n).place = .send (.reply m) k) ∨
      ∃ (c : ℕ) (x : Connection N), w.conns[c]? = some x ∧ (x.toRouter ≠ [] ∨ x.toNode ≠ []) := by
  by_contra hnone
  push Not at hnone
  obtain ⟨hnodes, hchannels⟩ := hnone
  have hcarried : carried w.conns = 0 := by
    refine List.sum_eq_zero fun k hk => ?_
    obtain ⟨x, hx, rfl⟩ := List.mem_map.mp hk
    obtain ⟨c, hc⟩ := List.mem_iff_getElem?.mp hx
    obtain ⟨hr, hn⟩ := hchannels c x hc
    simp [Connection.frames, hr, hn]
  have hthreads : ∑ i, (w.router.loc i).messages = 0 := by
    refine Finset.sum_eq_zero fun i _ => ?_
    rcases hrest i with ⟨hi, -⟩ | ⟨hi, -⟩
    · rw [hi]
      rfl
    · rw [hi]
      rfl
  have hhands : ∑ n, (w.nodes n).place.messages = 0 := by
    refine Finset.sum_eq_zero fun n _ => ?_
    cases hpl : (w.nodes n).place with
    | send p k =>
        cases p with
        | reply m => exact absurd hpl (hnodes n m k)
        | _ => rfl
    | _ => rfl
  rw [World.count, hcarried, hrest.writeQueue hm, hthreads, hhands] at hpos
  exact absurd hpos (lt_irrefl 0)

/-- At rest, with a message in flight, a reader or a node can go on. -/
lemma exists_next_run (hr : Ranged cfg) (h : (faultlessNetwork T cfg).Reaches tr w)
    (hm : Manned w.router) (hN : Fintype.card N < fdSetSize)
    (hserver : serverSocket ∉ w.router.shared.opened) (hrest : AtRest w.router)
    (hpos : 0 < w.count) :
    ∃ tr' w', (selectNetwork T cfg serverSocket).Run w tr' w' ∧
      ((∃ e ∈ tr', e.arrives = true) ∨ w'.backlog < w.backlog) := by
  have hsend : ∀ n p k, (w.nodes n).place = .send p k →
      ∃ tr' w', (selectNetwork T cfg serverSocket).Run w tr' w' ∧
        ((∃ e ∈ tr', e.arrives = true) ∨ w'.backlog < w.backlog) := by
    intro n p k hpl
    obtain ⟨tr', w', hrun, hlt⟩ := exists_sent_run hr h hpl
    exact ⟨tr', w', hrun, .inr hlt⟩
  rcases exists_message hrest hm hpos with ⟨n, m, k, hpl⟩ | ⟨c, x, hx, hne | hne⟩
  · exact hsend n _ k hpl
  · obtain ⟨tr', w', hrun, hlt⟩ := exists_read_run hr h hm hN hserver hrest hx hne
    exact ⟨tr', w', hrun, .inr hlt⟩
  · -- the node of the connection is still using it
    obtain ⟨-, hlive⟩ := account_of_reaches hr h
    obtain ⟨hsocket, hkept⟩ := hlive.inUse c _ _ (ends_getElem? hx)
    cases hpl : (w.nodes x.node).place with
    | send p k => exact hsend x.node p k hpl
    | receive =>
        obtain ⟨bs, w', hs⟩ := exists_answer_step hr h.of_restrict hpl (hsocket.symm ▸ hx) hne
        exact ⟨_, w', .single ⟨hs, trivial⟩, .inl ⟨_, List.mem_singleton_self _, rfl⟩⟩
    | stopped => exact absurd hpl ((network_refines hr h.of_restrict).1.running x.node)
    | connect =>
        rw [hpl] at hkept
        exact absurd trivial hkept
    | close =>
        rw [hpl] at hkept
        exact absurd trivial hkept

/-- Messages are dropped, or as many stay in flight. -/
lemma unrouted_or_count_le (hr : Ranged cfg) (h : (faultlessNetwork T cfg).Reaches tr w)
    {tr' : List (WorldEvent N T)} (hrun : (faultlessNetwork T cfg).Run w tr' w') :
    (∃ e ∈ tr', e.unrouted = true) ∨ w.count ≤ w'.count := by
  by_cases hdrop : ∃ e ∈ tr', WorldEvent.unrouted e = true
  · exact .inl hdrop
  · have hzero : tr'.countP WorldEvent.unrouted = 0 := by
      rw [List.countP_eq_zero]
      exact fun e he hu => hdrop ⟨e, he, hu⟩
    have hcount := (account_of_reaches hr h).1
    have hcount' := (account_of_reaches hr (h.append hrun)).1
    rw [List.countP_append, hzero] at hcount'
    have hinit := initiated_le hrun
    exact .inr (by omega)

/-- With a message in flight they go on until one arrives or is dropped. -/
lemma exists_arrival (hr : Ranged cfg) (h : (faultlessNetwork T cfg).Reaches tr w)
    (hm : Manned w.router) (hN : Fintype.card N < fdSetSize)
    (hserver : serverSocket ∉ w.router.shared.opened) (hpos : 0 < w.count) :
    ∃ tr' w', (selectNetwork T cfg serverSocket).Run w tr' w' ∧
      ∃ e ∈ tr', e.arrives = true ∨ e.unrouted = true := by
  refine Lts.exists_run_through World.backlog
    (fun w => (∃ tr, (faultlessNetwork T cfg).Reaches tr w) ∧ Manned w.router ∧
      serverSocket ∉ w.router.shared.opened ∧ 0 < w.count) _ ?_ ⟨⟨tr, h⟩, hm, hserver, hpos⟩
  rintro w ⟨⟨tr, h⟩, hm, hserver, hpos⟩
  obtain ⟨tr₁, w₁, hrun₁, hrest, hin, hnodes, -⟩ := exists_calm_run hr h.of_restrict serverSocket
  have hback : w₁.backlog = w.backlog := by rw [World.backlog, World.backlog, hin, hnodes]
  rcases unrouted_or_count_le hr h hrun₁.of_restrict with ⟨e, he, hu⟩ | hcount
  · exact ⟨tr₁, w₁, hrun₁, .inl ⟨e, he, .inr hu⟩⟩
  · obtain ⟨tr₂, w₂, hrun₂, hnext⟩ := exists_next_run hr (h.append hrun₁.of_restrict)
      (hm.run hrun₁.of_restrict.of_restrict) hN (not_opened_of_run hserver hrun₁) hrest
      (hpos.trans_le hcount)
    have hrun := hrun₁.append hrun₂
    refine ⟨tr₁ ++ tr₂, w₂, hrun, ?_⟩
    rcases hnext with ⟨e, he, hrec⟩ | hlt
    · exact .inl ⟨e, List.mem_append_right tr₁ he, .inl hrec⟩
    · rcases unrouted_or_count_le hr h hrun.of_restrict with ⟨e, he, hu⟩ | hcount
      · exact .inl ⟨e, he, .inr hu⟩
      · exact .inr ⟨⟨⟨_, h.append hrun.of_restrict⟩, hm.run hrun.of_restrict.of_restrict,
          not_opened_of_run hserver hrun, hpos.trans_le hcount⟩, hback ▸ hlt⟩

/-- **The ping-pong goes on.** From every state that a router with a reader and a writer and
less than `FD_SETSIZE` nodes can reach without a failure, in whatever interleaving, and in which
a data message is in flight, they can go on without a failure until the nodes have received as
many messages as one likes, unless the router drops one, as it finds no session for its
destination. On the way the event loop reports only clients that are in the set of `select`, and
`accept` does not return the server socket, which was not returned before either. So no
interleaving leads to a deadlock of the system. The nodes have ids up to 998 and destinations up
to 999 (`Ranged`), and a `recv` takes whole packets (`recvFrom`). -/
theorem ping_pong_goes_on (hr : Ranged cfg) (h : (faultlessNetwork T cfg).Reaches tr w)
    (hm : Manned w.router) (hN : Fintype.card N < fdSetSize)
    (hserver : serverSocket ∉ w.router.shared.opened) (hflight : w.inFlight ≠ 0) (k : ℕ) :
    ∃ tr' w', (selectNetwork T cfg serverSocket).Run w tr' w' ∧
      (k ≤ tr'.countP WorldEvent.arrives ∨ ∃ e ∈ tr', e.unrouted = true) := by
  induction k with
  | zero => exact ⟨[], w, .nil, .inl (Nat.zero_le _)⟩
  | succ k ih =>
      have hpos : 0 < w.count := by
        rw [← card_inFlight]
        exact Multiset.card_pos.mpr hflight
      obtain ⟨tr₁, w₁, hrun₁, hk⟩ := ih
      rcases unrouted_or_count_le hr h hrun₁.of_restrict with hdrop | hcount
      · exact ⟨tr₁, w₁, hrun₁, .inr hdrop⟩
      · obtain ⟨tr₂, w₂, hrun₂, e, he, hgoal⟩ := exists_arrival hr (h.append hrun₁.of_restrict)
          (hm.run hrun₁.of_restrict.of_restrict) hN (not_opened_of_run hserver hrun₁)
          (hpos.trans_le hcount)
        refine ⟨tr₁ ++ tr₂, w₂, hrun₁.append hrun₂, ?_⟩
        rcases hk with hk | ⟨d, hd, hu⟩
        · rcases hgoal with harr | hu
          · have hone : 0 < tr₂.countP WorldEvent.arrives :=
              List.countP_pos_iff.mpr ⟨e, he, harr⟩
            refine .inl ?_
            rw [List.countP_append]
            omega
          · exact .inr ⟨e, List.mem_append_right tr₁ he, hu⟩
        · exact .inr ⟨d, List.mem_append_left tr₂ hd, hu⟩

/-- Node 6 connects after node 5 has sent its first message. -/
theorem ping_pong_goes_on_two :
    ∃ tr, ∃ w : World (Fin 2) (Fin 2), (faultlessNetwork (Fin 2) twoNodes).Reaches tr w ∧
      w.initiated = 1 ∧ ∃ tr' w', (selectNetwork (Fin 2) twoNodes 3).Run w tr' w' ∧
        (10 ≤ tr'.countP WorldEvent.arrives ∨ ∃ e ∈ tr', e.unrouted = true) := by
  obtain ⟨tr, w, hreach, hinit, hdrop, hserver, hread, hwrite⟩ : ∃ tr, ∃ w : World (Fin 2) (Fin 2),
      (Lts.ofFn World.Initial (Lts.guarded (World.step twoNodes)
        fun _ e => e.faultless = true)).Reaches tr w ∧
      w.initiated = 1 ∧ tr.countP WorldEvent.unrouted = 0 ∧ 3 ∉ w.router.shared.opened ∧
        (w.router.loc 0).handler = .workerThreadRead ∧
        (w.router.loc 1).handler = .workerThreadWrite :=
    Lts.reaches_of_execute twoNodesStart [.node 0 .connected, .node 0 (.sent true),
      .node 0 (.sent true), .node 1 .connected] initial_twoNodesStart (by decide +kernel)
  have hreach' : (faultlessNetwork (Fin 2) twoNodes).Reaches tr w := hreach.of_guarded
  have hcount := (account_of_reaches ranged_twoNodes hreach').1
  have hflight : w.inFlight ≠ 0 := by
    rw [← Multiset.card_pos, card_inFlight]
    omega
  exact ⟨tr, w, hreach', hinit, ping_pong_goes_on ranged_twoNodes hreach'
    ⟨⟨0, hread⟩, 1, hwrite⟩ (by decide) hserver hflight 10⟩

end MessageRouting
