import MessageRouting.System.Liveness

/-!
What is done in the system between the arrivals of two messages.

Some steps are idle: the event loop finds a socket readable, a reader looks it up, takes the
mutex of its session, finds nothing to receive and releases it, or a node is refused by the
router. All others bring a connection, an id message or a data message on its way.

* `WorldEvent.idle`: the idle steps.
* `World.effort`: how many steps that are not idle are still to be made for what is on its
  way, until the nodes receive it.
* `faultless_cases`: everything a step without a failure can be; `idle_cases`: an idle one.
* `effort_of_step`: every step that is not idle is paid for by the effort, and only a message
  that a node receives adds to it; `effort_bounded`: the account of a whole run.
-/

namespace MessageRouting

variable {N T : Type} {cfg : N → Node} {w w' : World N T} {c : ℕ} {x : Connection N}
  {e : WorldEvent N T} {tr : List (WorldEvent N T)}

/-- A step that brings nothing on its way. -/
def WorldEvent.idle : WorldEvent N T → Bool
  | .router (.readable _) => true
  | .router (.poppedRead _ _) => true
  | .router (.lookedUp _ _ _) => true
  | .router (.locked _ _) => true
  | .router (.turned _ _ _) => true
  | .router (.received _ _ .wouldBlock) => true
  | .router (.unlocked _ _) => true
  | .node _ .refused => true
  | _ => false

/-! ### The effort -/

/-- The steps that a thread still makes for the message in its hands. -/
def Pc.effort : Pc → ℕ
  | .addNode .. => 1
  | .findDst .. => 6
  | .forward .. => 5
  | .removeSrc .. => 1
  | .findSession _ => 3
  | .lockDst .. => 2
  | .send .. => 1
  | .removeDst .. => 1
  | _ => 0

/-- The steps that a node still makes until it receives, with those of the messages that it
sends. -/
def Node.Place.effort : Node.Place → ℕ
  | .close => 19
  | .connect => 18
  | .send .subscribe _ => 16
  | .send _ _ => 8
  | _ => 0

/-- The same for what comes to the router on a connection, and for its `accept`. -/
def Connection.effort (x : Connection N) : ℕ :=
  7 * x.toRouter.length + if x.socket = none then 1 else 0

/-- The effort for some connections. -/
def connEffort (conns : List (Connection N)) : ℕ := (conns.map Connection.effort).sum

/-- The steps that are still to be made for all that is on its way to the nodes. -/
def World.effort [Fintype N] [Fintype T] (w : World N T) : ℕ :=
  connEffort w.conns + 4 * w.router.shared.writeQueue.length + ∑ i, (w.router.loc i).effort +
    ∑ n, (w.nodes n).place.effort

lemma connEffort_modify (conns : List (Connection N)) {f : Connection N → Connection N} {d : ℕ}
    (hf : ∀ x, (f x).effort ≤ x.effort + d) :
    connEffort (conns.modify c f) ≤ connEffort conns + d := by
  cases hx : conns[c]? with
  | none =>
      rw [List.modify_eq_self (List.getElem?_eq_none_iff.mp hx)]
      exact Nat.le_add_right _ _
  | some x =>
      have hsum := List.sum_map_modify f Connection.effort hx
      have hle := hf x
      simp only [connEffort]
      omega

lemma connEffort_append (conns : List (Connection N)) (n : N) :
    connEffort (conns ++ [.new n]) = connEffort conns + 1 := by
  rw [connEffort, List.map_append, List.sum_append]
  rfl

lemma Connection.effort_sendToRouter (x : Connection N) (p : Packet) :
    (x.sendToRouter p).effort ≤ x.effort + 7 := by
  rw [sendToRouter]
  split_ifs
  · simp only [effort, List.length_append, List.length_singleton]
    omega
  · exact Nat.le_add_right _ _

lemma Connection.effort_sendToNode (x : Connection N) (p : Packet) :
    (x.sendToNode p).effort ≤ x.effort + 0 := by
  rw [sendToNode]
  split_ifs
  · exact le_rfl
  · exact le_rfl

lemma Node.effort_afterSent (node : Node) (p : Node.Purpose) (retry : ℕ) :
    (node.afterSent p).effort + 8 ≤ (Node.Place.send p retry).effort := by
  cases p with
  | subscribe =>
      rw [afterSent]
      split_ifs
      · exact le_rfl
      · exact Nat.le_of_ble_eq_true rfl
  | _ => exact le_rfl

lemma Node.effort_afterReceived (node : Node) (bs : List UInt8) :
    (node.afterReceived (.bytes bs)).effort ≤ 8 := by
  rw [afterReceived]
  split_ifs
  · split
    · exact le_rfl
    · exact Nat.zero_le _
  · exact Nat.zero_le _

variable [DecidableEq N] [DecidableEq T]

/-! ### The steps -/

/-- Everything a step without a failure can be: one of a thread, of the event loop, or of a
node. -/
lemma faultless_cases (hs : (faultlessNetwork T cfg).step w e w') :
    (∃ i o inp e' pc' sh', w.input i o = some inp ∧
      next w.router.shared i (w.router.loc i) inp = some (e', pc', sh') ∧ e = .router e' ∧
      w' = { w.observe e' with router := ⟨sh', Function.update w.router.loc i pc'⟩ }) ∨
    (∃ s S c x, w.conns[c]? = some x ∧ x.socket = none ∧
      w.router.shared.sessions.acceptClient s = some S ∧ e = .router (.accepted s) ∧ w' = { w with
        router := ⟨{ w.router.shared with sessions := S, opened := s :: w.router.shared.opened },
          w.router.loc⟩
        conns := w.conns.modify c fun x => { x with socket := some s } }) ∨
    (∃ s, e = .router (.readable s) ∧ w' = { w with
      router := ⟨{ w.router.shared with
        readQueue := SignalingQueue.push w.router.shared.readQueue s true }, w.router.loc⟩ }) ∨
    ∃ n o inp e' st, w.nodeInput cfg n o = some inp ∧
      (cfg n).next (w.nodes n) inp = some (e', st) ∧ e = .node n e' ∧
      w' = { w.observeNode cfg n e' with nodes := Function.update w.nodes n st } := by
  obtain ⟨⟨act, hs⟩, hf⟩ := hs
  cases act with
  | thread i o =>
      obtain ⟨inp, e', pc', sh', hin, hn, rfl, rfl⟩ := thread_step hs
      exact .inl ⟨i, o, inp, e', pc', sh', hin, hn, rfl, rfl⟩
  | accept s c =>
      simp only [World.step, Program.step, Option.ite_none_right_eq_some, Option.map_eq_some_iff,
        Prod.mk.injEq, Prod.exists] at hs
      obtain ⟨hfree, _, _, ⟨e', sh', hn, rfl, rfl⟩, rfl, rfl⟩ := hs
      obtain ⟨x, hx, hsocket⟩ := (Option.any_eq_true _ _).mp hfree
      have hn' : loopStep w.router.shared (.accept s) = some (e', sh') := hn
      simp only [loopStep, Option.ite_none_left_eq_some, Option.map_eq_some_iff,
        Prod.mk.injEq] at hn'
      obtain ⟨-, S, hS, rfl, rfl⟩ := hn'
      exact .inr (.inl ⟨s, S, c, x, hx, Option.isNone_iff_eq_none.mp hsocket, hS, rfl, rfl⟩)
  | readable s =>
      simp only [World.step, Program.step, Option.map_eq_some_iff, Prod.mk.injEq, Prod.exists] at hs
      obtain ⟨_, _, ⟨e', sh', hn, rfl, rfl⟩, rfl, rfl⟩ := hs
      cases hn
      exact .inr (.inr (.inl ⟨s, rfl, rfl⟩))
  | node n o =>
      simp only [World.step, Option.bind_eq_some_iff, Option.map_eq_some_iff, Prod.mk.injEq,
        Prod.exists] at hs
      obtain ⟨inp, hin, e', st, hn, rfl, rfl⟩ := hs
      exact .inr (.inr (.inr ⟨n, o, inp, e', st, hin, hn, rfl, rfl⟩))
  | cut c k l =>
      cases hs
      cases hf

/-- Everything an idle step can be: one of a thread that leaves all but its own location, the
read queue and the mutexes alone, one of the event loop, or that of a refused node. -/
lemma idle_cases (hs : (faultlessNetwork T cfg).step w e w') (he : e.idle = true) :
    (∃ i e' pc' sh', e = .router e' ∧ Step i w.router.shared (w.router.loc i) e' pc' sh' ∧
      w' = { w with router := ⟨sh', Function.update w.router.loc i pc'⟩ }) ∨
    (∃ s, e = .router (.readable s) ∧ w' = { w with
      router := ⟨{ w.router.shared with
        readQueue := SignalingQueue.push w.router.shared.readQueue s true }, w.router.loc⟩ }) ∨
    ∃ n, e = .node n .refused ∧ (w.nodes n).place = .connect ∧ w' = w := by
  rcases faultless_cases hs with ⟨i, o, inp, e', pc', sh', -, hn, rfl, rfl⟩ |
    ⟨s, S, c, x, -, -, -, rfl, -⟩ | ⟨s, rfl, rfl⟩ | ⟨n, o, inp, e', st, -, hn, rfl, rfl⟩
  · refine .inl ⟨i, e', pc', sh', rfl, step_of_next hn, ?_⟩
    cases e' with
    | received j s r =>
        cases r with
        | bytes bs => cases he
        | _ => rfl
    | sent j k s m ok => cases he
    | pushed j s t => cases he
    | _ => rfl
  · cases he
  · exact .inr (.inl ⟨s, rfl, rfl⟩)
  · refine .inr (.inr ⟨n, ?_⟩)
    cases e' with
    | refused =>
        cases inp with
        | refused =>
            obtain ⟨hpl, -, rfl⟩ := Node.next_refused.mp hn
            exact ⟨rfl, hpl, by simp only [World.observeNode, Function.update_eq_self]⟩
        | connected d => cases (Node.next_connected.mp hn).2.1
        | sent k =>
            obtain ⟨_, _, _, heq, _⟩ := Node.next_sent.mp hn
            cases heq
        | recv r => cases (Node.next_recv.mp hn).2.1
        | go => cases (Node.next_go.mp hn).2.1
    | _ => cases he

omit [DecidableEq N] [DecidableEq T] in
/-- A step of a thread is paid for by what is in its hands and in the write queue, unless it
takes bytes. -/
lemma Step.effort {i : T} {sh sh' : Shared T} {pc pc' : Pc} {e : Event T}
    (h : Step i sh pc e pc' sh') (hf : (WorldEvent.router e : WorldEvent N T).faultless = true)
    (hrecv : ∀ j s bs, e ≠ .received j s (.bytes bs)) :
    4 * sh'.writeQueue.length + pc'.effort +
        (!(WorldEvent.router e : WorldEvent N T).idle).toNat ≤
      4 * sh.writeQueue.length + pc.effort := by
  cases h with
  | recv_id _ _ => exact absurd rfl (hrecv _ _ _)
  | recv_data _ _ => exact absurd rfl (hrecv _ _ _)
  | recv_more _ _ => exact absurd rfl (hrecv _ _ _)
  | recv_failed hr => rcases hr with rfl | rfl <;> cases hf
  | send_failed => cases hf
  | popWrite hq =>
      simp only [hq, List.length_cons, Pc.effort, WorldEvent.idle, Bool.not_false, Bool.toNat_true]
      omega
  | forward =>
      simp only [Shared.push, SignalingQueue.push_false, List.length_append, List.length_singleton,
        Pc.effort, WorldEvent.idle, Bool.not_false, Bool.toNat_true]
      omega
  | _ =>
      simp only [Shared.setHolder, Pc.effort, WorldEvent.idle, Bool.not_false, Bool.not_true,
        Bool.toNat_true, Bool.toNat_false]
      omega

variable [Fintype N] [Fintype T]

omit [DecidableEq N] in
/-- The effort after a step of a thread, from what the step does to the channels, the queue and
the hands of the thread. -/
lemma effort_thread {e : Event T} {i : T} {pc' : Pc} {sh' : Shared T} {d : ℕ}
    (h : connEffort (w.observe e).conns + 4 * sh'.writeQueue.length + pc'.effort + d ≤
      connEffort w.conns + 4 * w.router.shared.writeQueue.length + (w.router.loc i).effort) :
    ({ w.observe e with router := ⟨sh', Function.update w.router.loc i pc'⟩ } :
      World N T).effort + d ≤ w.effort := by
  have hthreads := Program.sum_update Pc.effort w.router.loc i pc'
  have hnodes := (observe_ends w e).2.1
  simp only [World.effort, hnodes]
  omega

omit [DecidableEq T] in
/-- The same for a step of a node. -/
lemma effort_node {w₁ : World N T} {n : N} {st : Node.State} {a b : ℕ}
    (hrouter : w₁.router = w.router)
    (h : connEffort w₁.conns + st.place.effort + a ≤
      connEffort w.conns + (w.nodes n).place.effort + b) :
    ({ w₁ with nodes := Function.update w.nodes n st } : World N T).effort + a ≤ w.effort + b := by
  have hnodes := Program.sum_update (fun st : Node.State => st.place.effort) w.nodes n st
  simp only [World.effort, hrouter]
  omega

/-- **A step of a thread** is paid for. -/
lemma effort_of_thread (hr : Ranged cfg) (h : (network T cfg).Reaches tr w) {i : T} {o : Outcome}
    {inp : Input} {e' : Event T} {pc' : Pc} {sh' : Shared T} (hin : w.input i o = some inp)
    (hn : next w.router.shared i (w.router.loc i) inp = some (e', pc', sh'))
    (hf : (WorldEvent.router e' : WorldEvent N T).faultless = true) :
    ({ w.observe e' with router := ⟨sh', Function.update w.router.loc i pc'⟩ } :
        World N T).effort + (!(WorldEvent.router e' : WorldEvent N T).idle).toNat ≤ w.effort := by
  have hstep := step_of_next hn
  refine effort_thread ?_
  by_cases hrecv : ∃ j s bs, e' = .received j s (.bytes bs)
  · -- a whole packet is taken from the channel
    obtain ⟨j, s, bs, rfl⟩ := hrecv
    obtain ⟨a, src, want, got, hpc, rfl, rfl, rfl, hafter⟩ := next_received hn
    obtain ⟨c, x, k, hb, hx, hfrom⟩ := input_bytes hin hpc
    obtain ⟨hlinked, tr', hpop⟩ := network_refines hr h
    obtain ⟨hst, hloc⟩ := standing_of_reaches (router_reaches h)
    obtain ⟨y, hy, hs⟩ := behind_eq_some hb
    obtain rfl : x = y := Option.some.inj (hx.symm.trans hy)
    have hsum := List.sum_map_modify
      (fun x : Connection N => { x with toRouter := dropBytes bs.length x.toRouter })
      Connection.effort hx
    have hexact := recv_exact hr hlinked hst hloc hpc hx hs
      (fun f hf => proper_of_population hr hpop f
        (mem_inFlight hx (Connection.mem_frames.mpr (.inl hf)))) hfrom hafter
    simp only [World.observe, hb, connEffort, hpc, WorldEvent.idle, Bool.not_false,
      Bool.toNat_true]
    rcases hexact with ⟨ps, -, hch, -, hdrop, rfl⟩ | ⟨f, ps, -, hch, -, hdrop, rfl⟩
    · simp only [Connection.effort, hdrop] at hsum
      rw [hch, List.length_cons] at hsum
      simp only [Pc.effort]
      omega
    · simp only [Connection.effort, hdrop] at hsum
      rw [hch, List.length_cons] at hsum
      simp only [Pc.effort]
      omega
  · have hown := hstep.effort (N := N) hf fun j s bs he => hrecv ⟨j, s, bs, he⟩
    have hconns : connEffort (w.observe e').conns ≤ connEffort w.conns := by
      by_cases hsent : ∃ j k s m, e' = .sent j k s m true
      · obtain ⟨j, k, s, m, rfl⟩ := hsent
        cases hb : w.behind s with
        | none => simp [World.observe, hb]
        | some c =>
            simp only [World.observe, hb]
            exact connEffort_modify w.conns fun x => x.effort_sendToNode _
      · rw [observe_conns (fun j s bs he => hrecv ⟨j, s, bs, he⟩)
          fun j k s m he => hsent ⟨j, k, s, m, he⟩]
    omega

omit [DecidableEq T] in
/-- **A step of a node** is paid for, and only a message that it receives adds to the effort. -/
lemma effort_of_node {n : N} {inp : Node.Input} {e' : Node.Event} {st : Node.State}
    (hn : (cfg n).next (w.nodes n) inp = some (e', st))
    (hf : (WorldEvent.node n e' : WorldEvent N T).faultless = true) :
    ({ w.observeNode cfg n e' with nodes := Function.update w.nodes n st } :
        World N T).effort + (!(WorldEvent.node n e' : WorldEvent N T).idle).toNat ≤
      w.effort + 9 * (WorldEvent.node n e' : WorldEvent N T).arrives.toNat := by
  refine effort_node (observeNode_router n e') ?_
  cases inp with
  | connected d =>
      obtain ⟨hpl, rfl, rfl⟩ := Node.next_connected.mp hn
      rw [hpl]
      show connEffort (w.conns ++ [.new n]) + 16 + 1 ≤ connEffort w.conns + 18 + 0
      rw [connEffort_append]
  | refused =>
      obtain ⟨-, rfl, rfl⟩ := Node.next_refused.mp hn
      exact le_rfl
  | sent k =>
      obtain ⟨p, retry, hpl, rfl, rfl⟩ := Node.next_sent.mp hn
      have hk : 0 < k := of_decide_eq_true hf
      have hsent := connEffort_modify (c := (w.nodes n).socket) w.conns
        fun x => x.effort_sendToRouter (w.packet cfg n p)
      have hplace := (cfg n).effort_afterSent p retry
      simp only [World.observeNode, if_pos hk, Node.afterSend, hpl, WorldEvent.idle,
        WorldEvent.arrives,
        Bool.not_false, Bool.toNat_true, Bool.toNat_false]
      omega
  | recv r =>
      obtain ⟨hpl, rfl, rfl⟩ := Node.next_recv.mp hn
      cases r with
      | bytes bs =>
          have hconns := connEffort_modify (c := (w.nodes n).socket) (d := 0) w.conns
            (f := fun x => { x with toNode := dropBytes bs.length x.toNode }) fun x => le_rfl
          have hplace := (cfg n).effort_afterReceived bs
          simp only [World.observeNode, hpl, WorldEvent.idle, WorldEvent.arrives, Bool.not_false,
            Bool.toNat_true]
          omega
      | _ => cases hf
  | go =>
      obtain ⟨hpl, rfl, rfl⟩ := Node.next_go.mp hn
      rw [hpl]
      exact le_rfl

/-- **Every step** without a failure is paid for by the effort, if it is not idle; only a
message that a node receives adds to it. -/
lemma effort_of_step (hr : Ranged cfg) (h : (network T cfg).Reaches tr w)
    (hs : (faultlessNetwork T cfg).step w e w') :
    w'.effort + (!e.idle).toNat ≤ w.effort + 9 * e.arrives.toNat := by
  have hf := hs.2
  rcases faultless_cases hs with ⟨i, o, inp, e', pc', sh', hin, hn, rfl, rfl⟩ |
    ⟨s, S, c, x, hx, hsocket, -, rfl, rfl⟩ | ⟨s, rfl, rfl⟩ | ⟨n, o, inp, e', st, -, hn, rfl, rfl⟩
  · exact effort_of_thread hr h hin hn hf
  · have hsum := List.sum_map_modify (fun x : Connection N => { x with socket := some s })
      Connection.effort hx
    simp only [Connection.effort, hsocket, if_true, reduceCtorEq, if_false] at hsum
    simp only [World.effort, connEffort, WorldEvent.idle, WorldEvent.arrives, Bool.not_false,
      Bool.toNat_true, Bool.toNat_false]
    omega
  · exact le_rfl
  · exact effort_of_node hn hf

/-- **The nodes and the router do not turn in circles.** In every interleaving without a
failure, from every state that can be reached so: the steps that are not idle are at most the
effort for what is on its way, and nine for each message that a node receives. So with no
more messages received they come to an end, and only polling of sockets goes on. The nodes have
ids up to 998 and destinations up to 999 (`Ranged`), and a `recv` takes whole packets
(`recvFrom`). -/
theorem effort_bounded (hr : Ranged cfg) (h : (faultlessNetwork T cfg).Reaches tr w)
    {tr' : List (WorldEvent N T)} (hrun : (faultlessNetwork T cfg).Run w tr' w') :
    w'.effort + tr'.countP (fun e => !e.idle) ≤ w.effort + 9 * tr'.countP WorldEvent.arrives := by
  induction hrun with
  | nil => exact le_rfl
  | @snoc tr' u v e hrun hs ih =>
      have hstep := effort_of_step hr (h.append hrun).of_restrict hs
      have hidle : [e].countP (fun e => !e.idle) = (!e.idle).toNat := by
        cases hi : e.idle <;> simp [hi]
      have harr : [e].countP WorldEvent.arrives = e.arrives.toNat := by
        cases ha : e.arrives <;> simp [ha]
      rw [List.countP_append, List.countP_append, hidle, harr]
      omega

/-- Two nodes connect, and one answers the other: 20 of the 37 steps are not idle. -/
theorem effort_bounded_answer :
    ∃ (w w' : World (Fin 2) (Fin 2)) (tr : List (WorldEvent (Fin 2) (Fin 2))),
      (faultlessNetwork (Fin 2) twoNodes).Run w tr w' ∧ tr.length = 37 ∧
      tr.countP (fun e => !e.idle) = 20 ∧ tr.countP WorldEvent.arrives = 1 ∧
      w'.effort + 20 ≤ w.effort + 9 := by
  obtain ⟨tr, w', hreach, hlen, hidle, harr⟩ : ∃ tr, ∃ w' : World (Fin 2) (Fin 2),
      (Lts.ofFn World.Initial (Lts.guarded (World.step twoNodes)
        fun _ e => e.faultless = true)).Reaches tr w' ∧
      tr.length = 37 ∧ tr.countP (fun e => !e.idle) = 20 ∧ tr.countP WorldEvent.arrives = 1 :=
    Lts.reaches_of_execute twoNodesStart oneAnswer initial_twoNodesStart (by decide +kernel)
  obtain ⟨w, hinit, hrun⟩ : (faultlessNetwork (Fin 2) twoNodes).Reaches tr w' := hreach.of_guarded
  have hbound := effort_bounded ranged_twoNodes ⟨w, hinit, .nil⟩ hrun
  rw [hidle, harr] at hbound
  exact ⟨w, w', tr, hrun, hlen, hidle, harr, hbound⟩

end MessageRouting
