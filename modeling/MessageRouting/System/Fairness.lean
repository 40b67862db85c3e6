import MessageRouting.Lib.Fairness
import MessageRouting.System.Registration

/-!
The ping-pong never ends, if nobody is left out for ever.

* `Agent`: who can be left out. Besides the threads and the nodes, these are the event loop,
  which accepts clients and reports their sockets, and the network, which brings the bytes.
* `Stalled`: a fair path of idle steps alone. Then the mutexes of the sessions get free again
  and again (`Stalled.exists_free`), so every thread comes back to its queue
  (`Stalled.exists_waiting`) and has nothing in its hands (`Stalled.effort_loc`).
* `Stalled.toRouter`: nothing is left in a channel towards the router, as its socket is
  reported, popped by a reader, and read. So nothing is in flight (`Stalled.count`).
* `ping_pong_never_ends`: on every fair path with a message in flight, and with no more nodes
  than `select` can watch, the nodes receive messages without end. `exists_fair_path`: there are
  fair paths from every state.
-/

open Filter

namespace MessageRouting

variable {N T : Type} {cfg : N → Node} {w w' : World N T} {c : ℕ} {x : Connection N}
  {e : WorldEvent N T} {tr : List (WorldEvent N T)} {serverSocket : ℤ}

/-! ### Agents -/

/-- The thread whose step it is. -/
def Event.thread : Event T → Option T
  | .accepted _ => none
  | .readable _ => none
  | .poppedRead i _ => some i
  | .lookedUp i _ _ => some i
  | .locked i _ => some i
  | .turned i _ _ => some i
  | .received i _ _ => some i
  | .added i _ _ => some i
  | .routed i _ _ _ => some i
  | .pushed i _ _ => some i
  | .removed i _ => some i
  | .unlocked i _ => some i
  | .poppedWrite i _ => some i
  | .found i _ _ => some i
  | .dropped i _ => some i
  | .lockedDst i _ _ => some i
  | .sent i _ _ _ _ => some i

lemma Step.thread {i : T} {sh sh' : Shared T} {pc pc' : Pc} {e : Event T}
    (h : Step i sh pc e pc' sh') : e.thread = some i := by
  cases h <;> rfl

/-- Who should not be left out for ever: a thread, a node, the event loop with a client that
waits for its `accept`, the event loop with a node's socket that is readable and in the set of
`select`, and the network with the bytes of a node that a reader waits for. -/
inductive Agent (N T : Type) where
  | thread (i : T)
  | node (n : N)
  | accept
  | report (n : N)
  | deliver (n : N)
  deriving Fintype

/-- The steps that an agent takes. -/
def Agent.Takes (serverSocket : ℤ) : Agent N T → World N T → WorldEvent N T → Prop
  | .thread i, _, .router e => e.thread = some i
  | .node n, _, .node m _ => m = n
  | .accept, _, .router (.accepted _) => True
  | .report n, w, .router (.readable s) =>
      w.Watches serverSocket s ∧ ∃ x ∈ w.conns, x.node = n ∧ x.socket = some s ∧ x.toRouter ≠ []
  | .deliver n, w, .router (.received _ s (.bytes _)) => Owner w s n
  | _, _, _ => False

/-! ### Idle steps of a thread -/

/-- An idle step of a thread pops a socket, or takes from what the thread still does. -/
lemma Step.of_idle {i : T} {sh sh' : Shared T} {pc pc' : Pc} {e : Event T}
    (h : Step i sh pc e pc' sh') (he : (WorldEvent.router e : WorldEvent N T).idle = true) :
    sh'.sessions = sh.sessions ∧ sh'.writeQueue = sh.writeQueue ∧ pc.effort = 0 ∧
      ((∃ s, pc = .popRead ∧ e = .poppedRead i s ∧ pc' = .findSrc s ∧
          sh.readQueue = s :: sh'.readQueue) ∨
        pc'.work < pc.work ∧ sh'.readQueue = sh.readQueue) := by
  cases h with
  | popRead hq => exact ⟨rfl, rfl, rfl, .inl ⟨_, rfl, rfl, rfl, hq⟩⟩
  | recv_short hgot =>
      refine ⟨rfl, rfl, rfl, .inr ⟨?_, rfl⟩⟩
      simp only [Pc.work, if_neg hgot]
      omega
  | recv_failed hr => rcases hr with rfl | rfl <;> cases he
  | addNode => cases he
  | findDst_none _ => cases he
  | findDst _ => cases he
  | forward => cases he
  | removeSrc => cases he
  | popWrite _ => cases he
  | findSession_none _ => cases he
  | findSession _ => cases he
  | lockDst _ => cases he
  | send => cases he
  | send_failed => cases he
  | removeDst => cases he
  | recv_id _ _ => cases he
  | recv_data _ _ => cases he
  | recv_more _ _ => cases he
  | _ => exact ⟨rfl, rfl, rfl, .inr ⟨by simp only [Pc.work, if_true]; omega, rfl⟩⟩

/-- The mutex of a session changes from free to held, or from held to free. -/
lemma Step.holder_at {i : T} {sh sh' : Shared T} {pc pc' : Pc} {e : Event T}
    (h : Step i sh pc e pc' sh') (a : Addr) :
    sh'.holder a = sh.holder a ∨ sh'.holder a = none ∨ sh.holder a = none := by
  rcases h.holder_cases [] with hsame | ⟨b, hfree, htaken⟩ | ⟨-, b, -, -, -, hreleased⟩
  · exact .inl (congrFun hsame a)
  · by_cases hab : a = b
    · exact .inr (.inr (hab ▸ hfree))
    · exact .inl (by rw [htaken, Function.update_of_ne hab])
  · by_cases hab : a = b
    · exact .inr (.inl (by rw [hreleased, hab, Function.update_self]))
    · exact .inl (by rw [hreleased, Function.update_of_ne hab])

/-- The reader has popped the socket, and is about to receive from it. -/
def Pc.Approaches (s : ℤ) : Pc → Prop
  | .findSrc t => t = s
  | .lockSrc t _ => t = s
  | .refindSrc t _ => t = s
  | .turn t _ _ => t = s
  | _ => False

lemma Step.findSrc_of_popped {i j : T} {sh sh' : Shared T} {pc pc' : Pc} {s : ℤ}
    (h : Step i sh pc (.poppedRead j s) pc' sh') : pc' = .findSrc s := by
  cases h with
  | popRead _ => rfl

/-- A reader that has popped the socket of a session comes to its `recv`. -/
lemma Step.approaches {i : T} {sh sh' : Shared T} {pc pc' : Pc} {e : Event T} {s : ℤ} {a : Addr}
    (h : Step i sh pc e pc' sh') (hreg : sh.sessions.sessionsBySocket s = some (some a))
    (hp : pc.Approaches s) : pc'.Approaches s ∨ ∃ b src want, pc' = .recv s b src want [] := by
  have hfind : sh.sessions.findSessionBySocket s = some a := by
    rw [Sessions.findSessionBySocket, hreg]
  cases h with
  | findSrc_none hnone =>
      obtain rfl := hp
      exact absurd (hfind.symm.trans hnone) (Option.some_ne_none a)
  | refindSrc_none hnone =>
      obtain rfl := hp
      exact absurd (hfind.symm.trans hnone) (Option.some_ne_none a)
  | findSrc _ => exact .inl hp
  | lockSrc _ => exact .inl hp
  | refindSrc _ => exact .inl hp
  | turn_id _ =>
      obtain rfl := hp
      exact .inr ⟨_, _, _, rfl⟩
  | turn_data _ =>
      obtain rfl := hp
      exact .inr ⟨_, _, _, rfl⟩
  | _ => exact hp.elim

/-- A push leaves what is in the queue at its place. -/
lemma idxOf_push {q : List ℤ} {s t : ℤ} (h : s ∈ q) :
    s ∈ SignalingQueue.push q t true ∧ (SignalingQueue.push q t true).idxOf s = q.idxOf s := by
  rw [SignalingQueue.push]
  split_ifs
  · exact ⟨h, rfl⟩
  · exact ⟨List.mem_append_left _ h, List.idxOf_append_of_mem h⟩

lemma mem_push_self (q : List ℤ) (s : ℤ) : s ∈ SignalingQueue.push q s true := by
  rw [SignalingQueue.push]
  split_ifs with hlast
  · exact List.mem_of_getLast? hlast.2
  · exact List.mem_append_right _ (List.mem_singleton_self s)

/-- An idle step accepts no client and brings no bytes. -/
lemma WorldEvent.not_takes_of_idle (he : e.idle = true) (n : N) :
    ¬ Agent.Takes serverSocket .accept w e ∧ ¬ Agent.Takes serverSocket (.deliver n) w e := by
  cases e with
  | router e =>
      cases e with
      | accepted s => cases he
      | received i s r =>
          cases r with
          | bytes bs => cases he
          | _ => exact ⟨id, id⟩
      | _ => exact ⟨id, id⟩
  | _ => exact ⟨id, id⟩

variable [Fintype N] [DecidableEq N] [Fintype T] [DecidableEq T]

/-- A thread that neither waits at its queue nor for a mutex can move. -/
lemma can_thread (hr : Ranged cfg) (h : (network T cfg).Reaches tr w) {i : T}
    (hw : ¬ (w.router.loc i).Waits w.router.shared)
    (hfree : ∀ a ∈ (w.router.loc i).awaits, w.router.shared.holder a = none) :
    (faultlessNetwork T cfg).Can (Agent.Takes serverSocket) (.thread i) w := by
  obtain ⟨hst, hloc⟩ := standing_of_reaches (router_reaches h)
  obtain ⟨inp, ⟨e, pc', sh'⟩, hn, he⟩ := exists_next i hw hfree
  have hs : (router T).step w.router (.thread i inp) =
      some (e, ⟨sh', Function.update w.router.loc i pc'⟩) := by
    simp only [Program.step, router, Option.mem_def.mp hn, Option.map_some]
  exact ⟨_, _, calm_step (network_refines hr h).1 hst hloc hs he, (step_of_next hn).thread⟩

/-! ### Stalled paths -/

/-- A fair path of idle steps alone, from a state that is reached without a failure. -/
structure Stalled (serverSocket : ℤ) (p : (faultlessNetwork T cfg).Path) : Prop where
  reached : ∃ tr, (faultlessNetwork T cfg).Reaches tr (p.state 0)
  idle : ∀ k, (p.label k).idle = true
  fair : p.Fair (Agent.Takes serverSocket)

namespace Stalled

variable {p : (faultlessNetwork T cfg).Path}

omit [Fintype N] [Fintype T] in
lemma reaches (h : Stalled serverSocket p) (k : ℕ) :
    ∃ tr, (network T cfg).Reaches tr (p.state k) := by
  obtain ⟨tr, htr⟩ := h.reached
  exact ⟨_, (htr.append (p.run k)).of_restrict⟩

omit [Fintype N] [Fintype T] in
lemma drop (h : Stalled serverSocket p) (d : ℕ) : Stalled serverSocket (p.drop d) := by
  obtain ⟨tr, htr⟩ := h.reached
  exact ⟨⟨_, htr.append (p.run d)⟩, fun k => h.idle (d + k), h.fair.drop d⟩

omit [Fintype N] [Fintype T] in
/-- Who never moves on a stalled path cannot move at some time. -/
lemma exists_not_can (h : Stalled serverSocket p) (a : Agent N T)
    (hnever : ∀ k, ¬ a.Takes serverSocket (p.state k) (p.label k)) :
    ∃ k, ¬ (faultlessNetwork T cfg).Can (Agent.Takes serverSocket) a (p.state k) :=
  (h.fair.eventually_not_can a (.of_forall hnever)).exists

omit [Fintype N] [Fintype T] in
/-- Nothing changes but the read queue, the mutexes and the places of the threads. -/
lemma frozen (h : Stalled serverSocket p) (k : ℕ) :
    (p.state k).nodes = (p.state 0).nodes ∧ (p.state k).conns = (p.state 0).conns ∧
      (p.state k).router.shared.sessions = (p.state 0).router.shared.sessions ∧
      (p.state k).router.shared.writeQueue = (p.state 0).router.shared.writeQueue := by
  refine p.induct (fun w => w.nodes = (p.state 0).nodes ∧ w.conns = (p.state 0).conns ∧
    w.router.shared.sessions = (p.state 0).router.shared.sessions ∧
    w.router.shared.writeQueue = (p.state 0).router.shared.writeQueue) ⟨rfl, rfl, rfl, rfl⟩ ?_ k
  rintro k ⟨hnodes, hconns, hsessions, hqueue⟩
  have he := h.idle k
  rcases idle_cases (p.step k) he with ⟨i, e', pc', sh', hlabel, hstep, heq⟩ | ⟨s, -, heq⟩ |
    ⟨n, -, -, heq⟩
  · rw [hlabel] at he
    obtain ⟨hs, hq, -⟩ := hstep.of_idle he
    rw [heq]
    exact ⟨hnodes, hconns, hs.trans hsessions, hq.trans hqueue⟩
  · rw [heq]
    exact ⟨hnodes, hconns, hsessions, hqueue⟩
  · rw [heq]
    exact ⟨hnodes, hconns, hsessions, hqueue⟩

omit [Fintype N] [Fintype T] in
/-- The step of a thread that moves. -/
lemma step_of_takes (h : Stalled serverSocket p) {k : ℕ} {i : T}
    (ht : Agent.Takes serverSocket (.thread i) (p.state k) (p.label k)) :
    ∃ e, p.label k = .router e ∧ Step i (p.state k).router.shared ((p.state k).router.loc i) e
      ((p.state (k + 1)).router.loc i) (p.state (k + 1)).router.shared := by
  rcases idle_cases (p.step k) (h.idle k) with ⟨j, e', pc', sh', hlabel, hstep, heq⟩ |
    ⟨s, hlabel, -⟩ | ⟨n, hlabel, -⟩
  · rw [hlabel] at ht
    obtain rfl : j = i := Option.some.inj (hstep.thread.symm.trans ht)
    refine ⟨e', hlabel, ?_⟩
    rw [heq]
    simp only [Function.update_self]
    exact hstep
  · rw [hlabel] at ht
    cases ht
  · rw [hlabel] at ht
    cases ht

omit [Fintype N] [Fintype T] in
/-- A thread that does not move stays where it is. -/
lemma loc_of_not_takes (h : Stalled serverSocket p) {k : ℕ} {i : T}
    (ht : ¬ Agent.Takes serverSocket (.thread i) (p.state k) (p.label k)) :
    (p.state (k + 1)).router.loc i = (p.state k).router.loc i := by
  rcases idle_cases (p.step k) (h.idle k) with ⟨j, e', pc', sh', hlabel, hstep, heq⟩ |
    ⟨s, -, heq⟩ | ⟨n, -, -, heq⟩
  · have hij : i ≠ j := by
      rintro rfl
      rw [hlabel] at ht
      exact ht hstep.thread
    rw [heq]
    exact Function.update_of_ne hij _ _
  · rw [heq]
  · rw [heq]

omit [Fintype N] [Fintype T] in
/-- As long as a thread is not to pop a socket its steps take from what it still does. -/
lemma work_loc (h : Stalled serverSocket p) {k : ℕ} {i : T}
    (hpc : (p.state k).router.loc i ≠ .popRead) :
    ((p.state (k + 1)).router.loc i).work ≤ ((p.state k).router.loc i).work ∧
      (Agent.Takes serverSocket (.thread i) (p.state k) (p.label k) →
        ((p.state (k + 1)).router.loc i).work < ((p.state k).router.loc i).work) := by
  by_cases ht : Agent.Takes serverSocket (.thread i) (p.state k) (p.label k)
  · obtain ⟨e, hlabel, hstep⟩ := h.step_of_takes ht
    have he := h.idle k
    rw [hlabel] at he
    obtain ⟨-, -, -, ⟨s, hpop, -⟩ | ⟨hlt, -⟩⟩ := hstep.of_idle he
    · exact absurd hpop hpc
    · exact ⟨hlt.le, fun _ => hlt⟩
  · exact ⟨(congrArg Pc.work (h.loc_of_not_takes ht)).le, fun ht' => absurd ht' ht⟩

/-- **The mutex of a session gets free.** -/
lemma exists_free (hr : Ranged cfg) (h : Stalled serverSocket p) (a : Addr) :
    ∃ k, (p.state k).router.shared.holder a = none := by
  by_contra hheld
  push Not at hheld
  -- one thread holds it for ever, and goes on
  obtain ⟨j, hj⟩ := Option.ne_none_iff_exists'.mp (hheld 0)
  have hholds : ∀ k, (p.state k).router.shared.holder a = some j := by
    refine p.induct (fun w => w.router.shared.holder a = some j) hj fun k ih => ?_
    have hnext := hheld (k + 1)
    rcases idle_cases (p.step k) (h.idle k) with ⟨i, e', pc', sh', -, hstep, heq⟩ | ⟨s, -, heq⟩ |
      ⟨n, -, -, heq⟩
    · rw [heq] at hnext ⊢
      rcases hstep.holder_at a with hsame | hnone | hfree
      · exact hsame.trans ih
      · exact absurd hnone hnext
      · exact absurd hfree (hheld k)
    · rw [heq]
      exact ih
    · rw [heq]
      exact ih
  have hbusy : ∀ k, ¬ ((p.state k).router.loc j).Waits (p.state k).router.shared ∧
      ((p.state k).router.loc j).awaits = none := by
    intro k
    obtain ⟨tr, htr⟩ := h.reaches k
    obtain ⟨s, hs⟩ := held_of_holder (router_reaches htr) j a (hholds k)
    exact Pc.of_held _ hs
  have hpc : ∀ k, (p.state k).router.loc j ≠ .popRead := by
    intro k hpop
    obtain ⟨tr, htr⟩ := h.reaches k
    obtain ⟨s, hs⟩ := held_of_holder (router_reaches htr) j a (hholds k)
    rw [hpop] at hs
    cases hs
  obtain ⟨k, hk⟩ := (h.fair.eventually_stops (.thread j) (fun w => (w.router.loc j).work)
    (fun k => (h.work_loc (hpc k)).1) fun k => (h.work_loc (hpc k)).2).exists
  obtain ⟨tr, htr⟩ := h.reaches k
  obtain ⟨hw, hnone⟩ := hbusy k
  exact hk (can_thread hr htr hw (by simp [hnone]))

/-- **Every thread comes back to its queue.** -/
lemma exists_waiting (hr : Ranged cfg) (h : Stalled serverSocket p) (i : T) :
    ∃ k, (p.state k).router.loc i = .popRead ∨ (p.state k).router.loc i = .popWrite := by
  by_contra hnot
  push Not at hnot
  obtain ⟨d, hd⟩ := eventually_atTop.mp (h.fair.eventually_stops (.thread i)
    (fun w => (w.router.loc i).work) (fun k => (h.work_loc (hnot k).1).1)
    fun k => (h.work_loc (hnot k).1).2)
  -- a thread that cannot move stays, and waits for a mutex that gets free
  have hstay : ∀ k, ((p.drop d).state k).router.loc i = (p.state d).router.loc i := by
    refine (p.drop d).induct (fun w => w.router.loc i = (p.state d).router.loc i) rfl fun k ih => ?_
    refine Eq.trans ((h.drop d).loc_of_not_takes fun ht => ?_) ih
    exact hd (d + k) (Nat.le_add_right d k) ⟨_, _, p.step (d + k), ht⟩
  have hblocked : ∀ k, ∃ a ∈ ((p.state d).router.loc i).awaits,
      ((p.drop d).state k).router.shared.holder a ≠ none := by
    intro k
    by_contra hfree
    push Not at hfree
    obtain ⟨tr, htr⟩ := (h.drop d).reaches k
    refine hd (d + k) (Nat.le_add_right d k) (can_thread hr htr ?_ ?_)
    · rintro (⟨hpop, -⟩ | ⟨hpop, -⟩)
      · exact (hnot (d + k)).1 hpop
      · exact (hnot (d + k)).2 hpop
    · exact (hstay k).symm ▸ hfree
  obtain ⟨a, ha, -⟩ := hblocked 0
  obtain ⟨k, hk⟩ := exists_free hr (h.drop d) a
  obtain ⟨b, hb, hheld⟩ := hblocked k
  obtain rfl : a = b := Option.some.inj ((Option.mem_def.mp ha).symm.trans hb)
  exact hheld hk

/-- **No thread has a message in its hands**, as it cannot come back to its queue with it. -/
lemma effort_loc (hr : Ranged cfg) (h : Stalled serverSocket p) (i : T) :
    ((p.state 0).router.loc i).effort = 0 := by
  by_contra heffort
  have hstay : ∀ k, (p.state k).router.loc i = (p.state 0).router.loc i := by
    refine p.induct (fun w => w.router.loc i = (p.state 0).router.loc i) rfl fun k ih => ?_
    refine Eq.trans (h.loc_of_not_takes fun ht => heffort ?_) ih
    obtain ⟨e, hlabel, hstep⟩ := h.step_of_takes ht
    have he := h.idle k
    rw [hlabel] at he
    exact ih ▸ (hstep.of_idle he).2.2.1
  obtain ⟨k, hk⟩ := h.exists_waiting hr i
  rw [hstay k] at hk
  rcases hk with hk | hk
  · exact heffort (by rw [hk]; rfl)
  · exact heffort (by rw [hk]; rfl)

omit [Fintype N] [Fintype T] in
lemma handler_loc (h : Stalled serverSocket p) (i : T) (k : ℕ) :
    ((p.state k).router.loc i).handler = ((p.state 0).router.loc i).handler := by
  refine p.induct (fun w => (w.router.loc i).handler = ((p.state 0).router.loc i).handler) rfl
    (fun k ih => ?_) k
  by_cases ht : Agent.Takes serverSocket (.thread i) (p.state k) (p.label k)
  · obtain ⟨e, -, hstep⟩ := h.step_of_takes ht
    exact hstep.handler.trans ih
  · rw [h.loc_of_not_takes ht]
    exact ih

/-- A thread comes back to the top of its handler. -/
lemma exists_entry (hr : Ranged cfg) (h : Stalled serverSocket p) (i : T) :
    ∃ k, (p.state k).router.loc i = ((p.state 0).router.loc i).handler.entry := by
  obtain ⟨k, hk⟩ := h.exists_waiting hr i
  refine ⟨k, ?_⟩
  rw [← h.handler_loc i k]
  rcases hk with hk | hk <;> rw [hk] <;> rfl

omit [Fintype N] [Fintype T] in
/-- No write task is popped. -/
lemma not_takes_popWrite (h : Stalled serverSocket p) {k : ℕ} {j : T}
    (hpc : (p.state k).router.loc j = .popWrite) :
    ¬ Agent.Takes serverSocket (.thread j) (p.state k) (p.label k) := by
  intro ht
  have hlt := (h.work_loc (by rw [hpc]; simp)).2 ht
  rw [hpc] at hlt
  exact Nat.not_lt_zero _ hlt

/-- **The write queue is empty**, when there is a writer. -/
lemma writeQueue (hr : Ranged cfg) (h : Stalled serverSocket p) {j : T}
    (hj : ((p.state 0).router.loc j).handler = .workerThreadWrite) :
    (p.state 0).router.shared.writeQueue = [] := by
  by_contra hqueue
  obtain ⟨d, hd⟩ := h.exists_entry hr j
  rw [hj] at hd
  have hpop : ∀ k, ((p.drop d).state k).router.loc j = .popWrite := by
    refine (p.drop d).induct (fun w => w.router.loc j = .popWrite) hd fun k ih => ?_
    exact ((h.drop d).loc_of_not_takes ((h.drop d).not_takes_popWrite ih)).trans ih
  obtain ⟨k, hk⟩ := (h.drop d).exists_not_can (.thread j)
    fun k => (h.drop d).not_takes_popWrite (hpop k)
  obtain ⟨tr, htr⟩ := (h.drop d).reaches k
  refine hk (can_thread hr htr ?_ ?_)
  · rw [hpop k]
    rintro (⟨hread, -⟩ | ⟨-, hnil⟩)
    · cases hread
    · exact hqueue ((h.frozen (d + k)).2.2.2.symm.trans hnil)
  · rw [hpop k]
    exact fun a ha => by cases ha

omit [Fintype N] [Fintype T] in
/-- Only a node that is refused moves. -/
lemma connect_of_takes (h : Stalled serverSocket p) {n : N} {k : ℕ}
    (ht : Agent.Takes serverSocket (.node n) (p.state k) (p.label k)) :
    ((p.state 0).nodes n).place = .connect := by
  rw [← (h.frozen k).1]
  rcases idle_cases (p.step k) (h.idle k) with ⟨j, e', pc', sh', hlabel, -, -⟩ |
    ⟨s, hlabel, -⟩ | ⟨m, hlabel, hpl, -⟩
  · rw [hlabel] at ht
    cases ht
  · rw [hlabel] at ht
    cases ht
  · rw [hlabel] at ht
    obtain rfl : m = n := ht
    exact hpl

/-- **No node has something to send.** -/
lemma place_ne_send (hr : Ranged cfg) (h : Stalled serverSocket p) (n : N) (q : Node.Purpose)
    (retry : ℕ) :
    ((p.state 0).nodes n).place ≠ .send q retry := by
  intro hpl
  obtain ⟨k, hk⟩ := h.exists_not_can (.node n) fun k ht => by
    rw [h.connect_of_takes ht] at hpl
    cases hpl
  obtain ⟨tr, htr⟩ := h.reaches k
  rw [← (h.frozen k).1] at hpl
  obtain ⟨e, m, hstep⟩ := exists_send_step hr htr hpl
  exact hk ⟨_, _, hstep, rfl⟩

/-- **Nothing comes to a node any more.** -/
lemma toNode (hr : Ranged cfg) (h : Stalled serverSocket p) (hx : (p.state 0).conns[c]? = some x) :
    x.toNode = [] := by
  by_contra hne
  obtain ⟨tr, htr⟩ := h.reached
  obtain ⟨-, hlive⟩ := account_of_reaches hr htr
  obtain ⟨hsocket, hkept⟩ := hlive.inUse c _ _ (ends_getElem? hx)
  have hpl : ((p.state 0).nodes x.node).place = .receive := by
    cases hpl : ((p.state 0).nodes x.node).place with
    | receive => rfl
    | send q retry => exact absurd hpl (h.place_ne_send hr x.node q retry)
    | stopped => exact absurd hpl ((network_refines hr htr.of_restrict).1.running x.node)
    | connect =>
        rw [hpl] at hkept
        exact absurd trivial hkept
    | close =>
        rw [hpl] at hkept
        exact absurd trivial hkept
  obtain ⟨k, hk⟩ := h.exists_not_can (.node x.node) fun k ht => by
    rw [h.connect_of_takes ht] at hpl
    cases hpl
  obtain ⟨tr', htr'⟩ := h.reaches k
  obtain ⟨hnodes, hconns, -⟩ := h.frozen k
  rw [← hsocket, ← hconns, ← hnodes] at hx
  rw [← hnodes] at hpl
  obtain ⟨bs, w', hstep⟩ := exists_answer_step hr htr' hpl hx hne
  exact hk ⟨_, _, hstep, rfl⟩

omit [Fintype N] [Fintype T] in
/-- Every connection is accepted. -/
lemma exists_socket (h : Stalled serverSocket p) (hx : (p.state 0).conns[c]? = some x) :
    ∃ s, x.socket = some s := by
  by_contra hnone
  have hsocket : x.socket = none := by
    by_contra hsome
    exact hnone (Option.ne_none_iff_exists'.mp hsome)
  obtain ⟨k, hk⟩ := h.exists_not_can .accept
    fun k => (WorldEvent.not_takes_of_idle (h.idle k) x.node).1
  obtain ⟨tr, htr⟩ := h.reaches k
  rw [← (h.frozen k).2.1] at hx
  obtain ⟨s, S, -, hstep⟩ := exists_accept_step htr hx hsocket serverSocket
  exact hk ⟨_, _, hstep.1, trivial⟩

/-- A socket from which something can be received is reported. -/
lemma exists_reported (hr : Ranged cfg) (h : Stalled serverSocket p)
    (hN : Fintype.card N < fdSetSize) (hx : (p.state 0).conns[c]? = some x) {s : ℤ}
    (hs : x.socket = some s) (hne : x.toRouter ≠ []) :
    ∃ k, s ∈ (p.state k).router.shared.readQueue := by
  by_contra hnot
  push Not at hnot
  obtain ⟨tr, htr⟩ := h.reached
  obtain ⟨-, hlive⟩ := account_of_reaches hr htr
  obtain ⟨k, hk⟩ := h.exists_not_can (.report x.node) fun k ht => by
    have hnext := hnot (k + 1)
    rcases idle_cases (p.step k) (h.idle k) with ⟨i, e', pc', sh', hlabel, hstep, -⟩ |
      ⟨t, hlabel, heq⟩ | ⟨n, hlabel, -, -⟩
    · rw [hlabel] at ht
      cases e' with
      | readable t => cases hstep.thread
      | _ => exact ht
    · -- the node has this connection only
      rw [hlabel] at ht
      obtain ⟨-, y, hy, hnode, ht', -⟩ := ht
      rw [(h.frozen k).2.1] at hy
      obtain ⟨d, hd⟩ := List.mem_iff_getElem?.mp hy
      have hdc : d = c := by
        rw [← (hlive.inUse d _ _ (ends_getElem? hd)).1, ← (hlive.inUse c _ _ (ends_getElem? hx)).1,
          hnode]
      obtain rfl : x = y := Option.some.inj (hx.symm.trans (hdc ▸ hd))
      obtain rfl : s = t := Option.some.inj (hs.symm.trans ht')
      rw [heq] at hnext
      exact hnext (mem_push_self _ s)
    · rw [hlabel] at ht
      exact ht
  have hmem : x ∈ (p.state k).conns := by
    rw [(h.frozen k).2.1]
    exact List.mem_of_getElem? hx
  have hwatched := watches_of_reaches hr (htr.append (p.run k)) hN hmem hs serverSocket
  exact hk ⟨.router (.readable s), _, ⟨⟨.readable s, rfl⟩, rfl⟩, hwatched, x, hmem, rfl, hs, hne⟩

omit [Fintype N] [Fintype T] in
/-- A socket in the read queue stays there until it is popped, and comes forward. -/
lemma idxOf_readQueue (h : Stalled serverSocket p) {s : ℤ}
    (hnot : ∀ k j, p.label k ≠ .router (.poppedRead j s)) {k : ℕ}
    (hmem : s ∈ (p.state k).router.shared.readQueue) :
    s ∈ (p.state (k + 1)).router.shared.readQueue ∧
      (p.state (k + 1)).router.shared.readQueue.idxOf s ≤
        (p.state k).router.shared.readQueue.idxOf s := by
  have he := h.idle k
  rcases idle_cases (p.step k) he with ⟨i, e', pc', sh', hlabel, hstep, heq⟩ | ⟨t, -, heq⟩ |
    ⟨n, -, -, heq⟩
  · rw [hlabel] at he
    rw [heq]
    obtain ⟨-, -, -, ⟨t, -, rfl, -, hq⟩ | ⟨-, hq⟩⟩ := hstep.of_idle he
    · have hts : t ≠ s := by
        rintro rfl
        exact hnot k i hlabel
      rw [hq] at hmem ⊢
      rw [List.idxOf_cons_ne _ hts]
      exact ⟨(List.mem_cons.mp hmem).resolve_left hts.symm, Nat.le_succ _⟩
    · exact ⟨by rw [hq]; exact hmem, by rw [hq]⟩
  · rw [heq]
    obtain ⟨hmem', hidx⟩ := idxOf_push (t := t) hmem
    exact ⟨hmem', hidx.le⟩
  · rw [heq]
    exact ⟨hmem, le_rfl⟩

/-- **A socket in the read queue is popped**, when there is a reader. -/
lemma exists_popped (hr : Ranged cfg) (h : Stalled serverSocket p) {i : T}
    (hi : ((p.state 0).router.loc i).handler = .workerThreadRead) {s : ℤ}
    (hmem : s ∈ (p.state 0).router.shared.readQueue) :
    ∃ k j, p.label k = .router (.poppedRead j s) := by
  by_contra hnot
  push Not at hnot
  have hqueue : ∀ k, s ∈ (p.state k).router.shared.readQueue :=
    p.induct (fun w => s ∈ w.router.shared.readQueue) hmem
      fun k hk => (h.idxOf_readQueue hnot hk).1
  -- a pop brings the socket forward by one, which pays for the turn that follows
  have hpot : ∀ k, ((p.state (k + 1)).router.loc i).work +
        8 * (p.state (k + 1)).router.shared.readQueue.idxOf s ≤
      ((p.state k).router.loc i).work + 8 * (p.state k).router.shared.readQueue.idxOf s ∧
      (Agent.Takes serverSocket (.thread i) (p.state k) (p.label k) →
        ((p.state (k + 1)).router.loc i).work +
            8 * (p.state (k + 1)).router.shared.readQueue.idxOf s <
          ((p.state k).router.loc i).work + 8 * (p.state k).router.shared.readQueue.idxOf s) := by
    intro k
    by_cases ht : Agent.Takes serverSocket (.thread i) (p.state k) (p.label k)
    · obtain ⟨e, hlabel, hstep⟩ := h.step_of_takes ht
      have he := h.idle k
      rw [hlabel] at he
      obtain ⟨-, -, -, ⟨t, hpop, rfl, hfind, hq⟩ | ⟨hlt, hq⟩⟩ := hstep.of_idle he
      · have hts : t ≠ s := by
          rintro rfl
          exact hnot k i hlabel
        rw [hpop, hfind, hq, List.idxOf_cons_ne _ hts]
        simp only [Pc.work]
        exact ⟨by omega, fun _ => by omega⟩
      · rw [hq]
        exact ⟨by omega, fun _ => by omega⟩
    · rw [h.loc_of_not_takes ht]
      have hidx := (h.idxOf_readQueue hnot (hqueue k)).2
      exact ⟨by omega, fun ht' => absurd ht' ht⟩
  obtain ⟨d, hd⟩ := eventually_atTop.mp (h.fair.eventually_stops (.thread i)
    (fun w => (w.router.loc i).work + 8 * w.router.shared.readQueue.idxOf s)
    (fun k => (hpot k).1) fun k => (hpot k).2)
  obtain ⟨k, hk⟩ := (h.drop d).exists_entry hr i
  rw [show ((p.drop d).state 0).router.loc i = (p.state d).router.loc i from rfl, h.handler_loc i d,
    hi] at hk
  obtain ⟨tr, htr⟩ := (h.drop d).reaches k
  refine hd (d + k) (Nat.le_add_right d k) (can_thread hr htr ?_ ?_)
  · rw [hk]
    rintro (⟨-, hnil⟩ | ⟨hwrite, -⟩)
    · exact List.ne_nil_of_mem (hqueue (d + k)) hnil
    · cases hwrite
  · rw [hk]
    exact fun a ha => by cases ha

/-- A reader that has popped the socket of a session comes to its `recv`. -/
lemma exists_recv (hr : Ranged cfg) (h : Stalled serverSocket p) {i : T} {s : ℤ} {a : Addr}
    (hreg : (p.state 0).router.shared.sessions.sessionsBySocket s = some (some a))
    (hpc : ((p.state 0).router.loc i).Approaches s) :
    ∃ k b src want, (p.state k).router.loc i = .recv s b src want [] := by
  by_contra hnot
  push Not at hnot
  have happroaches : ∀ k, ((p.state k).router.loc i).Approaches s := by
    refine p.induct (fun w => (w.router.loc i).Approaches s) hpc fun k ih => ?_
    by_cases ht : Agent.Takes serverSocket (.thread i) (p.state k) (p.label k)
    · obtain ⟨e, -, hstep⟩ := h.step_of_takes ht
      rw [← (h.frozen k).2.2.1] at hreg
      rcases hstep.approaches hreg ih with hnext | ⟨b, src, want, hrecv⟩
      · exact hnext
      · exact absurd hrecv (hnot (k + 1) b src want)
    · rw [h.loc_of_not_takes ht]
      exact ih
  obtain ⟨k, hk⟩ := h.exists_waiting hr i
  have hpc' := happroaches k
  rcases hk with hk | hk
  · rw [hk] at hpc'
    exact hpc'
  · rw [hk] at hpc'
    exact hpc'

/-- A reader comes to receive from a socket from which something can be received. -/
lemma exists_poll (hr : Ranged cfg) (h : Stalled serverSocket p)
    (hN : Fintype.card N < fdSetSize) {i : T}
    (hi : ((p.state 0).router.loc i).handler = .workerThreadRead)
    (hx : (p.state 0).conns[c]? = some x) {s : ℤ} (hs : x.socket = some s) (hne : x.toRouter ≠ []) :
    ∃ k j b src want, (p.state k).router.loc j = .recv s b src want [] := by
  obtain ⟨k, hmem⟩ := h.exists_reported hr hN hx hs hne
  obtain ⟨d, j, hpop⟩ := (h.drop k).exists_popped hr ((h.handler_loc i k).trans hi) hmem
  obtain ⟨tr, htr⟩ := h.reached
  obtain ⟨hst, -⟩ := standing_of_reaches (router_reaches htr.of_restrict)
  obtain ⟨a, hreg, -⟩ := hst.exists_session
    (registered_of_reaches hr htr x (List.mem_of_getElem? hx) s hs)
  -- the reader that pops it has found the session when it comes back to its queue
  have hfind : ((p.state (k + d + 1)).router.loc j).Approaches s := by
    obtain ⟨e, hlabel, hstep⟩ := (h.drop k).step_of_takes (k := d) (i := j) (by rw [hpop]; rfl)
    obtain rfl := WorldEvent.router.inj (hpop.symm.trans hlabel)
    rw [show (p.state (k + d + 1)).router.loc j = _ from hstep.findSrc_of_popped]
    rfl
  rw [← (h.frozen (k + d + 1)).2.2.1] at hreg
  obtain ⟨m, b, src, want, hrecv⟩ := (h.drop (k + d + 1)).exists_recv hr hreg hfind
  exact ⟨_, j, b, src, want, hrecv⟩

/-- **Nothing is left in a channel towards the router**, when there is a reader. -/
lemma toRouter (hr : Ranged cfg) (h : Stalled serverSocket p)
    (hN : Fintype.card N < fdSetSize) {i : T}
    (hi : ((p.state 0).router.loc i).handler = .workerThreadRead)
    (hx : (p.state 0).conns[c]? = some x) : x.toRouter = [] := by
  by_contra hne
  obtain ⟨s, hs⟩ := h.exists_socket hx
  obtain ⟨q, qs, hch⟩ := List.exists_cons_of_ne_nil hne
  obtain ⟨d, hd⟩ := eventually_atTop.mp (h.fair.eventually_not_can (.deliver x.node)
    (.of_forall fun k => (WorldEvent.not_takes_of_idle (h.idle k) x.node).2))
  have hxd : ((p.drop d).state 0).conns[c]? = some x := by
    rw [show ((p.drop d).state 0).conns = _ from (h.frozen d).2.1]
    exact hx
  obtain ⟨k, j, b, src, want, hpc⟩ :=
    (h.drop d).exists_poll hr hN ((h.handler_loc i d).trans hi) hxd hs hne
  rw [← (h.frozen (d + k)).2.1] at hx
  obtain ⟨tr, htr⟩ := h.reaches (d + k)
  obtain ⟨bs, pc', g, hstep, -⟩ := exists_recv_step hr htr hpc hx hs hch
  exact hd (d + k) (Nat.le_add_right d k) ⟨_, _, hstep, owner_of_getElem? hx hs⟩

/-- **Nothing is in flight** on a stalled path. -/
lemma count (hr : Ranged cfg) (h : Stalled serverSocket p) (hN : Fintype.card N < fdSetSize)
    (hm : Manned (p.state 0).router) :
    (p.state 0).count = 0 := by
  obtain ⟨⟨i, hi⟩, j, hj⟩ := hm
  have hcarried : carried (p.state 0).conns = 0 := by
    refine List.sum_eq_zero fun k hk => ?_
    obtain ⟨x, hx, rfl⟩ := List.mem_map.mp hk
    obtain ⟨c, hc⟩ := List.mem_iff_getElem?.mp hx
    simp [Connection.frames, h.toRouter hr hN hi hc, h.toNode hr hc]
  have hthreads : ∑ i, ((p.state 0).router.loc i).messages = 0 := by
    refine Finset.sum_eq_zero fun i _ => ?_
    have heffort := h.effort_loc hr i
    generalize (p.state 0).router.loc i = pc at heffort
    cases pc <;> first | rfl | cases heffort
  have hhands : ∑ n, ((p.state 0).nodes n).place.messages = 0 := by
    refine Finset.sum_eq_zero fun n _ => ?_
    cases hpl : ((p.state 0).nodes n).place with
    | send q retry => exact absurd hpl (h.place_ne_send hr n q retry)
    | _ => rfl
  rw [World.count, hcarried, h.writeQueue hr hj, hthreads, hhands]
  rfl

end Stalled

/-! ### The ping-pong -/

omit [Fintype N] [Fintype T] in
/-- There is a fair path without a failure from every state. -/
lemma exists_fair_path [Finite N] [Finite T] (cfg : N → Node) (serverSocket : ℤ)
    (w : World N T) :
    ∃ p : (faultlessNetwork T cfg).Path, p.state 0 = w ∧ p.Fair (Agent.Takes serverSocket) := by
  have : Finite (Agent N T) := by
    have := Fintype.ofFinite N
    have := Fintype.ofFinite T
    infer_instance
  have hserial : ∀ w, ∃ e w', (faultlessNetwork T cfg).step w e w' :=
    fun w => ⟨.router (.readable 0), _, ⟨.readable 0, rfl⟩, rfl⟩
  exact Lts.exists_fair (Agent.Takes serverSocket) hserial w

/-- A message is dropped, or one arrives again and again. -/
lemma unrouted_or_arrives (hr : Ranged cfg) {p : (faultlessNetwork T cfg).Path}
    (h : (faultlessNetwork T cfg).Reaches tr (p.state 0)) (hm : Manned (p.state 0).router)
    (hN : Fintype.card N < fdSetSize)
    (hfair : p.Fair (Agent.Takes serverSocket)) (hflight : (p.state 0).inFlight ≠ 0) :
    (∃ k, (p.label k).unrouted = true) ∨ ∃ᶠ k in atTop, (p.label k).arrives = true := by
  by_contra hnot
  push Not at hnot
  obtain ⟨hrouted, harrives⟩ := hnot
  -- with no more arrivals the effort comes to a standstill, and all steps are idle
  have hstep : ∀ᶠ k in atTop,
      (p.state (k + 1)).effort + (!(p.label k).idle).toNat ≤ (p.state k).effort := by
    filter_upwards [harrives] with k hk
    have hpaid := effort_of_step hr (h.append (p.run k)).of_restrict (p.step k)
    rw [Bool.eq_false_iff.mpr hk] at hpaid
    exact hpaid
  have hstill := p.eventually_eq World.effort
    (hstep.mono fun k hk => (Nat.le_add_right _ _).trans hk)
  obtain ⟨d, hd⟩ := eventually_atTop.mp (hstep.and hstill)
  have hidle : ∀ k, (p.label (d + k)).idle = true := by
    intro k
    obtain ⟨hpaid, heq⟩ := hd (d + k) (Nat.le_add_right d k)
    cases hi : (p.label (d + k)).idle with
    | true => rfl
    | false =>
        simp only [hi, Bool.not_false, Bool.toNat_true] at hpaid
        omega
  have hstalled : Stalled serverSocket (p.drop d) := ⟨⟨_, h.append (p.run d)⟩, hidle, hfair.drop d⟩
  have hcount : (p.state d).count = 0 := hstalled.count hr hN (hm.run (p.run d).of_restrict)
  rcases unrouted_or_count_le hr h (p.run d) with ⟨e, he, hu⟩ | hle
  · obtain ⟨k, -, rfl⟩ := List.mem_map.mp he
    exact hrouted k hu
  · refine hflight (Multiset.card_eq_zero.mp ?_)
    rw [card_inFlight]
    omega

/-- **The ping-pong never ends.** On every fair path without a failure, of less than `FD_SETSIZE`
nodes and a router with a reader and a writer, that begins in a reachable state with a data
message in flight, the nodes receive messages without end, unless the router drops one, as it
finds no session for its destination. So they do when the router knows the ids of all nodes and
of their destinations. Of the event loop, fairness asks for reports of sockets in the set of
`select` only. The nodes have ids up to 998 and destinations up to 999 (`Ranged`), and a `recv`
takes whole packets (`recvFrom`). -/
theorem ping_pong_never_ends (hr : Ranged cfg) {p : (faultlessNetwork T cfg).Path}
    (h : (faultlessNetwork T cfg).Reaches tr (p.state 0)) (hm : Manned (p.state 0).router)
    (hN : Fintype.card N < fdSetSize) {serverSocket : ℤ}
    (hfair : p.Fair (Agent.Takes serverSocket)) (hflight : (p.state 0).inFlight ≠ 0) :
    ((∃ k, (p.label k).unrouted = true) ∨ ∃ᶠ k in atTop, (p.label k).arrives = true) ∧
      (Known cfg (p.state 0).router.shared.sessions →
        ∃ᶠ k in atTop, (p.label k).arrives = true) := by
  have hcases := unrouted_or_arrives hr h hm hN hfair hflight
  refine ⟨hcases, fun hk => hcases.resolve_left ?_⟩
  rintro ⟨k, hu⟩
  obtain ⟨-, hnone⟩ := hk.run hr h (p.run (k + 1))
  refine List.countP_eq_zero.mp hnone (p.label k) ?_ hu
  exact List.mem_map_of_mem (List.mem_range.mpr (Nat.lt_succ_self k))

/-- Two nodes go on for ever after their first answer. -/
theorem ping_pong_never_ends_two :
    ∃ tr, ∃ p : (faultlessNetwork (Fin 2) twoNodes).Path,
      (faultlessNetwork (Fin 2) twoNodes).Reaches tr (p.state 0) ∧ p.Fair (Agent.Takes 3) ∧
      (p.state 0).inFlight.card = 1 ∧ ∃ᶠ k in atTop, (p.label k).arrives = true := by
  obtain ⟨tr, w, hreach, hm, hknown, hcard, -⟩ := exists_known_twoNodes
  obtain ⟨p, rfl, hfair⟩ := exists_fair_path twoNodes 3 w
  have hflight : (p.state 0).inFlight ≠ 0 := by
    rintro hzero
    rw [hzero] at hcard
    cases hcard
  exact ⟨tr, p, hreach, hfair, hcard,
    (ping_pong_never_ends ranged_twoNodes hreach hm (by decide) hfair hflight).2 hknown⟩

end MessageRouting
