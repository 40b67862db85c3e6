import MessageRouting.Router.FdSet
import MessageRouting.Router.Start
import MessageRouting.System.Accounting

/-!
What the threads of the router and the nodes can do next, from every state that the system
can reach, without a failure.

* `faultlessNetwork`: the runs in which no call fails and no connection breaks.
* `selectNetwork`: those of them in which the event loop reports what `select` can watch, whose
  set holds `FD_SETSIZE` sockets. The runs that are built here are such runs.
* `Manned`: the router has a reader and a writer.
* `exists_calm_run`: the threads can bring what is in their hands and queues to the channels.
* `exists_accept_step`: a connection can be accepted; `exists_turn_run`, `exists_recv_step`,
  `exists_take_run`: a reader comes to its `recv` and takes the next packet of a connection.
* `exists_send_step`, `exists_answer_step`: what the nodes can do.
-/

namespace MessageRouting

open Node (msgLen buildIdMessage)

variable {N T : Type} {cfg : N → Node} {w w' : World N T} {c : ℕ} {x : Connection N}
  {e : WorldEvent N T} {tr : List (WorldEvent N T)}

/-- There is a reader and a writer. -/
def Manned (st : RouterState T) : Prop :=
  (∃ i, (st.loc i).handler = .workerThreadRead) ∧ ∃ i, (st.loc i).handler = .workerThreadWrite

/-- At rest a reader waits for a socket. -/
lemma AtRest.exists_reader {st : RouterState T} (hrest : AtRest st) (hm : Manned st) :
    ∃ i, st.loc i = .popRead ∧ st.shared.readQueue = [] := by
  obtain ⟨⟨i, hi⟩, -⟩ := hm
  rcases hrest i with hread | ⟨hwrite, -⟩
  · exact ⟨i, hread⟩
  · rw [hwrite] at hi
    cases hi

/-- At rest a writer waits for a task. -/
lemma AtRest.writeQueue {st : RouterState T} (hrest : AtRest st) (hm : Manned st) :
    st.shared.writeQueue = [] := by
  obtain ⟨-, i, hi⟩ := hm
  rcases hrest i with ⟨hread, -⟩ | ⟨-, hwrite⟩
  · rw [hread] at hi
    cases hi
  · exact hwrite

/-! ### The channels towards the router -/

/-- The number of packets towards the router in the channels of some connections. -/
def inbound (conns : List (Connection N)) : ℕ := (conns.map fun x => x.toRouter.length).sum

/-- A change of one connection that leaves its channel towards the router alone. -/
lemma inbound_modify_of_eq {conns : List (Connection N)} {f : Connection N → Connection N}
    (hf : ∀ x, (f x).toRouter = x.toRouter) : inbound (conns.modify c f) = inbound conns :=
  congrArg List.sum (map_modify_of_eq fun x => congrArg List.length (hf x))

lemma inbound_modify {conns : List (Connection N)} (f : Connection N → Connection N)
    (hx : conns[c]? = some x) :
    inbound (conns.modify c f) + x.toRouter.length = inbound conns + (f x).toRouter.length :=
  List.sum_map_modify f (fun x => x.toRouter.length) hx

variable [DecidableEq N] [DecidableEq T]

/-! ### Runs without a failure -/

/-- All interleavings in which no call fails and no connection breaks. -/
def faultlessNetwork (T : Type) [DecidableEq T] (cfg : N → Node) :
    Lts (World N T) (WorldEvent N T) :=
  (network T cfg).restrict fun _ e => e.faultless = true

/-! ### What the event loop can do -/

/-- The socket is in the set that `reset_fd_set` makes of the server socket and the clients. -/
def World.Watches (serverSocket : ℤ) (w : World N T) (s : ℤ) : Prop :=
  s ∈ (resetFdSet .empty serverSocket w.router.shared.sessions.acceptedClients).2.toList

/-- What the event loop can do: `accept` does not return the server socket, which is open, and
the clients that are reported are those in the set. -/
def World.Selects (serverSocket : ℤ) (w : World N T) : WorldEvent N T → Prop
  | .router (.accepted s) => s ≠ serverSocket
  | .router (.readable s) => s ≠ serverSocket ∧ w.Watches serverSocket s
  | _ => True

/-- All interleavings without a failure in which the event loop does what it can do. -/
def selectNetwork (T : Type) [DecidableEq T] (cfg : N → Node) (serverSocket : ℤ) :
    Lts (World N T) (WorldEvent N T) :=
  (faultlessNetwork T cfg).restrict (World.Selects serverSocket)

omit [DecidableEq N] [DecidableEq T] in
/-- As long as there is room, every client is watched. -/
lemma watches_of_mem (hst : Standing w.router.shared) {serverSocket s : ℤ}
    (hs : s ∈ w.router.shared.sessions.acceptedClients)
    (hroom : w.router.shared.sessions.acceptedClients.length < fdSetSize) :
    w.Watches serverSocket s := by
  have hmon : Monitored (resetFdSet .empty serverSocket w.router.shared.sessions.acceptedClients)
      serverSocket w.router.shared.sessions.acceptedClients := by
    rw [monitored_iff hst.consistent.nodup, List.length_insert]
    split_ifs
    · exact hroom.le
    · exact hroom
  exact (hmon.1 s).mpr (.inr hs)

omit [DecidableEq N] [DecidableEq T] in
/-- The socket of a client is not the server socket, which is not opened by `accept`. -/
lemma selects_readable (hst : Standing w.router.shared) {serverSocket s : ℤ}
    (hserver : serverSocket ∉ w.router.shared.opened)
    (hs : s ∈ w.router.shared.sessions.acceptedClients)
    (hroom : w.router.shared.sessions.acceptedClients.length < fdSetSize) :
    w.Selects serverSocket (.router (.readable s)) := by
  refine ⟨?_, watches_of_mem hst hs hroom⟩
  rintro rfl
  obtain ⟨a, -, z, hz, rfl⟩ := hst.exists_session ((hst.consistent.mem_accepted s).mp hs)
  exact hserver (hst.opened a z hz)

/-- In these runs the server socket is never accepted. -/
lemma not_opened_of_run {serverSocket : ℤ} (hserver : serverSocket ∉ w.router.shared.opened)
    (h : (selectNetwork T cfg serverSocket).Run w tr w') :
    serverSocket ∉ w'.router.shared.opened := by
  refine h.invariant (fun w => serverSocket ∉ w.router.shared.opened) hserver ?_
  rintro u e v hu ⟨⟨⟨act, hs⟩, -⟩, hsel⟩
  cases act with
  | thread i o =>
      obtain ⟨inp, e', pc', sh', -, hn, -, rfl⟩ := thread_step hs
      show serverSocket ∉ sh'.opened
      rw [(step_of_next hn).opened]
      exact hu
  | accept s c =>
      simp only [World.step, Program.step, Option.ite_none_right_eq_some, Option.map_eq_some_iff,
        Prod.mk.injEq, Prod.exists] at hs
      obtain ⟨-, _, _, ⟨e', sh', hn, rfl, rfl⟩, rfl, rfl⟩ := hs
      have hn' : loopStep u.router.shared (.accept s) = some (e', sh') := hn
      rcases loopStep_cases hn' with ⟨t, S, rfl, -, -, rfl⟩ | ⟨t, rfl, rfl⟩
      · exact List.not_mem_cons_of_ne_of_not_mem (fun h => hsel h.symm) hu
      · exact hu
  | readable s =>
      simp only [World.step, Program.step, Option.map_eq_some_iff, Prod.mk.injEq,
        Prod.exists] at hs
      obtain ⟨_, _, ⟨e', sh', hn, rfl, rfl⟩, -, rfl⟩ := hs
      cases hn
      exact hu
  | node n o =>
      simp only [World.step, Option.bind_eq_some_iff, Option.map_eq_some_iff, Prod.mk.injEq] at hs
      obtain ⟨inp, -, r, -, -, rfl⟩ := hs
      show serverSocket ∉ (u.observeNode cfg n r.1).router.shared.opened
      rw [observeNode_router]
      exact hu
  | cut c k l =>
      cases hs
      exact hu

/-! ### Calm steps -/

/-- The threads of the router alone move. -/
def WorldEvent.Calm : WorldEvent N T → Prop
  | .router e => e.Calm
  | _ => False

/-- The router makes a step of its own in a step of the system, or none. -/
lemma router_step (h : (network T cfg).step w e w') :
    (∃ e', (workers T).step w.router e' w'.router) ∨ w'.router = w.router := by
  obtain ⟨act, hs⟩ := h
  cases act with
  | thread i o =>
      simp only [World.step, Option.bind_eq_some_iff, Option.map_eq_some_iff, Prod.mk.injEq] at hs
      obtain ⟨inp, -, r, hr, -, rfl⟩ := hs
      exact .inl ⟨r.1, _, hr⟩
  | accept s c =>
      simp only [World.step, Option.ite_none_right_eq_some, Option.map_eq_some_iff,
        Prod.mk.injEq] at hs
      obtain ⟨-, r, hr, -, rfl⟩ := hs
      exact .inl ⟨r.1, _, hr⟩
  | readable s =>
      simp only [World.step, Option.map_eq_some_iff, Prod.mk.injEq] at hs
      obtain ⟨r, hr, -, rfl⟩ := hs
      exact .inl ⟨r.1, _, hr⟩
  | node n o =>
      simp only [World.step, Option.bind_eq_some_iff, Option.map_eq_some_iff, Prod.mk.injEq] at hs
      obtain ⟨inp, -, r, -, -, rfl⟩ := hs
      exact .inr (observeNode_router n r.1)
  | cut c k l =>
      cases hs
      exact .inr rfl

lemma Manned.run (hm : Manned w.router) (h : (network T cfg).Run w tr w') : Manned w'.router := by
  refine h.invariant (fun w => Manned w.router) hm ?_
  rintro w e w' ⟨⟨i, hi⟩, j, hj⟩ hs
  rcases router_step hs with ⟨e', hstep⟩ | hsame
  · exact ⟨⟨i, (handler_of_step hstep i).trans hi⟩, j, (handler_of_step hstep j).trans hj⟩
  · rw [hsame]
    exact ⟨⟨i, hi⟩, j, hj⟩

/-! ### The threads of the router -/

omit [DecidableEq N] in
lemma observe_inbound {e : Event T} (he : e.Calm) :
    inbound (w.observe e).conns = inbound w.conns := by
  cases e with
  | received i s r =>
      obtain rfl : r = .wouldBlock := he
      rfl
  | sent i k s m ok =>
      obtain rfl : ok = true := he
      cases hb : w.behind s with
      | none => simp [World.observe, hb]
      | some c =>
          simp only [World.observe, hb]
          refine inbound_modify_of_eq fun x => ?_
          rw [Connection.sendToNode]
          split_ifs
          · rfl
          · rfl
  | _ => rfl

omit [DecidableEq N] [DecidableEq T] in
lemma Event.Calm.faultless {e : Event T} (h : e.Calm) :
    (WorldEvent.router e : WorldEvent N T).faultless = true := by
  cases e with
  | received i s r =>
      obtain rfl : r = .wouldBlock := h
      rfl
  | sent i k s m ok => exact h
  | _ => rfl

omit [DecidableEq N] [DecidableEq T] in
lemma Event.Calm.selects {e : Event T} (h : e.Calm) (serverSocket : ℤ) (w : World N T) :
    w.Selects serverSocket (.router e) := by
  cases e with
  | accepted s => exact h.elim
  | readable s => exact h.elim
  | _ => trivial

/-- A step of the threads alone leaves the channels towards the router and the nodes alone. -/
lemma keeps_of_calm (hs : (network T cfg).step w e w') (he : e.Calm) :
    inbound w'.conns = inbound w.conns ∧ w'.nodes = w.nodes ∧
      w'.router.shared.sessions.acceptedClients.Sublist
        w.router.shared.sessions.acceptedClients := by
  obtain ⟨act, hs⟩ := hs
  cases act with
  | thread i o =>
      obtain ⟨inp, e', pc', sh', -, hn, rfl, rfl⟩ := thread_step hs
      exact ⟨observe_inbound he, (observe_ends w e').2.1, (step_of_next hn).acceptedClients⟩
  | accept s c =>
      simp only [World.step, Program.step, Option.ite_none_right_eq_some, Option.map_eq_some_iff,
        Prod.mk.injEq, Prod.exists] at hs
      obtain ⟨-, _, _, ⟨e', sh', hn, rfl, rfl⟩, rfl, -⟩ := hs
      have hn' : loopStep w.router.shared (.accept s) = some (e', sh') := hn
      rcases loopStep_cases hn' with ⟨t, S, rfl, -⟩ | ⟨t, rfl, -⟩
      · exact he.elim
      · exact he.elim
  | readable s =>
      simp only [World.step, Program.step, Option.map_eq_some_iff, Prod.mk.injEq, Prod.exists] at hs
      obtain ⟨_, _, ⟨e', sh', hn, rfl, rfl⟩, rfl, -⟩ := hs
      cases hn
      exact he.elim
  | node n o =>
      simp only [World.step, Option.bind_eq_some_iff, Option.map_eq_some_iff, Prod.mk.injEq] at hs
      obtain ⟨inp, -, r, -, rfl, -⟩ := hs
      exact he.elim
  | cut c k l =>
      cases hs
      exact he.elim

omit [DecidableEq N] [DecidableEq T] in
/-- There is a connection behind the socket of a session. -/
lemma Linked.behind_of_session (h : Linked cfg w) {s : ℤ} {a : Addr}
    (hs : SessionOf w.router.shared s a) :
    ∃ c x, w.behind s = some c ∧ w.conns[c]? = some x ∧ x.socket = some s := by
  obtain ⟨z, hz, rfl⟩ := hs
  obtain ⟨n, ho, -⟩ := h.sessions a z hz
  obtain ⟨c, hb⟩ := behind_of_owner ho
  obtain ⟨x, hx, hs⟩ := behind_eq_some hb
  exact ⟨c, x, hb, hx, hs⟩

omit [DecidableEq T] in
lemma Located.serving {sh : Shared T} {i : T} {s : ℤ} {a src : Addr} {want : Wanted}
    {got : List UInt8} (h : Located sh i (.recv s a src want got)) : Serving sh i s a src := by
  cases want with
  | idMessage => exact h.1
  | dataMessage => exact h

/-- A step of a thread in the system. -/
lemma faultless_step {i : T} {o : Outcome} {inp : Input} {e : Event T} {st : RouterState T}
    (ho : w.input i o = some inp) (hs : (router T).step w.router (.thread i inp) = some (e, st))
    (he : (WorldEvent.router e : WorldEvent N T).faultless = true) :
    (faultlessNetwork T cfg).step w (.router e) { w.observe e with router := st } := by
  refine ⟨⟨.thread i o, ?_⟩, he⟩
  simp only [World.step, ho, Option.bind_some, hs, Option.map_some]

/-- A thread that can go on without a client can do so in the system. -/
lemma calm_step (h : Linked cfg w) (hst : Standing w.router.shared)
    (hloc : ∀ i, Located w.router.shared i (w.router.loc i)) {i : T} {inp : Input} {e : Event T}
    {st : RouterState T} (hs : (router T).step w.router (.thread i inp) = some (e, st))
    (he : e.Calm) :
    (faultlessNetwork T cfg).step w (.router e) { w.observe e with router := st } := by
  obtain ⟨o, ho⟩ : ∃ o, w.input i o = some inp := by
    simp only [Program.step, Option.map_eq_some_iff, Prod.mk.injEq, Prod.exists] at hs
    obtain ⟨e', pc', sh', hn, rfl, -⟩ := hs
    have hn' : next w.router.shared i (w.router.loc i) inp = some (e', pc', sh') := hn
    cases inp with
    | go => exact ⟨.go, rfl⟩
    | sent ok => exact ⟨.sent ok, rfl⟩
    | recv r =>
        cases hpc : w.router.loc i with
        | recv s a src want got =>
            rw [hpc] at hn'
            simp only [next, Option.map_eq_some_iff, Prod.mk.injEq] at hn'
            obtain ⟨pc, -, rfl, -⟩ := hn'
            obtain rfl : r = .wouldBlock := he
            have hl := hloc i
            rw [hpc] at hl
            obtain ⟨c, x, hb, hx, -⟩ := h.behind_of_session (hl.serving.sessionOf hst)
            exact ⟨.arrived 0, by simp [World.input, hpc, hb, hx, recvFrom]⟩
        | _ => rw [hpc] at hn'; cases hn'
  exact faultless_step ho hs he.faultless

variable [Fintype N] [Fintype T]

/-- **The threads settle**: they bring all that is in their hands and queues to the channels,
as far as there is a session for it. -/
lemma exists_calm_run (hr : Ranged cfg) (h : (network T cfg).Reaches tr w) (serverSocket : ℤ) :
    ∃ tr' w', (selectNetwork T cfg serverSocket).Run w tr' w' ∧ AtRest w'.router ∧
      inbound w'.conns = inbound w.conns ∧ w'.nodes = w.nodes ∧
      w'.router.shared.sessions.acceptedClients.Sublist
        w.router.shared.sessions.acceptedClients := by
  have hsettle : ∃ tr' w',
      ((selectNetwork T cfg serverSocket).restrict fun _ e => e.Calm).Run w tr' w' ∧
        AtRest w'.router := by
    refine Lts.exists_run_to (fun w => w.router.work)
      (fun w => ∃ tr, (network T cfg).Reaches tr w) (fun w => AtRest w.router) ?_ ?_ ⟨tr, h⟩
    · rintro u e v ⟨tr, hu⟩ hs
      exact ⟨_, hu.append (.single hs.1.1.1)⟩
    · rintro u ⟨tr, hu⟩ hrest
      have hrouter := router_reaches hu
      obtain ⟨hst, hloc⟩ := standing_of_reaches hrouter
      obtain ⟨i, inp, e, st, hs, he⟩ := exists_calm_step hrouter hrest
      have hcalm := calm_step (network_refines hr hu).1 hst hloc hs he
      refine ⟨.router e, _, ⟨⟨hcalm, he.selects serverSocket u⟩, he⟩, ?_⟩
      have hstep : (workers T).step u.router e st := ⟨.thread i inp, hs⟩
      have hwork := work_step hstep
      rw [he.internal.gain] at hwork
      exact hwork
  obtain ⟨tr', w', hrun, hrest⟩ := hsettle
  refine ⟨tr', w', hrun.of_restrict, hrest, ?_⟩
  refine hrun.invariant (fun w' => inbound w'.conns = inbound w.conns ∧ w'.nodes = w.nodes ∧
    w'.router.shared.sessions.acceptedClients.Sublist
      w.router.shared.sessions.acceptedClients) ⟨rfl, rfl, List.Sublist.refl _⟩ ?_
  rintro u e v ⟨hin, hnodes, hsub⟩ ⟨hs, he⟩
  obtain ⟨hin', hnodes', hsub'⟩ := keeps_of_calm hs.1.1 he
  exact ⟨hin'.trans hin, hnodes'.trans hnodes, hsub'.trans hsub⟩

/-! ### A reader takes a packet -/

omit [Fintype N] [Fintype T] in
/-- A reader whose socket is registered comes to its first `recv`. -/
lemma exists_turn_run {i : T} {s serverSocket : ℤ} {a : Addr} (hpc : w.router.loc i = .popRead)
    (hqueue : w.router.shared.readQueue = [s])
    (hreg : w.router.shared.sessions.sessionsBySocket s = some (some a))
    (hfree : w.router.shared.holder a = none) :
    ∃ tr st want, (selectNetwork T cfg serverSocket).Run w tr { w with router := st } ∧
      st.loc i = .recv s a a want [] ∧ st.shared.sessions = w.router.shared.sessions := by
  have hgo : ∀ sh pc e pc' sh', next sh i pc .go = some (e, pc', sh') →
      (WorldEvent.router e : WorldEvent N T).faultless = true →
      (∀ v : World N T, v.observe e = v ∧ v.Selects serverSocket (.router e)) →
      (selectNetwork T cfg serverSocket).step
        { w with router := ⟨sh, Function.update w.router.loc i pc⟩ } (.router e)
        { w with router := ⟨sh', Function.update w.router.loc i pc'⟩ } := by
    intro sh pc e pc' sh' hn he hobs
    have hs : (router T).step ⟨sh, Function.update w.router.loc i pc⟩ (.thread i .go) =
        some (e, ⟨sh', Function.update w.router.loc i pc'⟩) := by
      simp only [Program.step, router, Function.update_self, hn, Option.map_some,
        Function.update_idem]
    have hstep : (faultlessNetwork T cfg).step
        { w with router := ⟨sh, Function.update w.router.loc i pc⟩ } _ _ :=
      faultless_step (o := .go) rfl hs he
    rw [(hobs _).1] at hstep
    exact ⟨hstep, (hobs _).2⟩
  have hfind : w.router.shared.sessions.findSessionBySocket s = some a := by
    rw [Sessions.findSessionBySocket, hreg]
  have hstart : { w with router := ⟨w.router.shared, Function.update w.router.loc i .popRead⟩ } =
      w := by
    rw [← hpc, Function.update_eq_self]
  -- the mutex of the session is taken, and the session is found again
  obtain ⟨sh₁, hsh₁⟩ : ∃ sh₁, sh₁ = { w.router.shared with readQueue := [] } := ⟨_, rfl⟩
  have hpop := hgo w.router.shared .popRead (.poppedRead i s) (.findSrc s) sh₁
    (by simp [next, hqueue, SignalingQueue.pop, hsh₁]) rfl fun _ => ⟨rfl, trivial⟩
  have hlookup := hgo sh₁ (.findSrc s) (.lookedUp i s (some a)) (.lockSrc s a) sh₁
    (by simp [next, hfind, hsh₁]) rfl fun _ => ⟨rfl, trivial⟩
  have hlock := hgo sh₁ (.lockSrc s a) (.locked i a) (.refindSrc s a) (sh₁.setHolder a (some i))
    (by simp [next, hfree, hsh₁]) rfl fun _ => ⟨rfl, trivial⟩
  have hagain := hgo (sh₁.setHolder a (some i)) (.refindSrc s a) (.lookedUp i s (some a))
    (.turn s a a) (sh₁.setHolder a (some i)) (by simp [next, Shared.setHolder, hfind, hsh₁]) rfl
    fun _ => ⟨rfl, trivial⟩
  have hturn := hgo (sh₁.setHolder a (some i)) (.turn s a a) _ _ _ rfl rfl
    fun _ => ⟨rfl, trivial⟩
  rw [hstart] at hpop
  exact ⟨_, _, _, ((((Lts.Run.single hpop).snoc hlookup).snoc hlock).snoc hagain).snoc hturn,
    Function.update_self _ _ _, by rw [hsh₁]; rfl⟩

omit [Fintype N] [Fintype T] in
/-- A connection that waits for it can be accepted. -/
lemma exists_accept_step (h : (network T cfg).Reaches tr w) (hx : w.conns[c]? = some x)
    (hsocket : x.socket = none) (serverSocket : ℤ) :
    ∃ s S, w.router.shared.sessions.acceptClient s = some S ∧
      (selectNetwork T cfg serverSocket).step w (.router (.accepted s)) { w with
        router := ⟨{ w.router.shared with sessions := S, opened := s :: w.router.shared.opened },
          w.router.loc⟩
        conns := w.conns.modify c fun x => { x with socket := some s } } := by
  obtain ⟨hst, -⟩ := standing_of_reaches (router_reaches h)
  obtain ⟨s, hs⟩ := Infinite.exists_notMem_finset (serverSocket :: w.router.shared.opened).toFinset
  rw [List.mem_toFinset, List.mem_cons, not_or] at hs
  obtain ⟨hserver, hnew⟩ := hs
  obtain ⟨S, hS⟩ : ∃ S, w.router.shared.sessions.acceptClient s = some S := by
    cases hreg : w.router.shared.sessions.sessionsBySocket s with
    | none => exact ⟨_, by rw [Sessions.acceptClient, hreg]⟩
    | some p =>
        obtain ⟨a, z, -, hz, rfl⟩ := hst.consistent.bySocket s p hreg
        exact absurd (hst.opened a z hz) hnew
  refine ⟨s, S, hS, ⟨⟨.accept s c, ?_⟩, rfl⟩, hserver⟩
  simp [World.step, Program.step, router, loopStep, hx, hsocket, hnew, hS]

omit [DecidableEq N] [DecidableEq T] [Fintype N] [Fintype T] in
/-- When the first packet of a channel has arrived, a `recv` brings some of it. -/
lemma exists_recvFrom {n : ℕ} {p : Packet} (ps : List Packet) (hp : p.bytes ≠ []) (hn : 0 < n) :
    ∃ bs, recvFrom n 1 (p :: ps) = .bytes bs ∧ bs ≠ [] ∧ bs.length ≤ n := by
  obtain ⟨b, bs, hbs⟩ := List.exists_cons_of_ne_nil hp
  obtain ⟨k, rfl⟩ := Nat.exists_eq_add_of_lt hn
  refine ⟨b :: bs.take k, ?_, List.cons_ne_nil _ _, ?_⟩
  · simp [recvFrom, hbs]
  · rw [List.length_cons, List.length_take]
    omega

omit [DecidableEq N] [DecidableEq T] [Fintype N] [Fintype T] in
/-- The packets of a connection are not empty. -/
lemma InOrder.bytes_ne_nil (hr : Ranged cfg) (h : InOrder cfg w c x)
    (hprop : ∀ f ∈ x.frames, f.Proper) : ∀ p ∈ x.toRouter ++ x.toNode, p.bytes ≠ [] := by
  intro p hp hnil
  rcases h.packets p hp with rfl | ⟨f, rfl⟩
  · have hlen := hr.length_idMessage x.node
    rw [show buildIdMessage (cfg x.node).id = [] from hnil] at hlen
    cases hlen
  · refine (hprop f (Connection.mem_frames.mpr ?_)).ne_nil hnil
    exact List.mem_append.mp hp

/-- A reader that stands at a `recv` takes the packet that came. -/
lemma exists_recv_step (hr : Ranged cfg) (h : (network T cfg).Reaches tr w) {i : T} {s : ℤ}
    {a src : Addr} {want : Wanted} (hpc : w.router.loc i = .recv s a src want [])
    (hx : w.conns[c]? = some x) (hs : x.socket = some s) {p : Packet} {ps : List Packet}
    (hch : x.toRouter = p :: ps) :
    ∃ bs pc' g, (faultlessNetwork T cfg).step w (.router (.received i s (.bytes bs))) { w with
        router := ⟨w.router.shared, Function.update w.router.loc i pc'⟩
        conns := w.conns.modify c fun x => { x with toRouter := dropBytes bs.length x.toRouter }
        inHand := g } ∧
      dropBytes bs.length x.toRouter = ps ∧
      ((p = .idMessage (buildIdMessage (cfg x.node).id) ∧
          pc' = .addNode s a src (buildIdMessage (cfg x.node).id)) ∨
        ∃ f, p = .data f ∧ pc' = .findDst s a src f.bytes) := by
  obtain ⟨hlinked, tr', hpop⟩ := network_refines hr h
  obtain ⟨hst, hloc⟩ := standing_of_reaches (router_reaches h)
  have hproper := proper_of_population hr hpop
  have hl := hloc i
  rw [hpc] at hl
  obtain ⟨d, y, hb, hy, hys⟩ := hlinked.behind_of_session (hl.serving.sessionOf hst)
  obtain rfl : d = c := by
    have hd := wire_of_getElem? hy
    have hc := wire_of_getElem? hx
    rw [Connection.wire, hys] at hd
    rw [Connection.wire, hs] at hc
    exact hlinked.distinct d c _ _ s hd hc
  obtain rfl : x = y := Option.some.inj (hx.symm.trans hy)
  have hprop : ∀ f ∈ x.frames, f.Proper := fun f hf => hproper f (mem_inFlight hx hf)
  have hp : p.bytes ≠ [] := (hlinked.inOrder d x hx).bytes_ne_nil hr hprop p (by simp [hch])
  obtain ⟨bs, hrecv, hbs, hlen⟩ := exists_recvFrom (n := want.size) ps hp
    (by cases want <;> decide)
  rw [← hch] at hrecv
  obtain ⟨pc', hafter⟩ : ∃ pc', afterRecv s a src want [] (.bytes bs) = some pc' := by
    simp only [afterRecv, List.length_nil, Nat.zero_add]
    rw [if_neg (by simp [hbs, hlen])]
    split_ifs
    · cases want with
      | idMessage => exact ⟨_, rfl⟩
      | dataMessage => exact ⟨_, rfl⟩
    · exact ⟨_, rfl⟩
  have hinput : w.input i (.arrived 1) = some (.recv (.bytes bs)) := by
    simp [World.input, hpc, hb, hx, hrecv]
  have hstep : (router T).step w.router (.thread i (.recv (.bytes bs))) =
      some (.received i s (.bytes bs), ⟨w.router.shared, Function.update w.router.loc i pc'⟩) := by
    simp [Program.step, router, next, hpc, hafter]
  have hobs : w.observe (.received i s (.bytes bs)) = { w with
      conns := w.conns.modify d fun x => { x with toRouter := dropBytes bs.length x.toRouter }
      inHand := Function.update w.inHand i (answeredAtHead x.toRouter) } := by
    simp [World.observe, hb, hx]
  have hworld : (faultlessNetwork T cfg).step w _ _ := faultless_step hinput hstep rfl
  rw [hobs] at hworld
  refine ⟨bs, pc', _, hworld, ?_⟩
  rcases recv_exact hr hlinked hst hloc hpc hx hs
    (fun f hf => hprop f (Connection.mem_frames.mpr (.inl hf))) hrecv hafter with
    ⟨qs, -, hqs, -, hdrop, hpc'⟩ | ⟨f, qs, -, hqs, -, hdrop, hpc'⟩
  · obtain ⟨rfl, rfl⟩ := List.cons.inj (hch.symm.trans hqs)
    exact ⟨hdrop, .inl ⟨rfl, hpc'⟩⟩
  · obtain ⟨rfl, rfl⟩ := List.cons.inj (hch.symm.trans hqs)
    exact ⟨hdrop, .inr ⟨f, rfl, hpc'⟩⟩

/-- **A reader takes the next packet** of a connection, when the event loop finds it readable
and all threads wait. -/
lemma exists_take_run (hr : Ranged cfg) (h : (network T cfg).Reaches tr w) (hm : Manned w.router)
    (hrest : AtRest w.router) (hx : w.conns[c]? = some x) {s serverSocket : ℤ}
    (hs : x.socket = some s) (hsel : w.Selects serverSocket (.router (.readable s))) {a : Addr}
    (hreg : w.router.shared.sessions.sessionsBySocket s = some (some a)) {p : Packet}
    {ps : List Packet} (hch : x.toRouter = p :: ps) :
    ∃ tr' i st k g, (selectNetwork T cfg serverSocket).Run w tr' { w with
        router := st
        conns := w.conns.modify c fun x => { x with toRouter := dropBytes k x.toRouter }
        inHand := g } ∧
      dropBytes k x.toRouter = ps ∧ st.shared.sessions = w.router.shared.sessions ∧
      ((p = .idMessage (buildIdMessage (cfg x.node).id) ∧
          st.loc i = .addNode s a a (buildIdMessage (cfg x.node).id)) ∨
        ∃ f, p = .data f ∧ st.loc i = .findDst s a a f.bytes) := by
  obtain ⟨i, hpc, hqueue⟩ := hrest.exists_reader hm
  have hread : (selectNetwork T cfg serverSocket).step w (.router (.readable s)) { w with
      router := ⟨{ w.router.shared with readQueue := [s] }, w.router.loc⟩ } := by
    refine ⟨⟨⟨.readable s, ?_⟩, rfl⟩, hsel⟩
    simp [World.step, Program.step, router, loopStep, hqueue, SignalingQueue.push]
  have hfree := hrest.holder (router_reaches h) a
  obtain ⟨tr', st, want, hrun, hrecv, hsessions⟩ : ∃ tr' st want,
      (selectNetwork T cfg serverSocket).Run { w with
        router := ⟨{ w.router.shared with readQueue := [s] }, w.router.loc⟩ } tr'
      { w with router := st } ∧ st.loc i = .recv s a a want [] ∧
      st.shared.sessions = w.router.shared.sessions := exists_turn_run hpc rfl hreg hfree
  have hrun' : (selectNetwork T cfg serverSocket).Run w ([.router (.readable s)] ++ tr')
      { w with router := st } := (Lts.Run.single hread).append hrun
  obtain ⟨bs, pc', g, hstep, hdrop, hcases⟩ := exists_recv_step hr
    (h.append hrun'.of_restrict.of_restrict) hrecv hx hs hch
  refine ⟨_, i, _, bs.length, g, hrun'.snoc ⟨hstep, trivial⟩, hdrop, hsessions, ?_⟩
  simp only [Function.update_self]
  exact hcases

/-! ### The nodes -/

omit [Fintype N] [Fintype T] in
/-- A step of a node in the system. -/
lemma node_step {n : N} {o : NodeOutcome} {inp : Node.Input} {e : Node.Event} {st : Node.State}
    (ho : w.nodeInput cfg n o = some inp) (hn : (cfg n).next (w.nodes n) inp = some (e, st)) :
    (network T cfg).step w (.node n e)
      { w.observeNode cfg n e with nodes := Function.update w.nodes n st } := by
  refine ⟨.node n o, ?_⟩
  simp only [World.step, ho, Option.bind_some, hn, Option.map_some]

/-- The messages of a node are not empty. -/
lemma message_ne_nil (hr : Ranged cfg) (h : (network T cfg).Reaches tr w) {n : N}
    {p : Node.Purpose} {k : ℕ} (hpl : (w.nodes n).place = .send p k) : (cfg n).message p ≠ [] := by
  obtain ⟨-, tr', hpop⟩ := network_refines hr h
  cases p with
  | subscribe =>
      intro hnil
      have hlen := hr.length_idMessage n
      rw [show buildIdMessage (cfg n).id = [] from hnil] at hlen
      cases hlen
  | initiate => exact (First.proper hr (f := ⟨_, 0⟩) ⟨n, rfl⟩).ne_nil
  | reply m =>
      have hmem : (⟨m, w.reply n⟩ : Frame) ∈ w.inNode n := by
        simp [World.inNode, hpl, Node.Place.frames]
      exact (proper_of_population hr hpop _ (mem_inFlight_of_node hmem)).ne_nil

/-- A node that has something to send can send it. -/
lemma exists_send_step (hr : Ranged cfg) (h : (network T cfg).Reaches tr w) {n : N}
    {p : Node.Purpose} {k : ℕ} (hpl : (w.nodes n).place = .send p k) :
    ∃ e m, (faultlessNetwork T cfg).step w (.node n e) { w with
      conns := w.conns.modify (w.nodes n).socket fun x => x.sendToRouter (w.packet cfg n p)
      initiated := m
      nodes := Function.update w.nodes n { w.nodes n with place := (cfg n).afterSent p } } := by
  have hlen : (0 : ℤ) < ((cfg n).message p).length := by
    exact_mod_cast List.length_pos_iff.mpr (message_ne_nil hr h hpl)
  have hinput : w.nodeInput cfg n (.sent true) = some (.sent ((cfg n).message p).length) := by
    simp [World.nodeInput, hpl]
  have hnext : (cfg n).next (w.nodes n) (.sent ((cfg n).message p).length) =
      some (.sent p ((cfg n).message p).length,
        { w.nodes n with place := (cfg n).afterSent p }) := by
    rw [Node.next_sent]
    exact ⟨p, k, hpl, rfl, by rw [Node.afterSend, if_pos hlen]⟩
  have hworld : (faultlessNetwork T cfg).step w _ _ :=
    ⟨node_step hinput hnext, decide_eq_true hlen⟩
  simp only [World.observeNode, if_pos hlen] at hworld
  exact ⟨_, _, hworld⟩

/-- A node that receives can take a message that has come. -/
lemma exists_answer_step (hr : Ranged cfg) (h : (network T cfg).Reaches tr w) {n : N}
    (hpl : (w.nodes n).place = .receive) (hx : w.conns[(w.nodes n).socket]? = some x)
    (hne : x.toNode ≠ []) :
    ∃ bs w', (faultlessNetwork T cfg).step w (.node n (.received (.bytes bs))) w' := by
  obtain ⟨hlinked, tr', hpop⟩ := network_refines hr h
  obtain ⟨p, ps, hch⟩ := List.exists_cons_of_ne_nil hne
  have hp : p.bytes ≠ [] := (hlinked.inOrder _ x hx).bytes_ne_nil hr
    (fun f hf => proper_of_population hr hpop f (mem_inFlight hx hf)) p (by simp [hch])
  obtain ⟨bs, hrecv, -, -⟩ := exists_recvFrom (n := msgLen) ps hp (by decide)
  have hinput : w.nodeInput cfg n (.arrived 1) = some (.recv (.bytes bs)) := by
    simp [World.nodeInput, hx, hch, hrecv]
  have hnext : (cfg n).next (w.nodes n) (.recv (.bytes bs)) = some (.received (.bytes bs),
      { w.nodes n with place := (cfg n).afterReceived (.bytes bs) }) := by
    rw [Node.next_recv]
    exact ⟨hpl, rfl, rfl⟩
  exact ⟨bs, _, node_step hinput hnext, rfl⟩

end MessageRouting
