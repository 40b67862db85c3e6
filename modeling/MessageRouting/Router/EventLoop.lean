import MessageRouting.Router.Workers

/-!
The event loop of the router (`Router::start_event_listener`) and the descriptors it
opens (`TcpServer::accept_client`, `set_client_socket_nonblocking` of
`router/src/tcpserver.cpp`), next to the readers and writers.

`Host` adds the client descriptors that are open in the process. `accept` opens one
that is not open; one that cannot be made nonblocking is closed again. The
router has no other `close`.

* `hosting`: all interleavings. `router_of_hosting`: they are runs of the readers and
  writers, and `fds_eq_opened`: what is open is what those runs take to be open.
* `no_orphans`: as long as no `recv` ends in a close or an error and no `send` fails,
  every open descriptor is registered; a session that is removed leaves its
  descriptor open and unregistered for good.
* `no_adjacent_repeats`: `push` skips a socket that stands at the end of the queue, so
  that no two neighbours in the queue are the same.
-/

namespace MessageRouting

/-! ### Accepting a client -/

/-- `TcpServer::set_client_socket_nonblocking` on the open descriptors, `ok` being the
outcome of the system call. -/
def setClientSocketNonblocking (fds : List ℤ) (clientSocket : ℤ) (ok : Bool) : ℤ × List ℤ :=
  if ok then (0, fds) else (socketError, fds.erase clientSocket)

/-- `accept`: a failure, or a descriptor that is not open and is opened. -/
def osAccept (fds : List ℤ) : Option ℤ → Option (ℤ × List ℤ)
  | none => some (socketError, fds)
  | some s => if s < 0 ∨ s ∈ fds then none else some (s, s :: fds)

/-- `TcpServer::accept_client`: what it returns, and the open descriptors. A system call
on the descriptor of a failed `accept` fails. -/
def tcpAcceptClient (fds : List ℤ) (client : Option ℤ) (ok : Bool) : Option (ℤ × List ℤ) :=
  (osAccept fds client).bind fun (newClient, fds) =>
    if newClient = socketError ∧ ok = true then none
    else
      match setClientSocketNonblocking fds newClient ok with
      | (err, fds) => some (if err = 0 then newClient else err, fds)

/-- What `TcpServer::accept_client` can do: nothing, or open a new client. -/
lemma tcpAcceptClient_cases {fds fds' : List ℤ} {client : Option ℤ} {ok : Bool} {r : ℤ}
    (hfds : ∀ s ∈ fds, 0 ≤ s) (h : tcpAcceptClient fds client ok = some (r, fds')) :
    (r = socketError ∧ fds' = fds) ∨ (0 ≤ r ∧ r ∉ fds ∧ fds' = r :: fds) := by
  have hnot : socketError ∉ fds := fun hmem => absurd (hfds _ hmem) (by decide)
  cases client with
  | none =>
      cases ok with
      | true => simp [tcpAcceptClient, osAccept] at h
      | false =>
          simp only [tcpAcceptClient, osAccept, Option.bind_some, Bool.false_eq_true, and_false,
            if_false, setClientSocketNonblocking, List.erase_of_not_mem hnot] at h
          cases h
          exact .inl ⟨rfl, rfl⟩
  | some s =>
      by_cases hs : s < 0 ∨ s ∈ fds
      · simp [tcpAcceptClient, osAccept, hs] at h
      · have hopen : osAccept fds (some s) = some (s, s :: fds) := by rw [osAccept, if_neg hs]
        push Not at hs
        have hne : s ≠ socketError := by rw [socketError]; omega
        cases ok with
        | true =>
            simp only [tcpAcceptClient, hopen, Option.bind_some, hne, false_and, if_false,
              setClientSocketNonblocking, if_true] at h
            cases h
            exact .inr ⟨hs.1, hs.2, rfl⟩
        | false =>
            simp only [tcpAcceptClient, hopen, Option.bind_some, hne, false_and, if_false,
              setClientSocketNonblocking, Bool.false_eq_true, List.erase_cons_head] at h
            cases h
            exact .inl ⟨rfl, rfl⟩

/-! ### The event loop next to the threads -/

variable {T : Type}

/-- The router and the client descriptors that are open. -/
structure Host (T : Type) where
  router : RouterState T
  fds : List ℤ

/-- Who moves: a reader or writer, or the event loop, for which `select` reports a
client socket or the server socket. -/
inductive HostAct (T : Type) where
  | thread (i : T) (inp : Input)
  | readable (s : ℤ)
  | connection (client : Option ℤ) (ok : Bool)

/-- The label of a step. -/
inductive HostEvent (T : Type) where
  | router (e : Event T)
  | refused
  deriving DecidableEq

/-- The step of the router in it. -/
def HostEvent.ofRouter : HostEvent T → Option (Event T)
  | .router e => some e
  | .refused => none

variable [DecidableEq T]

/-- One step. A client that was accepted is registered, a failure is passed over. -/
def Host.step (st : Host T) : HostAct T → Option (HostEvent T × Host T)
  | .thread i inp =>
      ((MessageRouting.router T).step st.router (.thread i inp)).map fun r =>
        (.router r.1, { st with router := r.2 })
  | .readable s =>
      ((MessageRouting.router T).step st.router (.env (.readable s))).map fun r =>
        (.router r.1, { st with router := r.2 })
  | .connection client ok =>
      (tcpAcceptClient st.fds client ok).bind fun (newClientSocket, fds) =>
        if newClientSocket = socketError then some (.refused, { st with fds := fds })
        else
          ((MessageRouting.router T).step st.router (.env (.accept newClientSocket))).map fun r =>
            (.router r.1, ⟨r.2, fds⟩)

/-- `Router::start`: no client, nothing queued. -/
def Host.Initial (st : Host T) : Prop :=
  Started st.router ∧ st.router.shared.readQueue = [] ∧ st.router.shared.opened = [] ∧ st.fds = []

/-- All interleavings. -/
def hosting (T : Type) [DecidableEq T] : Lts (Host T) (HostEvent T) :=
  Lts.ofFn Host.Initial Host.step

variable {st st' : Host T} {e : HostEvent T} {tr : List (HostEvent T)}

/-- Everything one step can be. -/
lemma host_step_cases (hfds : ∀ s ∈ st.fds, 0 ≤ s) (h : (hosting T).step st e st') :
    (∃ i ev pc' sh', e = .router ev ∧
      Step i st.router.shared (st.router.loc i) ev pc' sh' ∧
      st' = ⟨⟨sh', Function.update st.router.loc i pc'⟩, st.fds⟩) ∨
    (∃ s, e = .router (.readable s) ∧ st' = ⟨⟨{ st.router.shared with
      readQueue := SignalingQueue.push st.router.shared.readQueue s true }, st.router.loc⟩,
        st.fds⟩) ∨
    (∃ s S, e = .router (.accepted s) ∧ 0 ≤ s ∧ s ∉ st.fds ∧
      st.router.shared.sessions.acceptClient s = some S ∧
      st' = ⟨⟨{ st.router.shared with
        sessions := S, opened := s :: st.router.shared.opened }, st.router.loc⟩, s :: st.fds⟩) ∨
    (e = .refused ∧ st' = st) := by
  obtain ⟨act, h⟩ := h
  cases act with
  | thread i inp =>
      simp only [Host.step, Program.step, Option.map_map, Option.map_eq_some_iff,
        Function.comp_apply, Prod.mk.injEq, Prod.exists] at h
      obtain ⟨ev, pc', sh', hn, rfl, rfl⟩ := h
      exact .inl ⟨i, ev, pc', sh', rfl, step_of_next hn, rfl⟩
  | readable s =>
      simp only [Host.step, Program.step, router, loopStep, Option.map_some, Option.some.injEq,
        Prod.mk.injEq] at h
      exact .inr (.inl ⟨s, h.1.symm, h.2.symm⟩)
  | connection client ok =>
      simp only [Host.step, Option.bind_eq_some_iff, Prod.exists] at h
      obtain ⟨r, fds, hacc, h⟩ := h
      rcases tcpAcceptClient_cases hfds hacc with ⟨rfl, rfl⟩ | ⟨hr, hnew, rfl⟩
      · rw [if_pos rfl] at h
        cases h
        exact .inr (.inr (.inr ⟨rfl, rfl⟩))
      · rw [if_neg (by rw [socketError]; omega)] at h
        simp only [Program.step, router, Option.map_map, Option.map_eq_some_iff,
          Function.comp_apply, Prod.mk.injEq, Prod.exists] at h
        obtain ⟨ev, sh', hn, rfl, rfl⟩ := h
        simp only [loopStep] at hn
        split_ifs at hn
        simp only [Option.map_eq_some_iff, Prod.mk.injEq] at hn
        obtain ⟨S, hS, rfl, rfl⟩ := hn
        exact .inr (.inr (.inl ⟨r, S, rfl, hr, hnew, hS, rfl⟩))

/-- The readers and writers make a run of their own. -/
lemma router_of_hosting (h : (hosting T).Reaches tr st) :
    (workers T).Reaches (tr.filterMap HostEvent.ofRouter) st.router := by
  refine Lts.Reaches.map Host.router HostEvent.ofRouter
    (fun st (hst : st.Initial) => hst.1) ?_ h
  rintro tr st e st' - ⟨act, hs⟩
  have hone : ∀ {a r}, (MessageRouting.router T).step st.router a = some r →
      (workers T).Run st.router [r.1] r.2 := fun ha => .single ⟨_, ha⟩
  cases act with
  | thread i inp =>
      simp only [Host.step, Option.map_eq_some_iff] at hs
      obtain ⟨r, hr, hs⟩ := hs
      cases hs
      exact hone hr
  | readable s =>
      simp only [Host.step, Option.map_eq_some_iff] at hs
      obtain ⟨r, hr, hs⟩ := hs
      cases hs
      exact hone hr
  | connection client ok =>
      simp only [Host.step, Option.bind_eq_some_iff, Prod.exists] at hs
      obtain ⟨s, fds, -, hs⟩ := hs
      split_ifs at hs
      · cases hs
        exact .nil
      · simp only [Option.map_eq_some_iff] at hs
        obtain ⟨r, hr, hs⟩ := hs
        cases hs
        exact hone hr

/-- What is open is what the runs of the readers and writers take to be open. -/
lemma fds_eq_opened (h : (hosting T).Reaches tr st) :
    st.fds = st.router.shared.opened ∧ ∀ s ∈ st.fds, 0 ≤ s := by
  refine h.invariant (fun st => st.fds = st.router.shared.opened ∧ ∀ s ∈ st.fds, 0 ≤ s) ?_ ?_
  · rintro st ⟨-, -, hopened, hfds⟩
    exact ⟨hfds.trans hopened.symm, by simp [hfds]⟩
  · rintro st e st' ⟨heq, hpos⟩ hs
    rcases host_step_cases hpos hs with ⟨i, ev, pc', sh', -, hstep, rfl⟩ | ⟨s, -, rfl⟩ |
      ⟨s, S, -, hnonneg, -, -, rfl⟩ | ⟨-, rfl⟩
    · exact ⟨heq.trans hstep.opened.symm, hpos⟩
    · exact ⟨heq, hpos⟩
    · refine ⟨congrArg (s :: ·) heq, fun t ht => ?_⟩
      rcases List.mem_cons.mp ht with rfl | ht
      · exact hnonneg
      · exact hpos t ht
    · exact ⟨heq, hpos⟩

/-! ### Open descriptors and registered sockets -/

/-- The socket is registered. -/
def Sessions.Registered (S : Sessions) (s : ℤ) : Prop :=
  s ∈ S.acceptedClients ∧ S.sessionsBySocket s ≠ none

/-- No `recv` ends in a close or an error, and no `send` fails. -/
def Healthy (_ : Host T) : HostEvent T → Prop
  | .router (.received _ _ .closed) => False
  | .router (.received _ _ .error) => False
  | .router (.sent _ _ _ _ false) => False
  | _ => True

/-- The thread is about to remove a session. -/
def Pc.Removing : Pc → Prop
  | .removeSrc .. => True
  | .removeDst .. => True
  | _ => False

omit [DecidableEq T] in
/-- A step with a healthy outcome does not lead to a removal. -/
lemma Step.not_removing {i : T} {sh sh' : Shared T} {pc pc' : Pc} {ev : Event T}
    (h : Step i sh pc ev pc' sh') (hok : Healthy st (.router ev)) : ¬ pc'.Removing := by
  cases h with
  | recv_failed hr =>
      rcases hr with rfl | rfl
      · exact hok.elim
      · exact hok.elim
  | send_failed => exact hok.elim
  | _ => exact id

omit [DecidableEq T] in
/-- A step of a thread that is not about to remove a session keeps the registered
sockets. -/
lemma Step.bySocket_of_not_removing {i : T} {sh sh' : Shared T} {pc pc' : Pc} {ev : Event T}
    (h : Step i sh pc ev pc' sh') (hpc : ¬ pc.Removing) :
    sh'.sessions.sessionsBySocket = sh.sessions.sessionsBySocket := by
  rcases h.bySocket_cases with hsame | ⟨s, rfl, -⟩
  · exact hsame
  · cases h with
    | removeSrc => exact absurd trivial hpc
    | removeDst => exact absurd trivial hpc

/-- In a healthy run no thread removes a session, and what is open is registered. -/
lemma registered_of_healthy (h : ((hosting T).restrict Healthy).Reaches tr st) :
    (∀ i, ¬ (st.router.loc i).Removing) ∧
      ∀ s ∈ st.fds, st.router.shared.sessions.sessionsBySocket s ≠ none := by
  have key : (hosting T).Reaches tr st ∧ (∀ i, ¬ (st.router.loc i).Removing) ∧
      ∀ s ∈ st.fds, st.router.shared.sessions.sessionsBySocket s ≠ none := by
    refine h.induct (fun tr st => (hosting T).Reaches tr st ∧
      (∀ i, ¬ (st.router.loc i).Removing) ∧
      ∀ s ∈ st.fds, st.router.shared.sessions.sessionsBySocket s ≠ none) ?_ ?_
    · rintro st hst
      obtain ⟨⟨-, -, -, -, hloc⟩, -, -, hfds⟩ := id hst
      refine ⟨⟨st, hst, .nil⟩, fun i => ?_, by simp [hfds]⟩
      rcases hloc i with hi | hi
      · rw [hi]
        exact id
      · rw [hi]
        exact id
    · rintro tr st e st' ⟨hreach, hloc, hreg⟩ ⟨hs, hok⟩
      refine ⟨hreach.append (.single hs), ?_⟩
      rcases host_step_cases (fds_eq_opened hreach).2 hs with ⟨i, ev, pc', sh', rfl, hstep, rfl⟩ |
        ⟨s, -, rfl⟩ | ⟨s, S, -, -, -, hS, rfl⟩ | ⟨-, rfl⟩
      · refine ⟨fun j => ?_, fun s hs => ?_⟩
        · by_cases hj : j = i
          · subst hj
            simp only [Function.update_self]
            exact hstep.not_removing hok
          · simp only [Function.update_of_ne hj]
            exact hloc j
        · rw [show sh'.sessions.sessionsBySocket = _ from hstep.bySocket_of_not_removing (hloc i)]
          exact hreg s hs
      · exact ⟨hloc, hreg⟩
      · obtain ⟨-, hbs, -⟩ := Sessions.acceptClient_spec hS
        refine ⟨hloc, fun t ht => ?_⟩
        show S.sessionsBySocket t ≠ none
        rw [hbs]
        by_cases hts : t = s
        · rw [hts, Function.update_self]
          simp
        · rw [Function.update_of_ne hts]
          exact hreg t ((List.mem_cons.mp ht).resolve_left hts)
      · exact ⟨hloc, hreg⟩
  exact key.2

/-- **Orphaned descriptors.** In every run in which no `recv` ends in a close or an error
and no `send` fails, every open client descriptor is registered. In every run, a
session that was removed has left its descriptor open, and it is not registered
again. -/
theorem no_orphans :
    (∀ (tr : List (HostEvent T)) (st : Host T), ((hosting T).restrict Healthy).Reaches tr st →
      ∀ s ∈ st.fds, st.router.shared.sessions.Registered s) ∧
    ∀ (tr : List (HostEvent T)) (st : Host T), (hosting T).Reaches tr st →
      ∀ i s, .router (.removed i s) ∈ tr →
        s ∈ st.fds ∧ ¬ st.router.shared.sessions.Registered s := by
  refine ⟨fun tr st h s hs => ?_, fun tr st h i s hmem => ?_⟩
  · have hbs := (registered_of_healthy h).2 s hs
    have hcons := (standing_of_reaches (router_of_hosting h.of_restrict)).1.consistent
    exact ⟨(hcons.mem_accepted s).mpr hbs, hbs⟩
  · have hrouter := router_of_hosting h
    have hmem' : .removed i s ∈ tr.filterMap HostEvent.ofRouter :=
      List.mem_filterMap.mpr ⟨_, hmem, rfl⟩
    obtain ⟨pre, post, hsplit⟩ := List.append_of_mem hmem'
    rw [hsplit] at hrouter
    obtain ⟨r, r', hr, hstep, -, hrun⟩ := hrouter.at_label
    have hretired : Retired s st.router.shared := (removed_retired hr hstep).run hrun
    refine ⟨?_, fun hreg => hreg.2 hretired.2⟩
    rw [(fds_eq_opened h).1]
    exact hretired.1

/-- One reader, before the first client. -/
def oneReader : Host (Fin 1) :=
  ⟨⟨⟨Sessions.empty, [], [], fun _ => none, [], 0⟩, fun _ => .popRead⟩, []⟩

lemma initial_oneReader : oneReader.Initial :=
  ⟨⟨rfl, rfl, fun _ => rfl, rfl, fun _ => .inl rfl⟩, rfl, rfl, rfl⟩

/-- A client is accepted. -/
theorem no_orphans_accepted :
    ∃ tr, ∃ st : Host (Fin 1), ((hosting (Fin 1)).restrict Healthy).Reaches tr st ∧ st.fds = [4] ∧
      ∀ s ∈ st.fds, st.router.shared.sessions.Registered s := by
  obtain ⟨st, hst, hfds⟩ : ∃ st, oneReader.step (.connection (some 4) true) =
      some (.router (.accepted 4), st) ∧ st.fds = [4] := ⟨_, rfl, rfl⟩
  have hreach : ((hosting (Fin 1)).restrict Healthy).Reaches [.router (.accepted 4)] st :=
    ⟨oneReader, initial_oneReader, .single ⟨⟨_, hst⟩, trivial⟩⟩
  exact ⟨_, st, hreach, hfds, no_orphans.1 _ st hreach⟩

/-- A client that is accepted and closes its connection leaves its descriptor behind,
with the reader back at the queue. -/
theorem orphaned_descriptor :
    ¬ ∀ (tr : List (HostEvent (Fin 1))) (st : Host (Fin 1)), (hosting (Fin 1)).Reaches tr st →
      (∀ i, st.router.loc i = .popRead) → ∀ s ∈ st.fds, st.router.shared.sessions.Registered s := by
  intro hall
  obtain ⟨tr, st, hreach, hloc, hfds, hnone⟩ : ∃ tr, ∃ st : Host (Fin 1),
      (hosting (Fin 1)).Reaches tr st ∧ st.router.loc 0 = .popRead ∧ st.fds = [4] ∧
        st.router.shared.sessions.acceptedClients = [] :=
    Lts.reaches_of_execute oneReader ([.connection (some 4) true, .readable 4] ++
      ([.go, .go, .go, .go, .go, .recv .closed, .go, .go] : List Input).map (.thread 0))
      initial_oneReader (by decide)
  have hidle : ∀ i, st.router.loc i = .popRead := by
    intro i
    rw [Subsingleton.elim i 0]
    exact hloc
  have hreg := hall tr st hreach hidle 4 (by rw [hfds]; exact List.mem_singleton_self _)
  rw [Sessions.Registered, hnone] at hreg
  exact absurd hreg.1 (by simp)

/-! ### The queue of readable sockets -/

/-- The sockets that were reported so far. -/
def reported (tr : List (HostEvent T)) : List ℤ :=
  tr.filterMap fun e =>
    match e with
    | .router (.readable s) => some s
    | _ => none

/-- No two neighbours are the same. -/
def NoRepeat (q : List ℤ) : Prop := q.IsChain (· ≠ ·)

omit [DecidableEq T] in
lemma mem_reported {s : ℤ} : s ∈ reported tr ↔ .router (.readable s) ∈ tr := by
  rw [reported, List.mem_filterMap]
  constructor
  · rintro ⟨e, he, hs⟩
    split at hs
    · cases hs
      exact he
    · cases hs
  · exact fun h => ⟨_, h, rfl⟩

lemma NoRepeat.push {q : List ℤ} {s : ℤ} (h : NoRepeat q) :
    NoRepeat (SignalingQueue.push q s true) := by
  rw [SignalingQueue.push]
  split_ifs with hlast
  · exact h
  · refine List.isChain_append.mpr ⟨h, List.isChain_singleton s, ?_⟩
    intro x hx y hy hxy
    simp only [List.head?_cons, Option.mem_def, Option.some.injEq] at hy
    rw [hxy, ← hy] at hx
    exact hlast ⟨rfl, hx⟩

lemma mem_push {q : List ℤ} {s x : ℤ} (h : x ∈ SignalingQueue.push q s true) : x ∈ q ∨ x = s := by
  rw [SignalingQueue.push] at h
  split_ifs at h
  · exact .inl h
  · simpa using h

omit [DecidableEq T] in
/-- A step of a thread leaves the queue or takes its front. -/
lemma Step.readQueue {i : T} {sh sh' : Shared T} {pc pc' : Pc} {ev : Event T}
    (h : Step i sh pc ev pc' sh') :
    sh'.readQueue = sh.readQueue ∨ ∃ s, sh.readQueue = s :: sh'.readQueue := by
  cases h with
  | popRead hpop => exact .inr ⟨_, hpop⟩
  | _ => exact .inl rfl

/-- A list of one value without equal neighbours has at most one element. -/
lemma NoRepeat.length_le {q : List ℤ} {s : ℤ} (h : NoRepeat q) (hs : ∀ x ∈ q, x = s) :
    q.length ≤ 1 := by
  match q, h, hs with
  | [], _, _ => simp
  | [_], _, _ => simp
  | x :: y :: q, h, hs =>
      have hxy : x ≠ y := (List.isChain_cons_cons.mp h).1
      exact absurd ((hs x (by simp)).trans (hs y (by simp)).symm) hxy

/-- **Readiness events in a row are queued once.** In every interleaving, no two
neighbours in the queue of readable sockets are the same, and all of them were
reported; so while only one socket was ever reported the queue has at most one
element. -/
theorem no_adjacent_repeats (h : (hosting T).Reaches tr st) :
    (∀ q₁ q₂ s t, st.router.shared.readQueue = q₁ ++ s :: t :: q₂ → s ≠ t) ∧
    (∀ s ∈ st.router.shared.readQueue, s ∈ reported tr) ∧
    ∀ s, (∀ t ∈ reported tr, t = s) → st.router.shared.readQueue.length ≤ 1 := by
  have key : (hosting T).Reaches tr st ∧ NoRepeat st.router.shared.readQueue ∧
      ∀ s ∈ st.router.shared.readQueue, s ∈ reported tr := by
    refine h.induct (fun tr st => (hosting T).Reaches tr st ∧
      NoRepeat st.router.shared.readQueue ∧
      ∀ s ∈ st.router.shared.readQueue, s ∈ reported tr) ?_ ?_
    · intro st hst
      obtain ⟨-, hq, -⟩ := id hst
      exact ⟨⟨st, hst, .nil⟩, by rw [NoRepeat, hq]; exact .nil, by simp [hq]⟩
    · rintro tr st e st' ⟨hreach, hchain, hrep⟩ hs
      have hold : ∀ s ∈ st.router.shared.readQueue, s ∈ reported (tr ++ [e]) := fun s hs =>
        mem_reported.mpr (List.mem_append_left _ (mem_reported.mp (hrep s hs)))
      refine ⟨hreach.append (.single hs), ?_⟩
      rcases host_step_cases (fds_eq_opened hreach).2 hs with ⟨i, ev, pc', sh', -, hstep, rfl⟩ |
        ⟨s, rfl, rfl⟩ | ⟨s, S, -, -, -, -, rfl⟩ | ⟨-, rfl⟩
      · rcases hstep.readQueue with hsame | ⟨s, hpop⟩
        · show NoRepeat sh'.readQueue ∧ ∀ s ∈ sh'.readQueue, _
          rw [hsame]
          exact ⟨hchain, hold⟩
        · rw [hpop] at hchain hold
          exact ⟨List.IsChain.tail hchain, fun t ht => hold t (List.mem_cons_of_mem _ ht)⟩
      · refine ⟨hchain.push, fun t ht => ?_⟩
        rcases mem_push ht with ht | rfl
        · exact hold t ht
        · exact mem_reported.mpr (List.mem_append_right _ (List.mem_singleton_self _))
      · exact ⟨hchain, hold⟩
      · exact ⟨hchain, hold⟩
  obtain ⟨-, hchain, hrep⟩ := key
  refine ⟨fun q₁ q₂ s t hq => ?_, hrep, fun s hs => hchain.length_le fun t ht => hs t (hrep t ht)⟩
  rw [NoRepeat, hq] at hchain
  exact (List.isChain_cons_cons.mp (List.isChain_append.mp hchain).2.1).1

/-- Two clients, of which one is reported twice with the other in between. -/
theorem no_adjacent_repeats_two :
    ∃ tr, ∃ st : Host (Fin 1), (hosting (Fin 1)).Reaches tr st ∧
      st.router.shared.readQueue = [4, 7, 4] ∧
      (∀ q₁ q₂ s t, st.router.shared.readQueue = q₁ ++ s :: t :: q₂ → s ≠ t) := by
  obtain ⟨tr, st, hreach, hqueue⟩ : ∃ tr, ∃ st : Host (Fin 1), (hosting (Fin 1)).Reaches tr st ∧
      st.router.shared.readQueue = [4, 7, 4] :=
    Lts.reaches_of_execute oneReader [.connection (some 4) true, .connection (some 7) true,
      .readable 4, .readable 7, .readable 4] initial_oneReader (by decide)
  exact ⟨tr, st, hreach, hqueue, (no_adjacent_repeats hreach).1⟩

/-- A socket can stand in the queue twice: `push` looks at the last element only. The
queue then has more elements than sockets were ever reported. -/
theorem queued_twice :
    ∃ tr, ∃ st : Host (Fin 1), (hosting (Fin 1)).Reaches tr st ∧
      ¬ st.router.shared.readQueue.Nodup ∧
      ¬ st.router.shared.readQueue.length ≤ (reported tr).dedup.length := by
  exact Lts.reaches_of_execute oneReader [.connection (some 4) true, .connection (some 7) true,
    .readable 4, .readable 7, .readable 4] initial_oneReader (by decide)

end MessageRouting
