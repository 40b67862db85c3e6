import MessageRouting.Router.Progress

/-!
What the registry is for, and what it does for the routing of messages.

A `Directory` has the id of every connected client and the socket behind every id. The
registry is a directory by way of three containers and shared objects; the labels of a run
say what should have happened to it.

* `Directory`: connecting, announcing an id and leaving. Whoever announces an id last is
  behind it; when one of those who announced it leaves, nobody is, even if another client
  has announced it later.
* `directory_acceptClient`, `directory_addNode`, `directory_removeSession`: the registry
  does what the directory does.
* `directory_of_reaches`, `registry_answers`: over every interleaving it is the directory of
  the labels, and answers like it.
* `never_misrouted`: what is sent on a socket is addressed to an id that the client on it had
  announced, and that led to it when the reader looked it up for this message.
-/

namespace MessageRouting

/-! ### The directory -/

/-- The id of every connected client, `NONE` until it has announced one, and the socket behind
every id. -/
@[ext]
structure Directory where
  idOf : ℤ → Option ℤ
  route : ℤ → Option ℤ

namespace Directory

/-- Nobody is connected. -/
def empty : Directory := ⟨fun _ => none, fun _ => none⟩

/-- A client connects. -/
def accept (D : Directory) (s : ℤ) : Directory :=
  { D with idOf := Function.update D.idOf s (some NONE) }

/-- A client announces its id. -/
def announce (D : Directory) (s k : ℤ) : Directory :=
  if D.idOf s = none ∨ maxClientsCount ≤ k then D
  else ⟨Function.update D.idOf s (some k), Function.update D.route k (some s)⟩

/-- A client leaves, and with it the entry of its id, also when the entry is of another client
that has announced the id later. -/
def leave (D : Directory) (s : ℤ) : Directory :=
  match D.idOf s with
  | none => D
  | some k =>
      ⟨Function.update D.idOf s none,
        if k = NONE then D.route else Function.update D.route k none⟩

end Directory

/-- The directory that a registry stands for. -/
def Sessions.directory (S : Sessions) : Directory where
  idOf s := (S.sessionsBySocket s).map S.getId
  route k := (S.findSessionById k).map fun a => S.getSocket (some a)

/-! ### The registry is a directory -/

section Refinement

variable {T : Type} {sh : Shared T} {S : Sessions} {s k : ℤ}

/-- The directory knows who is connected. -/
lemma idOf_eq_none : S.directory.idOf s = none ↔ S.sessionsBySocket s = none :=
  Option.map_eq_none_iff

lemma route_of_sessionsById {a : Addr} {x : Session} (h : S.sessionsById k = some (some a))
    (hx : S.heap[a]? = some x) : S.directory.route k = some x.socket := by
  simp only [Sessions.directory, Sessions.findSessionById_eq_some.mpr h, Option.map_some,
    Sessions.getSocket_of_heap hx]

lemma route_of_find {a : Addr} (h : S.findSessionById k = some a) :
    S.directory.route k = some (S.getSocket (some a)) := by
  simp only [Sessions.directory, h, Option.map_some]

lemma route_eq_none (h : S.findSessionById k = none) : S.directory.route k = none := by
  simp only [Sessions.directory, h, Option.map_none]

/-- The entries of the id index lead to the same sockets as long as they stay and their
sessions keep their sockets. -/
lemma route_congr (hst : Standing sh)
    (hfind : S.findSessionById k = sh.sessions.findSessionById k)
    (hheap : ∀ (a : Addr) x, sh.sessions.heap[a]? = some x →
      ∃ y, S.heap[a]? = some y ∧ y.socket = x.socket) :
    S.directory.route k = sh.sessions.directory.route k := by
  cases h : sh.sessions.findSessionById k with
  | none =>
      rw [h] at hfind
      rw [route_eq_none h, route_eq_none hfind]
  | some a =>
      rw [h] at hfind
      obtain ⟨x, hx⟩ := hst.byId k a (Sessions.findSessionById_eq_some.mp h)
      obtain ⟨y, hy, hsock⟩ := hheap a x hx
      rw [route_of_find h, route_of_find hfind, Sessions.getSocket_of_heap hx,
        Sessions.getSocket_of_heap hy, hsock]

/-- `Sessions::accept_client` connects a client. -/
lemma directory_acceptClient (hst : Standing sh) (hS : sh.sessions.acceptClient s = some S) :
    S.directory = sh.sessions.directory.accept s := by
  obtain ⟨-, hbs, hbi, -, hheap⟩ := Sessions.acceptClient_spec hS
  refine Directory.ext (funext fun t => ?_) (funext fun j => ?_)
  · simp only [Sessions.directory, Directory.accept, hbs]
    by_cases hts : t = s
    · rw [hts, Function.update_self, Function.update_self]
      simp [Sessions.getId, hheap, Session.new]
    · rw [Function.update_of_ne hts, Function.update_of_ne hts]
      cases ht : sh.sessions.sessionsBySocket t with
      | none => rfl
      | some p =>
          obtain ⟨a, x, rfl, hx, -⟩ := hst.consistent.bySocket t p ht
          simp only [Option.map_some, Sessions.getId_of_heap hx,
            Sessions.getId_of_heap (Sessions.acceptClient_heap hS hx)]
  · refine route_congr hst ?_ fun a x hx => ⟨x, Sessions.acceptClient_heap hS hx, rfl⟩
    rw [Sessions.findSessionById, Sessions.findSessionById, hbi]

/-- `Sessions::add_node` announces an id. -/
lemma directory_addNode (hst : Standing sh) :
    (sh.sessions.addNode s k).directory = sh.sessions.directory.announce s k := by
  by_cases hrej : sh.sessions.sessionsBySocket s = none ∨ maxClientsCount ≤ k
  · rw [Sessions.addNode_of_rejected hrej, Directory.announce,
      if_pos (hrej.imp_left idOf_eq_none.mpr)]
  · rw [Directory.announce, if_neg fun h => hrej (h.imp_left idOf_eq_none.mp)]
    push Not at hrej
    obtain ⟨p, hp⟩ := Option.ne_none_iff_exists'.mp hrej.1
    obtain ⟨a, x, rfl, hx, rfl⟩ := hst.consistent.bySocket s p hp
    have hnew := Sessions.addNode_heap hp hrej.2
    refine Directory.ext (funext fun t => ?_) (funext fun j => ?_)
    · simp only [Sessions.directory, Sessions.addNode_sessionsBySocket]
      by_cases hts : t = x.socket
      · rw [hts, Function.update_self, hp, Option.map_some]
        exact congrArg some (Sessions.getId_of_heap (by rw [hnew, if_pos rfl, hx]; rfl))
      · rw [Function.update_of_ne hts]
        cases ht : sh.sessions.sessionsBySocket t with
        | none => rfl
        | some q =>
            obtain ⟨b, y, rfl, hy, rfl⟩ := hst.consistent.bySocket t q ht
            -- the session of another socket is another one
            have hba : b ≠ a := by
              rintro rfl
              rw [hx] at hy
              cases hy
              exact hts rfl
            simp only [Option.map_some, Sessions.getId_of_heap hy,
              Sessions.getId_of_heap ((hnew b).trans (by rw [if_neg hba, hy]))]
    · have hbi := Sessions.addNode_sessionsById hp hrej.2
      dsimp only
      by_cases hjk : j = k
      · subst hjk
        have ha : (sh.sessions.addNode x.socket j).heap[a]? = some { x with id := j } := by
          rw [hnew, if_pos rfl, hx]
          rfl
        rw [Function.update_self, route_of_sessionsById (by rw [hbi, Function.update_self]) ha]
      · rw [Function.update_of_ne hjk]
        refine route_congr hst ?_ fun b y hy => ?_
        · rw [Sessions.findSessionById, Sessions.findSessionById, hbi, Function.update_of_ne hjk]
        · rcases addNode_heap_cases (k := k) hp b with hsame | ⟨-, hnamed⟩
          · exact ⟨y, hsame.trans hy, rfl⟩
          · exact ⟨{ y with id := k }, hnamed.trans (by rw [hy]; rfl), rfl⟩

/-- `Sessions::removeSession` lets a client leave. -/
lemma directory_removeSession (hst : Standing sh) :
    (sh.sessions.removeSession s).directory = sh.sessions.directory.leave s := by
  have hbi := Sessions.removeSession_sessionsById (S := sh.sessions) (s := s)
  have hroute : ∀ j, (sh.sessions.removeSession s).sessionsById j = sh.sessions.sessionsById j →
      (sh.sessions.removeSession s).directory.route j = sh.sessions.directory.route j := by
    intro j hj
    refine route_congr hst ?_ fun a x hx => ⟨x, by simpa using hx, rfl⟩
    rw [Sessions.findSessionById, Sessions.findSessionById, hj]
  cases hs : sh.sessions.sessionsBySocket s with
  | none =>
      rw [Directory.leave, idOf_eq_none.mpr hs]
      refine Directory.ext (funext fun t => ?_) (funext fun j => hroute j (by rw [hbi, hs]))
      simp only [Sessions.directory, Sessions.removeSession_sessionsBySocket, ← hs,
        Function.update_eq_self]
      congr 1
      exact funext fun p => Sessions.removeSession_getId
  | some p =>
      have hid : sh.sessions.directory.idOf s = some (sh.sessions.getId p) := by
        simp only [Sessions.directory, hs, Option.map_some]
      simp only [Directory.leave, hid]
      refine Directory.ext (funext fun t => ?_) (funext fun j => ?_)
      · simp only [Sessions.directory, Sessions.removeSession_sessionsBySocket]
        by_cases hts : t = s
        · rw [hts, Function.update_self, Function.update_self]
          rfl
        · rw [Function.update_of_ne hts, Function.update_of_ne hts]
          congr 1
          exact funext fun p => Sessions.removeSession_getId
      · simp only [hs] at hbi
        dsimp only
        by_cases hnone : sh.sessions.getId p = NONE
        · rw [if_pos hnone]
          exact hroute j (by rw [hbi, if_neg (not_not.mpr hnone)])
        · rw [if_neg hnone]
          rw [if_pos hnone] at hbi
          by_cases hj : j = sh.sessions.getId p
          · rw [hj, Function.update_self]
            refine route_eq_none ?_
            rw [Sessions.findSessionById, hbi, Function.update_self]
          · rw [Function.update_of_ne hj]
            exact hroute j (by rw [hbi, Function.update_of_ne hj])

end Refinement

/-! ### The directory of a run -/

section Runs

variable {T : Type}

/-- What a step should do to the directory. -/
def Directory.apply (D : Directory) : Event T → Directory
  | .accepted s => D.accept s
  | .added _ s k => D.announce s k
  | .removed _ s => D.leave s
  | _ => D

/-- The directory that the labels of a run lead to. -/
def directoryOf (tr : List (Event T)) : Directory := tr.foldl Directory.apply .empty

lemma directoryOf_append (tr : List (Event T)) (e : Event T) :
    directoryOf (tr ++ [e]) = (directoryOf tr).apply e := by
  rw [directoryOf, List.foldl_append]
  rfl

/-- **One step** of a thread does to the registry what its label says. -/
lemma Step.directory {i : T} {sh sh' : Shared T} {pc pc' : Pc} {e : Event T} (hst : Standing sh)
    (h : Step i sh pc e pc' sh') : sh'.sessions.directory = sh.sessions.directory.apply e := by
  cases h with
  | addNode => exact directory_addNode hst
  | removeSrc => exact directory_removeSession hst
  | removeDst => exact directory_removeSession hst
  | _ => rfl

variable [DecidableEq T] {tr : List (Event T)} {st : RouterState T}

/-- Over every interleaving the registry stands for the directory of the labels. -/
lemma directory_of_reaches (h : (workers T).Reaches tr st) :
    st.shared.sessions.directory = directoryOf tr := by
  refine h.induct_reached (fun tr st => st.shared.sessions.directory = directoryOf tr) ?_ ?_
  · rintro st ⟨hS, -⟩
    rw [hS]
    rfl
  · intro tr st e st' hr ih hs
    obtain ⟨hst, -⟩ := standing_of_reaches hr
    rw [directoryOf_append, ← ih]
    rcases workers_step_cases hs with ⟨i, pc', sh', hstep, rfl⟩ | ⟨u, S, rfl, -, hS, rfl⟩ |
      ⟨u, rfl, rfl⟩
    · exact hstep.directory hst
    · exact directory_acceptClient hst hS
    · rfl

/-- **The registry answers like the directory of the run.** In every interleaving, with the
connections, announcements and removals so far: a socket is found, and listed, exactly if its
client is connected; the session that is found has the socket and the id of the client; and
an id is found with the socket behind it. -/
theorem registry_answers (h : (workers T).Reaches tr st) :
    (∀ s, st.shared.sessions.findSessionBySocket s = none ↔ (directoryOf tr).idOf s = none) ∧
    (∀ s, s ∈ st.shared.sessions.acceptedClients ↔ (directoryOf tr).idOf s ≠ none) ∧
    (∀ s a, st.shared.sessions.findSessionBySocket s = some a →
      (directoryOf tr).idOf s = some (st.shared.sessions.getId (some a)) ∧
      st.shared.sessions.getSocket (some a) = s) ∧
    ∀ k, (st.shared.sessions.findSessionById k).map
      (fun a => st.shared.sessions.getSocket (some a)) = (directoryOf tr).route k := by
  obtain ⟨hst, -⟩ := standing_of_reaches h
  rw [← directory_of_reaches h]
  refine ⟨fun s => ?_, fun s => ?_, fun s a ha => ?_, fun k => rfl⟩
  · rw [idOf_eq_none, Sessions.findSessionBySocket]
    cases hs : st.shared.sessions.sessionsBySocket s with
    | none => simp
    | some p =>
        obtain ⟨a, x, rfl, -⟩ := hst.consistent.bySocket s p hs
        simp
  · rw [hst.consistent.mem_accepted, Ne, Ne, idOf_eq_none]
  · have hs := Sessions.findSessionBySocket_eq_some.mp ha
    refine ⟨?_, (SessionOf.of_bySocket hst hs).getSocket⟩
    simp only [Sessions.directory, hs, Option.map_some]

/-- The client on socket 7 has announced 6. -/
theorem registry_answers_two :
    ∃ tr st, (workers (Fin 3)).Reaches tr st ∧ (directoryOf tr).route 6 = some 7 ∧
      (st.shared.sessions.findSessionById 6).map
        (fun a => st.shared.sessions.getSocket (some a)) = some 7 := by
  obtain ⟨tr, st, hreach, hroute⟩ : ∃ tr st, (workers (Fin 3)).Reaches tr st ∧
      (directoryOf tr).route 6 = some 7 :=
    Lts.reaches_of_execute threeThreads twoMessages started_threeThreads (by decide)
  exact ⟨tr, st, hreach, hroute, ((registry_answers hreach).2.2.2 6).trans hroute⟩

/-! ### Where the messages go -/

omit [DecidableEq T] in
/-- An id leads to a socket only after the client on it has announced the id. -/
lemma added_of_route {s k : ℤ} (h : (directoryOf tr).route k = some s) :
    ∃ i, .added i s k ∈ tr := by
  induction tr using List.reverseRecOn with
  | nil => cases h
  | append_singleton tr e ih =>
      have hold : (directoryOf tr).route k = some s → ∃ i, .added i s k ∈ tr ++ [e] := by
        intro h
        obtain ⟨i, hi⟩ := ih h
        exact ⟨i, List.mem_append_left _ hi⟩
      rw [directoryOf_append] at h
      cases e with
      | added i t j =>
          rw [Directory.apply, Directory.announce] at h
          split_ifs at h
          · exact hold h
          · dsimp only at h
            by_cases hkj : k = j
            · subst hkj
              rw [Function.update_self] at h
              cases h
              exact ⟨i, by simp⟩
            · rw [Function.update_of_ne hkj] at h
              exact hold h
      | removed i t =>
          rw [Directory.apply, Directory.leave] at h
          split at h
          · exact hold h
          · rename_i j _
            dsimp only at h
            split_ifs at h
            · exact hold h
            · by_cases hkj : k = j
              · rw [hkj, Function.update_self] at h
                cases h
              · rw [Function.update_of_ne hkj] at h
                exact hold h
      | _ => exact hold h

/-- The last lookup of the reader was for this message from this client, and the id of its
destination led to the socket `t` then. -/
def RoutedTo (tr : List (Event T)) (i : T) (s : ℤ) (m : List UInt8) (t : ℤ) : Prop :=
  ∃ p q d, tr = p ++ .routed i s m (some d) :: q ∧ (∀ s' m' d', .routed i s' m' d' ∉ q) ∧
    (directoryOf p).route (destinationId m) = some t

omit [DecidableEq T] in
lemma RoutedTo.snoc {i : T} {s t : ℤ} {m : List UInt8} {e : Event T} (h : RoutedTo tr i s m t)
    (he : ∀ s' m' d', e ≠ .routed i s' m' d') : RoutedTo (tr ++ [e]) i s m t := by
  obtain ⟨p, q, d, rfl, hq, hr⟩ := h
  refine ⟨p, q ++ [e], d, by rw [List.append_assoc, List.cons_append], fun s' m' d' hmem => ?_, hr⟩
  rcases List.mem_append.mp hmem with hmem | hmem
  · exact hq s' m' d' hmem
  · exact he s' m' d' (List.mem_singleton.mp hmem).symm

omit [DecidableEq T] in
/-- A lookup is a step of the thread that its label names. -/
lemma Step.thread_of_routed {i j : T} {sh sh' : Shared T} {pc pc' : Pc} {s : ℤ} {m : List UInt8}
    {d : SessionPtr} (h : Step i sh pc (.routed j s m d) pc' sh') : i = j := by
  cases h <;> rfl

/-- A reader that is about to forward a message has looked its destination up. -/
lemma routedTo_of_forward (h : (workers T).Reaches tr st) {i : T} {s : ℤ} {a src dst : Addr}
    {m : List UInt8} (hpc : st.loc i = .forward s a src dst m) :
    RoutedTo tr i s m (st.shared.sessions.getSocket (some dst)) := by
  refine h.induct_reached (fun tr st => ∀ i s a src dst m, st.loc i = .forward s a src dst m →
    RoutedTo tr i s m (st.shared.sessions.getSocket (some dst))) ?_ ?_ i s a src dst m hpc
  · intro st hst i s a src dst m hpc
    rcases hst.2.2.2.2 i with hi | hi
    · rw [hi] at hpc
      cases hpc
    · rw [hi] at hpc
      cases hpc
  · intro tr st e st' hr ih hs i s a src dst m hpc
    obtain ⟨hst, hloc⟩ := standing_of_reaches hr
    -- a reader that stays where it is: the session keeps its socket
    have hstay : st.loc i = .forward s a src dst m → Keeps i st.shared st'.shared →
        (∀ s' m' d', e ≠ .routed i s' m' d') →
        RoutedTo (tr ++ [e]) i s m (st'.shared.sessions.getSocket (some dst)) := by
      intro hi hk he
      have hl := hloc i
      rw [hi] at hl
      obtain ⟨-, -, x, hx⟩ := hl
      obtain ⟨y, hy, hsock, -⟩ := hk.heap dst x hx
      rw [Sessions.getSocket_of_heap hy, hsock, ← Sessions.getSocket_of_heap hx]
      exact (ih i s a src dst m hi).snoc he
    rcases workers_step_cases hs with ⟨j, pc', sh', hstep, rfl⟩ | ⟨u, S, rfl, -, hS, rfl⟩ |
      ⟨u, rfl, rfl⟩
    · by_cases hij : i = j
      · subst hij
        simp only [Function.update_self] at hpc
        subst hpc
        generalize st.loc i = pc at hstep
        cases hstep with
        | findDst hreg =>
            refine ⟨tr, [], dst, rfl, fun _ _ _ => List.not_mem_nil, ?_⟩
            rw [← directory_of_reaches hr]
            exact route_of_find (Sessions.findSessionById_eq_some.mpr hreg)
      · simp only [Function.update_of_ne hij] at hpc
        refine hstay hpc ((hstep.located hst (hloc j)).2.2 i hij) ?_
        rintro s' m' d' rfl
        exact hij hstep.thread_of_routed.symm
    · exact hstay hpc (.accept hS) (by simp)
    · exact hstay hpc (.of_eq rfl rfl rfl) (by simp)

/-- **No message is misrouted.** In every interleaving, whenever a thread hands a message to
`send` on a socket, a reader has pushed it as the task with this number, and its last lookup
before was the one for this message; when it made this lookup, the destination id led to the
socket, and the client on the socket had announced it. -/
theorem never_misrouted [Fintype T] (h : (workers T).Reaches tr st) :
    ∀ pre post j n s m ok, tr = pre ++ .sent j n s m ok :: post →
      ∃ p q r i t d,
        pre = p ++ .routed i t m (some d) :: (q ++ .pushed i t ⟨s, m, n⟩ :: r) ∧
        (∀ t' m' d', .routed i t' m' d' ∉ q) ∧
        (directoryOf p).route (destinationId m) = some s ∧
        ∃ k, .added k s (destinationId m) ∈ p := by
  rintro pre post j n s m ok rfl
  obtain ⟨st₁, st₂, h₁, hs, -, -⟩ := h.at_label
  obtain ⟨b, hpc⟩ := sent_cases hs
  have hheld : (⟨s, m, n⟩ : Task) ∈ (st₁.loc j).tasks := by simp [hpc, Pc.tasks]
  have hpushed : (⟨s, m, n⟩ : Task) ∈ tasksOf Event.pushedTask pre :=
    pushed_of_popped h₁ (List.mem_filterMap.mpr ⟨_, popped_of_held h₁ hheld, rfl⟩)
  obtain ⟨p₁, r, st₃, i, t, a, src, dst, m', rfl, h₃, hfwd, htask⟩ := forward_of_pushed h₁ hpushed
  obtain ⟨rfl, rfl, -⟩ := Task.mk.inj htask
  obtain ⟨p, q, d, rfl, hlast, hroute⟩ := routedTo_of_forward h₃ hfwd
  refine ⟨p, q, r, i, t, d, ?_, hlast, hroute, added_of_route hroute⟩
  rw [List.append_assoc, List.cons_append]

/-- The first message is sent on socket 7, whose client announced 6. -/
theorem never_misrouted_two :
    ∃ tr st, (workers (Fin 3)).Reaches tr st ∧ .sent 1 0 7 (messageTo006 49) true ∈ tr ∧
      ∀ pre post j n s m ok, tr = pre ++ .sent j n s m ok :: post →
        ∃ p q r i t d,
          pre = p ++ .routed i t m (some d) :: (q ++ .pushed i t ⟨s, m, n⟩ :: r) ∧
          (∀ t' m' d', .routed i t' m' d' ∉ q) ∧
          (directoryOf p).route (destinationId m) = some s ∧
          ∃ k, .added k s (destinationId m) ∈ p := by
  obtain ⟨tr, st, hreach, hsent⟩ : ∃ tr st, (workers (Fin 3)).Reaches tr st ∧
      .sent 1 0 7 (messageTo006 49) true ∈ tr :=
    Lts.reaches_of_execute threeThreads (twoMessages ++ run 1 [.go, .go, .go, .sent true])
      started_threeThreads (by decide)
  exact ⟨tr, st, hreach, hsent, never_misrouted hreach⟩

end Runs

end MessageRouting
