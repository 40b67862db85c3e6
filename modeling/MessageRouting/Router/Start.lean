import MessageRouting.Router.Progress

/-!
How many threads the router is started with (`Router::start`, `THREAD_COUNT`).

`Router::start` divides its threads into readers and writers, the readers being the first
half, rounded up. What the number of threads decides is whether there is a writer at all,
and whether there are two.

* `handler`: what the `i`-th thread runs; `start`: all interleavings of the threads.
  `handler_of_reaches`: a reader stays a reader, a writer a writer.
* `embedding`: the readers and writers under other names; the runs of three threads are
  runs of any four or more.
* `start_in_order_iff`: the messages of one source to one destination are written in order
  in all runs exactly if there are at most three threads. The router starts four.
* `start_delivers_iff`: when the router is at rest nothing is left to send, in all runs,
  unless there is exactly one thread.
-/

namespace MessageRouting

/-! ### The threads -/

/-- What a thread runs. -/
inductive Handler where
  | workerThreadRead
  | workerThreadWrite
  deriving DecidableEq

/-- `read_thread_count` of `Router::start`, an `int`: for thread counts below `2 ^ 31`. -/
def readThreadCount (threadCount : ℕ) : ℕ :=
  let readThreadCount := threadCount / 2
  if threadCount % 2 = 1 then readThreadCount + 1 else readThreadCount

/-- The two loops of `Router::start` that make the threads. -/
def handler (threadCount : ℕ) (i : Fin threadCount) : Handler :=
  if i < readThreadCount threadCount then .workerThreadRead else .workerThreadWrite

/-- `THREAD_COUNT` of the router's `main`. -/
def routerThreadCount : ℕ := 4

/-- The top of the handler's loop. -/
def Handler.entry : Handler → Pc
  | .workerThreadRead => .popRead
  | .workerThreadWrite => .popWrite

/-- The router with its threads made and no event yet. -/
def Launched {n : ℕ} (st : RouterState (Fin n)) : Prop :=
  Started st ∧ st.shared.readQueue = [] ∧ ∀ i, st.loc i = (handler n i).entry

/-- `Router::start`: all interleavings of its threads and the event loop. -/
def start (threadCount : ℕ) : Lts (RouterState (Fin threadCount)) (Event (Fin threadCount)) :=
  (router (Fin threadCount)).system Launched

/-- The handler that a location belongs to. -/
def Pc.handler : Pc → Handler
  | .popWrite => .workerThreadWrite
  | .findSession _ => .workerThreadWrite
  | .lockDst _ _ => .workerThreadWrite
  | .send _ _ => .workerThreadWrite
  | .removeDst _ _ => .workerThreadWrite
  | .unlockDst _ _ => .workerThreadWrite
  | _ => .workerThreadRead

/-- No step leaves a handler. -/
lemma Step.handler {T : Type} {i : T} {sh sh' : Shared T} {pc pc' : Pc} {e : Event T}
    (h : Step i sh pc e pc' sh') : pc'.handler = pc.handler := by
  cases h <;> rfl

lemma handler_of_step {T : Type} [DecidableEq T] {st st' : RouterState T} {e : Event T}
    (h : (workers T).step st e st') (i : T) : (st'.loc i).handler = (st.loc i).handler := by
  rcases workers_step_cases h with ⟨j, pc', sh', hstep, rfl⟩ | ⟨u, S, -, -, -, rfl⟩ | ⟨u, -, rfl⟩
  · by_cases hij : i = j
    · subst hij
      simp only [Function.update_self]
      exact hstep.handler
    · simp only [Function.update_of_ne hij]
  · rfl
  · rfl

lemma handler_write_iff {n : ℕ} {i : Fin n} :
    handler n i = .workerThreadWrite ↔ readThreadCount n ≤ i := by
  rw [handler]
  split_ifs with hi <;> simp <;> omega

section Roles

variable {n : ℕ} {tr : List (Event (Fin n))} {st : RouterState (Fin n)}

lemma workers_of_start (h : (start n).Reaches tr st) : (workers (Fin n)).Reaches tr st := by
  refine h.induct (fun tr st => (workers (Fin n)).Reaches tr st) ?_ ?_
  · intro st hst
    exact ⟨st, hst.1, .nil⟩
  · intro tr st e st' hr hs
    exact hr.append (.single hs)

/-- Every thread stays in its handler. -/
lemma handler_of_reaches (h : (start n).Reaches tr st) (i : Fin n) :
    (st.loc i).handler = handler n i := by
  refine h.invariant (fun st => ∀ i, (st.loc i).handler = handler n i) ?_ ?_ i
  · intro st hst i
    rw [hst.2.2 i]
    cases handler n i <;> rfl
  · intro st e st' ih hs i
    exact (handler_of_step hs i).trans (ih i)

/-- Only a writer pops a write task. -/
lemma writer_of_popped {i : Fin n} {t : Task} (h : (start n).Reaches tr st)
    (hmem : .poppedWrite i t ∈ tr) : readThreadCount n ≤ i := by
  obtain ⟨p, q, rfl⟩ := List.append_of_mem hmem
  obtain ⟨st₁, st₂, h₁, hs, -, -⟩ := h.at_label
  rw [← handler_write_iff, ← handler_of_reaches h₁ i]
  rcases workers_step_cases hs with ⟨j, pc', sh', hstep, -⟩ | ⟨u, S, he, -⟩ | ⟨u, he, -⟩
  · generalize hpc : st₁.loc j = pc at hstep
    cases hstep with
    | popWrite _ => rw [hpc]; rfl
  · cases he
  · cases he

/-- Up to three threads have one writer among them. -/
lemma oneWriter_of_start (h : (start n).Reaches tr st) (hn : n ≤ 3) : OneWriter tr := by
  intro i j t u hi hj
  have hri := writer_of_popped h hi
  have hrj := writer_of_popped h hj
  have hcount : n ≤ readThreadCount n + 1 := by
    simp only [readThreadCount]
    split_ifs <;> omega
  exact Fin.ext (by omega)

end Roles

/-! ### The order of the messages -/

section Order

variable {T : Type} [DecidableEq T]

/-- Two messages of one source to one socket are written in the order in which they were
enqueued. -/
def WrittenInOrder (tr : List (Event T)) : Prop :=
  ∀ p₀ p₁ i₁ i₂ s t₁ t₂, tr = p₀ ++ .pushed i₁ s t₁ :: p₁ → .pushed i₂ s t₂ ∈ p₁ →
    t₁.socket = t₂.socket → ∀ q q' j ok, tr = q ++ .sent j t₂.seq t₂.socket t₂.msg ok :: q' →
      ∃ i, .sent i t₁.seq t₁.socket t₁.msg true ∈ q

lemma writtenInOrder_of_oneWriter [Fintype T] {tr : List (Event T)} {st : RouterState T}
    (h : (workers T).Reaches tr st) (hok : ∀ j k s m, .sent j k s m false ∉ tr)
    (hone : OneWriter tr) : WrittenInOrder tr := by
  rintro p₀ p₁ i₁ i₂ s t₁ t₂ hfirst hsecond hsock q q' j ok hsend
  have hpair := pushed_pairwise h
  have hmem₁ : t₁ ∈ tasksOf Event.pushedTask tr :=
    List.mem_filterMap.mpr ⟨.pushed i₁ s t₁, by rw [hfirst]; simp, rfl⟩
  have hlt : t₁.seq < t₂.seq := by
    rw [hfirst, tasksOf, List.filterMap_append, List.filterMap_cons_some
      (show (Event.pushed i₁ s t₁).pushedTask = some t₁ from rfl)] at hpair
    exact (List.pairwise_cons.mp (List.pairwise_append.mp hpair).2.1).1 t₂
      (List.mem_filterMap.mpr ⟨_, hsecond, rfl⟩)
  -- the writer that sends the second message has popped both
  rw [hsend] at h hok hmem₁ hone
  obtain ⟨st₁, st₂, h₁, hs, -, -⟩ := h.at_label
  obtain ⟨a, hpc⟩ := sent_cases hs
  have hheld : t₂ ∈ (st₁.loc j).tasks := by simp [hpc, Pc.tasks]
  have hpop₂ : t₂ ∈ tasksOf Event.poppedTask q :=
    List.mem_filterMap.mpr ⟨_, popped_of_held h₁ hheld, rfl⟩
  exact sent_of_oneWriter h₁
    (fun i j t u hi hj => hone i j t u (List.mem_append_left _ hi) (List.mem_append_left _ hj))
    (fun j k s m hmem => hok j k s m (List.mem_append_left _ hmem)) hpc
    (popped_of_pushed_before h hmem₁ hlt hpop₂) hlt hsock

end Order

/-! ### The threads under other names -/

section Rename

variable {T T' : Type} (f : T → T')

def Shared.rename (sh : Shared T) : Shared T' :=
  ⟨sh.sessions, sh.readQueue, sh.writeQueue, fun a => (sh.holder a).map f, sh.opened, sh.pushes⟩

def Event.rename : Event T → Event T'
  | .accepted s => .accepted s
  | .readable s => .readable s
  | .poppedRead i s => .poppedRead (f i) s
  | .lookedUp i s p => .lookedUp (f i) s p
  | .locked i a => .locked (f i) a
  | .turned i s w => .turned (f i) s w
  | .received i s r => .received (f i) s r
  | .added i s id => .added (f i) s id
  | .routed i s m dst => .routed (f i) s m dst
  | .pushed i s t => .pushed (f i) s t
  | .removed i s => .removed (f i) s
  | .unlocked i a => .unlocked (f i) a
  | .poppedWrite i t => .poppedWrite (f i) t
  | .found i t a => .found (f i) t a
  | .dropped i t => .dropped (f i) t
  | .lockedDst i t a => .lockedDst (f i) t a
  | .sent i seq s msg ok => .sent (f i) seq s msg ok

@[simp]
lemma Shared.rename_holder (sh : Shared T) (a : Addr) :
    (sh.rename f).holder a = (sh.holder a).map f :=
  rfl

lemma Shared.rename_setHolder (sh : Shared T) (a : Addr) (o : Option T) :
    (sh.setHolder a o).rename f = (sh.rename f).setHolder a (o.map f) := by
  simp only [Shared.rename, Shared.setHolder, Shared.mk.injEq, true_and, and_true]
  funext b
  rw [Function.update_apply, Function.update_apply]
  split_ifs <;> rfl

/-- A thread does the same under another name. -/
lemma next_rename (sh : Shared T) (i : T) (pc : Pc) (inp : Input) :
    next (sh.rename f) (f i) pc inp =
      (next sh i pc inp).map fun r => (r.1.rename f, r.2.1, r.2.2.rename f) := by
  cases pc <;> cases inp
  case popRead.go =>
    simp only [next, Shared.rename]
    cases SignalingQueue.pop sh.readQueue <;> rfl
  case popWrite.go =>
    simp only [next, Shared.rename]
    cases SignalingQueue.pop sh.writeQueue <;> rfl
  case findSrc.go s =>
    simp only [next, Shared.rename]
    cases sh.sessions.findSessionBySocket s <;> rfl
  case refindSrc.go s a =>
    simp only [next, Shared.rename]
    cases sh.sessions.findSessionBySocket s <;> rfl
  case findDst.go s a src m =>
    simp only [next, Shared.rename]
    cases sh.sessions.findSessionById (destinationId m) <;> rfl
  case findSession.go t =>
    simp only [next, Shared.rename]
    cases sh.sessions.findSessionBySocket t.socket <;> rfl
  case lockSrc.go s a =>
    cases h : sh.holder a with
    | none => simp [next, h, Shared.rename_setHolder, Event.rename]
    | some j => simp [next, h]
  case lockDst.go t a =>
    cases h : sh.holder a with
    | none => simp [next, h, Shared.rename_setHolder, Event.rename]
    | some j => simp [next, h]
  case unlockSrc.go s a => simp [next, Shared.rename_setHolder, Event.rename]
  case unlockDst.go t a => simp [next, Shared.rename_setHolder, Event.rename]
  case recv.recv s a src w got r =>
    simp only [next, Option.map_map]
    rfl
  -- nothing else reads or changes who holds a mutex
  all_goals rfl

lemma loopStep_rename (sh : Shared T) (act : LoopAct) :
    loopStep (sh.rename f) act =
      (loopStep sh act).map fun r => (r.1.rename f, r.2.rename f) := by
  cases act with
  | accept s =>
      by_cases hs : s ∈ sh.opened
      · simp [loopStep, Shared.rename, hs]
      · cases h : sh.sessions.acceptClient s with
        | none => simp [loopStep, Shared.rename, hs, h]
        | some S => simp [loopStep, Shared.rename, Event.rename, hs, h]
  | readable s => rfl

variable {f} in
/-- Some of the threads of a router. -/
def embedding (hf : Function.Injective f) : (router T).Embedding (router T') where
  thread := f
  shared := Shared.rename f
  label := Event.rename f
  injective := hf
  next := next_rename f
  env := loopStep_rename f

/-- The tasks that a run shows do not depend on the names of the threads. -/
lemma tasksOf_rename {kind : Event T → Option Task} {kind' : Event T' → Option Task}
    (h : ∀ e, kind' (e.rename f) = kind e) (tr : List (Event T)) :
    tasksOf kind' (tr.map (Event.rename f)) = tasksOf kind tr := by
  rw [tasksOf, tasksOf, List.filterMap_map]
  congr 1
  funext e
  exact h e

end Rename

/-! ### What the number of threads decides -/

/-- The first reader and the first two writers. -/
def readerAndWriters {n : ℕ} (hn : 4 ≤ n) (i : Fin 3) : Fin n :=
  ⟨if i.val = 0 then 0 else readThreadCount n + (i.val - 1), by
    have hcount : readThreadCount n + 2 ≤ n := by
      simp only [readThreadCount]
      split_ifs <;> omega
    split_ifs <;> omega⟩

lemma readThreadCount_pos {n : ℕ} (hn : 1 ≤ n) : 0 < readThreadCount n := by
  simp only [readThreadCount]
  split_ifs <;> omega

lemma readerAndWriters_injective {n : ℕ} (hn : 4 ≤ n) :
    Function.Injective (readerAndWriters hn) := by
  intro i j hij
  have hpos := readThreadCount_pos (show 1 ≤ n by omega)
  have hval := congrArg Fin.val hij
  simp only [readerAndWriters] at hval
  split_ifs at hval <;> exact Fin.ext (by omega)

/-- Three threads, and the others at the top of their loops. -/
noncomputable def threeOf {n : ℕ} (hn : 4 ≤ n) (st : RouterState (Fin 3)) : RouterState (Fin n) :=
  (embedding (readerAndWriters_injective hn)).state (fun i => (handler n i).entry) st

lemma threeOf_loc {n : ℕ} (hn : 4 ≤ n) (st : RouterState (Fin 3)) :
    (threeOf hn st).loc =
      Function.extend (readerAndWriters hn) st.loc fun i => (handler n i).entry :=
  rfl

lemma launched_threeOf {n : ℕ} (hn : 4 ≤ n) : Launched (threeOf hn threeThreads) := by
  have hloc : ∀ i, (threeOf hn threeThreads).loc i = (handler n i).entry := by
    intro i
    by_cases hi : ∃ k, readerAndWriters hn k = i
    · obtain ⟨k, rfl⟩ := hi
      rw [threeOf_loc, (readerAndWriters_injective hn).extend_apply]
      have hpos := readThreadCount_pos (show 1 ≤ n by omega)
      by_cases hk : k = 0
      · subst hk
        rw [handler, if_pos (by simpa [readerAndWriters] using hpos)]
        rfl
      · have hk' : k.val ≠ 0 := fun h => hk (Fin.ext h)
        rw [handler, if_neg (by simp [readerAndWriters, hk'])]
        exact if_neg hk
    · rw [threeOf_loc, Function.extend_apply' _ _ _ hi]
  refine ⟨⟨rfl, rfl, fun _ => rfl, rfl, fun i => ?_⟩, rfl, hloc⟩
  rw [hloc i]
  cases handler n i
  · exact .inl rfl
  · exact .inr rfl

/-- Four or more threads can write two messages of one source in the wrong order. -/
lemma start_out_of_order {n : ℕ} (hn : 4 ≤ n) :
    ∃ tr st, (start n).Reaches tr st ∧ (∀ j k s m, .sent j k s m false ∉ tr) ∧
      ¬ WrittenInOrder tr := by
  obtain ⟨tr, st, ⟨st₀, rfl, hrun⟩, hok, hfirst, hsecond, hsent, hnot⟩ :
      ∃ tr st, ((router (Fin 3)).system (· = threeThreads)).Reaches tr st ∧
        tasksOf Event.failedTask tr = [] ∧ tr[24]? = some (.pushed 0 4 firstTask) ∧
        .pushed 0 4 secondTask ∈ tr.drop 25 ∧
        tr[34]? = some (.sent 2 1 7 (messageTo006 50) true) ∧
        firstTask ∉ tasksOf Event.sentTask (tr.take 34) :=
    Lts.reaches_of_execute threeThreads (twoMessages ++ run 1 [.go, .go] ++
      run 2 [.go, .go, .go, .sent true, .go] ++ run 1 [.go, .sent true]) rfl (by decide)
  have hinj := readerAndWriters_injective hn
  have hnames : ∀ e : Event (Fin 3),
      (e.rename (readerAndWriters hn)).failedTask = e.failedTask := by
    intro e
    cases e with
    | sent i k s m ok => cases ok <;> rfl
    | _ => rfl
  have hnames' : ∀ e : Event (Fin 3), (e.rename (readerAndWriters hn)).sentTask = e.sentTask := by
    intro e
    cases e with
    | sent i k s m ok => cases ok <;> rfl
    | _ => rfl
  refine ⟨tr.map (Event.rename (readerAndWriters hn)), threeOf hn st,
    ⟨_, launched_threeOf hn, (embedding hinj).run _ hrun⟩,
    not_failed (by rw [tasksOf_rename _ hnames, hok]), fun hin => ?_⟩
  have hfirst' := congrArg (Option.map (Event.rename (readerAndWriters hn))) hfirst
  have hsent' := congrArg (Option.map (Event.rename (readerAndWriters hn))) hsent
  rw [← List.getElem?_map] at hfirst' hsent'
  obtain ⟨i, hi⟩ := hin _ _ _ (readerAndWriters hn 0) 4 firstTask secondTask
    (eq_take_cons_drop hfirst') (by rw [← List.map_drop]; exact List.mem_map_of_mem hsecond) rfl
    _ _ _ true (eq_take_cons_drop hsent')
  refine hnot ?_
  rw [← tasksOf_rename _ hnames', List.map_take]
  exact List.mem_filterMap.mpr ⟨_, hi, rfl⟩

/-- **Three threads at most.** Among all runs of a router that is started with `n` threads and
in which no `send` fails, two messages of one source to one destination are always written in
the order in which they were enqueued exactly if `n ≤ 3`. Here `n` stands for the thread counts
below `2 ^ 31`, which the counters of `Router::start` can hold. -/
theorem start_in_order_iff (n : ℕ) :
    (∀ tr st, (start n).Reaches tr st → (∀ j k s m, .sent j k s m false ∉ tr) → WrittenInOrder tr) ↔
      n ≤ 3 := by
  refine ⟨fun hall => ?_, fun hn tr st h hok => ?_⟩
  · by_contra hn
    obtain ⟨tr, st, h, hok, hbad⟩ := start_out_of_order (show 4 ≤ n by omega)
    exact hbad (hall tr st h hok)
  · exact writtenInOrder_of_oneWriter (workers_of_start h) hok (oneWriter_of_start h hn)

/-- The router starts one thread too many for this. -/
example : ¬ routerThreadCount ≤ 3 := by decide

/-- One reader and no writer. -/
def oneThread : RouterState (Fin 1) :=
  ⟨⟨Sessions.empty, [], [], fun _ => none, [], 0⟩, fun _ => .popRead⟩

/-- A client announces 6 and sends a message to itself. -/
def toItself {T : Type} (i : T) : List (Program.Act T Input LoopAct) :=
  [.env (.accept 7), .env (.readable 7)] ++
    [.go, .go, .go, .go, .go, .recv (.bytes [48, 48, 54]), .go, .go,
      .recv (.bytes (messageTo006 49)), .go, .go, .go, .recv .wouldBlock, .go].map (.thread i)

/-- **One thread is not enough.** In all runs of a router that is started with `n` threads,
when the router is at rest all of every message for a socket that was not removed has been
transmitted, exactly if `n ≠ 1`: a thread alone is a reader. Again `n` is below `2 ^ 31`. -/
theorem start_delivers_iff (n : ℕ) :
    (∀ tr st, (start n).Reaches tr st → AtRest st → ∀ t ∈ tasksOf Event.pushedTask tr,
      (∀ i, .removed i t.socket ∉ tr) → t ∈ tasksOf Event.sentTask tr) ↔ n ≠ 1 := by
  constructor
  · rintro hall rfl
    obtain ⟨tr, st, hreach, hrest, hpushed, hkept, hsent⟩ : ∃ tr st, (start 1).Reaches tr st ∧
        AtRest st ∧ firstTask ∈ tasksOf Event.pushedTask tr ∧ (∀ i, .removed i 7 ∉ tr) ∧
          tasksOf Event.sentTask tr = [] :=
      Lts.reaches_of_execute oneThread (toItself 0)
        ⟨⟨rfl, rfl, fun _ => rfl, rfl, fun _ => .inl rfl⟩, rfl, by decide⟩ (by decide)
    have hmem := hall tr st hreach hrest firstTask hpushed hkept
    rw [hsent] at hmem
    cases hmem
  · intro hn tr st h hrest t ht hkept
    -- a message was pushed, so there is a thread, and therefore a second one
    obtain ⟨-, -, -, i, -⟩ := forward_of_pushed (workers_of_start h) ht
    have hpos : 0 < n := i.pos
    have hlast : readThreadCount n ≤ n - 1 := by
      simp only [readThreadCount]
      split_ifs <;> omega
    have hrole := handler_of_reaches h ⟨n - 1, by omega⟩
    rw [handler_write_iff.mpr hlast] at hrole
    have hwriter : st.loc ⟨n - 1, by omega⟩ = .popWrite := by
      rcases hrest ⟨n - 1, by omega⟩ with ⟨hi, -⟩ | ⟨hi, -⟩
      · rw [hi] at hrole
        cases hrole
      · exact hi
    have hcount := (count_sentTask_at_rest (workers_of_start h) hrest ⟨_, hwriter⟩ ht hkept).1
    exact List.count_pos_iff.mp (by omega)

end MessageRouting
