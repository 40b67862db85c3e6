import MessageRouting.Router.Conservation

/-!
What the writers do to a destination: in which order its messages are written,
and whether something is written after its session was removed.

`do_writes` looks the session up before it takes the session's mutex. Between
the two another writer can pass it, and another thread can remove the session;
`do_reads` looks the session up again under the mutex, `do_writes` does not.

* `delivered_in_order`: two messages for one socket are written in the order in
  which they were enqueued if there is one writer, or if their writers lock the
  session in this order. `delivered_out_of_order` is the run of two writers in
  which they do not.
* `no_send_after_removal`: nothing is sent to a removed socket as long as, at
  each removal, no writer stands between its lookup of the socket and the lock.
  `sent_after_removal` is the run in which one does.
-/

namespace MessageRouting

variable {T : Type} {sh sh' : Shared T} {i j : T} {pc pc' : Pc} {e : Event T}
  {tr : List (Event T)} {s : ℤ}

/-! ### Nothing is sent to a removed socket -/

/-- A thread that removes a socket holds the mutex of its session. -/
lemma Step.of_removed (hst : Standing sh) (hl : Located sh i pc)
    (h : Step i sh pc (.removed j s) pc' sh') : ∃ a, SessionOf sh s a ∧ sh.holder a = some i := by
  cases h with
  | removeSrc => exact ⟨_, hl.sessionOf hst, hl.1⟩
  | @removeDst t a =>
      refine ⟨a, ?_, hl.2⟩
      rw [hl.1.getSocket]
      exact hl.1

/-- The socket that a step removes. -/
def Event.removedSocket : Event T → Option ℤ
  | .removed _ s => some s
  | _ => none

/-- The socket whose session a writer has looked up and not yet locked. -/
def Pc.awaited : Pc → Option ℤ
  | .lockDst t _ => some t.socket
  | _ => none

/-- At a removal of a socket no writer stands between its lookup of the socket
and the lock. -/
def NoWriterBetween (st : RouterState T) (e : Event T) : Prop :=
  ∀ s ∈ e.removedSocket, ∀ j, (st.loc j).awaited ≠ some s

instance [Fintype T] (st : RouterState T) (e : Event T) : Decidable (NoWriterBetween st e) :=
  inferInstanceAs (Decidable (∀ s ∈ e.removedSocket, ∀ j, (st.loc j).awaited ≠ some s))

/-- Every writer that has looked its session up finds it still registered. -/
def Aimed (st : RouterState T) : Prop :=
  ∀ j t a, st.loc j = .lockDst t a ∨ st.loc j = .send t a →
    st.shared.sessions.sessionsBySocket t.socket = some (some a)

variable [DecidableEq T] {st st' : RouterState T}

/-- A registered session stays registered in a step, unless it is removed. -/
lemma Aimed.step (ha : Aimed st) (hst : Standing st.shared)
    (hloc : ∀ i, Located st.shared i (st.loc i)) (hs : (workers T).step st e st')
    (hn : NoWriterBetween st e) : Aimed st' := by
  rcases workers_step_cases hs with ⟨i, pc', sh', hstep, rfl⟩ | ⟨t, S, -, hnew, hS, rfl⟩ |
    ⟨t, -, rfl⟩
  · -- a session whose mutex is held or whose writer is waiting is not the one removed
    have hkeep : ∀ k t a, k ≠ i → st.loc k = .lockDst t a ∨ st.loc k = .send t a →
        sh'.sessions.sessionsBySocket t.socket = some (some a) := by
      intro k t a hk hpc
      have hreg := ha k t a hpc
      rcases hstep.bySocket_cases with hsame | ⟨s, rfl, hrem⟩
      · rw [hsame]
        exact hreg
      · rw [hrem, Function.update_of_ne, hreg]
        rintro rfl
        rcases hpc with hpc | hpc
        · exact hn _ rfl k (by rw [hpc]; rfl)
        · obtain ⟨b, hb, hib⟩ := hstep.of_removed hst (hloc i)
          have hl : Located st.shared k (.send t a) := hpc ▸ hloc k
          have hhold := hl.2
          rw [hl.1.inj hst hb, hib] at hhold
          exact hk (Option.some.inj hhold).symm
    intro k t a hpc
    by_cases hk : k = i
    · subst hk
      simp only [Function.update_self] at hpc
      have hold := ha k t a
      generalize st.loc k = pc at hstep hold
      rcases hpc with rfl | rfl
      · cases hstep with
        | findSession hreg => exact hreg
      · cases hstep with
        | lockDst _ => exact hold (.inl rfl)
    · simp only [Function.update_of_ne hk] at hpc
      exact hkeep k t a hk hpc
  · intro k u a hpc
    have hreg := ha k u a hpc
    obtain ⟨hnone, hbs, -⟩ := Sessions.acceptClient_spec hS
    show S.sessionsBySocket u.socket = some (some a)
    rw [hbs, Function.update_of_ne, hreg]
    intro hut
    rw [hut, hnone] at hreg
    cases hreg
  · exact ha

lemma aimed_of_reaches (h : ((workers T).restrict NoWriterBetween).Reaches tr st) : Aimed st := by
  have key : (workers T).Reaches tr st ∧ Aimed st := by
    refine h.induct (fun tr st => (workers T).Reaches tr st ∧ Aimed st) ?_ ?_
    · intro st hst
      refine ⟨⟨st, hst, .nil⟩, fun k t a hpc => ?_⟩
      rcases hst.2.2.2.2 k with hk | hk
      · rw [hk] at hpc
        rcases hpc with hpc | hpc <;> cases hpc
      · rw [hk] at hpc
        rcases hpc with hpc | hpc <;> cases hpc
    · rintro tr st e st' ⟨hr, ha⟩ ⟨hs, hn⟩
      obtain ⟨hst, hloc⟩ := standing_of_reaches hr
      exact ⟨hr.append (.single hs), ha.step hst hloc hs hn⟩
  exact key.2

/-- A step that sends to a socket is made by a writer that stands before the
`send`. -/
lemma sent_cases {k : ℕ} {msg : List UInt8} {ok : Bool}
    (h : (workers T).step st (.sent j k s msg ok) st') : ∃ a, st.loc j = .send ⟨s, msg, k⟩ a := by
  rcases workers_step_cases h with ⟨i, pc', sh', hstep, -⟩ | ⟨t, S, he, -⟩ | ⟨t, he, -⟩
  · generalize hpc : st.loc i = pc at hstep
    cases hstep with
    | send => exact ⟨_, hpc⟩
    | send_failed => exact ⟨_, hpc⟩
  · cases he
  · cases he

/-- **No send after removal**: in every run in which, at each removal of a socket,
no writer stands between its lookup of the socket and the lock, no thread sends
on the socket once its removal has completed. -/
theorem no_send_after_removal (h : ((workers T).restrict NoWriterBetween).Reaches tr st) :
    ∀ pre post i s, tr = pre ++ .removed i s :: post →
      ∀ j k msg ok, .sent j k s msg ok ∉ post := by
  rintro pre post i s rfl j k msg ok hmem
  obtain ⟨st₁, st₂, h₁, hs, h₂, hrun⟩ := h.at_label
  have hret := removed_retired h₁.of_restrict hs.1
  obtain ⟨p, q, rfl⟩ := List.append_of_mem hmem
  obtain ⟨st₃, hrun₃, hrest⟩ := hrun.split
  obtain ⟨st₄, hs₃, -⟩ := hrest.uncons
  obtain ⟨a, hpc⟩ := sent_cases hs₃.1
  have hreg := aimed_of_reaches (h₂.append hrun₃) j _ a (.inr hpc)
  rw [(hret.run hrun₃.of_restrict).2] at hreg
  cases hreg

lemma eq_take_cons_drop {α : Type} {l : List α} {n : ℕ} {x : α} (h : l[n]? = some x) :
    l = l.take n ++ x :: l.drop (n + 1) := by
  obtain ⟨hn, rfl⟩ := List.getElem?_eq_some_iff.mp h
  rw [← List.drop_eq_getElem_cons hn, List.take_append_drop]

/-- The two tasks of `twoMessages`. -/
def firstTask : Task := ⟨7, messageTo006 49, 0⟩

def secondTask : Task := ⟨7, messageTo006 50, 1⟩

/-- In this run a removal happens while the other writer is idle, and the second
message is dropped. -/
theorem no_send_after_removal_idle :
    ∃ tr st, ((workers (Fin 3)).restrict NoWriterBetween).Reaches tr st ∧
      .removed 1 7 ∈ tr ∧ .dropped 2 secondTask ∈ tr ∧
      ∀ pre post i s, tr = pre ++ .removed i s :: post →
        ∀ j k msg ok, .sent j k s msg ok ∉ post := by
  obtain ⟨tr, st, hguarded, hrem, hdrop⟩ : ∃ tr st,
      (Lts.ofFn Started (Lts.guarded (router (Fin 3)).step NoWriterBetween)).Reaches tr st ∧
        .removed 1 7 ∈ tr ∧ .dropped 2 secondTask ∈ tr :=
    Lts.reaches_of_execute threeThreads (twoMessages ++
      run 1 [.go, .go, .go, .sent false, .go, .go] ++ run 2 [.go, .go]) started_threeThreads
      (by decide)
  have hreach : ((workers (Fin 3)).restrict NoWriterBetween).Reaches tr st := hguarded.of_guarded
  exact ⟨tr, st, hreach, hrem, hdrop, no_send_after_removal hreach⟩

/-- A writer that has looked the session up sends to the socket after another
writer's `send` has failed and removed it. -/
theorem sent_after_removal :
    ¬ ∀ (tr : List (Event (Fin 3))) (st : RouterState (Fin 3)), (workers (Fin 3)).Reaches tr st →
      ∀ pre post i s, tr = pre ++ .removed i s :: post →
        ∀ j k msg ok, .sent j k s msg ok ∉ post := by
  obtain ⟨tr, st, hreach, -, hrem, hsent⟩ : ∃ tr st, (workers (Fin 3)).Reaches tr st ∧
      .sent 2 1 7 (messageTo006 50) false ∈ tr.take 35 ∧ tr[35]? = some (.removed 2 7) ∧
        .sent 1 0 7 (messageTo006 49) true ∈ tr.drop 36 :=
    Lts.reaches_of_execute threeThreads (twoMessages ++ run 1 [.go, .go] ++
      run 2 [.go, .go, .go, .sent false, .go, .go] ++ run 1 [.go, .sent true]) started_threeThreads
      (by decide)
  intro hall
  exact hall tr st hreach _ _ 2 7 (eq_take_cons_drop hrem) 1 0 _ true hsent

/-! ### The order of two messages for one socket -/

/-- A writer that stands before a `send` has locked the session for it. -/
lemma locked_of_send (h : (workers T).Reaches tr st) {t : Task} {a : Addr}
    (hpc : st.loc j = .send t a) : .lockedDst j t a ∈ tr := by
  refine h.induct (fun tr st => ∀ j t a, st.loc j = .send t a → .lockedDst j t a ∈ tr)
    ?_ ?_ j t a hpc
  · intro st hst j t a hpc
    rcases hst.2.2.2.2 j with hj | hj
    · rw [hj] at hpc
      cases hpc
    · rw [hj] at hpc
      cases hpc
  · intro tr st e st' ih hs j t a hpc
    rcases workers_step_cases hs with ⟨i, pc', sh', hstep, rfl⟩ | ⟨u, S, -, -, -, rfl⟩ |
      ⟨u, -, rfl⟩
    · by_cases hj : j = i
      · subst hj
        simp only [Function.update_self] at hpc
        subst hpc
        generalize st.loc j = pc at hstep
        cases hstep with
        | lockDst _ => simp
      · simp only [Function.update_of_ne hj] at hpc
        exact List.mem_append_left _ (ih j t a hpc)
    · exact List.mem_append_left _ (ih j t a hpc)
    · exact List.mem_append_left _ (ih j t a hpc)

/-- A writer that has locked a session has sent its message, or stands before
the `send`. -/
lemma sent_of_locked (h : (workers T).Reaches tr st) {t : Task} {a : Addr}
    (hmem : .lockedDst j t a ∈ tr) :
    (∃ ok, .sent j t.seq t.socket t.msg ok ∈ tr) ∨ st.loc j = .send t a := by
  refine h.induct (fun tr st => ∀ j t a, .lockedDst j t a ∈ tr →
    (∃ ok, .sent j t.seq t.socket t.msg ok ∈ tr) ∨ st.loc j = .send t a) ?_ ?_ j t a hmem
  · intro st _ j t a hmem
    cases hmem
  · intro tr st e st' ih hs j t a hmem
    -- what was sent stays sent
    have hkeep : (∃ ok, .sent j t.seq t.socket t.msg ok ∈ tr) →
        ∃ ok, .sent j t.seq t.socket t.msg ok ∈ tr ++ [e] :=
      fun ⟨ok, hok⟩ => ⟨ok, List.mem_append_left _ hok⟩
    have hold : e ≠ .lockedDst j t a →
        (∃ ok, .sent j t.seq t.socket t.msg ok ∈ tr) ∨ st.loc j = .send t a := by
      intro hne
      rcases List.mem_append.mp hmem with hmem | hmem
      · exact ih j t a hmem
      · exact absurd (List.mem_singleton.mp hmem).symm hne
    rcases workers_step_cases hs with ⟨i, pc', sh', hstep, rfl⟩ | ⟨u, S, rfl, -, -, rfl⟩ |
      ⟨u, rfl, rfl⟩
    · by_cases he : e = .lockedDst j t a
      · subst he
        right
        generalize hpc : st.loc i = pc at hstep
        cases hstep with
        | lockDst _ => simp
      · rcases hold he with hsent | hpc
        · exact .inl (hkeep hsent)
        · by_cases hj : j = i
          · subst hj
            rw [hpc] at hstep
            cases hstep with
            | send => exact .inl ⟨true, by simp⟩
            | send_failed => exact .inl ⟨false, by simp⟩
          · right
            simp only [Function.update_of_ne hj]
            exact hpc
    · exact (hold (by simp)).imp hkeep id
    · exact (hold (by simp)).imp hkeep id

/-- A writer that holds a task has popped it. -/
lemma popped_of_held (h : (workers T).Reaches tr st) {t : Task} (ht : t ∈ (st.loc j).tasks) :
    .poppedWrite j t ∈ tr := by
  refine h.induct (fun tr st => ∀ j t, t ∈ (st.loc j).tasks → .poppedWrite j t ∈ tr) ?_ ?_ j t ht
  · intro st hst j t ht
    rcases hst.2.2.2.2 j with hj | hj
    · rw [hj] at ht
      simp [Pc.tasks] at ht
    · rw [hj] at ht
      simp [Pc.tasks] at ht
  · intro tr st e st' ih hs j t ht
    rcases workers_step_cases hs with ⟨i, pc', sh', hstep, rfl⟩ | ⟨u, S, -, -, -, rfl⟩ |
      ⟨u, -, rfl⟩
    · by_cases hj : j = i
      · subst hj
        simp only [Function.update_self] at ht
        -- the task was there before, unless this step popped it
        have hbal := hstep.balance
        have hmem : t ∈ (st.loc j).tasks + (e.poppedTask.toList : Multiset Task) := by
          rw [← hbal]
          exact Multiset.mem_add.mpr (.inl ht)
        rcases Multiset.mem_add.mp hmem with hold | hnew
        · exact List.mem_append_left _ (ih j t hold)
        · generalize st.loc j = pc at hstep
          cases hstep with
          | popWrite _ =>
              obtain rfl : t = _ := by simpa [Event.poppedTask] using hnew
              simp
          | _ => simp [Event.poppedTask] at hnew
      · simp only [Function.update_of_ne hj] at ht
        exact List.mem_append_left _ (ih j t ht)
    · exact List.mem_append_left _ (ih j t ht)
    · exact List.mem_append_left _ (ih j t ht)

/-- Only one thread pops write tasks. -/
def OneWriter (tr : List (Event T)) : Prop :=
  ∀ i j t u, .poppedWrite i t ∈ tr → .poppedWrite j u ∈ tr → i = j

lemma dropped_retired (h : (workers T).Reaches tr st) {t : Task} (hmem : .dropped j t ∈ tr) :
    Retired t.socket st.shared := by
  obtain ⟨p, q, rfl⟩ := List.append_of_mem hmem
  obtain ⟨st₁, st₂, h₁, hs, -, hrun⟩ := h.at_label
  obtain ⟨hst, hloc⟩ := standing_of_reaches h₁
  refine Retired.run ?_ hrun
  rcases workers_step_cases hs with ⟨i, pc', sh', hstep, rfl⟩ | ⟨u, S, he, -⟩ | ⟨u, he, -⟩
  · have hl := hloc i
    generalize st₁.loc i = pc at hstep hl
    cases hstep with
    | findSession_none hnone =>
        refine ⟨hl, ?_⟩
        by_contra hreg
        obtain ⟨p, hp⟩ := Option.ne_none_iff_exists'.mp hreg
        obtain ⟨a, x, rfl, -⟩ := hst.consistent.bySocket _ p hp
        rw [Sessions.findSessionBySocket_eq_some.mpr hp] at hnone
        cases hnone
  · cases he
  · cases he

/-- With one writer, no task for the socket whose session it has looked up was
ever dropped. -/
lemma not_dropped_of_aimed (h : (workers T).Reaches tr st) (hone : OneWriter tr) {t u : Task}
    {a : Addr} (hpc : st.loc j = .lockDst t a ∨ st.loc j = .send t a)
    (hsock : u.socket = t.socket) : .dropped i u ∉ tr := by
  have key : (workers T).Reaches tr st ∧ (OneWriter tr → ∀ j t a u i,
      st.loc j = .lockDst t a ∨ st.loc j = .send t a → u.socket = t.socket →
      .dropped i u ∉ tr) := by
    refine h.induct (fun tr st => (workers T).Reaches tr st ∧ (OneWriter tr → ∀ j t a u i,
      st.loc j = .lockDst t a ∨ st.loc j = .send t a → u.socket = t.socket →
      .dropped i u ∉ tr)) ?_ ?_
    · intro st hst
      exact ⟨⟨st, hst, .nil⟩, fun _ j t a u i _ _ hmem => by cases hmem⟩
    · rintro tr st e st' ⟨hr, ih⟩ hs
      have hr' : (workers T).Reaches (tr ++ [e]) st' := hr.append (.single hs)
      refine ⟨hr', fun hone j t a u k hpc hsock hmem => ?_⟩
      have hone₀ : OneWriter tr := fun i j t u hi hj =>
        hone i j t u (List.mem_append_left _ hi) (List.mem_append_left _ hj)
      have hret := dropped_retired hr' hmem
      -- the one writer holds this task, so it cannot have dropped another one just now
      have hheld : t ∈ (st'.loc j).tasks := by
        rcases hpc with hpc | hpc <;> simp [hpc, Pc.tasks]
      rcases workers_step_cases hs with ⟨i, pc', sh', hstep, rfl⟩ | ⟨v, S, rfl, -, -, rfl⟩ |
        ⟨v, rfl, rfl⟩
      · have hmem₀ : .dropped k u ∈ tr := by
          rcases List.mem_append.mp hmem with hmem | hmem
          · exact hmem
          · obtain rfl := List.mem_singleton.mp hmem
            obtain ⟨hu, rfl⟩ : u ∈ (st.loc i).tasks ∧ pc' = .popWrite := by
              generalize st.loc i = pc at hstep
              cases hstep with
              | findSession_none _ => exact ⟨by simp [Pc.tasks], rfl⟩
            obtain rfl : j = i := hone j i t u (popped_of_held hr' hheld)
              (List.mem_append_left _ (popped_of_held hr hu))
            simp [Pc.tasks] at hheld
        by_cases hj : j = i
        · subst hj
          simp only [Function.update_self] at hpc
          have hold := ih hone₀ j t a u k
          generalize st.loc j = pc at hstep hold
          rcases hpc with rfl | rfl
          · cases hstep with
            | findSession hreg =>
                rw [← hsock, hret.2] at hreg
                cases hreg
          · cases hstep with
            | lockDst _ => exact hold (.inl rfl) hsock hmem₀
        · simp only [Function.update_of_ne hj] at hpc
          exact ih hone₀ j t a u k hpc hsock hmem₀
      · exact ih hone₀ j t a u k hpc hsock (by simpa using hmem)
      · exact ih hone₀ j t a u k hpc hsock (by simpa using hmem)
  exact key.2 hone j t a u i hpc hsock

/-- The tasks of a run are pushed in the order of their numbers. -/
lemma pushed_pairwise [Fintype T] (h : (workers T).Reaches tr st) :
    (tasksOf Event.pushedTask tr).Pairwise fun t u => t.seq < u.seq := by
  have hlt : ((tasksOf Event.pushedTask tr).map Task.seq).Pairwise (· < ·) := by
    rw [(balanced_of_reaches h).numbers]
    exact List.pairwise_lt_range
  exact List.pairwise_map.mp hlt

/-- A task that was pushed before one that a writer has popped is popped too. -/
lemma popped_of_pushed_before [Fintype T] {q q' : List (Event T)} {t u : Task}
    (h : (workers T).Reaches (q ++ q') st) (ht : t ∈ tasksOf Event.pushedTask (q ++ q'))
    (hlt : t.seq < u.seq) (hu : u ∈ tasksOf Event.poppedTask q) :
    t ∈ tasksOf Event.poppedTask q := by
  obtain ⟨st₁, h₁, -⟩ := h.split
  have hpair := pushed_pairwise h
  have hsplit : tasksOf Event.pushedTask (q ++ q') =
      tasksOf Event.poppedTask q ++ (st₁.shared.writeQueue ++ tasksOf Event.pushedTask q') := by
    rw [← List.append_assoc, ← tasks_fifo h₁]
    exact List.filterMap_append
  rw [hsplit] at hpair ht
  rcases List.mem_append.mp ht with ht | ht
  · exact ht
  · have := (List.pairwise_append.mp hpair).2.2 u hu t ht
    omega

/-- With one writer, a message that was enqueued before the one it is about to
send has been sent. -/
lemma sent_of_oneWriter [Fintype T] {t u : Task} {a : Addr} (h : (workers T).Reaches tr st)
    (hone : OneWriter tr) (hok : ∀ j k s m, .sent j k s m false ∉ tr)
    (hpc : st.loc j = .send u a) (hpop : t ∈ tasksOf Event.poppedTask tr) (hlt : t.seq < u.seq)
    (hsock : t.socket = u.socket) : ∃ i, .sent i t.seq t.socket t.msg true ∈ tr := by
  have hmem : t ∈ (tasksOf Event.poppedTask tr : Multiset Task) := hpop
  rw [(balanced_of_reaches h).popped] at hmem
  simp only [Multiset.mem_add, Multiset.mem_coe] at hmem
  rcases hmem with hheld | (hsent | hfailed) | hdropped
  · -- the one writer holds the other task
    obtain ⟨i, -, hi⟩ := Multiset.mem_sum.mp hheld
    have hju : u ∈ (st.loc j).tasks := by simp [hpc, Pc.tasks]
    obtain rfl := hone i j t u (popped_of_held h hi) (popped_of_held h hju)
    obtain rfl : t = u := by simpa [hpc, Pc.tasks] using hi
    omega
  · obtain ⟨e, he, het⟩ := List.mem_filterMap.mp hsent
    cases e with
    | sent i k s m ok =>
        cases ok with
        | true =>
            cases het
            exact ⟨i, he⟩
        | false => cases het
    | _ => cases het
  · obtain ⟨e, he, het⟩ := List.mem_filterMap.mp hfailed
    cases e with
    | sent i k s m ok =>
        cases ok with
        | true => cases het
        | false => exact absurd he (hok i k s m)
    | _ => cases het
  · obtain ⟨e, he, het⟩ := List.mem_filterMap.mp hdropped
    cases e with
    | dropped i v =>
        cases het
        exact absurd he (not_dropped_of_aimed h hone (.inr hpc) hsock)
    | _ => cases het

/-- A message for the session that a writer has locked was sent before, if its
writer locked the session before. -/
lemma sent_of_locked_before {t u : Task} {a : Addr} (h : (workers T).Reaches tr st)
    (hok : ∀ j k s m, .sent j k s m false ∉ tr) (hpc : st.loc j = .send u a) (hne : t ≠ u)
    (hsock : t.socket = u.socket) {b : Addr} (hlock : .lockedDst i t b ∈ tr) :
    .sent i t.seq t.socket t.msg true ∈ tr := by
  obtain ⟨hst, hloc⟩ := standing_of_reaches h
  rcases sent_of_locked h hlock with ⟨ok, hsent⟩ | hpc'
  · cases ok with
    | true => exact hsent
    | false => exact absurd hsent (hok i _ _ _)
  · -- both would hold the mutex of the one session of the socket
    have hi : Located st.shared i (.send t b) := hpc' ▸ hloc i
    have hj : Located st.shared j (.send u a) := hpc ▸ hloc j
    have hab : b = a := hi.1.inj hst (hsock ▸ hj.1)
    have hij : some i = some j := by rw [← hi.2, ← hj.2, hab]
    rw [Option.some.inj hij, hpc] at hpc'
    exact absurd (Pc.send.inj hpc').1.symm hne

/-- **The order of two messages for one socket.** The messages of a source are
enqueued in the order in which they stand in its stream. If every send succeeds,
two of them are for one socket, and there is one writer or the writer of the
first locks the session before the writer of the second does, then the first is
written before the second. -/
theorem delivered_in_order [Fintype T] {p₀ p₁ : List (Event T)} {i₁ i₂ : T} {t₁ t₂ : Task}
    (h : (workers T).Reaches tr st) (hok : ∀ j k s m, .sent j k s m false ∉ tr)
    (hfirst : tr = p₀ ++ .pushed i₁ s t₁ :: p₁) (hsecond : .pushed i₂ s t₂ ∈ p₁)
    (hsock : t₁.socket = t₂.socket)
    (hcond : OneWriter tr ∨ ∀ q q' j a, tr = q ++ .lockedDst j t₂ a :: q' →
      ∃ i b, .lockedDst i t₁ b ∈ q) :
    Segments (enqueued s tr) (consumed s tr) ∧
    ∀ q q' j ok, tr = q ++ .sent j t₂.seq t₂.socket t₂.msg ok :: q' →
      ∃ i, .sent i t₁.seq t₁.socket t₁.msg true ∈ q := by
  refine ⟨(accounted_of_reaches h).1.pushed s, ?_⟩
  rintro q q' j ok hsend
  have hlt : t₁.seq < t₂.seq := by
    have hpair := pushed_pairwise h
    rw [hfirst, tasksOf, List.filterMap_append] at hpair
    have htail := (List.pairwise_append.mp hpair).2.1
    rw [List.filterMap_cons_some (show (Event.pushed i₁ s t₁).pushedTask = some t₁ from rfl)]
      at htail
    exact (List.pairwise_cons.mp htail).1 t₂ (List.mem_filterMap.mpr ⟨_, hsecond, rfl⟩)
  have hne : t₁ ≠ t₂ := by
    rintro rfl
    omega
  have hmem₁ : t₁ ∈ tasksOf Event.pushedTask tr :=
    List.mem_filterMap.mpr ⟨.pushed i₁ s t₁, by rw [hfirst]; simp, rfl⟩
  rw [hsend] at h hok hmem₁
  obtain ⟨st₁, st₂, h₁, hs, -, -⟩ := h.at_label
  have hok₁ : ∀ j k s m, .sent j k s m false ∉ q :=
    fun j k s m hmem => hok j k s m (List.mem_append_left _ hmem)
  obtain ⟨a, hpc⟩ := sent_cases hs
  rcases hcond with hone | hlock
  · have hone₁ : OneWriter q := fun i j t u hi hj =>
      hone i j t u (hsend ▸ List.mem_append_left _ hi) (hsend ▸ List.mem_append_left _ hj)
    have hheld : t₂ ∈ (st₁.loc j).tasks := by simp [hpc, Pc.tasks]
    have hpop₂ : t₂ ∈ tasksOf Event.poppedTask q :=
      List.mem_filterMap.mpr ⟨_, popped_of_held h₁ hheld, rfl⟩
    exact sent_of_oneWriter h₁ hone₁ hok₁ hpc (popped_of_pushed_before h hmem₁ hlt hpop₂) hlt hsock
  · obtain ⟨x, y, rfl⟩ := List.append_of_mem (locked_of_send h₁ hpc)
    obtain ⟨i, b, hib⟩ := hlock x (y ++ .sent j t₂.seq t₂.socket t₂.msg ok :: q') j a
      (by rw [hsend]; simp)
    exact ⟨i, sent_of_locked_before h₁ hok₁ hpc hne hsock (List.mem_append_left _ hib)⟩

omit [DecidableEq T] in
lemma not_failed (h : tasksOf Event.failedTask tr = []) (j : T) (k : ℕ) (s : ℤ) (m : List UInt8) :
    .sent j k s m false ∉ tr := by
  intro hmem
  have ht : (⟨s, m, k⟩ : Task) ∈ tasksOf Event.failedTask tr :=
    List.mem_filterMap.mpr ⟨_, hmem, rfl⟩
  rw [h] at ht
  cases ht

/-- An element that stands in a list before the first occurrence of another. -/
lemma mem_of_take {α : Type} {l q q' : List α} {n : ℕ} {x y : α} (h : l[n]? = some y)
    (hx : x ∉ l.take (n + 1)) (hq : l = q ++ x :: q') : y ∈ q := by
  have hn : n < q.length := by
    by_contra hle
    have hpos : (l.take (n + 1))[q.length]? = some x := by
      rw [List.getElem?_take_of_lt (by omega), hq]
      simp
    exact hx (List.mem_of_getElem? hpos)
  rw [hq, List.getElem?_append_left hn] at h
  exact List.mem_of_getElem? h

/-- The task that a writer locks a session for. -/
def Event.lockedTask : Event T → Option Task
  | .lockedDst _ t _ => some t
  | _ => none

/-- In this run the two writers hold a task each, and lock in the order of the
messages. -/
theorem delivered_in_order_two :
    ∃ tr st, (workers (Fin 3)).Reaches tr st ∧
      .poppedWrite 1 firstTask ∈ tr ∧ .poppedWrite 2 secondTask ∈ tr ∧
      .sent 2 1 7 (messageTo006 50) true ∈ tr ∧
      (Segments (enqueued 4 tr) (consumed 4 tr) ∧
      ∀ q q' j ok, tr = q ++ .sent j 1 7 (messageTo006 50) ok :: q' →
        ∃ i, .sent i 0 7 (messageTo006 49) true ∈ q) := by
  obtain ⟨tr, st, hreach, hok, hfirst, hsecond, hlock, honly, hpop₁, hpop₂, hsent⟩ :
      ∃ tr st, (workers (Fin 3)).Reaches tr st ∧
        tasksOf Event.failedTask tr = [] ∧ tr[24]? = some (.pushed 0 4 firstTask) ∧
        .pushed 0 4 secondTask ∈ tr.drop 25 ∧ tr[31]? = some (.lockedDst 1 firstTask 0) ∧
        tasksOf Event.lockedTask (tr.take 32) = [firstTask] ∧
        .poppedWrite 1 firstTask ∈ tr ∧ .poppedWrite 2 secondTask ∈ tr ∧
        .sent 2 1 7 (messageTo006 50) true ∈ tr :=
    Lts.reaches_of_execute threeThreads (twoMessages ++ run 1 [.go, .go, .go] ++
      run 2 [.go, .go] ++ run 1 [.sent true, .go] ++ run 2 [.go, .sent true]) started_threeThreads
      (by decide)
  refine ⟨tr, st, hreach, hpop₁, hpop₂, hsent, delivered_in_order hreach (not_failed hok)
    (eq_take_cons_drop hfirst) hsecond rfl (.inr fun q q' j a hq => ?_)⟩
  refine ⟨1, 0, mem_of_take hlock (fun hmem => ?_) hq⟩
  have ht : secondTask ∈ tasksOf Event.lockedTask (tr.take 32) :=
    List.mem_filterMap.mpr ⟨_, hmem, rfl⟩
  rw [honly] at ht
  exact absurd ht (by decide)

/-- With two writers the messages of one source can be written in the other order:
the writer of the first has looked the session up when the writer of the second
passes it. -/
theorem delivered_out_of_order :
    ¬ ∀ (tr : List (Event (Fin 3))) (st : RouterState (Fin 3)), (workers (Fin 3)).Reaches tr st →
      (∀ j k s m, .sent j k s m false ∉ tr) → ∀ p₀ p₁ i₁ i₂ s t₁ t₂,
        tr = p₀ ++ .pushed i₁ s t₁ :: p₁ → .pushed i₂ s t₂ ∈ p₁ → t₁.socket = t₂.socket →
        ∀ q q' j ok, tr = q ++ .sent j t₂.seq t₂.socket t₂.msg ok :: q' →
          ∃ i, .sent i t₁.seq t₁.socket t₁.msg true ∈ q := by
  obtain ⟨tr, st, hreach, hok, hfirst, hsecond, hsent, hnot⟩ :
      ∃ tr st, (workers (Fin 3)).Reaches tr st ∧
        tasksOf Event.failedTask tr = [] ∧ tr[24]? = some (.pushed 0 4 firstTask) ∧
        .pushed 0 4 secondTask ∈ tr.drop 25 ∧
        tr[34]? = some (.sent 2 1 7 (messageTo006 50) true) ∧
        ∀ i, .sent i 0 7 (messageTo006 49) true ∉ tr.take 34 :=
    Lts.reaches_of_execute threeThreads (twoMessages ++ run 1 [.go, .go] ++
      run 2 [.go, .go, .go, .sent true, .go] ++ run 1 [.go, .sent true]) started_threeThreads
      (by decide)
  intro hall
  obtain ⟨i, hi⟩ := hall tr st hreach (not_failed hok) _ _ 0 0 4 firstTask
    secondTask (eq_take_cons_drop hfirst) hsecond rfl _ _ 2 true (eq_take_cons_drop hsent)
  exact hnot i hi

end MessageRouting
