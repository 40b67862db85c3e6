import MessageRouting.Lib.Potential
import MessageRouting.Router.Signaling

/-!
The threads around one `SignalingQueue` come to rest (`router/include/signaling_queue.h`).

* `Stage.work`, `MonitorState.work`: how many steps the calls that were made still take. A
  `push` pays for the thread that it wakes.
* `inside_of_owner`: the owner of the mutex stands under it, so that it can go on.
* `monitor_settles`: without new calls and spurious wake-ups every schedule ends, with all
  calls of `push` returned, and every call of `pop` returned or asleep on an empty queue.
-/

namespace MessageRouting

namespace SignalingQueue

variable {T α : Type}

/-! ### The steps that are left -/

/-- The steps that a thread still makes in its call, and in those that it wakes. -/
def Stage.work : Stage α → ℕ
  | .outside => 0
  | .entering (.push _ _) => 6
  | .entering .pop => 3
  | .pushing _ _ => 5
  | .checking _ => 2
  | .asleep => 3
  | .leaving => 1

/-- A step that neither starts a call nor wakes a thread without cause. -/
def Note.Internal : Note T α → Prop
  | .called _ _ => False
  | .spurious _ => False
  | _ => True

variable [DecidableEq T]

/-- The same for one thread of a state; one that sleeps un-notified does nothing. -/
def MonitorState.workOf (st : MonitorState T α) (i : T) : ℕ :=
  if i ∈ st.shared.waiting then 0 else (st.loc i).work

/-- The work of all threads. -/
def MonitorState.work [Fintype T] (st : MonitorState T α) : ℕ := ∑ i, st.workOf i

/-- Every call has returned, or sleeps un-notified. -/
def Quiet (st : MonitorState T α) : Prop := ∀ i, st.loc i = .outside ∨ Unnotified st i

variable {st st' : MonitorState T α} {i : T}

lemma workOf_of_not_asleep (h : Signalled st) (hi : st.loc i ≠ .asleep) :
    st.workOf i = (st.loc i).work := by
  rw [MonitorState.workOf, if_neg fun hmem => hi (h.asleep i hmem)]

section Sums

variable [Fintype T]

/-- A step that changes the work of one thread only. -/
lemma work_of_one (hother : ∀ j ≠ i, st'.workOf j = st.workOf j)
    (hless : st'.workOf i < st.workOf i) :
    st'.work + 1 ≤ st.work := by
  have hsum := Program.sum_off (f := st.workOf) (g := st'.workOf) i hother
  rw [MonitorState.work, MonitorState.work]
  omega

/-- A step of a thread that is awake and leaves those asleep who sleep. -/
lemma work_of_update {l : Stage α} {sh : Monitor T α} (h : Signalled st) (hi : st.loc i ≠ .asleep)
    (hwait : sh.waiting = st.shared.waiting) (hless : l.work < (st.loc i).work) :
    MonitorState.work ⟨sh, Function.update st.loc i l⟩ + 1 ≤ st.work := by
  refine work_of_one (i := i) (fun j hj => ?_) ?_
  · simp only [MonitorState.workOf, hwait, Function.update_of_ne hj]
  · rw [workOf_of_not_asleep h hi]
    simp only [MonitorState.workOf, hwait, if_neg fun hmem => hi (h.asleep i hmem),
      Function.update_self]
    exact hless

/-- A `push` that wakes a thread. -/
lemma work_of_push {item : α} {skip : Bool} {j : T} {queue : List α} {owner : Option T}
    (h : Signalled st) (hi : st.loc i = .pushing item skip) (hj : j ∈ st.shared.waiting) :
    MonitorState.work ⟨⟨queue, owner, st.shared.waiting.erase j⟩,
      Function.update st.loc i .leaving⟩ + 1 ≤ st.work := by
  have hasleep := h.asleep j hj
  have hawake : st.loc i ≠ .asleep := by
    rw [hi]
    simp
  have hji : j ≠ i := by
    rintro rfl
    exact hawake hasleep
  -- first the pushing thread moves, and then the other one is woken
  set moved : MonitorState T α := ⟨st.shared, Function.update st.loc i .leaving⟩
  set woken : MonitorState T α := ⟨⟨queue, owner, st.shared.waiting.erase j⟩,
    Function.update st.loc i .leaving⟩
  have hmoved : (∑ k, moved.workOf k) + st.workOf i = (∑ k, st.workOf k) + moved.workOf i :=
    Program.sum_off i fun k hk => by
      simp only [moved, MonitorState.workOf, Function.update_of_ne hk]
  have hwoken : (∑ k, woken.workOf k) + moved.workOf j = (∑ k, moved.workOf k) + woken.workOf j :=
    Program.sum_off j fun k hk => by
      simp only [moved, woken, MonitorState.workOf, List.mem_erase_of_ne hk]
  have hpushing : st.workOf i = 5 := by
    rw [workOf_of_not_asleep h hawake, hi]
    rfl
  have hleaving : moved.workOf i = 1 := by
    simp only [moved, MonitorState.workOf, if_neg fun hmem => hawake (h.asleep i hmem),
      Function.update_self, Stage.work]
  have hsleeping : moved.workOf j = 0 := if_pos hj
  have hnotified : woken.workOf j = 3 := by
    simp only [woken, MonitorState.workOf, if_neg h.nodup.not_mem_erase,
      Function.update_of_ne hji, hasleep, Stage.work]
  rw [MonitorState.work, MonitorState.work]
  omega

variable [DecidableEq α] {e : Note T α}

/-- **One step** that no new call causes takes from the work. -/
lemma monitor_work_step (h : Signalled st) (hs : (monitor T α).step st e st') (he : e.Internal) :
    st'.work + 1 ≤ st.work := by
  rcases monitor_step_cases hs with ⟨i, l, sh, ht, rfl⟩ | ⟨j, rfl, -, -⟩
  · generalize hi : st.loc i = l₀ at ht
    cases ht with
    | call => exact he.elim
    | @enter c _ =>
        refine work_of_update h (by rw [hi]; simp) rfl ?_
        rw [hi]
        cases c <;> simp [Call.entered, Stage.work]
    | skip _ => exact work_of_update h (by rw [hi]; simp) rfl (by rw [hi]; simp [Stage.work])
    | push _ hk =>
        rcases notifyOne_cases hk with ⟨hnil, rfl⟩ | ⟨j, hj, rfl⟩
        · exact work_of_update h (by rw [hi]; simp) hnil.symm (by rw [hi]; simp [Stage.work])
        · exact work_of_push h hi hj
    | sleep _ =>
        refine work_of_one (i := i) (fun j hj => ?_) ?_
        · simp only [MonitorState.workOf, List.mem_cons, hj, false_or, Function.update_of_ne hj]
        · rw [workOf_of_not_asleep h (by rw [hi]; simp), hi, MonitorState.workOf,
            if_pos List.mem_cons_self]
          simp [Stage.work]
    | take _ => exact work_of_update h (by rw [hi]; simp) rfl (by rw [hi]; simp [Stage.work])
    | wake hmem _ =>
        refine work_of_one (i := i) (fun j hj => ?_) ?_
        · simp only [MonitorState.workOf, Function.update_of_ne hj]
        · simp only [MonitorState.workOf, if_neg hmem, Function.update_self, hi]
          simp [Stage.work]
    | leave => exact work_of_update h (by rw [hi]; simp) rfl (by rw [hi]; simp [Stage.work])
  · exact he.elim

end Sums

/-! ### Some thread can go on -/

variable [DecidableEq α] {e : Note T α} {tr : List (Note T α)}

/-- The owner of the mutex stands under it. -/
lemma inside_of_owner (h : (monitor T α).Reaches tr st) :
    ∀ i, st.shared.owner = some i → (st.loc i).inside = true := by
  refine h.invariant (fun st => ∀ i, st.shared.owner = some i → (st.loc i).inside = true) ?_ ?_
  · rintro st ⟨hsh, -⟩ i hi
    rw [hsh] at hi
    cases hi
  · intro st e st' ih hs k hk
    rcases monitor_step_cases hs with ⟨i, l, sh, ht, rfl⟩ | ⟨j, -, -, rfl⟩
    · by_cases hki : k = i
      · subst hki
        have hold := ih k
        simp only [Function.update_self]
        generalize st.loc k = l₀ at ht hold
        cases ht with
        | call => exact hold hk
        | @enter c _ => cases c <;> rfl
        | sleep _ => cases hk
        | leave => cases hk
        | _ => rfl
      · simp only [Function.update_of_ne hki]
        generalize st.loc i = l₀ at ht
        cases ht with
        | enter _ => exact absurd (Option.some.inj hk).symm hki
        | wake _ _ => exact absurd (Option.some.inj hk).symm hki
        | sleep _ => cases hk
        | leave => cases hk
        | _ => exact ih k hk
    · exact ih k hk

/-- A thread under the mutex can go on. -/
lemma exists_next_of_inside {sh : Monitor T α} {l : Stage α} (i : T) (hl : l.inside = true) :
    ∃ inp, ∃ r ∈ next sh i l inp, r.1.Internal := by
  cases l with
  | pushing item skip =>
      by_cases hskip : skip = true ∧ sh.queue.getLast? = some item
      · exact ⟨.go, by simp [next, hskip, Note.Internal]⟩
      · cases hw : sh.waiting with
        | nil => exact ⟨.notify none, by simp [next, hskip, notifyOne, hw, Note.Internal]⟩
        | cons k ks => exact ⟨.notify (some k), by simp [next, hskip, notifyOne, hw, Note.Internal]⟩
  | checking woken =>
      cases hq : sh.queue with
      | nil => exact ⟨.go, by simp [next, hq, pop, Note.Internal]⟩
      | cons item queue => exact ⟨.go, by simp [next, hq, pop, Note.Internal]⟩
  | leaving => exact ⟨.go, by simp [next, Note.Internal]⟩
  | outside => cases hl
  | entering c => cases hl
  | asleep => cases hl

/-- **All is quiet or some thread moves**, and no new call is needed for it. -/
lemma exists_internal_note (h : (monitor T α).Reaches tr st) (hq : ¬ Quiet st) :
    ∃ e st', (monitor T α).step st e st' ∧ e.Internal := by
  have hmove : ∀ i, (∃ inp, ∃ r ∈ next st.shared i (st.loc i) inp, r.1.Internal) →
      ∃ e st', (monitor T α).step st e st' ∧ e.Internal := by
    rintro i ⟨inp, ⟨e, l, sh⟩, hn, he⟩
    refine ⟨e, ⟨sh, Function.update st.loc i l⟩, ⟨.thread i inp, ?_⟩, he⟩
    simp only [Program.step, program, Option.mem_def.mp hn, Option.map_some]
  cases hown : st.shared.owner with
  | some k => exact hmove k (exists_next_of_inside k (inside_of_owner h k hown))
  | none =>
      -- nobody is under the mutex, so whoever is not at rest can take it
      obtain ⟨i, hi⟩ := not_forall.mp hq
      push Not at hi
      refine hmove i ?_
      have hout : ¬ (st.loc i).inside = true := fun hin => by
        rw [owner_of_inside h i hin] at hown
        cases hown
      cases hl : st.loc i with
      | outside => exact absurd hl hi.1
      | entering c => exact ⟨.go, by simp [next, lock, hown, Note.Internal]⟩
      | asleep =>
          have hnot : i ∉ st.shared.waiting := fun hmem => hi.2 ⟨hl, hmem⟩
          exact ⟨.go, by simp [next, lock, hown, hnot, Note.Internal]⟩
      | pushing item skip => exact absurd (by rw [hl]; rfl) hout
      | checking woken => exact absurd (by rw [hl]; rfl) hout
      | leaving => exact absurd (by rw [hl]; rfl) hout

/-! ### Coming to rest -/

/-- The runs without new calls and spurious wake-ups. -/
def internalMonitor (T α : Type) [DecidableEq T] [DecidableEq α] :
    Lts (MonitorState T α) (Note T α) :=
  (monitor T α).restrict fun _ e => e.Internal

/-- **The calls of a queue return.** From every state that any number of threads can bring a
queue to, in whatever order they go on: as long as there are no new calls and no spurious
wake-ups, only as many steps are made as there is work left, and the run can go on until it
is quiet. Then the mutex is free, every call of `push` has returned, and either every call of
`pop` has too, or the queue is empty and those that have not sleep. -/
theorem monitor_settles [Fintype T] (h : (monitor T α).Reaches tr st) :
    (∀ tr' st', (internalMonitor T α).Run st tr' st' → st'.work + tr'.length ≤ st.work) ∧
    (∀ tr' st', (internalMonitor T α).Run st tr' st' →
      (∀ e u, ¬ (internalMonitor T α).step st' e u) → Quiet st') ∧
    (∃ tr' st', (internalMonitor T α).Run st tr' st' ∧ Quiet st') ∧
    ∀ tr' st', (internalMonitor T α).Run st tr' st' → Quiet st' →
      st'.shared.owner = none ∧
      ((∀ i, st'.loc i = .outside) ∨ st'.shared.queue = [] ∧
        ∀ i, st'.loc i ≠ .outside → Unnotified st' i) := by
  have hreach : ∀ {tr' st'}, (internalMonitor T α).Run st tr' st' →
      (monitor T α).Reaches (tr ++ tr') st' := fun hr => h.append hr.of_restrict
  refine ⟨fun tr' st' hr => ?_, fun tr' st' hr hstop => ?_, ?_, fun tr' st' hr hquiet => ⟨?_, ?_⟩⟩
  · have hpaid := Lts.Run.potential_on (M := internalMonitor T α) Signalled MonitorState.work
      (fun _ => 0) (fun s e t hs hstep => hs.step hstep.1)
      (fun s e t hs hstep => monitor_work_step hs hstep.1 hstep.2) (signalled_of_reaches h) hr
    simpa using hpaid
  · by_contra hquiet
    obtain ⟨e, u, hs, he⟩ := exists_internal_note (hreach hr) hquiet
    exact hstop e u ⟨hs, he⟩
  · refine Lts.exists_run_to MonitorState.work (fun st => ∃ tr, (monitor T α).Reaches tr st) Quiet
      ?_ ?_ ⟨tr, h⟩
    · rintro s e t ⟨tr, hs⟩ hstep
      exact ⟨_, hs.append (.single hstep.1)⟩
    · rintro s ⟨tr, hs⟩ hquiet
      obtain ⟨e, t, hstep, he⟩ := exists_internal_note hs hquiet
      have hpaid := monitor_work_step (signalled_of_reaches hs) hstep he
      exact ⟨e, t, ⟨hstep, he⟩, by omega⟩
  · by_contra hown
    obtain ⟨k, hk⟩ := Option.ne_none_iff_exists'.mp hown
    have hin := inside_of_owner (hreach hr) k hk
    rcases hquiet k with hout | ⟨hasleep, -⟩
    · rw [hout] at hin
      cases hin
    · rw [hasleep] at hin
      cases hin
  · by_cases hout : ∀ i, st'.loc i = .outside
    · exact .inl hout
    · obtain ⟨i, hi⟩ := not_forall.mp hout
      refine .inr ⟨?_, fun j hj => (hquiet j).resolve_left hj⟩
      -- an element would have woken somebody who is still to test the predicate
      by_contra hq
      have hsleeps := (hquiet i).resolve_left hi
      have hpos : (0 : ℕ∞) < st'.shared.queue.length := by
        exact_mod_cast List.length_pos_iff.mpr hq
      obtain ⟨j, hj⟩ := Set.encard_pos.mp (lt_of_lt_of_le hpos
        ((signalled_of_reaches (hreach hr)).enough hq (List.ne_nil_of_mem hsleeps.2)))
      rcases hquiet j with houtj | ⟨hasleep, hmem⟩
      · simp [Awakened, houtj] at hj
      · simp [Awakened, hasleep, hmem] at hj

/-- Two consumers sleep and a producer has inserted one element: one of them gets it. -/
theorem monitor_settles_two :
    ∃ tr, ∃ st : MonitorState (Fin 3) ℕ, (monitor (Fin 3) ℕ).Reaches tr st ∧ st.work = 4 ∧
      ∃ tr' st', (internalMonitor (Fin 3) ℕ).Run st tr' st' ∧ Quiet st' ∧
        st'.work + tr'.length ≤ 4 := by
  obtain ⟨tr, st, hreach, hwork⟩ : ∃ tr, ∃ st : MonitorState (Fin 3) ℕ,
      (monitor (Fin 3) ℕ).Reaches tr st ∧ st.work = 4 :=
    Lts.reaches_of_execute ⟨⟨[], none, []⟩, fun _ => .outside⟩
      [.thread 0 (.call .pop), .thread 0 .go, .thread 0 .go, .thread 1 (.call .pop), .thread 1 .go,
        .thread 1 .go, .thread 2 (.call (.push 5 true)), .thread 2 .go,
        .thread 2 (.notify (some 0))]
      ⟨rfl, fun _ => rfl⟩ (by decide)
  obtain ⟨hbound, -, ⟨tr', st', hrun, hquiet⟩, -⟩ := monitor_settles hreach
  exact ⟨tr, st, hreach, hwork, tr', st', hrun, hquiet, hwork ▸ hbound tr' st' hrun⟩

end SignalingQueue

end MessageRouting
