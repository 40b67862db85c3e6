import MessageRouting.Lib.Potential
import MessageRouting.Router.Delivery
import MessageRouting.Router.Locking

/-!
The router comes to rest: what the readers and writers do once no client sends any more.

* `Pc.work`, `RouterState.work`: how many steps are still to be made for what stands in
  the queues and in the hands of the threads, when no more bytes come.
* `work_bounded`: every step is paid for by this number; only an accepted client, a
  readable socket and bytes that were received add to it. So the threads never turn in
  circles.
* `exists_calm_step`: a thread that waits for the mutex of a session waits for one
  that can go on, so that the router is at rest or some thread moves.
* `router_settles`: without new events the router comes to rest, whatever the order of
  the steps.
* `delivered_at_rest`: at rest every message for a socket that was not removed is sent.
-/

namespace MessageRouting

variable {T : Type} {sh sh' : Shared T} {i : T} {pc pc' : Pc} {e : Event T}

/-! ### The work that is left -/

/-- The steps that a thread still makes before it waits at its queue again, with those
of the write task it is about to push. -/
def Pc.work : Pc → ℕ
  | .popRead => 0
  | .findSrc _ => 7
  | .lockSrc _ _ => 6
  | .refindSrc _ _ => 5
  | .turn _ _ _ => 4
  | .recv _ _ _ _ got => if got = [] then 3 else 5
  | .addNode _ _ _ _ => 5
  | .findDst _ _ _ _ => 12
  | .forward _ _ _ _ _ => 11
  | .removeSrc _ _ _ => 2
  | .unlockSrc _ _ => 1
  | .popWrite => 0
  | .findSession _ => 5
  | .lockDst _ _ => 4
  | .send _ _ => 3
  | .removeDst _ _ => 2
  | .unlockDst _ _ => 1

/-- The same for the queues. -/
def Shared.work (sh : Shared T) : ℕ := 8 * sh.readQueue.length + 6 * sh.writeQueue.length

/-- The work that is left for all threads. -/
def RouterState.work [Fintype T] (st : RouterState T) : ℕ :=
  (∑ i, (st.loc i).work) + st.shared.work

/-- What an event adds to the work. -/
def Event.gain : Event T → ℕ
  | .accepted _ => 1
  | .readable _ => 9
  | .received _ _ (.bytes _) => 10
  | _ => 0

/-- A step that no client causes. -/
def Event.Internal : Event T → Prop
  | .accepted _ => False
  | .readable _ => False
  | .received _ _ (.bytes _) => False
  | _ => True

lemma Event.Internal.gain (h : e.Internal) : e.gain = 0 := by
  cases e with
  | accepted s => exact h.elim
  | readable s => exact h.elim
  | received i s r =>
      cases r with
      | bytes bs => exact h.elim
      | _ => rfl
  | _ => rfl

/-- A step of a thread takes from its work and from that of the queues. -/
lemma Step.work (h : Step i sh pc e pc' sh') :
    pc'.work + sh'.work + 1 ≤ pc.work + sh.work + e.gain := by
  cases h with
  | popRead hq =>
      simp only [Pc.work, Shared.work, hq, List.length_cons]
      omega
  | popWrite hq =>
      simp only [Pc.work, Shared.work, hq, List.length_cons]
      omega
  | forward =>
      simp only [Pc.work, Shared.work, Shared.push, SignalingQueue.push_false, List.length_append,
        List.length_singleton]
      omega
  | @recv_id s a src got bs _ _ =>
      simp only [Pc.work, Event.gain]
      split_ifs <;> omega
  | @recv_data s a src got bs _ _ =>
      simp only [Pc.work, Event.gain]
      split_ifs <;> omega
  | @recv_more s a src w got bs _ _ =>
      simp only [Pc.work, Event.gain]
      split_ifs <;> omega
  | @recv_short s a src w got hgot =>
      simp only [Pc.work, if_neg hgot]
      omega
  | @recv_failed s a src w got r _ =>
      simp only [Pc.work]
      split_ifs <;> omega
  | _ =>
      simp only [Pc.work, Shared.work, Shared.setHolder, if_true]
      omega

section Bound

variable [Fintype T] [DecidableEq T] {st st' : RouterState T} {tr : List (Event T)}

/-- **One step** of the router is paid for by the work that is left. -/
lemma work_step (h : (workers T).step st e st') : st'.work + 1 ≤ st.work + e.gain := by
  rcases workers_step_cases h with ⟨i, pc', sh', hstep, rfl⟩ | ⟨s, S, rfl, -, -, rfl⟩ |
    ⟨s, rfl, rfl⟩
  · have hsum := Program.sum_update Pc.work st.loc i pc'
    have hwork := hstep.work
    simp only [RouterState.work]
    omega
  · simp only [RouterState.work, Shared.work, Event.gain]
    omega
  · have hlen : (SignalingQueue.push st.shared.readQueue s true).length ≤
        st.shared.readQueue.length + 1 := by
      rw [SignalingQueue.push]
      split_ifs <;> simp
    simp only [RouterState.work, Shared.work, Event.gain]
    omega

/-- **No thread turns in circles.** In every run of the router, from any state, the number
of steps is bounded: what is left of the work at the end and the steps that were made
are at most the work at the beginning, one for each client that was accepted, nine for
each socket that was found readable and ten for each `recv` that brought bytes. -/
theorem work_bounded (h : (workers T).Run st tr st') :
    st'.work + tr.length ≤ st.work + (tr.map Event.gain).sum :=
  h.potential RouterState.work Event.gain fun _ _ _ => work_step

end Bound

/-- Two clients connect, and one of them sends two messages. -/
theorem work_bounded_two :
    ∃ st tr st', (workers (Fin 3)).Run st tr st' ∧ tr.length = 29 ∧
      st'.work + 29 ≤ st.work + (tr.map Event.gain).sum := by
  obtain ⟨tr, st', ⟨st, -, hrun⟩, hlen⟩ : ∃ tr st', (workers (Fin 3)).Reaches tr st' ∧
      tr.length = 29 :=
    Lts.reaches_of_execute threeThreads twoMessages started_threeThreads (by decide)
  exact ⟨st, tr, st', hrun, hlen, hlen ▸ work_bounded hrun⟩

/-! ### Some thread can go on -/

/-- The thread waits at its queue, which is empty. -/
def Pc.Waits (sh : Shared T) (pc : Pc) : Prop :=
  (pc = .popRead ∧ sh.readQueue = []) ∨ (pc = .popWrite ∧ sh.writeQueue = [])

instance (sh : Shared T) (pc : Pc) : Decidable (pc.Waits sh) :=
  inferInstanceAs (Decidable ((pc = .popRead ∧ sh.readQueue = []) ∨
    (pc = .popWrite ∧ sh.writeQueue = [])))

/-- Every thread waits at its queue. -/
def AtRest (st : RouterState T) : Prop := ∀ i, (st.loc i).Waits st.shared

instance [Fintype T] (st : RouterState T) : Decidable (AtRest st) :=
  inferInstanceAs (Decidable (∀ i, (st.loc i).Waits st.shared))

/-- The session whose mutex a thread is about to take. -/
def Pc.awaits : Pc → Option Addr
  | .lockSrc _ a => some a
  | .lockDst _ a => some a
  | _ => none

/-- A step that no client causes and in which no call fails. -/
def Event.Calm : Event T → Prop
  | .accepted _ => False
  | .readable _ => False
  | .received _ _ r => r = .wouldBlock
  | .sent _ _ _ _ ok => ok = true
  | _ => True

lemma Event.Calm.internal (h : e.Calm) : e.Internal := by
  cases e with
  | accepted s => exact h
  | readable s => exact h
  | received i s r =>
      obtain rfl : r = .wouldBlock := h
      trivial
  | _ => trivial

/-- A thread that does not wait at its queue and finds the mutex free that it is about to
take can go on without a client and without a failure. -/
lemma exists_next (i : T) (hw : ¬ pc.Waits sh) (hfree : ∀ a ∈ pc.awaits, sh.holder a = none) :
    ∃ inp, ∃ r ∈ next sh i pc inp, r.1.Calm := by
  cases pc with
  | popRead =>
      cases hq : sh.readQueue with
      | nil => exact absurd (.inl ⟨rfl, hq⟩) hw
      | cons s q => exact ⟨.go, by simp [next, hq, SignalingQueue.pop, Event.Calm]⟩
  | popWrite =>
      cases hq : sh.writeQueue with
      | nil => exact absurd (.inr ⟨rfl, hq⟩) hw
      | cons t q => exact ⟨.go, by simp [next, hq, SignalingQueue.pop, Event.Calm]⟩
  | findSrc s =>
      cases hf : sh.sessions.findSessionBySocket s with
      | none => exact ⟨.go, by simp [next, hf, Event.Calm]⟩
      | some a => exact ⟨.go, by simp [next, hf, Event.Calm]⟩
  | lockSrc s a => exact ⟨.go, by simp [next, hfree a rfl, Event.Calm]⟩
  | refindSrc s a =>
      cases hf : sh.sessions.findSessionBySocket s with
      | none => exact ⟨.go, by simp [next, hf, Event.Calm]⟩
      | some a => exact ⟨.go, by simp [next, hf, Event.Calm]⟩
  | turn s a src => exact ⟨.go, _, rfl, trivial⟩
  | recv s a src w got => exact ⟨.recv .wouldBlock, _, rfl, rfl⟩
  | addNode s a src w => exact ⟨.go, _, rfl, trivial⟩
  | findDst s a src m =>
      cases hf : sh.sessions.findSessionById (destinationId m) with
      | none => exact ⟨.go, by simp [next, hf, Event.Calm]⟩
      | some a => exact ⟨.go, by simp [next, hf, Event.Calm]⟩
  | forward s a src dst m => exact ⟨.go, _, rfl, trivial⟩
  | removeSrc s a src => exact ⟨.go, _, rfl, trivial⟩
  | unlockSrc s a => exact ⟨.go, _, rfl, trivial⟩
  | findSession t =>
      cases hf : sh.sessions.findSessionBySocket t.socket with
      | none => exact ⟨.go, by simp [next, hf, Event.Calm]⟩
      | some a => exact ⟨.go, by simp [next, hf, Event.Calm]⟩
  | lockDst t a => exact ⟨.go, by simp [next, hfree a rfl, Event.Calm]⟩
  | send t a => exact ⟨.sent true, _, rfl, rfl⟩
  | removeDst t a => exact ⟨.go, _, rfl, trivial⟩
  | unlockDst t a => exact ⟨.go, _, rfl, trivial⟩

/-- A thread that holds a mutex neither waits at its queue nor asks for another one. -/
lemma Pc.of_held (sh : Shared T) {p : ℤ × Addr} (h : pc.held = some p) :
    ¬ pc.Waits sh ∧ pc.awaits = none := by
  cases pc <;> simp [Pc.held, Pc.Waits, Pc.awaits] at h ⊢

variable [DecidableEq T] {st st' : RouterState T} {tr : List (Event T)}

/-- **The router is at rest or some thread moves**, and neither a client nor a failure is
needed for it. -/
lemma exists_calm_step (h : (workers T).Reaches tr st) (hrest : ¬ AtRest st) :
    ∃ i inp e st', (router T).step st (.thread i inp) = some (e, st') ∧ e.Calm := by
  -- a thread that can go on makes a step of the router
  have hmove : ∀ i, ¬ (st.loc i).Waits st.shared →
      (∀ a ∈ (st.loc i).awaits, st.shared.holder a = none) →
      ∃ i inp e st', (router T).step st (.thread i inp) = some (e, st') ∧ e.Calm := by
    intro i hw hfree
    obtain ⟨inp, ⟨e, pc', sh'⟩, hn, he⟩ := exists_next i hw hfree
    refine ⟨i, inp, e, ⟨sh', Function.update st.loc i pc'⟩, ?_, he⟩
    simp only [Program.step, router, Option.mem_def.mp hn, Option.map_some]
  obtain ⟨i, hi⟩ := not_forall.mp hrest
  by_cases hfree : ∀ a ∈ (st.loc i).awaits, st.shared.holder a = none
  · exact hmove i hi hfree
  · -- the mutex is held, and its holder can go on
    push Not at hfree
    obtain ⟨a, -, hheld⟩ := hfree
    obtain ⟨j, hj⟩ := Option.ne_none_iff_exists'.mp hheld
    obtain ⟨s, hs⟩ := held_of_holder h j a hj
    obtain ⟨hw, hnone⟩ := Pc.of_held st.shared hs
    exact hmove j hw (by simp [hnone])

/-- The same as a step of the router that no client causes. -/
lemma exists_internal_step (h : (workers T).Reaches tr st) (hrest : ¬ AtRest st) :
    ∃ e st', (workers T).step st e st' ∧ e.Internal := by
  obtain ⟨i, inp, e, st', hs, he⟩ := exists_calm_step h hrest
  exact ⟨e, st', ⟨.thread i inp, hs⟩, he.internal⟩

/-! ### Coming to rest -/

/-- The runs in which no client does anything. -/
def internal (T : Type) [DecidableEq T] : Lts (RouterState T) (Event T) :=
  (workers T).restrict fun _ e => e.Internal

lemma sum_gain_of_internal (h : (internal T).Run st tr st') : (tr.map Event.gain).sum = 0 := by
  refine h.induct (fun tr _ => (tr.map Event.gain).sum = 0) rfl ?_
  intro tr _ e _ ih hs
  rw [List.map_append, List.sum_append, ih, List.map_singleton, List.sum_singleton, hs.2.gain]

/-- At rest the mutexes of the sessions are free. -/
lemma AtRest.holder (h : (workers T).Reaches tr st) (hrest : AtRest st) (a : Addr) :
    st.shared.holder a = none := by
  by_contra hheld
  obtain ⟨j, hj⟩ := Option.ne_none_iff_exists'.mp hheld
  obtain ⟨s, hs⟩ := held_of_holder h j a hj
  exact (Pc.of_held st.shared hs).1 (hrest j)

/-- **The router comes to rest.** From every state that it can reach, in whatever order
the threads take their steps and whatever `send` and `recv` fail: as long as no client
connects, sends or is reported, at most as many steps are made as there is work left; the
run can go on until every thread waits at its queue, and only then it ends. Then no mutex
of a session is held, and a queue that some thread serves is empty. -/
theorem router_settles [Fintype T] (h : (workers T).Reaches tr st) :
    (∀ tr' st', (internal T).Run st tr' st' → tr'.length + st'.work ≤ st.work) ∧
    (∀ tr' st', (internal T).Run st tr' st' →
      ((∀ e u, ¬ (internal T).step st' e u) ↔ AtRest st')) ∧
    (∃ tr' st', (internal T).Run st tr' st' ∧ AtRest st') ∧
    ∀ tr' st', (internal T).Run st tr' st' → AtRest st' →
      (∀ a, st'.shared.holder a = none) ∧
      ((∃ i, st'.loc i = .popRead) → st'.shared.readQueue = []) ∧
      ((∃ i, st'.loc i = .popWrite) → st'.shared.writeQueue = []) := by
  have hreach : ∀ {tr' st'}, (internal T).Run st tr' st' → (workers T).Reaches (tr ++ tr') st' :=
    fun hr => h.append hr.of_restrict
  refine ⟨fun tr' st' hr => ?_, fun tr' st' hr => ⟨fun hstop => ?_, fun hrest e u hs => ?_⟩, ?_,
    fun tr' st' hr hrest => ⟨fun a => hrest.holder (hreach hr) a, ?_, ?_⟩⟩
  · have hwork := hr.of_restrict.potential RouterState.work Event.gain fun _ _ _ => work_step
    rw [sum_gain_of_internal hr] at hwork
    omega
  · by_contra hrest
    obtain ⟨e, u, hs, he⟩ := exists_internal_step (hreach hr) hrest
    exact hstop e u ⟨hs, he⟩
  · -- a thread that moves does not wait
    rcases workers_step_cases hs.1 with ⟨i, pc', sh', hstep, -⟩ | ⟨s, S, rfl, -⟩ | ⟨s, rfl, -⟩
    · have hwait := hrest i
      generalize st'.loc i = pc at hstep hwait
      cases hstep with
      | popRead hq => simp [Pc.Waits, hq] at hwait
      | popWrite hq => simp [Pc.Waits, hq] at hwait
      | _ => simp [Pc.Waits] at hwait
    · exact hs.2
    · exact hs.2
  · refine Lts.exists_run_to RouterState.work (fun st => ∃ tr, (workers T).Reaches tr st) AtRest
      ?_ ?_
      ⟨tr, h⟩
    · rintro s e t ⟨tr, hs⟩ hstep
      exact ⟨_, hs.append (.single hstep.1)⟩
    · rintro s ⟨tr, hs⟩ hrest
      obtain ⟨e, t, hstep, he⟩ := exists_internal_step hs hrest
      have hwork := work_step hstep
      rw [he.gain] at hwork
      exact ⟨e, t, ⟨hstep, he⟩, by omega⟩
  · rintro ⟨i, hi⟩
    have hwait := hrest i
    rw [hi] at hwait
    simpa [Pc.Waits] using hwait
  · rintro ⟨i, hi⟩
    have hwait := hrest i
    rw [hi] at hwait
    simpa [Pc.Waits] using hwait

/-- Two messages are in the write queue. -/
theorem router_settles_two :
    ∃ tr st tr' st', (workers (Fin 3)).Reaches tr st ∧ st.work = 16 ∧
      (internal (Fin 3)).Run st tr' st' ∧ AtRest st' ∧ tr'.length + st'.work ≤ 16 := by
  obtain ⟨tr, st, hreach, hwork⟩ : ∃ tr st, (workers (Fin 3)).Reaches tr st ∧ st.work = 16 :=
    Lts.reaches_of_execute threeThreads twoMessages started_threeThreads (by decide)
  obtain ⟨hbound, -, ⟨tr', st', hrun, hrest⟩, -⟩ := router_settles hreach
  exact ⟨tr, st, tr', st', hreach, hwork, hrun, hrest, hwork ▸ hbound tr' st' hrun⟩

/-! ### What is delivered at rest -/

omit [DecidableEq T] in
/-- A step of a thread makes no session. -/
lemma Step.sessionOf_of {s : ℤ} {a : Addr} (hl : Located sh i pc) (h : Step i sh pc e pc' sh')
    (hs : SessionOf sh' s a) : SessionOf sh s a := by
  cases h with
  | addNode =>
      obtain ⟨x, hx, rfl⟩ := hs
      rcases addNode_heap_cases hl.1.2.2 a with hsame | ⟨-, hnamed⟩
      · exact ⟨x, hsame.symm.trans hx, rfl⟩
      · obtain ⟨y, hy, rfl⟩ := Option.map_eq_some_iff.mp (hnamed.symm.trans hx)
        exact ⟨y, hy, rfl⟩
  | removeSrc =>
      obtain ⟨x, hx, rfl⟩ := hs
      exact ⟨x, by simpa using hx, rfl⟩
  | removeDst =>
      obtain ⟨x, hx, rfl⟩ := hs
      exact ⟨x, by simpa using hx, rfl⟩
  | _ => exact hs

/-- A session is that of a client that was accepted. -/
lemma accepted_of_sessionOf {s : ℤ} {a : Addr} (h : (workers T).Reaches tr st)
    (hs : SessionOf st.shared s a) : .accepted s ∈ tr := by
  refine h.induct_reached (fun tr st => ∀ s a, SessionOf st.shared s a → .accepted s ∈ tr)
    ?_ ?_ s a hs
  · rintro st ⟨hS, -⟩ s a ⟨x, hx, -⟩
    simp [hS, Sessions.empty] at hx
  · intro tr st e st' hr ih hs s a hsess
    obtain ⟨-, hloc⟩ := standing_of_reaches hr
    rcases workers_step_cases hs with ⟨i, pc', sh', hstep, rfl⟩ | ⟨u, S, rfl, -, hS, rfl⟩ |
      ⟨u, -, rfl⟩
    · exact List.mem_append_left _ (ih s a (hstep.sessionOf_of (hloc i) hsess))
    · obtain ⟨-, -, -, -, hheap⟩ := Sessions.acceptClient_spec hS
      obtain ⟨x, hx, rfl⟩ := hsess
      rw [show S.heap = _ from hheap] at hx
      rcases List.mem_append.mp (List.mem_of_getElem? hx) with hold | hnew
      · obtain ⟨b, hb⟩ := List.mem_iff_getElem?.mp hold
        exact List.mem_append_left _ (ih x.socket b ⟨x, hb, rfl⟩)
      · rw [List.mem_singleton.mp hnew]
        exact List.mem_append_right _ (List.mem_singleton_self _)
    · exact List.mem_append_left _ (ih s a hsess)

/-- A message was pushed by a reader that stood before `forward`. -/
lemma forward_of_pushed {t : Task} (h : (workers T).Reaches tr st)
    (ht : t ∈ tasksOf Event.pushedTask tr) :
    ∃ pre post st₁ i s a src dst m, tr = pre ++ .pushed i s t :: post ∧
      (workers T).Reaches pre st₁ ∧ st₁.loc i = .forward s a src dst m ∧
      t = st₁.shared.task dst m := by
  obtain ⟨e, he, hpush⟩ := List.mem_filterMap.mp ht
  obtain ⟨p, q, rfl⟩ := List.append_of_mem he
  obtain ⟨st₁, st₂, h₁, hs, -, -⟩ := h.at_label
  rcases workers_step_cases hs with ⟨i, pc', sh', hstep, -⟩ | ⟨u, S, rfl, -⟩ | ⟨u, rfl, -⟩
  · generalize hpc : st₁.loc i = pc at hstep
    cases hstep with
    | @forward s a src dst m =>
        cases hpush
        exact ⟨p, _, st₁, i, s, a, src, dst, m, rfl, h₁, hpc, rfl⟩
    | _ => simp [Event.pushedTask] at hpush
  · simp [Event.pushedTask] at hpush
  · simp [Event.pushedTask] at hpush

/-- A message is pushed for a client that was accepted. -/
lemma accepted_of_pushed {t : Task} (h : (workers T).Reaches tr st)
    (ht : t ∈ tasksOf Event.pushedTask tr) : .accepted t.socket ∈ tr := by
  obtain ⟨pre, post, st₁, i, s, a, src, dst, m, rfl, h₁, hpc, rfl⟩ := forward_of_pushed h ht
  have hl := (standing_of_reaches h₁).2 i
  rw [hpc] at hl
  obtain ⟨-, -, x, hx⟩ := hl
  rw [Shared.task, Sessions.getSocket_of_heap hx]
  exact List.mem_append_left _ (accepted_of_sessionOf h₁ ⟨x, hx, rfl⟩)

/-- A client that was accepted is registered until it is removed. -/
lemma registered_or_removed {s : ℤ} (h : (workers T).Reaches tr st) (hs : .accepted s ∈ tr) :
    st.shared.sessions.sessionsBySocket s ≠ none ∨ ∃ i, .removed i s ∈ tr := by
  refine h.induct (fun tr st => .accepted s ∈ tr →
    st.shared.sessions.sessionsBySocket s ≠ none ∨ ∃ i, .removed i s ∈ tr) ?_ ?_ hs
  · intro st _ hmem
    cases hmem
  · intro tr st e st' ih hs hmem
    rcases workers_step_cases hs with ⟨i, pc', sh', hstep, rfl⟩ | ⟨u, S, rfl, -, hS, rfl⟩ |
      ⟨u, rfl, rfl⟩
    · have hold : .accepted s ∈ tr := by
        rcases List.mem_append.mp hmem with hmem | hmem
        · exact hmem
        · rw [← List.mem_singleton.mp hmem] at hstep
          generalize st.loc i = pc at hstep
          cases hstep
      rcases ih hold with hreg | ⟨j, hj⟩
      · rcases hstep.bySocket_cases with hsame | ⟨t, rfl, hremoved⟩
        · exact .inl (by simpa only [hsame] using hreg)
        · by_cases hst : s = t
          · exact .inr ⟨i, by simp [hst]⟩
          · refine .inl ?_
            show sh'.sessions.sessionsBySocket s ≠ none
            rw [hremoved, Function.update_of_ne hst]
            exact hreg
      · exact .inr ⟨j, List.mem_append_left _ hj⟩
    · obtain ⟨-, hbs, -⟩ := Sessions.acceptClient_spec hS
      by_cases hsu : s = u
      · refine .inl ?_
        show S.sessionsBySocket s ≠ none
        rw [hbs, hsu, Function.update_self]
        simp
      · have hold : .accepted s ∈ tr := by simpa [hsu] using hmem
        rcases ih hold with hreg | ⟨j, hj⟩
        · refine .inl ?_
          show S.sessionsBySocket s ≠ none
          rw [hbs, Function.update_of_ne hsu]
          exact hreg
        · exact .inr ⟨j, List.mem_append_left _ hj⟩
    · rcases ih (by simpa using hmem) with hreg | ⟨j, hj⟩
      · exact .inl hreg
      · exact .inr ⟨j, List.mem_append_left _ hj⟩

/-- A writer that is to remove its socket stays so until it does. -/
lemma removeDst_step {t : Task} {a : Addr} (h : (workers T).Reaches tr st)
    (hs : (workers T).step st e st') (hpc : st.loc i = .removeDst t a) :
    st'.loc i = .removeDst t a ∨ e = .removed i t.socket := by
  rcases workers_step_cases hs with ⟨j, pc', sh', hstep, rfl⟩ | ⟨u, S, -, -, -, rfl⟩ | ⟨u, -, rfl⟩
  · by_cases hij : i = j
    · subst hij
      have hl := (standing_of_reaches h).2 i
      rw [hpc] at hstep hl
      cases hstep with
      | removeDst => exact .inr (by rw [hl.1.getSocket])
    · exact .inl (by simp only [Function.update_of_ne hij, hpc])
  · exact .inl hpc
  · exact .inl hpc

/-- After a failed `send` the socket is removed, or about to be. -/
lemma removed_of_failed {t : Task} (h : (workers T).Reaches tr st)
    (ht : t ∈ tasksOf Event.failedTask tr) :
    (∃ i, .removed i t.socket ∈ tr) ∨ ∃ i a, st.loc i = .removeDst t a := by
  refine h.induct_reached (fun tr st => t ∈ tasksOf Event.failedTask tr →
    (∃ i, .removed i t.socket ∈ tr) ∨ ∃ i a, st.loc i = .removeDst t a) ?_ ?_ ht
  · intro st _ hmem
    cases hmem
  · intro tr st e st' hr ih hs hmem
    rw [tasksOf_append] at hmem
    rcases List.mem_append.mp hmem with hold | hnew
    · rcases ih hold with ⟨j, hj⟩ | ⟨j, a, hj⟩
      · exact .inl ⟨j, List.mem_append_left _ hj⟩
      · rcases removeDst_step hr hs hj with hstay | rfl
        · exact .inr ⟨j, a, hstay⟩
        · exact .inl ⟨j, by simp⟩
    · rcases workers_step_cases hs with ⟨i, pc', sh', hstep, rfl⟩ | ⟨u, S, rfl, -⟩ | ⟨u, rfl, -⟩
      · refine .inr ⟨i, ?_⟩
        simp only [Function.update_self]
        generalize st.loc i = pc at hstep
        cases hstep with
        | @send_failed u a =>
            obtain rfl : t = u := by simpa [Event.failedTask] using hnew
            exact ⟨a, rfl⟩
        | _ => simp [Event.failedTask] at hnew
      · simp [Event.failedTask] at hnew
      · simp [Event.failedTask] at hnew

/-- At rest with a writer, the only place for a message whose socket was not removed is among
those that were transmitted. -/
lemma count_sentTask_at_rest [Fintype T] (h : (workers T).Reaches tr st) (hrest : AtRest st)
    (hwriter : ∃ i, st.loc i = .popWrite) {t : Task} (ht : t ∈ tasksOf Event.pushedTask tr)
    (hkept : ∀ i, .removed i t.socket ∉ tr) :
    (tasksOf Event.sentTask tr).count t = 1 ∧ t ∉ tasksOf Event.failedTask tr := by
  have hb := balanced_of_reaches h
  have hqueue : st.shared.writeQueue = [] := by
    obtain ⟨i, hi⟩ := hwriter
    have hwait := hrest i
    rw [hi] at hwait
    simpa [Pc.Waits] using hwait
  have hheld : ∑ i, (st.loc i).tasks = 0 := by
    refine Finset.sum_eq_zero fun i _ => ?_
    rcases hrest i with ⟨hi, -⟩ | ⟨hi, -⟩
    · rw [hi]
      rfl
    · rw [hi]
      rfl
  have hnodup : (tasksOf Event.pushedTask tr).Nodup :=
    List.Nodup.of_map Task.seq (by rw [hb.numbers]; exact List.nodup_range)
  have hfailed : t ∉ tasksOf Event.failedTask tr := by
    intro hmem
    rcases removed_of_failed h hmem with ⟨i, hi⟩ | ⟨i, a, hi⟩
    · exact hkept i hi
    · have hwait := hrest i
      rw [hi] at hwait
      simp [Pc.Waits] at hwait
  have hdropped : t ∉ tasksOf Event.droppedTask tr := by
    intro hmem
    obtain ⟨e, he, hdrop⟩ := List.mem_filterMap.mp hmem
    cases e with
    | dropped j u =>
        cases hdrop
        rcases registered_or_removed h (accepted_of_pushed h ht) with hreg | ⟨i, hi⟩
        · exact hreg (dropped_retired h he).2
        · exact hkept i hi
    | _ => simp [Event.droppedTask] at hdrop
  have hone := List.count_eq_one_of_mem hnodup ht
  have hpopped := congrArg (Multiset.count t) hb.popped
  rw [tasks_fifo h, hqueue, List.append_nil] at hone
  simp only [hheld, zero_add, Multiset.count_add, Multiset.coe_count, hone,
    List.count_eq_zero_of_not_mem hfailed, List.count_eq_zero_of_not_mem hdropped] at hpopped
  exact ⟨by omega, hfailed⟩

/-- **Everything is delivered.** In every interleaving, when the router is at rest and has a
writer, every message that was ever pushed for a socket that was not removed has been
handed to `send` exactly once, and all of it was transmitted. -/
theorem delivered_at_rest [Fintype T] (h : (workers T).Reaches tr st) (hrest : AtRest st)
    (hwriter : ∃ i, st.loc i = .popWrite) {t : Task} (ht : t ∈ tasksOf Event.pushedTask tr)
    (hkept : ∀ i, .removed i t.socket ∉ tr) :
    (tasksOf Event.sendCall tr).count t = 1 ∧ t ∈ tasksOf Event.sentTask tr := by
  obtain ⟨hcount, hfailed⟩ := count_sentTask_at_rest h hrest hwriter ht hkept
  refine ⟨?_, List.count_pos_iff.mp (by omega)⟩
  have hcalls := congrArg (Multiset.count t) (sendCalls_eq tr)
  simp only [Multiset.count_add, Multiset.coe_count, hcount,
    List.count_eq_zero_of_not_mem hfailed] at hcalls
  exact hcalls

/-- One of the writers sends both messages. -/
theorem delivered_at_rest_two :
    ∃ tr st, (workers (Fin 3)).Reaches tr st ∧ AtRest st ∧
      (tasksOf Event.sendCall tr).count secondTask = 1 ∧
      secondTask ∈ tasksOf Event.sentTask tr := by
  obtain ⟨tr, st, hreach, hrest, hwriter, hpushed, hkept⟩ : ∃ tr st,
      (workers (Fin 3)).Reaches tr st ∧ AtRest st ∧ st.loc 1 = .popWrite ∧
        secondTask ∈ tasksOf Event.pushedTask tr ∧ ∀ i, .removed i 7 ∉ tr :=
    Lts.reaches_of_execute threeThreads (twoMessages ++ leave ++
      run 1 [.go, .go, .go, .sent true, .go] ++ run 1 [.go, .go, .go, .sent true, .go])
      started_threeThreads (by decide)
  exact ⟨tr, st, hreach, hrest, delivered_at_rest hreach hrest ⟨1, hwriter⟩ hpushed hkept⟩

end MessageRouting
