import Mathlib.Algebra.BigOperators.Group.Finset.Basic
import MessageRouting.Lib.Lts

/-!
Threads over a shared state.

* `Program`: what one thread can do at its location, given an input from outside
  (the outcome of a system call), and what the environment can do to the shared
  state. A thread may also be blocked.
* `Program.system`: the transition system of all interleavings.
* `Program.step_cases`: a step is one of one thread, which leaves the locations of
  all others alone, or one of the environment.
* `Program.sum_off`, `Program.sum_update`: what one thread's step does to a sum over
  all threads.
* `Program.interference_free`: the proof rule. An assertion about the labels so
  far and the shared state, and one for each location, hold in every
  interleaving if each thread keeps its own and no step of another thread or of
  the environment invalidates them.
* `Program.each_of_reaches`: the rule for assertions of the threads alone.
* `Program.Embedding`: the threads of one program as some of the threads of another.
  `Program.Embedding.run`: what they can do they can also do when there are more.
-/

/-- A program for threads `T` over a shared state `σ`, with locations `L`, inputs
`ι`, actions `α` of the environment and labels `ε`. -/
structure Program (T σ L ι α ε : Type) where
  next : σ → T → L → ι → Option (ε × L × σ)
  env : σ → α → Option (ε × σ)

namespace Program

variable {T σ L ι α ε : Type}

/-- The shared state and the location of each thread. -/
structure State (T σ L : Type) where
  shared : σ
  loc : T → L

/-- Whose turn it is. -/
inductive Act (T ι α : Type) where
  | thread (i : T) (inp : ι)
  | env (a : α)

variable [DecidableEq T]

/-- One step of the system. -/
def step (P : Program T σ L ι α ε) (st : State T σ L) : Act T ι α → Option (ε × State T σ L)
  | .thread i inp =>
      (P.next st.shared i (st.loc i) inp).map fun r =>
        (r.1, ⟨r.2.2, Function.update st.loc i r.2.1⟩)
  | .env a => (P.env st.shared a).map fun r => (r.1, ⟨r.2, st.loc⟩)

/-- All interleavings. -/
def system (P : Program T σ L ι α ε) (init : State T σ L → Prop) : Lts (State T σ L) ε :=
  Lts.ofFn init P.step

variable {P : Program T σ L ι α ε} {init : State T σ L → Prop} {st st' : State T σ L} {e : ε}

/-- Everything one step of the system can be. -/
lemma step_cases (h : (P.system init).step st e st') :
    (∃ i inp l sh, P.next st.shared i (st.loc i) inp = some (e, l, sh) ∧
      st' = ⟨sh, Function.update st.loc i l⟩) ∨
    (∃ a sh, P.env st.shared a = some (e, sh) ∧ st' = ⟨sh, st.loc⟩) := by
  obtain ⟨act, h⟩ := h
  cases act with
  | thread i inp =>
      simp only [step, Option.map_eq_some_iff, Prod.mk.injEq, Prod.exists] at h
      obtain ⟨e', l, sh, hn, rfl, rfl⟩ := h
      exact .inl ⟨i, inp, l, sh, hn, rfl⟩
  | env a =>
      simp only [step, Option.map_eq_some_iff, Prod.mk.injEq, Prod.exists] at h
      obtain ⟨e', sh, hn, rfl, rfl⟩ := h
      exact .inr ⟨a, sh, hn, rfl⟩

/-- A sum over all threads of which one changes its summand. -/
lemma sum_off [Fintype T] {M : Type} [AddCommMonoid M] {f g : T → M} (i : T)
    (h : ∀ j, j ≠ i → g j = f j) : (∑ j, g j) + f i = (∑ j, f j) + g i := by
  have hne : ∀ j ∈ Finset.univ.erase i, g j = f j := fun j hj => h j (Finset.ne_of_mem_erase hj)
  rw [← Finset.add_sum_erase _ g (Finset.mem_univ i),
    ← Finset.add_sum_erase _ f (Finset.mem_univ i), Finset.sum_congr rfl hne]
  ac_rfl

/-- A sum over all threads changes by what the moving thread adds. -/
lemma sum_update [Fintype T] {M : Type} [AddCommMonoid M] (f : L → M) (loc : T → L) (i : T)
    (l : L) :
    (∑ j, f (Function.update loc i l j)) + f (loc i) = (∑ j, f (loc j)) + f l := by
  have hoff := sum_off (f := fun j => f (loc j)) (g := fun j => f (Function.update loc i l j)) i
    fun j hj => by rw [Function.update_of_ne hj]
  rwa [Function.update_self] at hoff

/-- **Interference freedom**: an assertion `G` on the labels so far and the shared
state, and an assertion `A` for each thread at its location, hold in every
interleaving when each thread establishes them for itself and no step of others
invalidates `A`. -/
theorem interference_free (G : List ε → σ → Prop) (A : List ε → σ → T → L → Prop)
    (h₀ : ∀ st, init st → G [] st.shared ∧ ∀ i, A [] st.shared i (st.loc i))
    (own : ∀ tr sh i l inp e l' sh', G tr sh → A tr sh i l →
      P.next sh i l inp = some (e, l', sh') → G (tr ++ [e]) sh' ∧ A (tr ++ [e]) sh' i l')
    (others : ∀ tr sh i l inp e l' sh' j m, j ≠ i → G tr sh → A tr sh i l → A tr sh j m →
      P.next sh i l inp = some (e, l', sh') → A (tr ++ [e]) sh' j m)
    (outside : ∀ tr sh a e sh', G tr sh → P.env sh a = some (e, sh') →
      G (tr ++ [e]) sh' ∧ ∀ j m, A tr sh j m → A (tr ++ [e]) sh' j m)
    {tr : List ε} (h : (P.system init).Reaches tr st) :
    G tr st.shared ∧ ∀ i, A tr st.shared i (st.loc i) := by
  refine h.induct (fun tr st => G tr st.shared ∧ ∀ i, A tr st.shared i (st.loc i)) h₀ ?_
  rintro tr st e st' ⟨hG, hA⟩ hs
  rcases step_cases hs with ⟨i, inp, l, sh, hn, rfl⟩ | ⟨a, sh, hn, rfl⟩
  · obtain ⟨hG', hA'⟩ := own tr st.shared i (st.loc i) inp e l sh hG (hA i) hn
    refine ⟨hG', fun j => ?_⟩
    by_cases hj : j = i
    · subst hj
      rw [show (State.mk sh (Function.update st.loc j l)).loc j = l from Function.update_self _ _ _]
      exact hA'
    · rw [show (State.mk sh (Function.update st.loc i l)).loc j = st.loc j from
        Function.update_of_ne hj _ _]
      exact others tr st.shared i (st.loc i) inp e l sh j (st.loc j) hj hG (hA i) (hA j) hn
  · obtain ⟨hG', hA'⟩ := outside tr st.shared a e sh hG hn
    exact ⟨hG', fun j => hA' j (st.loc j) (hA j)⟩

/-- The rule when the assertions of the threads are about neither the labels nor anything
that all of them share. -/
theorem each_of_reaches (A : σ → T → L → Prop)
    (h₀ : ∀ st, init st → ∀ i, A st.shared i (st.loc i))
    (own : ∀ sh i l inp e l' sh', A sh i l → P.next sh i l inp = some (e, l', sh') → A sh' i l')
    (others : ∀ sh i l inp e l' sh' j m, j ≠ i → A sh i l → A sh j m →
      P.next sh i l inp = some (e, l', sh') → A sh' j m)
    (outside : ∀ sh a e sh' j m, P.env sh a = some (e, sh') → A sh j m → A sh' j m)
    {tr : List ε} (h : (P.system init).Reaches tr st) : ∀ i, A st.shared i (st.loc i) := by
  refine (interference_free (fun _ _ => True) (fun _ => A) ?_ ?_ ?_ ?_ h).2
  · exact fun st hst => ⟨trivial, h₀ st hst⟩
  · exact fun _ sh i l inp e l' sh' _ hA hn => ⟨trivial, own sh i l inp e l' sh' hA hn⟩
  · exact fun _ sh i l inp e l' sh' j m hj _ hA hAj hn =>
      others sh i l inp e l' sh' j m hj hA hAj hn
  · exact fun _ sh a e sh' _ hn => ⟨trivial, fun j m hA => outside sh a e sh' j m hn hA⟩

/-! ### More threads -/

/-- A way to see the threads of a program as some of the threads of another, with the
shared state and the labels renamed. -/
structure Embedding {T' σ' ε' : Type} (P : Program T σ L ι α ε) (P' : Program T' σ' L ι α ε') where
  thread : T → T'
  shared : σ → σ'
  label : ε → ε'
  injective : Function.Injective thread
  next : ∀ sh i l inp, P'.next (shared sh) (thread i) l inp =
    (P.next sh i l inp).map fun r => (label r.1, r.2.1, shared r.2.2)
  env : ∀ sh a, P'.env (shared sh) a = (P.env sh a).map fun r => (label r.1, shared r.2)

namespace Embedding

variable {T' σ' ε' : Type} [DecidableEq T'] {P' : Program T' σ' L ι α ε'}

/-- The state with the other threads at the locations `rest`. -/
noncomputable def state (E : P.Embedding P') (rest : T' → L) (st : State T σ L) : State T' σ' L :=
  ⟨E.shared st.shared, Function.extend E.thread st.loc rest⟩

lemma extend_update {f : T → T'} (hf : Function.Injective f) (loc : T → L) (rest : T' → L) (i : T)
    (l : L) : Function.extend f (Function.update loc i l) rest =
      Function.update (Function.extend f loc rest) (f i) l := by
  funext j
  by_cases hj : ∃ k, f k = j
  · obtain ⟨k, rfl⟩ := hj
    rw [hf.extend_apply, Function.update_apply, Function.update_apply, hf.extend_apply]
    simp only [hf.eq_iff]
  · rw [Function.extend_apply' _ _ _ hj, Function.update_of_ne, Function.extend_apply' _ _ _ hj]
    rintro rfl
    exact hj ⟨i, rfl⟩

/-- A run is also one with more threads, which do nothing. -/
theorem run (E : P.Embedding P') (rest : T' → L) {init' : State T' σ' L → Prop} {tr : List ε}
    (h : (P.system init).Run st tr st') :
    (P'.system init').Run (E.state rest st) (tr.map E.label) (E.state rest st') := by
  induction h with
  | nil => exact .nil
  | @snoc tr st₁ e st₂ _ hs ih =>
      rw [List.map_append]
      refine ih.snoc ?_
      rcases step_cases hs with ⟨i, inp, l, sh, hn, rfl⟩ | ⟨a, sh, hn, rfl⟩
      · refine ⟨.thread (E.thread i) inp, ?_⟩
        simp only [step, state, E.injective.extend_apply, E.next, hn, Option.map_some,
          extend_update E.injective]
      · refine ⟨.env a, ?_⟩
        simp only [step, state, E.env, hn, Option.map_some]

end Embedding

end Program
