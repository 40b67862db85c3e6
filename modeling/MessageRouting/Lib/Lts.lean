import Mathlib.Data.List.Induction
import Mathlib.Tactic.Common

/-!
Labelled transition systems and their finite runs.

* `Lts`, `Lts.Run`: a system is a set of initial states and a labelled step
  relation; a run from `s` to `t` carries the list of labels it went through,
  the oldest first.
* `Lts.Run.append`, `Lts.Run.split`: runs compose, and a run over `u ++ v` passes
  through a state reached over `u`. `Lts.Run.mono`: more steps, more runs.
* `Lts.Run.induct`: the invariant rule, for a property of the labels and the
  state together, and `Lts.Reaches.invariant`, its form for the runs that start
  in an initial state; in `Lts.Reaches.induct_reached` the step may use what is known
  of the reached states.
* `Lts.Reaches.map`: forward simulation by a map of states, with silent steps.
* `Lts.ofFn`, `execute`: the system of a partial step function that answers an
  action with a label and a state; `reaches_of_execute` turns an evaluated list of
  actions into a run.
* `Lts.restrict`, `Lts.guarded`: the runs whose steps all meet a condition on the
  state before the step and its label, and the step function that makes them.
-/

/-- A labelled transition system over states `σ` and labels `ε`. -/
structure Lts (σ ε : Type) where
  init : σ → Prop
  step : σ → ε → σ → Prop

namespace Lts

variable {σ ε α : Type} {M : Lts σ ε}

/-- A finite run from a state, with the labels of its steps in order. -/
inductive Run (M : Lts σ ε) (s : σ) : List ε → σ → Prop where
  | nil : Run M s [] s
  | snoc {tr : List ε} {t u : σ} {e : ε} : Run M s tr t → M.step t e u → Run M s (tr ++ [e]) u

/-- A state is reached over a trace by a run from an initial state. -/
def Reaches (M : Lts σ ε) (tr : List ε) (t : σ) : Prop := ∃ s, M.init s ∧ M.Run s tr t

lemma Run.single {s t : σ} {e : ε} (h : M.step s e t) : M.Run s [e] t :=
  Run.snoc Run.nil h

lemma run_nil {s t : σ} (h : M.Run s [] t) : t = s := by
  generalize htr : ([] : List ε) = tr at h
  cases h with
  | nil => rfl
  | snoc _ _ => simp at htr

/-- The last step of a run over a nonempty trace. -/
lemma run_snoc {s u : σ} {tr : List ε} {e : ε} (h : M.Run s (tr ++ [e]) u) :
    ∃ t, M.Run s tr t ∧ M.step t e u := by
  generalize htr : tr ++ [e] = tr' at h
  cases h with
  | nil => simp at htr
  | snoc hr hs =>
      obtain ⟨rfl, he⟩ := List.append_inj' htr rfl
      obtain rfl : e = _ := by simpa using he
      exact ⟨_, hr, hs⟩

/-- Runs compose. -/
lemma Run.append {s t u : σ} {tr tr' : List ε} (h : M.Run s tr t) (h' : M.Run t tr' u) :
    M.Run s (tr ++ tr') u := by
  induction h' with
  | nil => simpa using h
  | snoc _ hs ih =>
      rw [← List.append_assoc]
      exact ih.snoc hs

/-- A run of a system is one of any system that has its steps. -/
lemma Run.mono {M' : Lts σ ε} (hsteps : ∀ s e t, M.step s e t → M'.step s e t) {s t : σ}
    {tr : List ε} (h : M.Run s tr t) : M'.Run s tr t := by
  induction h with
  | nil => exact Run.nil
  | snoc _ hs ih => exact ih.snoc (hsteps _ _ _ hs)

/-- A run over `tr ++ tr'` passes through a state reached over `tr`. -/
lemma Run.split {s u : σ} {tr tr' : List ε} (h : M.Run s (tr ++ tr') u) :
    ∃ t, M.Run s tr t ∧ M.Run t tr' u := by
  induction tr' using List.reverseRecOn generalizing u with
  | nil => exact ⟨u, by simpa using h, Run.nil⟩
  | append_singleton tr' e ih =>
      rw [← List.append_assoc] at h
      obtain ⟨v, hv, hs⟩ := run_snoc h
      obtain ⟨t, ht, htv⟩ := ih hv
      exact ⟨t, ht, htv.snoc hs⟩

/-- The first step of a run over a nonempty trace. -/
lemma Run.uncons {s u : σ} {e : ε} {tr : List ε} (h : M.Run s (e :: tr) u) :
    ∃ t, M.step s e t ∧ M.Run t tr u := by
  rw [← List.singleton_append] at h
  obtain ⟨t, ht, htu⟩ := h.split
  rw [← List.nil_append [e]] at ht
  obtain ⟨v, hv, hs⟩ := run_snoc ht
  obtain rfl := run_nil hv
  exact ⟨t, hs, htu⟩

/-- The invariant rule: a property of the labels so far and the state reached
that holds of the start and is kept by every step holds of every run. -/
theorem Run.induct {s t : σ} {tr : List ε} (I : List ε → σ → Prop) (h₀ : I [] s)
    (hs : ∀ tr t e u, I tr t → M.step t e u → I (tr ++ [e]) u) (h : M.Run s tr t) : I tr t := by
  induction h with
  | nil => exact h₀
  | snoc _ hst ih => exact hs _ _ _ _ ih hst

/-- The invariant rule for a property of the state alone. -/
theorem Run.invariant {s t : σ} {tr : List ε} (I : σ → Prop) (h₀ : I s)
    (hs : ∀ t e u, I t → M.step t e u → I u) (h : M.Run s tr t) : I t :=
  h.induct (fun _ => I) h₀ fun _ => hs

/-- The invariant rule over the runs from the initial states. -/
theorem Reaches.induct {t : σ} {tr : List ε} (I : List ε → σ → Prop)
    (h₀ : ∀ s, M.init s → I [] s)
    (hs : ∀ tr t e u, I tr t → M.step t e u → I (tr ++ [e]) u) (h : M.Reaches tr t) : I tr t := by
  obtain ⟨s, hi, hr⟩ := h
  exact hr.induct I (h₀ s hi) hs

/-- The invariant rule over the runs from the initial states, for a property
of the state alone. -/
theorem Reaches.invariant {t : σ} {tr : List ε} (I : σ → Prop) (h₀ : ∀ s, M.init s → I s)
    (hs : ∀ t e u, I t → M.step t e u → I u) (h : M.Reaches tr t) : I t :=
  h.induct (fun _ => I) h₀ fun _ => hs

/-- The invariant rule with what is known of the reached states at hand. -/
theorem Reaches.induct_reached {t : σ} {tr : List ε} (I : List ε → σ → Prop)
    (h₀ : ∀ s, M.init s → I [] s)
    (hs : ∀ tr t e u, M.Reaches tr t → I tr t → M.step t e u → I (tr ++ [e]) u)
    (h : M.Reaches tr t) : I tr t := by
  have key : M.Reaches tr t ∧ I tr t := by
    refine h.induct (fun tr t => M.Reaches tr t ∧ I tr t) (fun s hi => ⟨⟨s, hi, .nil⟩, h₀ s hi⟩) ?_
    rintro tr t e u ⟨⟨s, hi, hr⟩, hI⟩ hstep
    exact ⟨⟨s, hi, hr.snoc hstep⟩, hs tr t e u ⟨s, hi, hr⟩ hI hstep⟩
  exact key.2

/-- A reached state stays reached after more steps. -/
lemma Reaches.append {t u : σ} {tr tr' : List ε} (h : M.Reaches tr t) (h' : M.Run t tr' u) :
    M.Reaches (tr ++ tr') u := by
  obtain ⟨s, hi, hr⟩ := h
  exact ⟨s, hi, hr.append h'⟩

/-- Every prefix of a trace reaches a state from which the rest is run. -/
lemma Reaches.split {u : σ} {tr tr' : List ε} (h : M.Reaches (tr ++ tr') u) :
    ∃ t, M.Reaches tr t ∧ M.Run t tr' u := by
  obtain ⟨s, hi, hr⟩ := h
  obtain ⟨t, ht, htu⟩ := hr.split
  exact ⟨t, ⟨s, hi, ht⟩, htu⟩

/-- The state just before the label `e` of a trace, and the one just after. -/
lemma Reaches.at_label {u : σ} {tr tr' : List ε} {e : ε} (h : M.Reaches (tr ++ e :: tr') u) :
    ∃ t t', M.Reaches tr t ∧ M.step t e t' ∧ M.Reaches (tr ++ [e]) t' ∧ M.Run t' tr' u := by
  obtain ⟨t, ht, htu⟩ := h.split
  obtain ⟨t', hs, hr⟩ := htu.uncons
  exact ⟨t, t', ht, hs, ht.append (Run.single hs), hr⟩

/-- **Simulation**: if `f` maps initial states to initial states, and every step
from a reached state to a step with the label that `g` gives it, or to none,
then it maps reached states to reached states. -/
theorem Reaches.map {σ' ε' : Type} {M' : Lts σ' ε'} (f : σ → σ') (g : ε → Option ε')
    (h₀ : ∀ s, M.init s → M'.init (f s))
    (hs : ∀ tr s e t, M.Reaches tr s → M.step s e t →
      M'.Run (f s) (g e).toList (f t)) {tr : List ε} {t : σ} (h : M.Reaches tr t) :
    M'.Reaches (tr.filterMap g) (f t) := by
  have key : M.Reaches tr t ∧ M'.Reaches (tr.filterMap g) (f t) := by
    refine h.induct (fun tr t => M.Reaches tr t ∧ M'.Reaches (tr.filterMap g) (f t)) ?_ ?_
    · intro s hs
      exact ⟨⟨s, hs, .nil⟩, f s, h₀ s hs, .nil⟩
    · rintro tr t e u ⟨hr, hr'⟩ hstep
      refine ⟨hr.append (.single hstep), ?_⟩
      rw [List.filterMap_append, show [e].filterMap g = (g e).toList by cases h : g e <;> simp [h]]
      exact hr'.append (hs tr t e u hr hstep)
  exact key.2

/-! ### Systems given by a step function -/

/-- The system of a partial step function: an action is answered by a label and
the next state, or refused. -/
def ofFn (init : σ → Prop) (step : σ → α → Option (ε × σ)) : Lts σ ε where
  init := init
  step s e t := ∃ a, step s a = some (e, t)

/-- Run a step function over a list of actions, collecting the labels. -/
def execute (step : σ → α → Option (ε × σ)) : σ → List α → Option (List ε × σ)
  | s, [] => some ([], s)
  | s, a :: as =>
      match step s a with
      | none => none
      | some (e, t) => (execute step t as).map fun p => (e :: p.1, p.2)

/-- An executed list of actions is a run of the system. -/
theorem execute_run {init : σ → Prop} {step : σ → α → Option (ε × σ)} {s u : σ} {as : List α}
    {tr : List ε} (h : execute step s as = some (tr, u)) : (ofFn init step).Run s tr u := by
  induction as generalizing s tr with
  | nil =>
      simp only [execute, Option.some.injEq, Prod.mk.injEq] at h
      obtain ⟨rfl, rfl⟩ := h
      exact Run.nil
  | cons a as ih =>
      simp only [execute] at h
      cases hst : step s a with
      | none => simp [hst] at h
      | some p =>
          obtain ⟨e, t⟩ := p
          simp only [hst, Option.map_eq_some_iff, Prod.mk.injEq, Prod.exists] at h
          obtain ⟨tr', v, hex, rfl, rfl⟩ := h
          have hstep : (ofFn init step).step s e t := ⟨a, hst⟩
          exact Run.append (Run.single hstep) (ih hex)

/-- A list of actions that can be executed from an initial state, with labels and a last
state that meet a condition. -/
theorem reaches_of_execute {init : σ → Prop} {step : σ → α → Option (ε × σ)}
    {good : List ε → σ → Prop} [∀ tr u, Decidable (good tr u)] (s : σ) (as : List α) (hi : init s)
    (h : (execute step s as).any (fun q => good q.1 q.2) = true) :
    ∃ tr u, (ofFn init step).Reaches tr u ∧ good tr u := by
  cases hex : execute step s as with
  | none => simp [hex] at h
  | some q =>
      rw [hex] at h
      exact ⟨q.1, q.2, ⟨s, hi, execute_run hex⟩, of_decide_eq_true h⟩

/-! ### Runs whose steps all meet a condition -/

/-- The system whose steps are those that meet a condition. -/
def restrict (M : Lts σ ε) (C : σ → ε → Prop) : Lts σ ε where
  init := M.init
  step s e t := M.step s e t ∧ C s e

lemma Run.of_restrict {C : σ → ε → Prop} {s t : σ} {tr : List ε}
    (h : (M.restrict C).Run s tr t) : M.Run s tr t :=
  Run.mono (fun _ _ _ hs => And.left hs) h

/-- The step function that refuses the steps that do not meet a condition. -/
def guarded (step : σ → α → Option (ε × σ)) (C : σ → ε → Prop) [∀ s e, Decidable (C s e)] (s : σ)
    (a : α) : Option (ε × σ) :=
  (step s a).filter fun r => C s r.1

/-- A run of the guarded step function is one of the restricted system. -/
lemma Run.of_guarded {init : σ → Prop} {step : σ → α → Option (ε × σ)} {C : σ → ε → Prop}
    [∀ s e, Decidable (C s e)] {s t : σ} {tr : List ε}
    (h : (ofFn init (guarded step C)).Run s tr t) : ((ofFn init step).restrict C).Run s tr t := by
  induction h with
  | nil => exact Run.nil
  | snoc _ hs ih =>
      obtain ⟨a, ha⟩ := hs
      obtain ⟨hstep, hC⟩ := Option.filter_eq_some_iff.mp ha
      exact ih.snoc ⟨⟨a, hstep⟩, of_decide_eq_true hC⟩

lemma Reaches.of_guarded {init : σ → Prop} {step : σ → α → Option (ε × σ)} {C : σ → ε → Prop}
    [∀ s e, Decidable (C s e)] {t : σ} {tr : List ε}
    (h : (ofFn init (guarded step C)).Reaches tr t) :
    ((ofFn init step).restrict C).Reaches tr t := by
  obtain ⟨s, hi, hr⟩ := h
  exact ⟨s, hi, hr.of_guarded⟩

lemma Reaches.of_restrict {C : σ → ε → Prop} {t : σ} {tr : List ε}
    (h : (M.restrict C).Reaches tr t) : M.Reaches tr t := by
  obtain ⟨s, hi, hr⟩ := h
  exact ⟨s, hi, hr.of_restrict⟩

end Lts
