import Mathlib.Tactic
import MessageRouting.Lib.Lts

/-!
Potentials of a transition system.

A potential is a natural number at each state that pays for the steps: a step takes
at least one from it, unless its label puts something back.

* `Lts.Run.potential_on`, `Lts.Run.potential`: over a run, what is left and the number of
  steps are at most what was there and what the labels put back.
* `Lts.exists_run_to`: where every state that is not yet at the goal has a step that takes
  from the potential, a run leads to the goal. `Lts.exists_run_through`: the same for a label,
  with runs in the place of steps.
-/

namespace Lts

variable {σ ε : Type} {M : Lts σ ε}

/-- **The account of a run**, where the steps are paid for as long as an invariant holds. -/
theorem Run.potential_on (I : σ → Prop) (pot : σ → ℕ) (gain : ε → ℕ)
    (hkeep : ∀ s e t, I s → M.step s e t → I t)
    (hstep : ∀ s e t, I s → M.step s e t → pot t + 1 ≤ pot s + gain e) {s t : σ} {tr : List ε}
    (hI : I s) (h : M.Run s tr t) : pot t + tr.length ≤ pot s + (tr.map gain).sum := by
  have key : I t ∧ pot t + tr.length ≤ pot s + (tr.map gain).sum := by
    refine h.induct (fun tr t => I t ∧ pot t + tr.length ≤ pot s + (tr.map gain).sum)
      ⟨hI, by simp⟩ ?_
    rintro tr t e u ⟨hIt, ih⟩ hs
    have hpaid := hstep t e u hIt hs
    refine ⟨hkeep t e u hIt hs, ?_⟩
    simp only [List.length_append, List.length_singleton, List.map_append, List.map_singleton,
      List.sum_append, List.sum_singleton]
    omega
  exact key.2

/-- The account of a run. -/
theorem Run.potential (pot : σ → ℕ) (gain : ε → ℕ)
    (hstep : ∀ s e t, M.step s e t → pot t + 1 ≤ pot s + gain e) {s t : σ} {tr : List ε}
    (h : M.Run s tr t) : pot t + tr.length ≤ pot s + (tr.map gain).sum :=
  h.potential_on (fun _ => True) pot gain (fun _ _ _ _ _ => trivial) (fun s e t _ => hstep s e t)
    trivial

/-- **Progress to a goal.** -/
theorem exists_run_to (pot : σ → ℕ) (I goal : σ → Prop)
    (hkeep : ∀ s e t, I s → M.step s e t → I t)
    (hprog : ∀ s, I s → ¬ goal s → ∃ e t, M.step s e t ∧ pot t < pot s) {s : σ} (hI : I s) :
    ∃ tr t, M.Run s tr t ∧ goal t := by
  obtain ⟨n, hn⟩ : ∃ n, pot s = n := ⟨_, rfl⟩
  induction n using Nat.strongRecOn generalizing s with
  | _ n ih =>
      by_cases hg : goal s
      · exact ⟨[], s, .nil, hg⟩
      · obtain ⟨e, t, hs, hlt⟩ := hprog s hI hg
        obtain ⟨tr, u, hr, hu⟩ := ih (pot t) (hn ▸ hlt) (hkeep s e t hI hs) rfl
        exact ⟨[e] ++ tr, u, (Run.single hs).append hr, hu⟩

/-- **Progress to a label.** -/
theorem exists_run_through (pot : σ → ℕ) (I : σ → Prop) (P : ε → Prop)
    (hprog : ∀ s, I s → ∃ tr t, M.Run s tr t ∧ ((∃ e ∈ tr, P e) ∨ I t ∧ pot t < pot s)) {s : σ}
    (hI : I s) : ∃ tr t, M.Run s tr t ∧ ∃ e ∈ tr, P e := by
  obtain ⟨n, hn⟩ : ∃ n, pot s = n := ⟨_, rfl⟩
  induction n using Nat.strongRecOn generalizing s with
  | _ n ih =>
      obtain ⟨tr, t, hr, hmet | ⟨hIt, hlt⟩⟩ := hprog s hI
      · exact ⟨tr, t, hr, hmet⟩
      · obtain ⟨tr', u, hr', e, he, hP⟩ := ih (pot t) (hn ▸ hlt) hIt rfl
        exact ⟨tr ++ tr', u, hr.append hr', e, List.mem_append_right tr he, hP⟩

end Lts
