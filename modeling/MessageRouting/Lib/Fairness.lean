import Mathlib.Order.Filter.AtTopBot.Basic
import Mathlib.Tactic
import MessageRouting.Lib.Lts

/-!
Infinite runs of a transition system, and strong fairness.

An agent is whoever takes some of the steps. On a fair path an agent that can move
infinitely often, at whatever times, moves infinitely often.

* `Lts.Path`: an infinite run; `Path.run`, `Path.drop`: its beginnings and its ends.
* `Path.eventually_eq`: a natural number that does not grow any more comes to a standstill.
* `Path.Fair`: strong fairness. `Fair.eventually_stops`: the proof rule, by a number from which
  the steps of one agent take.
* `exists_fair`: a system that does not block has a fair path from every state. Of the agents
  that can move the one that moves is the one that has waited longest.
-/

open Filter

namespace Lts

variable {σ ε A : Type} {M : Lts σ ε} {takes : A → σ → ε → Prop} {a : A}

/-! ### Paths -/

/-- An infinite run. -/
structure Path (M : Lts σ ε) where
  state : ℕ → σ
  label : ℕ → ε
  step : ∀ k, M.step (state k) (label k) (state (k + 1))

/-- The path from time `d` on. -/
def Path.drop (p : M.Path) (d : ℕ) : M.Path :=
  ⟨fun k => p.state (d + k), fun k => p.label (d + k), fun k => p.step (d + k)⟩

/-- What an infinite run has done up to time `k`. -/
lemma Path.run (p : M.Path) (k : ℕ) :
    M.Run (p.state 0) ((List.range k).map p.label) (p.state k) := by
  induction k with
  | zero => exact .nil
  | succ k ih =>
      rw [List.range_succ, List.map_append]
      exact ih.snoc (p.step k)

lemma Path.induct (p : M.Path) (I : σ → Prop) (h₀ : I (p.state 0))
    (hkeep : ∀ k, I (p.state k) → I (p.state (k + 1))) (k : ℕ) : I (p.state k) := by
  induction k with
  | zero => exact h₀
  | succ k ih => exact hkeep k ih

/-- A system that does not block has a path from every state. -/
lemma exists_path (h : ∀ s, ∃ e t, M.step s e t) (s : σ) : ∃ p : M.Path, p.state 0 = s := by
  choose e t hstep using h
  refine ⟨⟨fun k => t^[k] s, fun k => e (t^[k] s), fun k => ?_⟩, rfl⟩
  rw [Function.iterate_succ_apply']
  exact hstep _

/-- A natural number that does not grow any more comes to a standstill. -/
lemma Path.eventually_eq (p : M.Path) (pot : σ → ℕ)
    (h : ∀ᶠ k in atTop, pot (p.state (k + 1)) ≤ pot (p.state k)) :
    ∀ᶠ k in atTop, pot (p.state (k + 1)) = pot (p.state k) := by
  obtain ⟨n, hn⟩ := eventually_atTop.mp h
  have hanti : ∀ k d, n ≤ k → pot (p.state (k + d)) ≤ pot (p.state k) := by
    intro k d hk
    induction d with
    | zero => exact le_rfl
    | succ d ih => exact (hn (k + d) (by omega)).trans ih
  -- where the number is smallest it has come to its standstill
  obtain ⟨m, hm, hmin⟩ : ∃ m, n ≤ m ∧ ∀ k, n ≤ k → pot (p.state m) ≤ pot (p.state k) := by
    obtain ⟨_, ⟨d, rfl⟩, hd⟩ := wellFounded_lt.has_min
      (Set.range fun d => pot (p.state (n + d))) ⟨_, 0, rfl⟩
    refine ⟨n + d, Nat.le_add_right n d, fun k hk => ?_⟩
    obtain ⟨j, rfl⟩ := Nat.exists_eq_add_of_le hk
    exact not_lt.mp (hd _ ⟨j, rfl⟩)
  refine eventually_atTop.mpr ⟨m, fun k hk => le_antisymm (hn k (hm.trans hk)) ?_⟩
  obtain ⟨d, rfl⟩ := Nat.exists_eq_add_of_le hk
  exact (hanti m d hm).trans (hmin _ (by omega))

/-! ### Fairness -/

/-- Agent `a` can move. -/
def Can (M : Lts σ ε) (takes : A → σ → ε → Prop) (a : A) (s : σ) : Prop :=
  ∃ e t, M.step s e t ∧ takes a s e

/-- **Strong fairness**: who can move infinitely often moves infinitely often. -/
def Path.Fair (p : M.Path) (takes : A → σ → ε → Prop) : Prop :=
  ∀ a, (∃ᶠ k in atTop, M.Can takes a (p.state k)) →
    ∃ᶠ k in atTop, takes a (p.state k) (p.label k)

lemma Path.Fair.drop {p : M.Path} (h : p.Fair takes) (d : ℕ) : (p.drop d).Fair takes := by
  have hshift : ∀ P : ℕ → Prop, (∃ᶠ k in atTop, P (d + k)) ↔ ∃ᶠ k in atTop, P k := by
    intro P
    simp only [Nat.add_comm d]
    rw [← frequently_map (m := (· + d)), map_add_atTop_eq_nat]
  intro a ha
  exact (hshift _).mpr (h a ((hshift _).mp ha))

/-- Who does not move any more cannot move any more. -/
lemma Path.Fair.eventually_not_can {p : M.Path} (h : p.Fair takes) (a : A)
    (hnever : ∀ᶠ k in atTop, ¬ takes a (p.state k) (p.label k)) :
    ∀ᶠ k in atTop, ¬ M.Can takes a (p.state k) :=
  not_frequently.mp fun hcan => h a hcan hnever

/-- **The rule of fairness.** An agent whose steps take from a number to which no step adds
comes to an end: at last it cannot move any more. -/
theorem Path.Fair.eventually_stops {p : M.Path} (h : p.Fair takes) (a : A) (pot : σ → ℕ)
    (hkeep : ∀ k, pot (p.state (k + 1)) ≤ pot (p.state k))
    (htakes : ∀ k, takes a (p.state k) (p.label k) → pot (p.state (k + 1)) < pot (p.state k)) :
    ∀ᶠ k in atTop, ¬ M.Can takes a (p.state k) := by
  refine h.eventually_not_can a ?_
  filter_upwards [p.eventually_eq pot (.of_forall hkeep)] with k heq ht
  exact (htakes k ht).ne heq

/-! ### Fair paths -/

/-- One turn of the scheduler: of the agents that can move, the first one of the queue moves
and goes to the end. -/
inductive Turn (M : Lts σ ε) (takes : A → σ → ε → Prop) :
    σ × List A → ε → σ × List A → Prop where
  | moves {s t : σ} {e : ε} {a : A} {pre post : List A} : M.step s e t → takes a s e →
      (∀ b ∈ pre, ¬ M.Can takes b s) →
      Turn M takes (s, pre ++ a :: post) e (t, pre ++ (post ++ [a]))
  | other {s t : σ} {e : ε} {q : List A} : M.step s e t → (∀ b ∈ q, ¬ M.Can takes b s) →
      Turn M takes (s, q) e (t, q)

/-- The system with its scheduler. -/
def scheduled (M : Lts σ ε) (takes : A → σ → ε → Prop) : Lts (σ × List A) ε :=
  ⟨fun q => M.init q.1, Turn M takes⟩

lemma Turn.step {u v : σ × List A} {e : ε} (h : Turn M takes u e v) : M.step u.1 e v.1 := by
  cases h with
  | moves hs _ _ => exact hs
  | other hs _ => exact hs

lemma Turn.mem {u v : σ × List A} {e : ε} (h : Turn M takes u e v) : a ∈ u.2 → a ∈ v.2 := by
  cases h with
  | moves _ _ _ =>
      simp only [List.mem_append, List.mem_cons, List.not_mem_nil]
      tauto
  | other _ _ => exact id

/-- The scheduler can always go on. -/
lemma exists_turn (h : ∀ s, ∃ e t, M.step s e t) (u : σ × List A) : ∃ e v, Turn M takes u e v := by
  obtain ⟨s, q⟩ := u
  by_cases hall : ∀ b ∈ q, ¬ M.Can takes b s
  · obtain ⟨e, t, hs⟩ := h s
    exact ⟨e, (t, q), .other hs hall⟩
  · classical
    push Not at hall
    obtain ⟨b, hb, hcan⟩ := hall
    obtain ⟨a, ha⟩ := Option.isSome_iff_exists.mp
      (List.find?_isSome (p := fun b => decide (M.Can takes b s)).mpr ⟨b, hb, decide_eq_true hcan⟩)
    obtain ⟨hfound, pre, post, rfl, hpre⟩ := List.find?_eq_some_iff_append.mp ha
    obtain ⟨e, t, hs, ht⟩ := of_decide_eq_true hfound
    exact ⟨e, _, .moves hs ht fun b hb hcan => by simpa [hcan] using hpre b hb⟩

/-- As long as an agent of the queue does not move it does not fall back, and it comes forward
whenever it could have moved. -/
lemma Turn.idxOf [DecidableEq A] {u v : σ × List A} {e : ε} (h : Turn M takes u e v) (ha : a ∈ u.2)
    (hnot : ¬ takes a u.1 e) : v.2.idxOf a ≤ u.2.idxOf a ∧
      (M.Can takes a u.1 → v.2.idxOf a < u.2.idxOf a) := by
  cases h with
  | @moves s t e b pre post hs ht hpre =>
      have hab : b ≠ a := by
        rintro rfl
        exact hnot ht
      by_cases hmem : a ∈ pre
      · rw [List.idxOf_append_of_mem hmem, List.idxOf_append_of_mem hmem]
        exact ⟨le_rfl, fun hcan => absurd hcan (hpre a hmem)⟩
      · have hpost : a ∈ post := by
          have hcases : a ∈ pre ∨ a = b ∨ a ∈ post := by simpa using ha
          rcases hcases with hin | heq | hin
          · exact absurd hin hmem
          · exact absurd heq.symm hab
          · exact hin
        rw [List.idxOf_append_of_notMem hmem, List.idxOf_append_of_notMem hmem,
          List.idxOf_append_of_mem hpost, List.idxOf_cons_ne _ hab]
        exact ⟨by omega, fun _ => by omega⟩
  | other hs hnone => exact ⟨le_rfl, fun hcan => absurd hcan (hnone a ha)⟩

/-- **Fair paths exist** from every state of a system that does not block. -/
theorem exists_fair [Finite A] (takes : A → σ → ε → Prop) (h : ∀ s, ∃ e t, M.step s e t) (s : σ) :
    ∃ p : M.Path, p.state 0 = s ∧ p.Fair takes := by
  classical
  obtain ⟨q, hq⟩ := Finite.exists_univ_list A
  obtain ⟨p, hp⟩ := (M.scheduled takes).exists_path (exists_turn h) (s, q)
  have hmem : ∀ a k, a ∈ (p.state k).2 := by
    intro a k
    refine p.induct (fun u => a ∈ u.2) ?_ (fun k ha => Turn.mem (p.step k) ha) k
    rw [hp]
    exact hq.2 a
  refine ⟨⟨fun k => (p.state k).1, p.label, fun k => Turn.step (p.step k)⟩,
    congrArg Prod.fst hp, fun a hcan => ?_⟩
  -- an agent that has stopped to move would come forward for ever
  by_contra hnot
  rw [not_frequently] at hnot
  have hturn : ∀ᶠ k in atTop, (p.state (k + 1)).2.idxOf a ≤ (p.state k).2.idxOf a ∧
      (M.Can takes a (p.state k).1 → (p.state (k + 1)).2.idxOf a < (p.state k).2.idxOf a) :=
    hnot.mono fun k hk => Turn.idxOf (p.step k) (hmem a k) hk
  have hstill := p.eventually_eq (fun u => u.2.idxOf a) (hturn.mono fun k hk => hk.1)
  refine hcan ?_
  filter_upwards [hturn, hstill] with k hk heq hc
  exact (hk.2 hc).ne heq

end Lts
