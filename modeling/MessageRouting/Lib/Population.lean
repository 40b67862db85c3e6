import Mathlib.Algebra.Order.BigOperators.Group.Multiset
import MessageRouting.Lib.Lts

/-!
Populations of tokens.

A population is a multiset of tokens with the number of those that were ever
created. In a step some tokens are lost, one is created, or one turns into
another; nothing is duplicated.

* `Population`, `Population.Change`: the states and what a step does to them;
  `Population.system`: all runs from the empty population.
* `Population.all_of_reaches`: what holds of the tokens created and is kept when a
  token turns holds of all tokens.
* `Population.card_le_of_reaches`: there are never more tokens than were created.
* `List.sum_map_modify`: what a sum over a list becomes when one entry changes.
-/

/-- Tokens, and how many were created so far. -/
structure Population (τ : Type) where
  tokens : Multiset τ
  created : ℕ

namespace Population

variable {τ : Type} {create : τ → Prop} {turn : τ → τ → Prop}

/-- What a step does to a population. -/
inductive Change (create : τ → Prop) (turn : τ → τ → Prop) (P : Population τ) :
    Population τ → Prop where
  | lose {m : Multiset τ} : m ≤ P.tokens → Change create turn P ⟨m, P.created⟩
  | create {t : τ} {m : Multiset τ} : create t → m ≤ t ::ₘ P.tokens →
      Change create turn P ⟨m, P.created + 1⟩
  | turn {t u : τ} {r m : Multiset τ} : turn t u → P.tokens = t ::ₘ r → m ≤ u ::ₘ r →
      Change create turn P ⟨m, P.created⟩

/-- All histories of a population. -/
def system (create : τ → Prop) (turn : τ → τ → Prop) : Lts (Population τ) Unit where
  init P := P = ⟨0, 0⟩
  step P _ Q := Change create turn P Q

variable {P : Population τ} {tr : List Unit}

/-- An invariant of the tokens. -/
theorem all_of_reaches (I : τ → Prop) (hc : ∀ t, create t → I t)
    (ht : ∀ t u, turn t u → I t → I u) (h : (system create turn).Reaches tr P) :
    ∀ t ∈ P.tokens, I t := by
  refine h.invariant (fun P => ∀ t ∈ P.tokens, I t) ?_ ?_
  · rintro P rfl t hmem
    simp at hmem
  · intro P _ Q hall hstep t hmem
    cases hstep with
    | lose hle => exact hall t (Multiset.mem_of_le hle hmem)
    | create hnew hle =>
        rcases Multiset.mem_cons.mp (Multiset.mem_of_le hle hmem) with rfl | hold
        · exact hc t hnew
        · exact hall t hold
    | @turn u v r m huv hP hle =>
        rw [hP] at hall
        rcases Multiset.mem_cons.mp (Multiset.mem_of_le hle hmem) with rfl | hold
        · exact ht u t huv (hall u (Multiset.mem_cons_self u r))
        · exact hall t (Multiset.mem_cons_of_mem hold)

/-- There are at most as many tokens as were created. -/
theorem card_le_of_reaches (h : (system create turn).Reaches tr P) :
    P.tokens.card ≤ P.created := by
  refine h.invariant (fun P => P.tokens.card ≤ P.created) ?_ ?_
  · rintro P rfl
    simp
  · intro P _ Q hcard hstep
    cases hstep with
    | lose hle => exact (Multiset.card_le_card hle).trans hcard
    | create _ hle =>
        have hcons := Multiset.card_le_card hle
        rw [Multiset.card_cons] at hcons
        exact hcons.trans (Nat.add_le_add_right hcard 1)
    | turn _ hP hle =>
        have hcons := Multiset.card_le_card hle
        rw [hP, Multiset.card_cons] at hcard
        rw [Multiset.card_cons] at hcons
        exact hcons.trans hcard

end Population

/-- A sum over a list of which one entry changes. -/
lemma List.sum_map_modify {M α : Type} [AddCommMonoid M] {l : List α} {n : ℕ} {x : α} (g : α → α)
    (f : α → M) (h : l[n]? = some x) :
    ((l.modify n g).map f).sum + f x = (l.map f).sum + f (g x) := by
  induction l generalizing n with
  | nil => simp at h
  | cons a l ih =>
      cases n with
      | zero =>
          obtain rfl : a = x := by simpa using h
          simp only [List.modify_zero_cons, List.map_cons, List.sum_cons]
          ac_rfl
      | succ n =>
          have hl := ih (by simpa using h)
          simp only [List.modify_succ_cons, List.map_cons, List.sum_cons]
          rw [add_assoc, hl, add_assoc]
