import Mathlib.Order.WellFounded
import Mathlib.Order.RelClasses
import Mathlib.Tactic.Common

/-!
Mutexes that threads hold and request.

* `Mode`, `grants`, `acquire`, `release`: a mutex with shared and exclusive owners,
  kept as the list of its owners. It is not recursive: an owner that asks again is
  refused like anybody else.
* `Deadlocked`: a set of threads each of which requests a mutex that a member of the
  set holds.
* `not_deadlocked`: the ranking rule. If every thread requests only mutexes that rank
  above all those it holds, then there is no deadlock.
-/

namespace Locks

variable {I M : Type}

/-- How a mutex is taken. -/
inductive Mode where
  | shared
  | exclusive
  deriving DecidableEq, Repr

/-- Whether a mutex with these owners can be taken. -/
def grants (owners : List (I × Mode)) : Mode → Bool
  | .shared => owners.all fun p => p.2 = .shared
  | .exclusive => owners.isEmpty

/-- The owners after `i` has taken the mutex, `none` while it has to wait. -/
def acquire (owners : List (I × Mode)) (i : I) (mode : Mode) : Option (List (I × Mode)) :=
  if grants owners mode then some ((i, mode) :: owners) else none

/-- The owners after `i` has released the mutex. -/
def release [DecidableEq I] (owners : List (I × Mode)) (i : I) : List (I × Mode) :=
  owners.filter fun p => p.1 ≠ i

lemma mem_acquire {owners owners' : List (I × Mode)} {i : I} {mode : Mode} {p : I × Mode}
    (h : acquire owners i mode = some owners') (hp : p ∈ owners') :
    p = (i, mode) ∨ p ∈ owners := by
  rw [acquire] at h
  split_ifs at h
  rw [← Option.some.inj h] at hp
  exact List.mem_cons.mp hp

lemma mem_release [DecidableEq I] {owners : List (I × Mode)} {i : I} {p : I × Mode}
    (h : p ∈ release owners i) : p ∈ owners ∧ p.1 ≠ i := by
  simpa [release] using h

/-- Each member of the set requests a mutex that a member of the set holds. -/
def Deadlocked (requests holds : I → M → Prop) (D : Set I) : Prop :=
  D.Nonempty ∧ ∀ i ∈ D, ∃ m, requests i m ∧ ∃ j ∈ D, holds j m

/-- **The ranking rule**: no set of threads is deadlocked when every thread requests
only mutexes that rank above those it holds. -/
theorem not_deadlocked {β : Type} [Preorder β] [WellFoundedGT β] {requests holds : I → M → Prop}
    (rank : M → β) (h : ∀ i m m', holds i m' → requests i m → rank m' < rank m) (D : Set I) :
    ¬ Deadlocked requests holds D := by
  rintro ⟨⟨i, hi⟩, hD⟩
  let waited : Set M := {m | ∃ i ∈ D, requests i m ∧ ∃ j ∈ D, holds j m}
  have hnext : ∀ i ∈ D, ∃ m ∈ waited, requests i m := by
    intro i hi
    obtain ⟨m, hreq, hheld⟩ := hD i hi
    exact ⟨m, ⟨i, hi, hreq, hheld⟩, hreq⟩
  -- take one of the highest rank: whoever holds it requests one that ranks higher
  obtain ⟨m₀, hm₀, -⟩ := hnext i hi
  obtain ⟨-, ⟨m, ⟨-, -, -, j, hj, hheld⟩, rfl⟩, hmax⟩ :=
    (wellFounded_gt : WellFounded (α := β) (· > ·)).has_min (rank '' waited) ⟨_, m₀, hm₀, rfl⟩
  obtain ⟨m', hm', hreq⟩ := hnext j hj
  exact hmax (rank m') ⟨m', hm', rfl⟩ (h j m' m hheld hreq)

end Locks
