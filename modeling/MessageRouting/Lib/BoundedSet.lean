import Mathlib.Data.Finset.Card

/-!
Sets that hold a bounded number of elements.

An element that is absent is inserted as long as there is room, and dropped
without notice otherwise.

* `BoundedSet`: the elements in the order in which they were inserted.
* `insert`, `insertAll`: one element and a list of them, one after the other.
* `mem_insertAll_iff`: nothing is dropped exactly when all of them together are no
  more than there is room for. `mem_insertAll_or_full`: what is dropped finds the set full.
-/

/-- At most `cap` different elements. -/
structure BoundedSet (α : Type*) (cap : ℕ) where
  toList : List α
  nodup : toList.Nodup
  length_le : toList.length ≤ cap
  deriving DecidableEq

namespace BoundedSet

variable {α : Type*} {cap : ℕ}

/-- No element. -/
def empty : BoundedSet α cap := ⟨[], List.nodup_nil, Nat.zero_le cap⟩

variable [DecidableEq α]

/-- An absent element is added where there is room. -/
def insert (s : BoundedSet α cap) (x : α) : BoundedSet α cap :=
  if h : x ∉ s.toList ∧ s.toList.length < cap then
    { toList := s.toList ++ [x]
      nodup := List.nodup_append.mpr ⟨s.nodup, List.nodup_singleton x, by
        intro y hy z hz hyz
        rw [List.mem_singleton.mp hz] at hyz
        exact h.1 (hyz ▸ hy)⟩
      length_le := by rw [List.length_append]; exact h.2 }
  else s

/-- The elements of a list, one after the other. -/
def insertAll (s : BoundedSet α cap) (l : List α) : BoundedSet α cap := l.foldl insert s

variable {s : BoundedSet α cap} {x y : α} {l : List α}

@[simp] lemma insertAll_nil : s.insertAll [] = s := rfl

@[simp] lemma insertAll_cons : s.insertAll (x :: l) = (s.insert x).insertAll l := rfl

lemma mem_insert : y ∈ (s.insert x).toList ↔ y ∈ s.toList ∨ y = x ∧ s.toList.length < cap := by
  rw [insert]
  split_ifs with h
  · simp [h.2]
  · constructor
    · exact .inl
    · rintro (hy | ⟨rfl, hroom⟩)
      · exact hy
      · by_contra hy
        exact h ⟨hy, hroom⟩

lemma mem_insertAll_of_mem (h : y ∈ s.toList) : y ∈ (s.insertAll l).toList := by
  induction l generalizing s with
  | nil => exact h
  | cons x l ih => exact ih (mem_insert.mpr (.inl h))

/-- Nothing is added to a full set. -/
lemma insertAll_of_full (h : s.toList.length = cap) : s.insertAll l = s := by
  induction l with
  | nil => rfl
  | cons x l ih =>
      rw [insertAll_cons, insert, dif_neg fun hroom => absurd h hroom.2.ne]
      exact ih

/-- What is not added finds the set full. -/
lemma mem_insertAll_or_full (h : y ∈ l) :
    y ∈ (s.insertAll l).toList ∨ (s.insertAll l).toList.length = cap := by
  induction l generalizing s with
  | nil => cases h
  | cons x l ih =>
      rcases List.mem_cons.mp h with rfl | h
      · rcases s.length_le.lt_or_eq with hroom | hfull
        · refine .inl ?_
          rw [insertAll_cons]
          exact mem_insertAll_of_mem (mem_insert.mpr (.inr ⟨rfl, hroom⟩))
        · exact .inr (by rw [insertAll_of_full hfull, hfull])
      · exact ih h

/-- Only the given elements are added. -/
lemma mem_or_mem_of_insertAll (h : y ∈ (s.insertAll l).toList) : y ∈ s.toList ∨ y ∈ l := by
  induction l generalizing s with
  | nil => exact .inl h
  | cons x l ih =>
      rcases ih h with hy | hy
      · rcases mem_insert.mp hy with hy | ⟨rfl, -⟩
        · exact .inl hy
        · exact .inr List.mem_cons_self
      · exact .inr (List.mem_cons_of_mem x hy)

/-- The number of elements that are to be there in the end. -/
def needed (s : BoundedSet α cap) (l : List α) : ℕ := (s.toList ++ l).toFinset.card

/-- Where all elements fit, the first one is added. -/
lemma mem_insert_of_needed (h : s.needed (x :: l) ≤ cap) : x ∈ (s.insert x).toList := by
  rw [mem_insert]
  by_cases hx : x ∈ s.toList
  · exact .inl hx
  · refine .inr ⟨rfl, ?_⟩
    have hsub : Insert.insert x s.toList.toFinset ⊆ (s.toList ++ x :: l).toFinset := by
      intro y hy
      simp only [Finset.mem_insert, List.mem_toFinset] at hy
      simp only [List.mem_toFinset, List.mem_append, List.mem_cons]
      tauto
    calc s.toList.length < s.toList.toFinset.card + 1 := by
          rw [List.toFinset_card_of_nodup s.nodup]
          exact Nat.lt_succ_self _
      _ = (Insert.insert x s.toList.toFinset).card := by
          rw [Finset.card_insert_of_notMem (by simpa using hx)]
      _ ≤ s.needed (x :: l) := Finset.card_le_card hsub
      _ ≤ cap := h

/-- An element that is there already, or is the next one, does not count twice. -/
lemma needed_insert_le : (s.insert x).needed l ≤ s.needed (x :: l) := by
  refine Finset.card_le_card fun y hy => ?_
  simp only [List.mem_toFinset, List.mem_append, mem_insert, List.mem_cons] at hy ⊢
  tauto

lemma mem_insertAll_of_needed (h : s.needed l ≤ cap) (hy : y ∈ s.toList ∨ y ∈ l) :
    y ∈ (s.insertAll l).toList := by
  induction l generalizing s with
  | nil => simpa using hy
  | cons x l ih =>
      refine ih (needed_insert_le.trans h) ?_
      rcases hy with hy | hy
      · exact .inl (mem_insert.mpr (.inl hy))
      · rcases List.mem_cons.mp hy with rfl | hy
        · exact .inl (mem_insert_of_needed h)
        · exact .inr hy

/-- **Nothing is dropped exactly when there is room for all.** -/
theorem mem_insertAll_iff :
    (∀ y, y ∈ (s.insertAll l).toList ↔ y ∈ s.toList ∨ y ∈ l) ↔ s.needed l ≤ cap := by
  constructor
  · intro h
    have heq : (s.toList ++ l).toFinset = (s.insertAll l).toList.toFinset := by
      ext y
      rw [List.mem_toFinset, List.mem_toFinset, List.mem_append, h y]
    calc s.needed l = (s.insertAll l).toList.toFinset.card := by rw [needed, heq]
      _ = (s.insertAll l).toList.length := List.toFinset_card_of_nodup (s.insertAll l).nodup
      _ ≤ cap := (s.insertAll l).length_le
  · exact fun h y => ⟨mem_or_mem_of_insertAll, mem_insertAll_of_needed h⟩

end BoundedSet
