import Mathlib.Data.Set.Card
import MessageRouting.Lib.Threads
import MessageRouting.Router.SignalingQueue

/-!
The threads that call `push` and `pop` of one `SignalingQueue`
(`router/include/signaling_queue.h`), with its mutex and its condition variable.

A thread that calls either function first takes `m_mutex`. What it then does under
the mutex is one step: `push` inserts and calls `notify_one`, or skips and returns;
`pop` tests the predicate of `m_cond.wait`, and takes the front or goes to sleep,
which releases the mutex. A thread that sleeps is in `waiting` until `notify_one`
or a spurious wake-up takes it out; it then takes the mutex again and tests the
predicate again. Which thread `notify_one` wakes is an input.

* `Stage`, `next`, `program`: the two functions; `monitor`: all interleavings.
* `Transition`: the same transitions as a relation.
* `owner_of_inside`: at most one thread stands under the mutex.
* `atomic_of_monitor`: seen from outside, every interleaving is a sequence of calls
  `push` and `pop` that happen at once.
* `Signalled`: the invariant. A thread goes to sleep only on an empty queue, and from
  then on each element that is inserted wakes one sleeper, as long as there is one.
  `no_lost_wakeup` reads it off.
-/

namespace MessageRouting

namespace SignalingQueue

variable {T α : Type}

/-! ### The program -/

/-- The calls. -/
inductive Call (α : Type) where
  | push (item : α) (skipIfRepeated : Bool)
  | pop
  deriving DecidableEq

/-- Where a thread stands. In `checking` it is about to test the predicate of
`m_cond.wait`, `woken` telling whether it has slept before; in `asleep` it is
inside `m_cond.wait`, or on its way to the mutex after it was woken. -/
inductive Stage (α : Type) where
  | outside
  | entering (c : Call α)
  | pushing (item : α) (skipIfRepeated : Bool)
  | checking (woken : Bool)
  | asleep
  | leaving
  deriving DecidableEq

/-- What the threads share: `m_queue`, the owner of `m_mutex`, and the threads that sleep
on `m_cond` and were not woken. -/
structure Monitor (T α : Type) where
  queue : List α
  owner : Option T
  waiting : List T

/-- The input of a step: the call that a thread makes, the thread that `notify_one`
wakes, `go` where there is no choice. -/
inductive Choice (T α : Type) where
  | go
  | call (c : Call α)
  | notify (k : Option T)

/-- The label of a step. -/
inductive Note (T α : Type) where
  | called (i : T) (c : Call α)
  | locked (i : T)
  | pushed (i : T) (item : α) (skipIfRepeated : Bool)
  | popped (i : T) (item : α)
  | slept (i : T)
  | unlocked (i : T)
  | spurious (j : T)
  deriving DecidableEq

variable [DecidableEq T] [DecidableEq α]

/-- `notify_one`: it wakes one of those who sleep, and nobody if nobody does. -/
def notifyOne (waiting : List T) : Option T → Option (List T)
  | none => if waiting = [] then some [] else none
  | some k => if k ∈ waiting then some (waiting.erase k) else none

/-- `std::unique_lock lock(m_mutex)`, blocked while a thread owns the mutex. -/
def lock (sh : Monitor T α) (i : T) : Option (Monitor T α) :=
  match sh.owner with
  | none => some { sh with owner := some i }
  | some _ => none

/-- The first location under the mutex. -/
def Call.entered : Call α → Stage α
  | .push item skip => .pushing item skip
  | .pop => .checking false

/-- The next step of a thread, `none` when it is blocked or the input does not
fit. -/
def next (sh : Monitor T α) (i : T) :
    Stage α → Choice T α → Option (Note T α × Stage α × Monitor T α)
  | .outside, .call c => some (.called i c, .entering c, sh)
  | .entering c, .go => (lock sh i).map fun sh' => (.locked i, c.entered, sh')
  | .pushing item skip, .go =>
      -- the early return
      if skip = true ∧ sh.queue.getLast? = some item then
        some (.pushed i item skip, .leaving, sh)
      else none
  | .pushing item skip, .notify k =>
      if skip = true ∧ sh.queue.getLast? = some item then none
      else (notifyOne sh.waiting k).map fun waiting =>
        (.pushed i item skip, .leaving, { sh with queue := sh.queue ++ [item], waiting := waiting })
  | .checking _, .go =>
      match pop sh.queue with
      | none => some (.slept i, .asleep, { sh with owner := none, waiting := i :: sh.waiting })
      | some (item, queue) => some (.popped i item, .leaving, { sh with queue := queue })
  | .asleep, .go =>
      if i ∈ sh.waiting then none
      else (lock sh i).map fun sh' => (.locked i, .checking true, sh')
  | .leaving, .go => some (.unlocked i, .outside, { sh with owner := none })
  | _, _ => none

/-- A spurious wake-up. -/
def wakeUp (sh : Monitor T α) (j : T) : Option (Note T α × Monitor T α) :=
  if j ∈ sh.waiting then some (.spurious j, { sh with waiting := sh.waiting.erase j }) else none

/-- The program of the threads around one queue. -/
def program (T α : Type) [DecidableEq T] [DecidableEq α] :
    Program T (Monitor T α) (Stage α) (Choice T α) T (Note T α) := ⟨next, wakeUp⟩

/-- A state of the queue and of the threads. -/
abbrev MonitorState (T α : Type) := Program.State T (Monitor T α) (Stage α)

/-- The new queue: no thread is inside. -/
def Fresh (st : MonitorState T α) : Prop :=
  st.shared = ⟨[], none, []⟩ ∧ ∀ i, st.loc i = .outside

/-- All interleavings. -/
def monitor (T α : Type) [DecidableEq T] [DecidableEq α] : Lts (MonitorState T α) (Note T α) :=
  (program T α).system Fresh

/-! ### The transitions -/

/-- What one step of thread `i` can be. -/
inductive Transition (i : T) (sh : Monitor T α) :
    Stage α → Note T α → Stage α → Monitor T α → Prop where
  | call {c : Call α} : Transition i sh .outside (.called i c) (.entering c) sh
  | enter {c : Call α} : sh.owner = none →
      Transition i sh (.entering c) (.locked i) c.entered { sh with owner := some i }
  | skip {item : α} : sh.queue.getLast? = some item →
      Transition i sh (.pushing item true) (.pushed i item true) .leaving sh
  | push {item : α} {skip : Bool} {k : Option T} {waiting : List T} :
      ¬ (skip = true ∧ sh.queue.getLast? = some item) → notifyOne sh.waiting k = some waiting →
      Transition i sh (.pushing item skip) (.pushed i item skip) .leaving
        { sh with queue := sh.queue ++ [item], waiting := waiting }
  | sleep {woken : Bool} : sh.queue = [] →
      Transition i sh (.checking woken) (.slept i) .asleep
        { sh with owner := none, waiting := i :: sh.waiting }
  | take {woken : Bool} {item : α} {queue : List α} : sh.queue = item :: queue →
      Transition i sh (.checking woken) (.popped i item) .leaving { sh with queue := queue }
  | wake : i ∉ sh.waiting → sh.owner = none →
      Transition i sh .asleep (.locked i) (.checking true) { sh with owner := some i }
  | leave : Transition i sh .leaving (.unlocked i) .outside { sh with owner := none }

section Transitions

variable {sh sh' : Monitor T α} {i : T} {l l' : Stage α} {e : Note T α} {inp : Choice T α}

omit [DecidableEq T] [DecidableEq α] in
lemma lock_eq_some (h : lock sh i = some sh') :
    sh.owner = none ∧ sh' = { sh with owner := some i } := by
  rw [lock] at h
  split at h
  · rename_i hfree
    exact ⟨hfree, (Option.some.inj h).symm⟩
  · cases h

/-- Every step of the program is one of these. -/
lemma transition_of_next (h : next sh i l inp = some (e, l', sh')) :
    Transition i sh l e l' sh' := by
  cases l <;> cases inp
  case outside.call c => cases h; exact .call
  case entering.go c =>
    simp only [next, Option.map_eq_some_iff, Prod.mk.injEq] at h
    obtain ⟨_, hlock, rfl, rfl, rfl⟩ := h
    obtain ⟨hfree, rfl⟩ := lock_eq_some hlock
    exact .enter hfree
  case pushing.go item skip =>
    simp only [next] at h
    split_ifs at h with hskip
    obtain ⟨rfl, hlast⟩ := hskip
    cases h
    exact .skip hlast
  case pushing.notify item skip k =>
    simp only [next] at h
    split_ifs at h with hskip
    simp only [Option.map_eq_some_iff, Prod.mk.injEq] at h
    obtain ⟨_, hnotify, rfl, rfl, rfl⟩ := h
    exact .push hskip hnotify
  case checking.go woken =>
    simp only [next] at h
    split at h
    · rename_i hpop
      cases h
      refine .sleep ?_
      cases hq : sh.queue with
      | nil => rfl
      | cons item queue => simp [hq, pop] at hpop
    · rename_i hpop
      cases h
      exact .take (pop_eq_some.mp hpop)
  case asleep.go =>
    simp only [next] at h
    split_ifs at h with hmem
    simp only [Option.map_eq_some_iff, Prod.mk.injEq] at h
    obtain ⟨_, hlock, rfl, rfl, rfl⟩ := h
    obtain ⟨hfree, rfl⟩ := lock_eq_some hlock
    exact .wake hmem hfree
  case leaving.go => cases h; exact .leave
  -- the other inputs do not fit their location
  all_goals cases h

omit [DecidableEq α] in
lemma wakeUp_eq_some {j : T} (h : wakeUp sh j = some (e, sh')) :
    e = .spurious j ∧ j ∈ sh.waiting ∧ sh' = { sh with waiting := sh.waiting.erase j } := by
  rw [wakeUp] at h
  split_ifs at h with hmem
  cases h
  exact ⟨rfl, hmem, rfl⟩

end Transitions

variable {st st' : MonitorState T α} {e : Note T α} {tr : List (Note T α)}

/-- Everything one step can be. -/
lemma monitor_step_cases (h : (monitor T α).step st e st') :
    (∃ i l sh, Transition i st.shared (st.loc i) e l sh ∧
      st' = ⟨sh, Function.update st.loc i l⟩) ∨
    (∃ j, e = .spurious j ∧ j ∈ st.shared.waiting ∧
      st' = ⟨{ st.shared with waiting := st.shared.waiting.erase j }, st.loc⟩) := by
  rcases Program.step_cases h with ⟨i, inp, l, sh, hn, rfl⟩ | ⟨j, sh, hn, rfl⟩
  · exact .inl ⟨i, l, sh, transition_of_next hn, rfl⟩
  · obtain ⟨he, hmem, rfl⟩ := wakeUp_eq_some hn
    exact .inr ⟨j, he, hmem, rfl⟩

/-! ### The mutex -/

/-- The thread stands under the mutex. -/
def Stage.inside : Stage α → Bool
  | .pushing _ _ => true
  | .checking _ => true
  | .leaving => true
  | _ => false

omit [DecidableEq α] in
/-- A step of a thread leaves the mutex alone, takes it when it is free, or releases
it. -/
lemma Transition.owner_cases {i : T} {sh sh' : Monitor T α} {l l' : Stage α}
    (h : Transition i sh l e l' sh') :
    (sh'.owner = sh.owner ∧ l'.inside = l.inside) ∨ (sh.owner = none ∧ sh'.owner = some i) ∨
    (l.inside = true ∧ l'.inside = false) := by
  cases h with
  | enter hfree => exact .inr (.inl ⟨hfree, rfl⟩)
  | wake _ hfree => exact .inr (.inl ⟨hfree, rfl⟩)
  | sleep _ => exact .inr (.inr ⟨rfl, rfl⟩)
  | leave => exact .inr (.inr ⟨rfl, rfl⟩)
  | _ => exact .inl ⟨rfl, rfl⟩

/-- **Mutual exclusion**: in every interleaving a thread under the mutex owns it, so
that there is at most one. This is what makes each step under it a single one. -/
theorem owner_of_inside (h : (monitor T α).Reaches tr st) :
    ∀ i, (st.loc i).inside = true → st.shared.owner = some i := by
  refine Program.each_of_reaches (fun sh i l => l.inside = true → sh.owner = some i)
    ?_ ?_ ?_ ?_ h
  · rintro st ⟨-, hloc⟩ i hi
    simp [hloc, Stage.inside] at hi
  · intro sh i l inp e l' sh' hown hn hin
    rcases (transition_of_next hn).owner_cases with ⟨hsame, hstays⟩ | ⟨-, htaken⟩ | ⟨-, hout⟩
    · rw [hsame]
      exact hown (hstays ▸ hin)
    · exact htaken
    · rw [hout] at hin
      cases hin
  · intro sh i l inp e l' sh' j m hj hown hother hn hin
    have hj' := hother hin
    rcases (transition_of_next hn).owner_cases with ⟨hsame, -⟩ | ⟨hfree, -⟩ | ⟨hins, -⟩
    · rw [hsame]
      exact hj'
    · rw [hfree] at hj'
      cases hj'
    · rw [hown hins] at hj'
      exact absurd (Option.some.inj hj').symm hj
  · intro sh j e sh' k m hn hk
    obtain ⟨-, -, rfl⟩ := wakeUp_eq_some hn
    exact hk

/-! ### Seen from outside -/

/-- What a call does to the queue when it happens at once. -/
inductive Effect (α : Type) where
  | push (item : α) (skipIfRepeated : Bool)
  | pop (item : α)
  deriving DecidableEq

/-- The queue under calls that happen at once. -/
def atomic (α : Type) [DecidableEq α] : Lts (List α) (Effect α) where
  init queue := queue = []
  step queue c queue' :=
    match c with
    | .push item skip => queue' = push queue item skip
    | .pop item => pop queue = some (item, queue')

/-- The step at which a call takes effect. -/
def Note.effect : Note T α → Option (Effect α)
  | .pushed _ item skip => some (.push item skip)
  | .popped _ item => some (.pop item)
  | _ => none

/-- A step of a thread is the effect of its call, or leaves the queue as it is. -/
lemma Transition.atomic {i : T} {sh sh' : Monitor T α} {l l' : Stage α}
    (h : Transition i sh l e l' sh') :
    (atomic α).Run sh.queue e.effect.toList sh'.queue := by
  cases h with
  | @skip item hlast =>
      have hsame : sh.queue = SignalingQueue.push sh.queue item true := by
        rw [SignalingQueue.push, if_pos ⟨rfl, hlast⟩]
      exact .single hsame
  | @push item skip k waiting hskip _ =>
      have hlonger : sh.queue ++ [item] = SignalingQueue.push sh.queue item skip := by
        rw [SignalingQueue.push, if_neg hskip]
      exact .single hlonger
  | take hq => exact .single (pop_eq_some.mpr hq)
  | _ => exact .nil

/-- **Every interleaving is a sequence of atomic calls.** -/
theorem atomic_of_monitor (h : (monitor T α).Reaches tr st) :
    (atomic α).Reaches (tr.filterMap Note.effect) st.shared.queue := by
  refine h.map (fun st => st.shared.queue) Note.effect ?_ ?_
  · rintro st ⟨hsh, -⟩
    rw [hsh]
    rfl
  · intro tr st e st' _ hs
    rcases monitor_step_cases hs with ⟨i, l, sh, ht, rfl⟩ | ⟨j, rfl, -, rfl⟩
    · exact ht.atomic
    · exact .nil

/-! ### No lost wake-up -/

/-- The thread sleeps inside `pop` and was not woken. -/
def Unnotified (st : MonitorState T α) (i : T) : Prop :=
  st.loc i = .asleep ∧ i ∈ st.shared.waiting

/-- The thread was woken inside `pop` and has not tested the predicate since. -/
def Awakened (st : MonitorState T α) (i : T) : Prop :=
  (st.loc i = .asleep ∧ i ∉ st.shared.waiting) ∨ st.loc i = .checking true

/-- The thread is inside `pop` and has no element yet. -/
def InPop (st : MonitorState T α) (i : T) : Prop :=
  st.loc i = .entering .pop ∨ (∃ woken, st.loc i = .checking woken) ∨ st.loc i = .asleep

/-- The invariant. Those who are to be woken sleep, and while some thread is to be woken
there are at least as many that were as there are elements. -/
structure Signalled (st : MonitorState T α) : Prop where
  nodup : st.shared.waiting.Nodup
  asleep : ∀ i ∈ st.shared.waiting, st.loc i = .asleep
  enough : st.shared.queue ≠ [] → st.shared.waiting ≠ [] →
    (st.shared.queue.length : ℕ∞) ≤ {i | Awakened st i}.encard

omit [DecidableEq α] in
/-- What `notify_one` does: nobody sleeps, or it wakes one. -/
lemma notifyOne_cases {waiting waiting' : List T} {k : Option T}
    (h : notifyOne waiting k = some waiting') :
    (waiting = [] ∧ waiting' = []) ∨ ∃ j ∈ waiting, waiting' = waiting.erase j := by
  cases k with
  | none =>
      rw [notifyOne] at h
      split_ifs at h with hnil
      exact .inl ⟨hnil, (Option.some.inj h).symm⟩
  | some j =>
      rw [notifyOne] at h
      split_ifs at h with hmem
      exact .inr ⟨j, hmem, (Option.some.inj h).symm⟩

section Steps

variable {i : T} {l : Stage α} {sh : Monitor T α}

omit [DecidableEq α]

omit [DecidableEq T] in
/-- A thread that does not move stays woken as long as it is not put to sleep. -/
lemma Awakened.stable {j : T} (h : Awakened st j) (hloc : st'.loc j = st.loc j)
    (hwait : j ∈ st'.shared.waiting → j ∈ st.shared.waiting) : Awakened st' j := by
  rcases h with ⟨hj, hnot⟩ | hj
  · exact .inl ⟨hloc.trans hj, fun hmem => hnot (hwait hmem)⟩
  · exact .inr (hloc.trans hj)

/-- A step of a thread that was not woken, after which the queue is no longer and
the same threads sleep. -/
lemma Signalled.of_quiet (h : Signalled st) (hi : ¬ Awakened st i) (hl : st.loc i ≠ .asleep)
    (hwait : sh.waiting = st.shared.waiting)
    (hlen : sh.queue.length ≤ st.shared.queue.length) :
    Signalled ⟨sh, Function.update st.loc i l⟩ := by
  have hother : ∀ j ≠ i, Function.update st.loc i l j = st.loc j := fun j hj =>
    Function.update_of_ne hj _ _
  refine ⟨hwait ▸ h.nodup, fun j hj => ?_, fun hq hne => ?_⟩
  · have hasleep := h.asleep j (hwait ▸ hj)
    have hji : j ≠ i := by
      rintro rfl
      exact hl hasleep
    exact (hother j hji).trans hasleep
  · have hq' : st.shared.queue ≠ [] := by
      rw [← List.length_pos_iff] at hq ⊢
      exact lt_of_lt_of_le hq hlen
    have hsub : {j | Awakened st j} ⊆ {j | Awakened ⟨sh, Function.update st.loc i l⟩ j} := by
      intro j hj
      have hji : j ≠ i := by
        rintro rfl
        exact hi hj
      exact hj.stable (hother j hji) fun hmem => hwait ▸ hmem
    calc (sh.queue.length : ℕ∞) ≤ st.shared.queue.length := by exact_mod_cast hlen
      _ ≤ {j | Awakened st j}.encard := h.enough hq' (hwait ▸ hne)
      _ ≤ _ := Set.encard_le_encard hsub

/-- A thread takes the front of the queue. -/
lemma Signalled.take (h : Signalled st) {woken : Bool} {item : α} {queue : List α}
    (hi : st.loc i = .checking woken) (hq : st.shared.queue = item :: queue) :
    Signalled ⟨{ st.shared with queue := queue }, Function.update st.loc i .leaving⟩ := by
  cases woken with
  | false =>
      refine h.of_quiet ?_ (by rw [hi]; simp) rfl (by simp [hq])
      simp [Awakened, hi]
  | true =>
      have hother : ∀ j ≠ i, Function.update st.loc i .leaving j = st.loc j := fun j hj =>
        Function.update_of_ne hj _ _
      refine ⟨h.nodup, fun j hj => ?_, fun _ hne => ?_⟩
      · have hasleep := h.asleep j hj
        have hji : j ≠ i := by
          rintro rfl
          rw [hi] at hasleep
          cases hasleep
        exact (hother j hji).trans hasleep
      -- the thread was one of those woken, and it takes one element
      · have hsub : {j | Awakened st j} ⊆ insert i {j | Awakened
            ⟨{ st.shared with queue := queue }, Function.update st.loc i .leaving⟩ j} := by
          intro j hj
          by_cases hji : j = i
          · exact .inl hji
          · exact .inr (hj.stable (hother j hji) fun hmem => hmem)
        have hle := h.enough (by simp [hq]) hne
        rw [hq, List.length_cons, Nat.cast_add, Nat.cast_one] at hle
        have hsucc := hle.trans ((Set.encard_le_encard hsub).trans (Set.encard_insert_le _ i))
        exact (ENat.add_le_add_iff_right ENat.one_ne_top).mp hsucc

/-- A thread goes to sleep on an empty queue. -/
lemma Signalled.sleep (h : Signalled st) {woken : Bool} (hi : st.loc i = .checking woken)
    (hq : st.shared.queue = []) :
    Signalled ⟨{ st.shared with owner := none, waiting := i :: st.shared.waiting },
      Function.update st.loc i .asleep⟩ := by
  refine ⟨?_, fun j hj => ?_, fun hne _ => absurd hq hne⟩
  · refine List.nodup_cons.mpr ⟨fun hmem => ?_, h.nodup⟩
    have hasleep := h.asleep i hmem
    rw [hi] at hasleep
    cases hasleep
  · by_cases hji : j = i
    · rw [hji]
      exact Function.update_self _ _ _
    · refine (Function.update_of_ne hji _ _).trans (h.asleep j ?_)
      exact (List.mem_cons.mp hj).resolve_left hji

/-- A thread that was woken takes the mutex. -/
lemma Signalled.wake (h : Signalled st) (hi : i ∉ st.shared.waiting) :
    Signalled ⟨{ st.shared with owner := some i }, Function.update st.loc i (.checking true)⟩ := by
  refine ⟨h.nodup, fun j hj => ?_, fun hq hne => (h.enough hq hne).trans (Set.encard_le_encard ?_)⟩
  · have hji : j ≠ i := by
      rintro rfl
      exact hi hj
    exact (Function.update_of_ne hji _ _).trans (h.asleep j hj)
  · intro j hj
    by_cases hji : j = i
    · rw [hji]
      exact .inr (Function.update_self _ _ _)
    · exact hj.stable (Function.update_of_ne hji _ _) fun hmem => hmem

/-- A spurious wake-up. -/
lemma Signalled.spurious (h : Signalled st) (j : T) :
    Signalled ⟨{ st.shared with waiting := st.shared.waiting.erase j }, st.loc⟩ := by
  refine ⟨h.nodup.erase j, fun k hk => h.asleep k (List.mem_of_mem_erase hk), fun hq hne => ?_⟩
  have hne' : st.shared.waiting ≠ [] := by
    rintro hnil
    exact hne (by simp [hnil])
  exact (h.enough hq hne').trans (Set.encard_le_encard fun k hk =>
    hk.stable rfl List.mem_of_mem_erase)

/-- An element is inserted and one of those who sleep is woken. -/
lemma Signalled.push (h : Signalled st) {item : α} {skip : Bool} {k : Option T} {waiting : List T}
    (hi : st.loc i = .pushing item skip) (hk : notifyOne st.shared.waiting k = some waiting) :
    Signalled ⟨{ st.shared with queue := st.shared.queue ++ [item], waiting := waiting },
      Function.update st.loc i .leaving⟩ := by
  have hother : ∀ j ≠ i, Function.update st.loc i .leaving j = st.loc j := fun j hj =>
    Function.update_of_ne hj _ _
  have hsleeper : ∀ j ∈ st.shared.waiting, j ≠ i := by
    rintro j hj rfl
    have hasleep := h.asleep j hj
    rw [hi] at hasleep
    cases hasleep
  rcases notifyOne_cases hk with ⟨-, rfl⟩ | ⟨j, hj, rfl⟩
  · exact ⟨List.nodup_nil, by simp, fun _ hne => absurd rfl hne⟩
  · refine ⟨h.nodup.erase j, fun m hm => ?_, fun _ _ => ?_⟩
    · have hmem := List.mem_of_mem_erase hm
      exact (hother m (hsleeper m hmem)).trans (h.asleep m hmem)
    · set st' : MonitorState T α := ⟨{ st.shared with
        queue := st.shared.queue ++ [item], waiting := st.shared.waiting.erase j },
        Function.update st.loc i .leaving⟩
      have hle : (st.shared.queue.length : ℕ∞) ≤ {m | Awakened st m}.encard := by
        by_cases hq : st.shared.queue = []
        · simp [hq]
        · exact h.enough hq (List.ne_nil_of_mem hj)
      -- the one that is woken is a new one
      have hnew : j ∉ {m | Awakened st m} := by
        rintro (⟨-, hnot⟩ | hcheck)
        · exact hnot hj
        · rw [h.asleep j hj] at hcheck
          cases hcheck
      have hsub : insert j {m | Awakened st m} ⊆ {m | Awakened st' m} := by
        rintro m (rfl | hm)
        · exact .inl ⟨(hother m (hsleeper m hj)).trans (h.asleep m hj), h.nodup.not_mem_erase⟩
        · have hmi : m ≠ i := by
            rintro rfl
            simp [Awakened, hi] at hm
          exact hm.stable (hother m hmi) List.mem_of_mem_erase
      calc ((st.shared.queue ++ [item]).length : ℕ∞)
          = st.shared.queue.length + 1 := by simp
        _ ≤ {m | Awakened st m}.encard + 1 := add_le_add hle le_rfl
        _ = (insert j {m | Awakened st m}).encard := (Set.encard_insert_of_notMem hnew).symm
        _ ≤ {m | Awakened st' m}.encard := Set.encard_le_encard hsub

end Steps

/-- **One step** keeps the invariant. -/
lemma Signalled.step (h : Signalled st) (hs : (monitor T α).step st e st') : Signalled st' := by
  rcases monitor_step_cases hs with ⟨i, l, sh, ht, rfl⟩ | ⟨j, -, -, rfl⟩
  · generalize hi : st.loc i = l₀ at ht
    cases ht with
    | call => exact h.of_quiet (by simp [Awakened, hi]) (by rw [hi]; simp) rfl le_rfl
    | enter _ => exact h.of_quiet (by simp [Awakened, hi]) (by rw [hi]; simp) rfl le_rfl
    | skip _ => exact h.of_quiet (by simp [Awakened, hi]) (by rw [hi]; simp) rfl le_rfl
    | push _ hk => exact h.push hi hk
    | sleep hq => exact h.sleep hi hq
    | take hq => exact h.take hi hq
    | wake hmem _ => exact h.wake hmem
    | leave => exact h.of_quiet (by simp [Awakened, hi]) (by rw [hi]; simp) rfl le_rfl
  · exact h.spurious j

/-- **Every interleaving** keeps the invariant. -/
lemma signalled_of_reaches (h : (monitor T α).Reaches tr st) : Signalled st := by
  refine h.invariant Signalled ?_ fun st e st' hinv hs => hinv.step hs
  rintro st ⟨hsh, -⟩
  exact ⟨by simp [hsh], by simp [hsh], by simp [hsh]⟩

/-- **No wake-up is lost.** In every interleaving of any number of threads, while the
queue is not empty and some thread sleeps un-notified inside `pop`, at least as
many threads as there are elements were woken and have not tested the predicate
since. So it is never the case that the queue is not empty and every thread
inside `pop` sleeps un-notified. -/
theorem no_lost_wakeup (h : (monitor T α).Reaches tr st) :
    (st.shared.queue ≠ [] → (∃ i, Unnotified st i) →
      (st.shared.queue.length : ℕ∞) ≤ {i | Awakened st i}.encard) ∧
    ¬ (st.shared.queue ≠ [] ∧ (∃ i, InPop st i) ∧ ∀ i, InPop st i → Unnotified st i) := by
  have hinv := signalled_of_reaches h
  have hcount : st.shared.queue ≠ [] → (∃ i, Unnotified st i) →
      (st.shared.queue.length : ℕ∞) ≤ {i | Awakened st i}.encard := by
    rintro hq ⟨i, -, hi⟩
    exact hinv.enough hq (List.ne_nil_of_mem hi)
  refine ⟨hcount, ?_⟩
  rintro ⟨hq, ⟨i, hi⟩, hall⟩
  have hle := hcount hq ⟨i, hall i hi⟩
  have hpos : (0 : ℕ∞) < st.shared.queue.length := by
    exact_mod_cast List.length_pos_iff.mpr hq
  obtain ⟨j, hj⟩ := Set.encard_pos.mp (lt_of_lt_of_le hpos hle)
  -- a thread that was woken is inside `pop`, and is not to be woken
  rcases hj with ⟨hasleep, hnot⟩ | hcheck
  · exact hnot (hall j (.inr (.inr hasleep))).2
  · have hasleep := (hall j (.inr (.inl ⟨true, hcheck⟩))).1
    rw [hcheck] at hasleep
    cases hasleep

/-- Two consumers go to sleep, and a producer inserts one element. -/
theorem no_lost_wakeup_two :
    ∃ tr, ∃ st : MonitorState (Fin 3) ℕ, (monitor (Fin 3) ℕ).Reaches tr st ∧
      st.shared.queue = [5] ∧ Unnotified st 1 ∧ 1 ≤ {i | Awakened st i}.encard := by
  obtain ⟨tr, st, hreach, hq, hloc, hmem⟩ : ∃ tr, ∃ st : MonitorState (Fin 3) ℕ,
      (monitor (Fin 3) ℕ).Reaches tr st ∧ st.shared.queue = [5] ∧ st.loc 1 = .asleep ∧
        1 ∈ st.shared.waiting :=
    Lts.reaches_of_execute ⟨⟨[], none, []⟩, fun _ => .outside⟩
      [.thread 0 (.call .pop), .thread 0 .go, .thread 0 .go, .thread 1 (.call .pop), .thread 1 .go,
        .thread 1 .go, .thread 2 (.call (.push 5 true)), .thread 2 .go,
        .thread 2 (.notify (some 0))]
      ⟨rfl, fun _ => rfl⟩ (by decide)
  have hle := (no_lost_wakeup hreach).1 (by simp [hq]) ⟨1, hloc, hmem⟩
  rw [hq] at hle
  exact ⟨tr, st, hreach, hq, ⟨hloc, hmem⟩, by simpa using hle⟩

end SignalingQueue

end MessageRouting
