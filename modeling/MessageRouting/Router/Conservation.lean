import Mathlib.Data.List.Range
import MessageRouting.Router.Enqueueing

/-!
No write task is lost, made up or sent twice.

The history of the tasks is read off the labels of a run; a task that a writer
has popped and neither sent nor dropped yet stands at the writer's location
(`Pc.tasks`).

* `Step.balance`: what a step pops is what it adds to the tasks at its location,
  sent, failed and dropped.
* `tasks_conserved`: over every interleaving the pushed tasks are those in the
  queue, at the writers, sent, failed and dropped; the queue is first in, first
  out; and every task is passed to `send` at most once, with its own message on
  its own socket.
-/

namespace MessageRouting

variable {T : Type} {sh sh' : Shared T} {i : T} {pc pc' : Pc} {e : Event T} {tr : List (Event T)}

/-! ### The history of the tasks -/

def Event.droppedTask : Event T → Option Task
  | .dropped _ t => some t
  | _ => none

/-- A call of `send`, as the task with its number, its socket and its message. -/
def Event.sendCall : Event T → Option Task
  | .sent _ seq s msg _ => some ⟨s, msg, seq⟩
  | _ => none

/-- A call of `send` that transmitted everything. -/
def Event.sentTask : Event T → Option Task
  | .sent _ seq s msg true => some ⟨s, msg, seq⟩
  | _ => none

/-- A call of `send` after which `send_to_client` returns `SOCKET_ERROR`. -/
def Event.failedTask : Event T → Option Task
  | .sent _ seq s msg false => some ⟨s, msg, seq⟩
  | _ => none

/-- The task that a writer has popped and neither sent nor dropped. -/
def Pc.tasks : Pc → Multiset Task
  | .findSession t => {t}
  | .lockDst t _ => {t}
  | .send t _ => {t}
  | _ => 0

/-- A step pops what it adds to the tasks at its location, sent, failed and
dropped. -/
lemma Step.balance (h : Step i sh pc e pc' sh') :
    pc'.tasks + (e.sentTask.toList + e.failedTask.toList + e.droppedTask.toList : Multiset Task) =
      pc.tasks + (e.poppedTask.toList : Multiset Task) := by
  cases h <;> rfl

/-- The tasks are numbered in the order in which they are pushed. -/
lemma Step.numbered (h : Step i sh pc e pc' sh') :
    List.range sh'.pushes = List.range sh.pushes ++ e.pushedTask.toList.map Task.seq := by
  cases h with
  | forward => simp [Event.pushedTask, Shared.push, Shared.task, List.range_succ]
  | _ => simp [Event.pushedTask, Shared.setHolder]

/-- The `send` calls are those that transmitted everything and those that
failed. -/
lemma sendCalls_eq (tr : List (Event T)) : (tasksOf Event.sendCall tr : Multiset Task) =
    tasksOf Event.sentTask tr + tasksOf Event.failedTask tr := by
  induction tr using List.reverseRecOn with
  | nil => rfl
  | append_singleton tr e ih =>
      have he : (e.sendCall.toList : Multiset Task) = e.sentTask.toList + e.failedTask.toList := by
        cases e with
        | sent i seq s msg ok => cases ok <;> rfl
        | _ => rfl
      simp only [tasksOf_append, ← Multiset.coe_add, ih, he]
      abel

/-! ### Conservation -/

/-- A task is somewhere between the queue and its end, and has its own number. -/
structure Balanced [Fintype T] (tr : List (Event T)) (st : RouterState T) : Prop where
  numbers : (tasksOf Event.pushedTask tr).map Task.seq = List.range st.shared.pushes
  popped : (tasksOf Event.poppedTask tr : Multiset Task) = (∑ i, (st.loc i).tasks) +
    (tasksOf Event.sentTask tr + tasksOf Event.failedTask tr + tasksOf Event.droppedTask tr)

variable [Fintype T] [DecidableEq T] {st st' : RouterState T}

lemma Balanced.step (hb : Balanced tr st) (h : Step i st.shared (st.loc i) e pc' sh') :
    Balanced (tr ++ [e]) ⟨sh', Function.update st.loc i pc'⟩ := by
  refine ⟨?_, ?_⟩
  · rw [tasksOf_append, List.map_append, hb.numbers, h.numbered]
  · -- both sides with the task at the old location added
    have hsum := Program.sum_update Pc.tasks st.loc i pc'
    have hbal := h.balance
    simp only [tasksOf_append, ← Multiset.coe_add, hb.popped]
    refine add_right_cancel (b := (st.loc i).tasks) ?_
    calc _ = (∑ j, (st.loc j).tasks) + ((st.loc i).tasks + (e.poppedTask.toList : Multiset Task)) +
          (tasksOf Event.sentTask tr + tasksOf Event.failedTask tr +
            tasksOf Event.droppedTask tr) := by abel
      _ = (∑ j, (st.loc j).tasks) + pc'.tasks +
          (e.sentTask.toList + e.failedTask.toList + e.droppedTask.toList : Multiset Task) +
          (tasksOf Event.sentTask tr + tasksOf Event.failedTask tr +
            tasksOf Event.droppedTask tr) := by rw [← hbal]; abel
      _ = _ := by rw [← hsum]; abel

omit [DecidableEq T] in
/-- A step that shows no task. -/
lemma Balanced.of_loop (hb : Balanced tr st)
    (hp : sh'.pushes = st.shared.pushes) (h₁ : e.pushedTask = none) (h₂ : e.poppedTask = none)
    (h₃ : e.sentTask = none) (h₄ : e.failedTask = none) (h₅ : e.droppedTask = none) :
    Balanced (tr ++ [e]) ⟨sh', st.loc⟩ := by
  refine ⟨?_, ?_⟩
  · rw [tasksOf_silent h₁, hb.numbers, hp]
  · rw [tasksOf_silent h₂, tasksOf_silent h₃, tasksOf_silent h₄, tasksOf_silent h₅, hb.popped]

lemma balanced_of_reaches (h : (workers T).Reaches tr st) : Balanced tr st := by
  refine h.induct Balanced ?_ ?_
  · rintro st ⟨-, -, -, hp, hloc⟩
    refine ⟨by rw [hp]; rfl, ?_⟩
    have hnone : ∀ i, (st.loc i).tasks = 0 := by
      intro i
      rcases hloc i with hi | hi
      · rw [hi]; rfl
      · rw [hi]; rfl
    simp [tasksOf, hnone]
  · intro tr st e st' hb hs
    rcases workers_step_cases hs with ⟨i, pc', sh', hstep, rfl⟩ | ⟨s, S, rfl, -, -, rfl⟩ |
      ⟨s, rfl, rfl⟩
    · exact hb.step hstep
    · exact hb.of_loop rfl rfl rfl rfl rfl rfl
    · exact hb.of_loop rfl rfl rfl rfl rfl rfl

/-- **Conservation of write tasks.** In every interleaving, at every moment: the
tasks ever pushed are, as a multiset, those in the queue, those popped and held
by a writer, those sent, those whose send returned `SOCKET_ERROR` and those
dropped because the socket had no session; the popped tasks in pop order
followed by the queue are the pushed tasks in push order; no two pushed tasks
have the same number; and the calls of `send` are made for pushed tasks, for
each at most once, with the message and the socket of the task. -/
theorem tasks_conserved (h : (workers T).Reaches tr st) :
    (tasksOf Event.pushedTask tr : Multiset Task) = st.shared.writeQueue +
      (∑ i, (st.loc i).tasks) + tasksOf Event.sentTask tr + tasksOf Event.failedTask tr +
      tasksOf Event.droppedTask tr ∧
    tasksOf Event.poppedTask tr ++ st.shared.writeQueue = tasksOf Event.pushedTask tr ∧
    ((tasksOf Event.pushedTask tr).map Task.seq).Nodup ∧
    ((tasksOf Event.sendCall tr).map Task.seq).Nodup ∧
    ∀ t ∈ tasksOf Event.sendCall tr, t ∈ tasksOf Event.pushedTask tr := by
  have hb := balanced_of_reaches h
  have hnodup : ((tasksOf Event.pushedTask tr).map Task.seq).Nodup := by
    rw [hb.numbers]
    exact List.nodup_range
  have hall : (tasksOf Event.pushedTask tr : Multiset Task) = st.shared.writeQueue +
      (∑ i, (st.loc i).tasks) + tasksOf Event.sentTask tr + tasksOf Event.failedTask tr +
      tasksOf Event.droppedTask tr := by
    rw [tasks_fifo h, ← Multiset.coe_add, hb.popped]
    abel
  have hle : (tasksOf Event.sendCall tr : Multiset Task) ≤ tasksOf Event.pushedTask tr := by
    rw [hall, sendCalls_eq]
    refine Multiset.le_iff_exists_add.mpr ⟨st.shared.writeQueue + (∑ i, (st.loc i).tasks) +
      tasksOf Event.droppedTask tr, ?_⟩
    abel
  refine ⟨hall, (tasks_fifo h).symm, hnodup, ?_, fun t ht => ?_⟩
  · exact Multiset.coe_nodup.mp
      (Multiset.nodup_of_le (Multiset.map_le_map hle) (Multiset.coe_nodup.mpr hnodup))
  · exact Multiset.mem_of_le hle ht

/-- A run in which one of two messages is sent, the send of the other fails, and
the balance holds. -/
theorem tasks_conserved_two :
    ∃ tr st, (workers (Fin 3)).Reaches tr st ∧
      (tasksOf Event.sentTask tr).length = 1 ∧ (tasksOf Event.failedTask tr).length = 1 ∧
      ((tasksOf Event.pushedTask tr : Multiset Task) = st.shared.writeQueue +
        (∑ i, (st.loc i).tasks) + tasksOf Event.sentTask tr + tasksOf Event.failedTask tr +
        tasksOf Event.droppedTask tr ∧
      tasksOf Event.poppedTask tr ++ st.shared.writeQueue = tasksOf Event.pushedTask tr ∧
      ((tasksOf Event.pushedTask tr).map Task.seq).Nodup ∧
      ((tasksOf Event.sendCall tr).map Task.seq).Nodup ∧
      ∀ t ∈ tasksOf Event.sendCall tr, t ∈ tasksOf Event.pushedTask tr) := by
  obtain ⟨tr, st, hreach, hsent, hfailed⟩ : ∃ tr st, (workers (Fin 3)).Reaches tr st ∧
      (tasksOf Event.sentTask tr).length = 1 ∧ (tasksOf Event.failedTask tr).length = 1 :=
    Lts.reaches_of_execute threeThreads (twoMessages ++ run 1 [.go, .go] ++ run 2 [.go, .go] ++
      run 2 [.go, .sent true, .go] ++ run 1 [.go, .sent false]) started_threeThreads (by decide)
  exact ⟨tr, st, hreach, hsent, hfailed, tasks_conserved hreach⟩

end MessageRouting
