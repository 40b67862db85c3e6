import Mathlib.Tactic

/-!
The queue of `router/include/signaling_queue.h`, seen under its mutex: the
elements in order, the front first. `push` is one step, and `pop` is the step
that a thread takes once the wait for a nonempty queue is over.
-/

namespace MessageRouting

namespace SignalingQueue

variable {T : Type} [DecidableEq T]

/-- `SignalingQueue::push`: with `skip_if_repeated` an item equal to the last
one is not inserted. -/
def push (queue : List T) (item : T) (skipIfRepeated : Bool) : List T :=
  if skipIfRepeated = true ∧ queue.getLast? = some item then queue else queue ++ [item]

/-- `SignalingQueue::pop`, blocked while the queue is empty. -/
def pop : List T → Option (T × List T)
  | [] => none
  | item :: queue => some (item, queue)

/-- Without the skip flag a push always appends. -/
@[simp] lemma push_false (queue : List T) (item : T) : push queue item false = queue ++ [item] := by
  simp [push]

omit [DecidableEq T] in
lemma pop_eq_some {queue queue' : List T} {item : T} :
    pop queue = some (item, queue') ↔ queue = item :: queue' := by
  cases queue <;> simp [pop]

end SignalingQueue

end MessageRouting
