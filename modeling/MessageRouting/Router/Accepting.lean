import MessageRouting.Router.Registry

/-!
Accepting a socket under `sessions_mutex_` (`Sessions::accept_client` of
`router/src/sessions.cpp`).

`accept_client` calls `removeSession` for a socket that is registered already. Both
take the mutex, which is not recursive; here it is explicit, and a thread that asks
for it while it holds it gets no further.

* `Locked`: the registry and the mutex; `operations`: the functions that change the
  registry, called one after the other in any order and with any arguments.
* `locked_acceptClient`, `locked_removeSession`, `locked_addNode`: while the mutex is
  free the functions do what they do to the registry alone.
* `listed_of_operations`: whatever is called, the mutex is free after each call, and the
  list of accepted clients is right.
* `acceptClient_replaces_iff`: accepting a socket leaves it with a fresh session, and
  everything else as it was, exactly when the socket is not registered.
-/

namespace MessageRouting

namespace Sessions

/-! ### The functions and their mutex -/

/-- The registry, and whether the thread that runs a function of `Sessions` holds
`sessions_mutex_`. -/
structure Locked where
  sessions : Sessions
  held : Bool

namespace Locked

/-- `std::unique_lock` on `sessions_mutex_`: a thread that holds it waits for itself. -/
def lock (st : Locked) : Option Locked := if st.held then none else some { st with held := true }

/-- The end of its scope. -/
def unlock (st : Locked) : Locked := { st with held := false }

/-- `accepted_clients_.push_back`. -/
def pushBack (st : Locked) (clientSocket : ℤ) : Locked :=
  { st with sessions := { st.sessions with
      acceptedClients := st.sessions.acceptedClients ++ [clientSocket] } }

/-- `sessions_by_socket_[client_socket] = std::make_shared<Session>(client_socket)`. -/
def makeSession (st : Locked) (clientSocket : ℤ) : Locked :=
  { st with sessions := { st.sessions with
      sessionsBySocket :=
        Function.update st.sessions.sessionsBySocket clientSocket (some st.sessions.heap.length)
      heap := st.sessions.heap ++ [Session.new clientSocket] } }

/-- `Sessions::removeSession`. -/
def removeSession (st : Locked) (socket : ℤ) : Option Locked := do
  let st ← st.lock
  return { st with sessions := st.sessions.removeSession socket }.unlock

/-- `Sessions::add_node`. -/
def addNode (st : Locked) (clientSocket nodeId : ℤ) : Option Locked := do
  let st ← st.lock
  return { st with sessions := st.sessions.addNode clientSocket nodeId }.unlock

/-- `Sessions::accept_client`. -/
def acceptClient (st : Locked) (clientSocket : ℤ) : Option Locked := do
  let st ← st.lock
  let st := if clientSocket ∈ st.sessions.acceptedClients then st else st.pushBack clientSocket
  -- the mutex is still held when a registered socket is removed
  let st ←
    if (st.sessions.sessionsBySocket clientSocket).isSome then st.removeSession clientSocket
    else some st
  return (st.makeSession clientSocket).unlock

/-- One call of a function that changes the registry; a call that never returns is no step. -/
def operate (st : Locked) : Op → Option (Op × Locked)
  | .acceptClient s => (st.acceptClient s).map fun st' => (.acceptClient s, st')
  | .addNode s k => (st.addNode s k).map fun st' => (.addNode s k, st')
  | .removeSession s => (st.removeSession s).map fun st' => (.removeSession s, st')

end Locked

/-- All sequences of calls. -/
def operations : Lts Locked Op := Lts.ofFn (· = ⟨empty, false⟩) Locked.operate

variable {S S' : Sessions} {st st' : Locked} {s t k : ℤ} {tr : List Op} {op : Op}

lemma locked_removeSession :
    (⟨S, false⟩ : Locked).removeSession s = some ⟨S.removeSession s, false⟩ := rfl

lemma locked_addNode : (⟨S, false⟩ : Locked).addNode s k = some ⟨S.addNode s k, false⟩ := rfl

/-- Nobody accepts a registered socket: `removeSession` asks for the mutex that is held. -/
lemma locked_acceptClient :
    (⟨S, false⟩ : Locked).acceptClient s = (S.acceptClient s).map fun S' => ⟨S', false⟩ := by
  cases hs : S.sessionsBySocket s with
  | none =>
      by_cases hm : s ∈ S.acceptedClients <;>
        simp [Locked.acceptClient, Locked.lock, Locked.pushBack, Locked.makeSession, Locked.unlock,
          Sessions.acceptClient, hs, hm]
  | some p =>
      by_cases hm : s ∈ S.acceptedClients <;>
        simp [Locked.acceptClient, Locked.removeSession, Locked.lock, Locked.pushBack,
          Sessions.acceptClient, hs, hm]

/-- Everything one call can do while the mutex is free. -/
lemma operations_step_cases (h : operations.step ⟨S, false⟩ op st) :
    ∃ S', st = ⟨S', false⟩ ∧
      ((∃ s, op = .acceptClient s ∧ S.acceptClient s = some S') ∨
        (∃ s k, op = .addNode s k ∧ S' = S.addNode s k) ∨
        ∃ s, op = .removeSession s ∧ S' = S.removeSession s) := by
  obtain ⟨call, h⟩ := h
  cases call with
  | acceptClient s =>
      simp only [Locked.operate, locked_acceptClient, Option.map_map, Option.map_eq_some_iff,
        Function.comp_apply, Prod.mk.injEq] at h
      obtain ⟨S', hS, rfl, rfl⟩ := h
      exact ⟨S', rfl, .inl ⟨s, rfl, hS⟩⟩
  | addNode s k =>
      simp only [Locked.operate, locked_addNode, Option.map_some, Option.some.injEq,
        Prod.mk.injEq] at h
      obtain ⟨rfl, rfl⟩ := h
      exact ⟨_, rfl, .inr (.inl ⟨s, k, rfl, rfl⟩)⟩
  | removeSession s =>
      simp only [Locked.operate, locked_removeSession, Option.map_some, Option.some.injEq,
        Prod.mk.injEq] at h
      obtain ⟨rfl, rfl⟩ := h
      exact ⟨_, rfl, .inr (.inr ⟨s, rfl, rfl⟩)⟩

/-- Whatever is called, the mutex is free after each call and the list is right. -/
lemma listed_of_operations (h : operations.Reaches tr st) :
    ∃ S, st = ⟨S, false⟩ ∧ S.Listed := by
  refine h.invariant (fun st => ∃ S, st = ⟨S, false⟩ ∧ S.Listed) ?_ ?_
  · rintro _ rfl
    exact ⟨empty, rfl, consistent_empty.listed⟩
  · rintro _ op st' ⟨S, rfl, hl⟩ hs
    obtain ⟨S', rfl, hop⟩ := operations_step_cases hs
    refine ⟨S', rfl, ?_⟩
    rcases hop with ⟨s, -, hS⟩ | ⟨s, k, -, rfl⟩ | ⟨s, -, rfl⟩
    · exact hl.acceptClient hS
    · exact hl.addNode
    · exact hl.removeSession

/-! ### What accepting is for -/

/-- The socket `s` has a session of its own that is new, its old one cannot be found by
any id, and what is registered for other sockets and ids is as it was. -/
structure Replaces (S : Sessions) (s : ℤ) (S' : Sessions) : Prop where
  once : S'.acceptedClients.count s = 1
  fresh : ∃ a, S'.sessionsBySocket s = some (some a) ∧ S.heap[a]? = none ∧
    S'.heap[a]? = some ⟨s, NONE⟩
  old : ∀ p, S.sessionsBySocket s = some p → ∀ k, S'.sessionsById k ≠ some p
  others : ∀ t, t ≠ s → S'.sessionsBySocket t = S.sessionsBySocket t ∧
    (t ∈ S'.acceptedClients ↔ t ∈ S.acceptedClients)
  ids : ∀ k, (∀ p, S.sessionsBySocket s = some p → S.getId p ≠ k) →
    S'.sessionsById k = S.sessionsById k

/-- A completed accept does this. -/
lemma Listed.replaces (hl : S.Listed) (h : S.acceptClient s = some S') : Replaces S s S' := by
  obtain ⟨hs, hbs, hbi, -, hhp⟩ := acceptClient_spec h
  have hac := hl.acceptedClients_acceptClient h
  refine ⟨?_, ⟨S.heap.length, ?_, ?_, ?_⟩, ?_, ?_, ?_⟩
  · rw [hac, List.count_append, List.count_eq_zero_of_not_mem (hl.not_mem hs)]
    simp
  · rw [hbs, Function.update_self]
  · simp
  · simp [hhp, Session.new]
  · intro p hp
    rw [hs] at hp
    cases hp
  · intro t ht
    rw [hbs, Function.update_of_ne ht, hac]
    simp [ht]
  · intro k _
    rw [hbi]

/-- **Accepting a socket replaces its session exactly when it has none.** In every state
that calls of the functions of `Sessions` lead to, in any order and with any arguments,
`accept_client` on a socket completes and leaves it with a fresh session, everything else
being as it was, if the socket is not registered; if it is, the call takes the mutex it
holds. -/
theorem acceptClient_replaces_iff (h : operations.Reaches tr st) (s : ℤ) :
    (∃ st', st.acceptClient s = some st' ∧ Replaces st.sessions s st'.sessions) ↔
      st.sessions.sessionsBySocket s = none := by
  obtain ⟨S, rfl, hl⟩ := listed_of_operations h
  rw [locked_acceptClient]
  constructor
  · rintro ⟨st', hst, -⟩
    obtain ⟨S', hS, -⟩ := Option.map_eq_some_iff.mp hst
    exact (acceptClient_spec hS).1
  · intro hs
    obtain ⟨S', hS⟩ := Option.isSome_iff_exists.mp (acceptClient_isSome.mpr hs)
    exact ⟨⟨S', false⟩, by rw [hS, Option.map_some], hl.replaces hS⟩

/-- A second client. -/
theorem acceptClient_replaces_second :
    ∃ tr st, operations.Reaches tr st ∧ st.sessions.acceptedClients = [4] ∧
      ∃ st', st.acceptClient 7 = some st' ∧ Replaces st.sessions 7 st'.sessions := by
  obtain ⟨tr, st, hreach, hlist, hnone⟩ : ∃ tr st, operations.Reaches tr st ∧
      st.sessions.acceptedClients = [4] ∧ st.sessions.sessionsBySocket 7 = none :=
    Lts.reaches_of_execute ⟨empty, false⟩ [.acceptClient 4, .addNode 4 5] rfl (by decide)
  exact ⟨tr, st, hreach, hlist, (acceptClient_replaces_iff hreach 7).mpr hnone⟩

/-- A client that is accepted twice: the second call does not return. -/
theorem acceptClient_twice :
    ¬ ∀ tr st, operations.Reaches tr st → ∀ s,
      ∃ st', st.acceptClient s = some st' ∧ Replaces st.sessions s st'.sessions := by
  intro hall
  obtain ⟨tr, st, hreach, hnone⟩ : ∃ tr st, operations.Reaches tr st ∧
      (st.acceptClient 4).isNone :=
    Lts.reaches_of_execute ⟨empty, false⟩ [.acceptClient 4] rfl (by decide)
  obtain ⟨st', hst, -⟩ := hall tr st hreach 4
  rw [hst] at hnone
  cases hnone

end Sessions

end MessageRouting
