import Mathlib.Tactic

/-!
The session registry of the router (`router/include/session.h`,
`router/include/sessions.h`, `router/src/sessions.cpp`).

A `Session` object lives on the heap and is shared by pointer: two maps of the
registry, and every thread that looked it up, hold the same object. The model
keeps the objects in a list, an address is a position in it, and a
`std::shared_ptr<Session>` is an optional address, `none` being `nullptr`. The
objects never leave the list, so that a pointer held after a removal still
points to the removed session, as `shared_ptr` guarantees.

An `std::unordered_map<int, std::shared_ptr<Session>>` is a function to an
optional pointer: `none` where the key is absent, `some none` where it is
present and holds `nullptr`, which is what `operator[]` inserts for an absent
key.

Every function of `Sessions` runs under `sessions_mutex_`, so each one is a
single step on the registry. `acceptClient` answers `none` on the branch that
calls `removeSession` while it holds that mutex, which is not recursive: the
call never returns.
-/

namespace MessageRouting

/-- `NONE`, the id of a session before its handshake. -/
def NONE : ℤ := -1

/-- `MAX_CLIENTS_COUNT`. -/
def maxClientsCount : ℤ := 999

/-- A `Session` object. Its mutex is the address of the object. -/
structure Session where
  socket : ℤ
  id : ℤ
  deriving DecidableEq, Repr

/-- The constructor `Session(socket)`. -/
def Session.new (socket : ℤ) : Session := ⟨socket, NONE⟩

/-- The address of a `Session` object. -/
abbrev Addr := ℕ

/-- `std::shared_ptr<Session>`. -/
abbrev SessionPtr := Option Addr

/-- The static members of `Sessions`, and the heap of `Session` objects. -/
structure Sessions where
  sessionsBySocket : ℤ → Option SessionPtr
  sessionsById : ℤ → Option SessionPtr
  acceptedClients : List ℤ
  heap : List Session

namespace Sessions

/-- The registry before the first client. -/
def empty : Sessions := ⟨fun _ => none, fun _ => none, [], []⟩

/-- The object a pointer points to. -/
def deref (S : Sessions) (p : SessionPtr) : Option Session := p.bind fun a => S.heap[a]?

/-- `session->get_id()`. -/
def getId (S : Sessions) (p : SessionPtr) : ℤ := ((S.deref p).map Session.id).getD NONE

/-- `session->get_socket()`. -/
def getSocket (S : Sessions) (p : SessionPtr) : ℤ := ((S.deref p).map Session.socket).getD (-1)

/-- The heap after `session->set_id(id)`. -/
def setId (S : Sessions) (p : SessionPtr) (id : ℤ) : List Session :=
  match p with
  | none => S.heap
  | some a => S.heap.modify a fun x => { x with id := id }

/-- `Sessions::accept_client`. -/
def acceptClient (S : Sessions) (clientSocket : ℤ) : Option Sessions :=
  let accepted :=
    if clientSocket ∈ S.acceptedClients then S.acceptedClients
    else S.acceptedClients ++ [clientSocket]
  match S.sessionsBySocket clientSocket with
  -- `removeSession` locks `sessions_mutex_`, which this call already holds
  | some _ => none
  | none =>
      some { S with
        acceptedClients := accepted
        sessionsBySocket := Function.update S.sessionsBySocket clientSocket (some S.heap.length)
        heap := S.heap ++ [Session.new clientSocket] }

/-- `Sessions::add_node`. -/
def addNode (S : Sessions) (clientSocket nodeId : ℤ) : Sessions :=
  match S.sessionsBySocket clientSocket with
  | none => S
  | some session =>
      if maxClientsCount ≤ nodeId then S
      else { S with
        heap := S.setId session nodeId
        sessionsById := Function.update S.sessionsById nodeId (some session) }

/-- `Sessions::find_session_by_socket`. -/
def findSessionBySocket (S : Sessions) (clientSocket : ℤ) : SessionPtr :=
  match S.sessionsBySocket clientSocket with
  | none => none
  | some session => session

/-- `Sessions::find_session_by_id`. -/
def findSessionById (S : Sessions) (nodeId : ℤ) : SessionPtr :=
  match S.sessionsById nodeId with
  | none => none
  | some session => session

/-- The map after `operator[]` at a key: an absent key is inserted with
`nullptr`. -/
def subscript (m : ℤ → Option SessionPtr) (k : ℤ) : ℤ → Option SessionPtr :=
  match m k with
  | none => Function.update m k (some none)
  | some _ => m

/-- The part of `Sessions::removeSession` that works on the two maps. -/
def unregister (S : Sessions) (socket : ℤ) : Sessions :=
  match S.sessionsBySocket socket with
  | none => S
  | some session =>
      let bySocket := Function.update S.sessionsBySocket socket none
      let id := S.getId session
      if id ≠ NONE then
        { S with
          sessionsBySocket := bySocket
          sessionsById := Function.update (subscript S.sessionsById id) id none }
      else { S with sessionsBySocket := bySocket }

/-- `Sessions::removeSession`. -/
def removeSession (S : Sessions) (socket : ℤ) : Sessions :=
  { S.unregister socket with acceptedClients := (S.unregister socket).acceptedClients.erase socket }

/-! ### What each operation does to each member -/

variable {S S' : Sessions} {s t k : ℤ} {p : SessionPtr} {a : Addr}

@[simp] lemma deref_some : S.deref (some a) = S.heap[a]? := rfl

lemma getId_of_heap {x : Session} (h : S.heap[a]? = some x) : S.getId (some a) = x.id := by
  simp [getId, h]

lemma getSocket_of_heap {x : Session} (h : S.heap[a]? = some x) :
    S.getSocket (some a) = x.socket := by
  simp [getSocket, h]

lemma findSessionBySocket_eq_some :
    S.findSessionBySocket s = some a ↔ S.sessionsBySocket s = some (some a) := by
  rw [findSessionBySocket]
  split <;> simp_all

lemma findSessionById_eq_some :
    S.findSessionById k = some a ↔ S.sessionsById k = some (some a) := by
  rw [findSessionById]
  split <;> simp_all

/-- Accepting a socket completes exactly when it is not registered. -/
lemma acceptClient_isSome : (S.acceptClient s).isSome ↔ S.sessionsBySocket s = none := by
  rw [acceptClient]
  split <;> simp_all

/-- A completed accept registers a fresh session for the socket. -/
lemma acceptClient_spec (h : S.acceptClient s = some S') :
    S.sessionsBySocket s = none ∧
    S'.sessionsBySocket = Function.update S.sessionsBySocket s (some (some S.heap.length)) ∧
    S'.sessionsById = S.sessionsById ∧
    S'.acceptedClients =
      (if s ∈ S.acceptedClients then S.acceptedClients else S.acceptedClients ++ [s]) ∧
    S'.heap = S.heap ++ [Session.new s] := by
  have hs : S.sessionsBySocket s = none := acceptClient_isSome.mp (by simp [h])
  simp only [acceptClient, hs, Option.some.injEq] at h
  subst h
  exact ⟨hs, rfl, rfl, rfl, rfl⟩

/-- The objects keep their address and their content when a client is accepted. -/
lemma acceptClient_heap {x : Session} (h : S.acceptClient s = some S') (hx : S.heap[a]? = some x) :
    S'.heap[a]? = some x := by
  obtain ⟨-, -, -, -, hhp⟩ := acceptClient_spec h
  obtain ⟨hlt, -⟩ := List.getElem?_eq_some_iff.mp hx
  rw [hhp, List.getElem?_append_left hlt, hx]

/-- Adding a node has no effect on an unregistered socket or with an id that is
too large. -/
lemma addNode_of_rejected (h : S.sessionsBySocket s = none ∨ maxClientsCount ≤ k) :
    S.addNode s k = S := by
  rw [addNode]
  split
  · rfl
  · rcases h with h | h
    · simp_all
    · rw [if_pos h]

/-- Adding a node otherwise indexes the session under the id. -/
lemma addNode_sessionsById (h : S.sessionsBySocket s = some p) (hk : k < maxClientsCount) :
    (S.addNode s k).sessionsById = Function.update S.sessionsById k (some p) := by
  simp only [addNode, h]
  rw [if_neg (by omega)]

/-- An entry of the id index after a node was added is an old one or the new
one. -/
lemma sessionsById_of_addNode {j : ℤ} (h : (S.addNode s k).sessionsById j = some p) :
    S.sessionsById j = some p ∨
      j = k ∧ k < maxClientsCount ∧ S.sessionsBySocket s = some p := by
  by_cases hrej : S.sessionsBySocket s = none ∨ maxClientsCount ≤ k
  · rw [addNode_of_rejected hrej] at h
    exact .inl h
  push Not at hrej
  obtain ⟨q, hq⟩ := Option.ne_none_iff_exists'.mp hrej.1
  rw [addNode_sessionsById hq hrej.2] at h
  by_cases hjk : j = k
  · rw [hjk, Function.update_self] at h
    exact .inr ⟨hjk, hrej.2, hq.trans h⟩
  · rw [Function.update_of_ne hjk] at h
    exact .inl h

/-- Adding a node otherwise names the session, and no other one. -/
lemma addNode_heap (h : S.sessionsBySocket s = some (some a)) (hk : k < maxClientsCount)
    (b : Addr) :
    (S.addNode s k).heap[b]? =
      if b = a then S.heap[b]?.map fun x => { x with id := k } else S.heap[b]? := by
  simp only [addNode, h]
  rw [if_neg (by omega)]
  show (S.heap.modify a _)[b]? = _
  rw [List.getElem?_modify]
  by_cases hab : a = b
  · subst hab; simp
  · rw [if_neg (Ne.symm hab)]
    simp [hab]

@[simp] lemma addNode_sessionsBySocket : (S.addNode s k).sessionsBySocket = S.sessionsBySocket := by
  rw [addNode]
  split
  · rfl
  · split <;> rfl

@[simp] lemma addNode_acceptedClients : (S.addNode s k).acceptedClients = S.acceptedClients := by
  rw [addNode]
  split
  · rfl
  · split <;> rfl

@[simp] lemma unregister_heap : (S.unregister s).heap = S.heap := by
  rw [unregister]
  split
  · rfl
  · dsimp only
    split <;> rfl

@[simp] lemma removeSession_heap : (S.removeSession s).heap = S.heap := unregister_heap

lemma unregister_acceptedClients : (S.unregister s).acceptedClients = S.acceptedClients := by
  rw [unregister]
  split
  · rfl
  · dsimp only
    split <;> rfl

@[simp] lemma removeSession_acceptedClients :
    (S.removeSession s).acceptedClients = S.acceptedClients.erase s := by
  rw [removeSession]
  simp only [unregister_acceptedClients]

/-- Removal forgets the socket and no other one. -/
@[simp] lemma removeSession_sessionsBySocket :
    (S.removeSession s).sessionsBySocket = Function.update S.sessionsBySocket s none := by
  show (S.unregister s).sessionsBySocket = _
  rw [unregister]
  split
  · rename_i h
    rw [← h, Function.update_eq_self]
  · dsimp only
    split <;> rfl

/-- Removal erases the id that the removed session carries, whoever holds it. -/
lemma removeSession_sessionsById :
    (S.removeSession s).sessionsById =
      match S.sessionsBySocket s with
      | none => S.sessionsById
      | some p =>
          if S.getId p ≠ NONE then Function.update S.sessionsById (S.getId p) none
          else S.sessionsById := by
  show (S.unregister s).sessionsById = _
  rw [unregister]
  split
  · rfl
  · rename_i p hp
    dsimp only
    split
    · show Function.update (subscript _ _) _ _ = _
      rw [subscript]
      split
      · rw [Function.update_idem]
      · rfl
    · rfl

/-- Removal makes no entry of the id index, and leaves none under the id of the removed
session. -/
lemma sessionsById_of_removeSession (h : (S.removeSession s).sessionsById k = some p) :
    S.sessionsById k = some p ∧
      (k ≠ NONE → ∀ q, S.sessionsBySocket s = some q → S.getId q ≠ k) := by
  rw [removeSession_sessionsById] at h
  cases hs : S.sessionsBySocket s with
  | none =>
      rw [hs] at h
      exact ⟨h, fun _ q hq => by cases hq⟩
  | some q =>
      simp only [hs] at h
      split_ifs at h with hid
      · by_cases hk : k = S.getId q
        · rw [hk, Function.update_self] at h
          cases h
        · rw [Function.update_of_ne hk] at h
          exact ⟨h, fun _ q' hq' => by cases hq'; exact Ne.symm hk⟩
      · refine ⟨h, fun hk q' hq' => ?_⟩
        cases hq'
        rw [not_not.mp hid]
        exact Ne.symm hk

lemma getId_eq_of_heap (h : S'.heap = S.heap) : S'.getId p = S.getId p := by
  simp [getId, deref, h]

@[simp] lemma removeSession_getId : (S.removeSession s).getId p = S.getId p :=
  getId_eq_of_heap removeSession_heap

end Sessions

end MessageRouting
