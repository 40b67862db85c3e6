import MessageRouting.Lib.Lts
import MessageRouting.Router.Sessions

/-!
The session registry over whole histories.

The router issues three operations on `Sessions`: the event loop accepts a
descriptor that is not registered (the OS does not reissue an open descriptor,
and the router closes none it has registered), a reader adds a node on a socket
whose session still has no id (`do_reads` handshakes only then), and readers and
writers remove any socket. `registry` is the system of these steps; its labels
say what each call did.

* `Listed`: the list of accepted clients, which any operation keeps.
* `Consistent`: the representation invariant of the three containers and the
  shared objects, kept by each operation (`Consistent.acceptClient`,
  `Consistent.addNode`, `Consistent.removeSession`).
* `registry_consistent`: it holds over every history, no session that has an id ever
  changes it, and a socket that was removed is in none of the containers.
* `findSessionById_iff_no_stale_removal`: after a session registered under an
  id, the id finds it exactly as long as no older holder of the id is removed:
  `removeSession` erases the index entry of the id the removed session carries
  without looking whose entry it is. `findSessionById_lost` is the history that
  shows it.
-/

namespace MessageRouting

namespace Sessions

/-! ### The operations the router issues -/

/-- An operation of the router on the registry. -/
inductive Op where
  | acceptClient (s : ℤ)
  | addNode (s k : ℤ)
  | removeSession (s : ℤ)

/-- What an operation did: `added` when `add_node` named a session, `rejected`
when it returned early, and `removed` with the id of the session that was
registered for the socket, if there was one. -/
inductive OpEvent where
  | accepted (s : ℤ)
  | added (s k : ℤ)
  | rejected (s k : ℤ)
  | removed (s : ℤ) (id : Option ℤ)
  deriving DecidableEq

/-- One operation, refused where the router does not issue it. -/
def step (S : Sessions) : Op → Option (OpEvent × Sessions)
  | .acceptClient s => (S.acceptClient s).map fun S' => (.accepted s, S')
  | .addNode s k =>
      match S.sessionsBySocket s with
      | none => some (.rejected s k, S.addNode s k)
      | some p =>
          if S.getId p ≠ NONE then none
          else if k < maxClientsCount then some (.added s k, S.addNode s k)
          else some (.rejected s k, S.addNode s k)
  | .removeSession s => some (.removed s ((S.sessionsBySocket s).map S.getId), S.removeSession s)

/-- The histories of the registry. -/
def registry : Lts Sessions OpEvent := Lts.ofFn (· = empty) step

variable {S S' : Sessions} {s t k : ℤ} {p : SessionPtr} {a : Addr} {e : OpEvent}

/-- Everything one operation can do. -/
lemma registry_step_cases (h : registry.step S e S') :
    (∃ s, e = .accepted s ∧ S.acceptClient s = some S') ∨
    (∃ s k p, e = .added s k ∧ S.sessionsBySocket s = some p ∧ S.getId p = NONE ∧
      k < maxClientsCount ∧ S' = S.addNode s k) ∨
    (∃ s k, e = .rejected s k ∧ S' = S) ∨
    (∃ s, e = .removed s ((S.sessionsBySocket s).map S.getId) ∧ S' = S.removeSession s) := by
  obtain ⟨op, h⟩ := h
  cases op with
  | acceptClient s =>
      simp only [step, Option.map_eq_some_iff, Prod.mk.injEq] at h
      obtain ⟨T, hT, rfl, rfl⟩ := h
      exact .inl ⟨s, rfl, hT⟩
  | addNode s k =>
      right
      cases hs : S.sessionsBySocket s with
      | none =>
          simp only [step, hs, Option.some.injEq, Prod.mk.injEq] at h
          obtain ⟨rfl, rfl⟩ := h
          exact .inr (.inl ⟨s, k, rfl, addNode_of_rejected (.inl hs)⟩)
      | some p =>
          simp only [step, hs] at h
          split_ifs at h with hid hk
          · simp only [Option.some.injEq, Prod.mk.injEq] at h
            exact .inl ⟨s, k, p, h.1.symm, hs, not_not.mp hid, hk, h.2.symm⟩
          · simp only [Option.some.injEq, Prod.mk.injEq] at h
            obtain ⟨rfl, rfl⟩ := h
            exact .inr (.inl ⟨s, k, rfl, addNode_of_rejected (.inr (not_lt.mp hk))⟩)
  | removeSession s =>
      simp only [step, Option.some.injEq, Prod.mk.injEq] at h
      exact .inr (.inr (.inr ⟨s, h.1.symm, h.2.symm⟩))

/-- A socket on which a node is added is registered, with a session that has no
id yet. -/
lemma added_cases (h : registry.step S (.added s k) S') :
    ∃ p, S.sessionsBySocket s = some p ∧ S.getId p = NONE ∧ k < maxClientsCount ∧
      S' = S.addNode s k := by
  obtain ⟨s', h, -⟩ | ⟨s', k', p, h, hs, hid, hlt, hS⟩ | ⟨s', k', h, -⟩ | ⟨s', h, -⟩ :=
    registry_step_cases h
  · cases h
  · cases h
    exact ⟨p, hs, hid, hlt, hS⟩
  · cases h
  · cases h

/-! ### The list of accepted clients -/

/-- The list holds every registered socket, once. -/
structure Listed (S : Sessions) : Prop where
  nodup : S.acceptedClients.Nodup
  mem_accepted : ∀ s, s ∈ S.acceptedClients ↔ S.sessionsBySocket s ≠ none

namespace Listed

lemma not_mem (hl : S.Listed) (h : S.sessionsBySocket s = none) : s ∉ S.acceptedClients :=
  fun hs => (hl.mem_accepted s).mp hs h

/-- A socket that is accepted goes to the end of the list. -/
lemma acceptedClients_acceptClient (hl : S.Listed) (h : S.acceptClient s = some S') :
    S'.acceptedClients = S.acceptedClients ++ [s] := by
  obtain ⟨hs, -, -, hac, -⟩ := acceptClient_spec h
  rw [hac, if_neg (hl.not_mem hs)]

lemma acceptClient (hl : S.Listed) (h : S.acceptClient s = some S') : S'.Listed := by
  obtain ⟨hs, hbs, -, -, -⟩ := acceptClient_spec h
  have hac := hl.acceptedClients_acceptClient h
  refine ⟨?_, fun t => ?_⟩
  · rw [hac, List.nodup_append]
    refine ⟨hl.nodup, by simp, fun x hx y hy => ?_⟩
    rw [List.mem_singleton] at hy
    exact fun hxy => hl.not_mem hs (hy ▸ hxy ▸ hx)
  · rw [hac, hbs, List.mem_append, List.mem_singleton]
    by_cases hts : t = s
    · simp [hts]
    · simp [hts, hl.mem_accepted t]

lemma addNode (hl : S.Listed) : (S.addNode s k).Listed :=
  ⟨by simpa using hl.nodup, by simpa using hl.mem_accepted⟩

lemma removeSession (hl : S.Listed) : (S.removeSession s).Listed := by
  refine ⟨?_, fun t => ?_⟩
  · rw [removeSession_acceptedClients]
    exact hl.nodup.erase s
  · rw [removeSession_acceptedClients, removeSession_sessionsBySocket, hl.nodup.mem_erase_iff,
      hl.mem_accepted t]
    by_cases hts : t = s
    · simp [hts]
    · simp [hts]

end Listed

/-! ### The representation invariant -/

/-- The three containers and the shared objects agree. -/
structure Consistent (S : Sessions) : Prop where
  nodup : S.acceptedClients.Nodup
  mem_accepted : ∀ s, s ∈ S.acceptedClients ↔ S.sessionsBySocket s ≠ none
  bySocket : ∀ s p, S.sessionsBySocket s = some p →
    ∃ a x, p = some a ∧ S.heap[a]? = some x ∧ x.socket = s
  byId : ∀ k p, k ≠ NONE → S.sessionsById k = some p →
    ∃ a x, p = some a ∧ S.heap[a]? = some x ∧ x.id = k ∧
      S.sessionsBySocket x.socket = some (some a)

lemma consistent_empty : empty.Consistent :=
  ⟨by simp [empty], by simp [empty], by simp [empty], by simp [empty]⟩

namespace Consistent

lemma listed (hc : S.Consistent) : S.Listed := ⟨hc.nodup, hc.mem_accepted⟩

/-- The session of a registered socket. -/
lemma exists_session (hc : S.Consistent) (h : S.sessionsBySocket s = some p) :
    ∃ a id, p = some a ∧ S.heap[a]? = some ⟨s, id⟩ ∧ S.getId p = id := by
  obtain ⟨a, x, rfl, hx, rfl⟩ := hc.bySocket s p h
  exact ⟨a, x.id, rfl, hx, getId_of_heap hx⟩

/-- A session is registered for one socket only. -/
lemma socket_inj (hc : S.Consistent) (hs : S.sessionsBySocket s = some p)
    (ht : S.sessionsBySocket t = some p) : s = t := by
  obtain ⟨a, x, rfl, hx, rfl⟩ := hc.bySocket s p hs
  obtain ⟨b, y, hb, hy, rfl⟩ := hc.bySocket t _ ht
  cases hb
  rw [hx] at hy
  cases hy
  rfl

lemma acceptClient (hc : S.Consistent) (h : S.acceptClient s = some S') : S'.Consistent := by
  obtain ⟨hs, hbs, hbi, -, hhp⟩ := acceptClient_spec h
  have hl := hc.listed.acceptClient h
  refine ⟨hl.nodup, hl.mem_accepted, ?_, ?_⟩
  · intro t p ht
    rw [hbs] at ht
    by_cases hts : t = s
    · subst hts
      rw [Function.update_self] at ht
      cases ht
      exact ⟨S.heap.length, Session.new t, rfl, by simp [hhp], rfl⟩
    · rw [Function.update_of_ne hts] at ht
      obtain ⟨a, x, rfl, hx, rfl⟩ := hc.bySocket t p ht
      exact ⟨a, x, rfl, acceptClient_heap h hx, rfl⟩
  · intro j p hj hp
    rw [hbi] at hp
    obtain ⟨a, x, rfl, hx, hid, hsock⟩ := hc.byId j p hj hp
    refine ⟨a, x, rfl, acceptClient_heap h hx, hid, ?_⟩
    rw [hbs, Function.update_of_ne, hsock]
    intro hxs
    rw [hxs, hs] at hsock
    cases hsock

/-- `addNode` is only issued while the session has no id. -/
lemma addNode (hc : S.Consistent)
    (hid : ∀ p, S.sessionsBySocket s = some p → S.getId p = NONE) : (S.addNode s k).Consistent := by
  by_cases hrej : S.sessionsBySocket s = none ∨ maxClientsCount ≤ k
  · rw [addNode_of_rejected hrej]
    exact hc
  push Not at hrej
  have hlt : k < maxClientsCount := hrej.2
  obtain ⟨p, hp⟩ := Option.ne_none_iff_exists'.mp hrej.1
  obtain ⟨a, id, rfl, hx, hget⟩ := hc.exists_session hp
  rw [hid _ hp] at hget
  subst hget
  -- an object keeps its socket, and its id unless it is the named one
  have hheap : ∀ (b : Addr) y, S.heap[b]? = some y →
      (S.addNode s k).heap[b]? = some (if b = a then { y with id := k } else y) := by
    intro b y hy
    rw [addNode_heap hp hlt, hy]
    split_ifs <;> rfl
  refine ⟨hc.listed.addNode.nodup, hc.listed.addNode.mem_accepted, ?_, ?_⟩
  · intro t p ht
    rw [addNode_sessionsBySocket] at ht
    obtain ⟨b, y, rfl, hy, rfl⟩ := hc.bySocket t p ht
    refine ⟨b, _, rfl, hheap b y hy, ?_⟩
    split_ifs <;> rfl
  · intro j p hj hjp
    rw [addNode_sessionsById hp hlt] at hjp
    rw [addNode_sessionsBySocket]
    by_cases hjk : j = k
    · subst hjk
      rw [Function.update_self] at hjp
      cases hjp
      exact ⟨a, _, rfl, hheap a _ hx, by simp, by simpa using hp⟩
    · rw [Function.update_of_ne hjk] at hjp
      obtain ⟨b, y, rfl, hy, rfl, hsock⟩ := hc.byId j p hj hjp
      have hba : b ≠ a := by
        rintro rfl
        rw [hx] at hy
        cases hy
        exact hj rfl
      exact ⟨b, y, rfl, by rw [hheap b y hy, if_neg hba], rfl, hsock⟩

lemma removeSession (hc : S.Consistent) : (S.removeSession s).Consistent := by
  refine ⟨hc.listed.removeSession.nodup, hc.listed.removeSession.mem_accepted, ?_, ?_⟩
  · intro t p ht
    rw [removeSession_sessionsBySocket] at ht
    by_cases hts : t = s
    · subst hts
      rw [Function.update_self] at ht
      cases ht
    · rw [Function.update_of_ne hts] at ht
      simpa only [removeSession_heap] using hc.bySocket t p ht
  · intro j p hj hjp
    -- the entry was there before, and its session is not the removed one
    obtain ⟨hold, hne⟩ := sessionsById_of_removeSession hjp
    obtain ⟨a, x, rfl, hx, rfl, hsock⟩ := hc.byId j p hj hold
    refine ⟨a, x, rfl, by rw [removeSession_heap]; exact hx, rfl, ?_⟩
    rw [removeSession_sessionsBySocket, Function.update_of_ne, hsock]
    intro hxs
    rw [hxs] at hsock
    exact hne hj _ hsock (getId_of_heap hx)

end Consistent

/-- No session that has an id gets another one. -/
def IdsKept (S S' : Sessions) : Prop :=
  ∀ (a : Addr) x, S.heap[a]? = some x → x.id ≠ NONE → ∃ y, S'.heap[a]? = some y ∧ y.id = x.id

lemma idsKept_acceptClient (h : S.acceptClient s = some S') : IdsKept S S' :=
  fun _ x hx _ => ⟨x, acceptClient_heap h hx, rfl⟩

lemma idsKept_addNode (hc : S.Consistent)
    (hid : ∀ p, S.sessionsBySocket s = some p → S.getId p = NONE) :
    IdsKept S (S.addNode s k) := by
  intro b y hy hne
  by_cases hrej : S.sessionsBySocket s = none ∨ maxClientsCount ≤ k
  · exact ⟨y, by rw [addNode_of_rejected hrej]; exact hy, rfl⟩
  push Not at hrej
  have hlt : k < maxClientsCount := hrej.2
  obtain ⟨p, hp⟩ := Option.ne_none_iff_exists'.mp hrej.1
  obtain ⟨a, id, rfl, hx, hget⟩ := hc.exists_session hp
  -- the session that is named had no id before
  have hba : b ≠ a := by
    rintro rfl
    rw [hid _ hp] at hget
    rw [hx] at hy
    cases hy
    exact hne hget.symm
  exact ⟨y, by rw [addNode_heap hp hlt, if_neg hba]; exact hy, rfl⟩

lemma idsKept_removeSession : IdsKept S (S.removeSession s) := by
  intro a x hx _
  exact ⟨x, by rw [removeSession_heap]; exact hx, rfl⟩

/-- One operation keeps the invariant and the ids. -/
lemma registry_step_consistent (hc : S.Consistent) (h : registry.step S e S') :
    S'.Consistent ∧ IdsKept S S' := by
  rcases registry_step_cases h with ⟨s, -, hS⟩ | ⟨s, k, p, -, hs, hid, -, rfl⟩ | ⟨s, k, -, rfl⟩ |
    ⟨s, -, rfl⟩
  · exact ⟨hc.acceptClient hS, idsKept_acceptClient hS⟩
  · have hid' : ∀ q, S.sessionsBySocket s = some q → S.getId q = NONE := by
      intro q hq
      rw [hs] at hq
      cases hq
      exact hid
    exact ⟨hc.addNode hid', idsKept_addNode hc hid'⟩
  · exact ⟨hc, fun a x hx _ => ⟨x, hx, rfl⟩⟩
  · exact ⟨hc.removeSession, idsKept_removeSession⟩

/-- The invariant holds over every history. -/
lemma consistent_of_reaches {tr : List OpEvent} (h : registry.Reaches tr S) : S.Consistent := by
  refine h.invariant Consistent ?_ fun _ _ _ hc hs => (registry_step_consistent hc hs).1
  rintro _ rfl
  exact consistent_empty

lemma consistent_of_run {tr : List OpEvent} (hc : S.Consistent) (h : registry.Run S tr S') :
    S'.Consistent :=
  h.invariant Consistent hc fun _ _ _ hc hs => (registry_step_consistent hc hs).1

lemma idsKept_of_run {tr : List OpEvent} (hc : S.Consistent) (h : registry.Run S tr S') :
    IdsKept S S' := by
  induction h with
  | nil => exact fun a x hx _ => ⟨x, hx, rfl⟩
  | snoc hr hs ih =>
      intro a x hx hne
      obtain ⟨y, hy, hyx⟩ := ih a x hx hne
      have hkept := (registry_step_consistent (consistent_of_run hc hr) hs).2
      obtain ⟨z, hz, hzy⟩ := hkept a y hy (by rw [hyx]; exact hne)
      exact ⟨z, hz, by rw [hzy, hyx]⟩

/-- A socket that was removed stays unregistered until it is accepted again. -/
lemma bySocket_eq_none_of_run {tr : List OpEvent} (hs : S.sessionsBySocket s = none)
    (h : registry.Run S tr S') (hacc : .accepted s ∉ tr) : S'.sessionsBySocket s = none := by
  induction h with
  | nil => exact hs
  | snoc hr hstep ih =>
      have hnone := ih fun hmem => hacc (List.mem_append_left _ hmem)
      rcases registry_step_cases hstep with ⟨t, rfl, hS⟩ | ⟨t, k, p, -, -, -, -, rfl⟩ |
        ⟨t, k, -, rfl⟩ | ⟨t, -, rfl⟩
      · have hst : s ≠ t := by
          rintro rfl
          exact hacc (by simp)
        rw [(acceptClient_spec hS).2.1, Function.update_of_ne hst]
        exact hnone
      · rw [addNode_sessionsBySocket]
        exact hnone
      · exact hnone
      · rw [removeSession_sessionsBySocket]
        by_cases hst : s = t
        · rw [hst, Function.update_self]
        · rw [Function.update_of_ne hst]
          exact hnone

/-- No entry of the containers is about a socket that is not registered. -/
lemma Consistent.no_entry (hc : S.Consistent) (hs : S.sessionsBySocket s = none) :
    s ∉ S.acceptedClients ∧ ∀ k p, k ≠ NONE → S.sessionsById k = some p → S.getSocket p ≠ s := by
  refine ⟨hc.listed.not_mem hs, fun k p hk hp hsock => ?_⟩
  obtain ⟨a, x, rfl, hx, -, hreg⟩ := hc.byId k p hk hp
  rw [getSocket_of_heap hx] at hsock
  rw [hsock, hs] at hreg
  cases hreg

/-- **The registry invariant**: over every history the three containers and the
shared objects agree, distinct sockets hold distinct sessions, from then on no
session that has an id ever changes it, and a socket that was removed has no entry
in the containers until it is accepted again. -/
theorem registry_consistent {tr : List OpEvent} (h : registry.Reaches tr S) :
    S.Consistent ∧
    (∀ s t p, S.sessionsBySocket s = some p → S.sessionsBySocket t = some p → s = t) ∧
    (∀ tr' S', registry.Run S tr' S' → IdsKept S S') ∧
    ∀ pre post s id, tr = pre ++ .removed s id :: post → .accepted s ∉ post →
      s ∉ S.acceptedClients ∧ S.sessionsBySocket s = none ∧
        ∀ k p, k ≠ NONE → S.sessionsById k = some p → S.getSocket p ≠ s := by
  have hc := consistent_of_reaches h
  refine ⟨hc, fun s t p => hc.socket_inj, fun tr' S' hr => idsKept_of_run hc hr, ?_⟩
  rintro pre post s id rfl hacc
  obtain ⟨S₁, S₂, -, hstep, -, hrun⟩ := h.at_label
  have hgone : S₂.sessionsBySocket s = none := by
    rcases registry_step_cases hstep with ⟨t, he, -⟩ | ⟨t, k, p, he, -⟩ | ⟨t, k, he, -⟩ |
      ⟨t, he, rfl⟩
    · cases he
    · cases he
    · cases he
    · cases he
      rw [removeSession_sessionsBySocket, Function.update_self]
  have hs := bySocket_eq_none_of_run hgone hrun hacc
  obtain ⟨hlist, hid⟩ := hc.no_entry hs
  exact ⟨hlist, hs, hid⟩

/-- A history with two holders of one id, an unparsable announcement and a
removal, where the invariant applies. -/
theorem registry_consistent_two_holders :
    ∃ S, registry.Reaches [.accepted 4, .added 4 5, .accepted 7, .added 7 (-1), .added 7 5,
        .removed 7 (some 5)] S ∧
      S.Consistent ∧
      (∀ s t p, S.sessionsBySocket s = some p → S.sessionsBySocket t = some p → s = t) ∧
      (∀ tr' S', registry.Run S tr' S' → IdsKept S S') ∧ 7 ∉ S.acceptedClients := by
  obtain ⟨tr, S, hreach, rfl⟩ : ∃ tr S, registry.Reaches tr S ∧
      tr = [.accepted 4, .added 4 5, .accepted 7, .added 7 (-1), .added 7 5,
        .removed 7 (some 5)] :=
    Lts.reaches_of_execute empty [.acceptClient 4, .addNode 4 5, .acceptClient 7, .addNode 7 (-1),
      .addNode 7 5, .removeSession 7] rfl (by decide)
  obtain ⟨hc, hinj, hkept, hremoved⟩ := registry_consistent hreach
  exact ⟨S, hreach, hc, hinj, hkept,
    (hremoved [.accepted 4, .added 4 5, .accepted 7, .added 7 (-1), .added 7 5] [] 7 (some 5) rfl
      List.not_mem_nil).1⟩

/-! ### Routing by id -/

/-- The entry of an id since a session registered under it: its own as long as
no other holder of the id was removed, and none after that. -/
def Indexed (a : Addr) (s k : ℤ) (tr : List OpEvent) (S : Sessions) : Prop :=
  S.sessionsBySocket s = some (some a) ∧ S.getId (some a) = k ∧
    ((∀ t, .removed t (some k) ∉ tr) ∧ S.sessionsById k = some (some a) ∨
      (∃ t, .removed t (some k) ∈ tr) ∧ S.sessionsById k = none)

/-- The removal of a session that carries an id forgets the entry of that id. -/
lemma removeSession_sessionsById_of_id (h : S.sessionsBySocket t = some p)
    (hid : S.getId p ≠ NONE) :
    (S.removeSession t).sessionsById = Function.update S.sessionsById (S.getId p) none := by
  rw [removeSession_sessionsById, h]
  simp only [if_pos hid]

/-- The removal of any other session keeps the entry of an id. -/
lemma removeSession_sessionsById_of_ne (hk : k ≠ NONE)
    (h : (S.sessionsBySocket t).map S.getId ≠ some k) :
    (S.removeSession t).sessionsById k = S.sessionsById k := by
  rw [removeSession_sessionsById]
  split
  · rfl
  · rename_i p hp
    split_ifs
    · refine Function.update_of_ne ?_ _ _
      rintro rfl
      exact h (by rw [hp]; rfl)
    · rfl

/-- One operation keeps `Indexed`, as long as nobody registers under the id and
the socket is not removed. -/
lemma Indexed.step {tr : List OpEvent} (hc : S.Consistent) (hk : k ≠ NONE)
    (h : Indexed a s k tr S) (hs : registry.step S e S')
    (hadd : ∀ t, e ≠ .added t k) (hrem : ∀ i, e ≠ .removed s i) :
    Indexed a s k (tr ++ [e]) S' := by
  obtain ⟨hsock, hid, hentry⟩ := h
  obtain ⟨x, hx⟩ : ∃ x, S.heap[a]? = some x := by
    obtain ⟨b, x, hb, hx, -⟩ := hc.bySocket s _ hsock
    cases hb
    exact ⟨x, hx⟩
  -- a step that is no removal of a holder of the id and keeps its entry
  have hkeep : (∀ t, e ≠ .removed t (some k)) → S'.sessionsById k = S.sessionsById k →
      (∀ t, .removed t (some k) ∉ tr ++ [e]) ∧ S'.sessionsById k = some (some a) ∨
        (∃ t, .removed t (some k) ∈ tr ++ [e]) ∧ S'.sessionsById k = none := by
    intro hne hsame
    rw [hsame]
    refine hentry.imp (fun h => ⟨fun t hmem => ?_, h.2⟩) fun h => ⟨?_, h.2⟩
    · rcases List.mem_append.mp hmem with hmem | hmem
      · exact h.1 t hmem
      · exact hne t (List.mem_singleton.mp hmem).symm
    · obtain ⟨t, ht⟩ := h.1
      exact ⟨t, List.mem_append_left _ ht⟩
  rcases registry_step_cases hs with ⟨t, rfl, hS⟩ | ⟨t, j, p, rfl, ht, hp, hj, rfl⟩ |
    ⟨t, j, rfl, rfl⟩ | ⟨t, he, rfl⟩
  · obtain ⟨ht, hbs, hbi, -, -⟩ := acceptClient_spec hS
    have hts : s ≠ t := by
      rintro rfl
      rw [ht] at hsock
      cases hsock
    refine ⟨by rw [hbs, Function.update_of_ne hts, hsock], ?_, hkeep (by simp) (by rw [hbi])⟩
    rw [← hid, getId_of_heap hx, getId_of_heap (acceptClient_heap hS hx)]
  · obtain ⟨b, id, rfl, hy, hget⟩ := hc.exists_session ht
    -- the session that is named is another one: it had no id
    have hab : a ≠ b := by
      rintro rfl
      exact hk (hid.symm.trans hp)
    have hjk : k ≠ j := by
      rintro rfl
      exact hadd t rfl
    refine ⟨by rw [addNode_sessionsBySocket, hsock], ?_, hkeep (by simp) ?_⟩
    · rw [← hid, getId, getId, deref_some, deref_some, addNode_heap ht hj, if_neg hab]
    · rw [addNode_sessionsById ht hj, Function.update_of_ne hjk]
  · exact ⟨hsock, hid, hkeep (by simp) rfl⟩
  · have hts : s ≠ t := by
      rintro rfl
      exact hrem _ he
    refine ⟨by rw [removeSession_sessionsBySocket, Function.update_of_ne hts, hsock],
      by rw [removeSession_getId, hid], ?_⟩
    by_cases hheld : (S.sessionsBySocket t).map S.getId = some k
    · right
      obtain ⟨p, hp, hpk⟩ := Option.map_eq_some_iff.mp hheld
      refine ⟨⟨t, by simp [he, hheld]⟩, ?_⟩
      rw [removeSession_sessionsById_of_id hp (by rw [hpk]; exact hk), hpk, Function.update_self]
    · refine hkeep (fun u hu => ?_) (removeSession_sessionsById_of_ne hk hheld)
      rw [he, OpEvent.removed.injEq] at hu
      exact hheld hu.2

/-- `Indexed` holds over every history that follows the registration. -/
lemma Indexed.run {tr : List OpEvent} (hc : S.Consistent) (hk : k ≠ NONE)
    (h : Indexed a s k [] S) (hr : registry.Run S tr S') (hadd : ∀ t, .added t k ∉ tr)
    (hrem : ∀ i, .removed s i ∉ tr) : Indexed a s k tr S' := by
  induction hr with
  | nil => exact h
  | snoc hr hs ih =>
      refine (ih (fun t ht => hadd t (List.mem_append_left _ ht))
        fun i hi => hrem i (List.mem_append_left _ hi)).step (consistent_of_run hc hr) hk hs ?_ ?_
      · rintro t rfl
        exact hadd t (by simp)
      · rintro i rfl
        exact hrem i (by simp)

/-- **Routing by id**: after a session registered under an id in `0..998`, and
until another session does or its socket is removed, the id finds that session
if and only if no other session that carries the id was removed meanwhile. -/
theorem findSessionById_iff_no_stale_removal {pre post : List OpEvent} {S₀ S₁ S₂ : Sessions}
    {s k : ℤ} (hpre : registry.Reaches pre S₀) (hadd : registry.step S₀ (.added s k) S₁)
    (hpost : registry.Run S₁ post S₂) (hk : 0 ≤ k ∧ k ≤ 998)
    (hlast : ∀ t, .added t k ∉ post) (hkept : ∀ i, .removed s i ∉ post) :
    S₂.findSessionById k = S₀.findSessionBySocket s ↔ ∀ t, .removed t (some k) ∉ post := by
  have hc := consistent_of_reaches hpre
  have hc₁ := (registry_step_consistent hc hadd).1
  have hne : k ≠ NONE := by simp only [NONE]; omega
  obtain ⟨p, hs, -, hlt, rfl⟩ := added_cases hadd
  obtain ⟨a, id, rfl, hx, -⟩ := hc.exists_session hs
  have hx₁ : (S₀.addNode s k).heap[a]? = some ⟨s, k⟩ := by
    rw [addNode_heap hs hlt, if_pos rfl, hx]
    rfl
  have hind : Indexed a s k [] (S₀.addNode s k) := by
    refine ⟨by rw [addNode_sessionsBySocket, hs], getId_of_heap hx₁, .inl ⟨by simp, ?_⟩⟩
    rw [addNode_sessionsById hs hlt, Function.update_self]
  have hfind : S₀.findSessionBySocket s = some a := findSessionBySocket_eq_some.mpr hs
  rw [hfind, findSessionById_eq_some]
  obtain ⟨-, -, ⟨hno, hentry⟩ | ⟨⟨t, ht⟩, hentry⟩⟩ := hind.run hc₁ hne hpost hlast hkept
  · exact ⟨fun _ => hno, fun _ => hentry⟩
  · refine ⟨fun h => ?_, fun h => absurd ht (h t)⟩
    rw [hentry] at h
    cases h

/-- A node that reconnects before its old connection is torn down: the id finds
the new session while another node's connection goes. -/
theorem findSessionById_of_reconnect :
    ∃ S₀ S₁ S₂, registry.Reaches [.accepted 4, .added 4 5, .accepted 7, .accepted 9] S₀ ∧
      registry.step S₀ (.added 7 5) S₁ ∧
      registry.Run S₁ [.added 9 6, .removed 9 (some 6)] S₂ ∧
      (S₂.findSessionById 5 = S₀.findSessionBySocket 7 ↔
        ∀ t, OpEvent.removed t (some 5) ∉ [.added 9 6, .removed 9 (some 6)]) := by
  obtain ⟨tr, S₂, hreach, rfl⟩ : ∃ tr S, registry.Reaches tr S ∧
      tr = [.accepted 4, .added 4 5, .accepted 7, .accepted 9] ++
        .added 7 5 :: [.added 9 6, .removed 9 (some 6)] :=
    Lts.reaches_of_execute empty [.acceptClient 4, .addNode 4 5, .acceptClient 7, .acceptClient 9,
      .addNode 7 5, .addNode 9 6, .removeSession 9] rfl (by decide)
  obtain ⟨S₀, S₁, h₀, hs, -, h₁⟩ := hreach.at_label
  exact ⟨S₀, S₁, S₂, h₀, hs, h₁, findSessionById_iff_no_stale_removal h₀ hs h₁ (by decide)
    (by simp) (by simp)⟩

/-- The id of a node that reconnected is lost when its old connection is
removed. -/
theorem findSessionById_lost :
    ¬ ∀ (pre post : List OpEvent) (S₀ S₁ S₂ : Sessions) (s k : ℤ), registry.Reaches pre S₀ →
      registry.step S₀ (.added s k) S₁ → registry.Run S₁ post S₂ → 0 ≤ k ∧ k ≤ 998 →
      (∀ t, .added t k ∉ post) → (∀ i, .removed s i ∉ post) →
      S₂.findSessionById k = S₀.findSessionBySocket s := by
  intro hall
  obtain ⟨tr, S₂, hreach, rfl, hnone⟩ : ∃ tr S, registry.Reaches tr S ∧
      tr = [.accepted 4, .added 4 5, .accepted 7] ++ .added 7 5 :: [.removed 4 (some 5)] ∧
        S.findSessionById 5 = none :=
    Lts.reaches_of_execute empty [.acceptClient 4, .addNode 4 5, .acceptClient 7, .addNode 7 5,
      .removeSession 4] rfl (by decide)
  obtain ⟨S₀, S₁, h₀, hs, -, h₁⟩ := hreach.at_label
  have hfind := hall _ _ S₀ S₁ S₂ 7 5 h₀ hs h₁ (by decide) (by simp) (by simp)
  rw [hnone] at hfind
  obtain ⟨p, hp, -⟩ := added_cases hs
  obtain ⟨a, -, rfl, -⟩ := (consistent_of_reaches h₀).exists_session hp
  rw [findSessionBySocket_eq_some.mpr hp] at hfind
  cases hfind

end Sessions

end MessageRouting
