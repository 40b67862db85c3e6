import MessageRouting.Lib.BoundedSet
import MessageRouting.Router.Accepting

/-!
The sockets that the event loop hands to `select` (`TcpServer::reset_fd_set` of
`router/src/tcpserver.cpp`).

A Winsock `fd_set` is a `BoundedSet` of `FD_SETSIZE` sockets.

* `resetFdSet`: the function; `Monitored`: what it is for.
* `resetFdSet_eq`: the sockets are added one after the other, and `max_sd` is their maximum.
* `monitored_iff_room`: after any calls of the functions of `Sessions`, all accepted clients
  are monitored exactly when they fit into the set together with the server socket.
-/

namespace MessageRouting

/-! ### The descriptor set -/

/-- `FD_SETSIZE`. -/
def fdSetSize : ℕ := 64

/-- `fd_set`: the first `fd_count` sockets of `fd_array`. -/
abbrev FdSet := BoundedSet ℤ fdSetSize

/-- `FD_ZERO`. -/
def fdZero (_ : FdSet) : FdSet := .empty

/-- `FD_SET`. -/
def fdSet (s : ℤ) (fd : FdSet) : FdSet := fd.insert s

/-- The body of the loop over the client sockets: `max_sd` and the set. -/
def registerSocket (r : ℤ × FdSet) (sd : ℤ) : ℤ × FdSet :=
  (if r.1 < sd then sd else r.1, fdSet sd r.2)

/-- `TcpServer::reset_fd_set`: the returned `max_sd`, and the set. -/
def resetFdSet (fd : FdSet) (serverSocket : ℤ) (clientsSocket : List ℤ) : ℤ × FdSet :=
  let fd := fdZero fd
  let fd := fdSet serverSocket fd
  let maxSd := serverSocket
  clientsSocket.foldl registerSocket (maxSd, fd)

variable {fd : FdSet} {s : ℤ} {clients : List ℤ}

/-- The loop takes the maximum and adds the sockets. -/
lemma foldl_registerSocket (maxSd : ℤ) :
    clients.foldl registerSocket (maxSd, fd) =
      (clients.foldl max maxSd, fd.insertAll clients) := by
  induction clients generalizing maxSd fd with
  | nil => rfl
  | cons sd clients ih =>
      have hstep : registerSocket (maxSd, fd) sd = (max maxSd sd, fd.insert sd) := by
        rw [registerSocket, fdSet, max_def]
        split_ifs <;> first | rfl | (congr 1; omega)
      rw [List.foldl_cons, hstep, ih]
      rfl

lemma resetFdSet_eq :
    resetFdSet fd s clients = (clients.foldl max s, BoundedSet.empty.insertAll (s :: clients)) :=
  foldl_registerSocket s

/-- A left fold with `max` gives the greatest element. -/
lemma isGreatest_foldl_max (m : ℤ) :
    IsGreatest {x | x = m ∨ x ∈ clients} (clients.foldl max m) := by
  induction clients generalizing m with
  | nil => simp [IsGreatest, upperBounds]
  | cons sd clients ih =>
      obtain ⟨hmem, hub⟩ := ih (max m sd)
      refine ⟨?_, ?_⟩
      · rcases hmem with hmax | hmem
        · rcases max_choice m sd with h | h
          · exact .inl (hmax.trans h)
          · exact .inr (by rw [List.foldl_cons, hmax, h]; exact List.mem_cons_self)
        · exact .inr (List.mem_cons_of_mem sd hmem)
      · have hfirst : max m sd ≤ clients.foldl max (max m sd) := hub (.inl rfl)
        rintro x (rfl | hx)
        · exact (le_max_left x sd).trans hfirst
        · rcases List.mem_cons.mp hx with rfl | hx
          · exact (le_max_right m x).trans hfirst
          · exact hub (.inr hx)

/-! ### Monitoring the clients -/

/-- The set holds the server socket and the clients and nothing else, and `max_sd` is
their maximum. -/
def Monitored (r : ℤ × FdSet) (serverSocket : ℤ) (clients : List ℤ) : Prop :=
  (∀ x, x ∈ r.2.toList ↔ x = serverSocket ∨ x ∈ clients) ∧
    IsGreatest {x | x = serverSocket ∨ x ∈ clients} r.1

/-- A list without repetitions is monitored exactly when there is room for it. -/
lemma monitored_iff (hnodup : clients.Nodup) :
    Monitored (resetFdSet fd s clients) s clients ↔ (clients.insert s).length ≤ fdSetSize := by
  have hneeded : (BoundedSet.empty : FdSet).needed (s :: clients) = (clients.insert s).length := by
    rw [← List.toFinset_card_of_nodup hnodup.insert, BoundedSet.needed]
    congr 1
    ext x
    simp [BoundedSet.empty]
  rw [← hneeded, ← BoundedSet.mem_insertAll_iff, Monitored, resetFdSet_eq,
    and_iff_left (isGreatest_foldl_max s)]
  simp [BoundedSet.empty]

namespace Sessions

variable {tr : List Op} {st : Locked}

/-- **All clients are monitored exactly when there is room for them.** In every state that
accepts, handshakes and removals lead to, `reset_fd_set` hands the server socket and all
accepted clients to `select`, and nothing else, with their maximum, exactly when these are
at most `FD_SETSIZE` sockets. -/
theorem monitored_iff_room (h : operations.Reaches tr st) (fd : FdSet) (serverSocket : ℤ) :
    Monitored (resetFdSet fd serverSocket st.sessions.acceptedClients) serverSocket
        st.sessions.acceptedClients ↔
      (st.sessions.acceptedClients.insert serverSocket).length ≤ fdSetSize := by
  obtain ⟨S, rfl, hl⟩ := listed_of_operations h
  exact monitored_iff hl.nodup

/-- Two clients of which one has left. -/
theorem monitored_iff_room_left :
    ∃ tr st, operations.Reaches tr st ∧ st.sessions.acceptedClients = [7] ∧
      Monitored (resetFdSet .empty 3 st.sessions.acceptedClients) 3
        st.sessions.acceptedClients := by
  obtain ⟨tr, st, hreach, hlist⟩ : ∃ tr st, operations.Reaches tr st ∧
      st.sessions.acceptedClients = [7] :=
    Lts.reaches_of_execute ⟨empty, false⟩
      [.acceptClient 4, .acceptClient 7, .addNode 7 5, .removeSession 4] rfl (by decide)
  exact ⟨tr, st, hreach, hlist, (monitored_iff_room hreach .empty 3).mpr (by rw [hlist]; decide)⟩

/-- Different sockets can be accepted one after the other. -/
lemma reaches_accepted {l : List ℤ} (hl : l.Nodup) :
    ∃ S, operations.Reaches (l.map .acceptClient) ⟨S, false⟩ ∧ S.Listed ∧
      S.acceptedClients = l := by
  induction l using List.reverseRecOn with
  | nil => exact ⟨empty, ⟨_, rfl, .nil⟩, consistent_empty.listed, rfl⟩
  | append_singleton l s ih =>
      obtain ⟨hnodup, -, hdisj⟩ := List.nodup_append.mp hl
      obtain ⟨S, hreach, hlisted, hlist⟩ := ih hnodup
      have hs : S.sessionsBySocket s = none := by
        by_contra hs
        have hmem := (hlisted.mem_accepted s).mpr hs
        rw [hlist] at hmem
        exact hdisj s hmem s (List.mem_singleton_self s) rfl
      obtain ⟨S', hS⟩ := Option.isSome_iff_exists.mp (acceptClient_isSome.mpr hs)
      have hstep : operations.step ⟨S, false⟩ (.acceptClient s) ⟨S', false⟩ :=
        ⟨.acceptClient s, by rw [Locked.operate, locked_acceptClient, hS]; rfl⟩
      refine ⟨S', ?_, hlisted.acceptClient hS, ?_⟩
      · rw [List.map_append]
        exact hreach.append (.single hstep)
      · rw [hlisted.acceptedClients_acceptClient hS, hlist]

/-- With 64 clients, of the at most 999, one is not monitored. -/
theorem client_not_monitored :
    ¬ ∀ tr st, operations.Reaches tr st → st.sessions.acceptedClients.length ≤ maxClientsCount →
      ∀ fd serverSocket, Monitored (resetFdSet fd serverSocket st.sessions.acceptedClients)
        serverSocket st.sessions.acceptedClients := by
  intro hall
  have hnodup : ((List.range 64).map fun n => (n : ℤ) + 4).Nodup := by decide
  obtain ⟨S, hreach, -, hlist⟩ := reaches_accepted hnodup
  have hlen : S.acceptedClients.length ≤ maxClientsCount := by rw [hlist]; decide
  have hmon := hall _ _ hreach hlen .empty 3
  rw [hlist, monitored_iff hnodup] at hmon
  exact absurd hmon (by decide)

end Sessions

end MessageRouting
