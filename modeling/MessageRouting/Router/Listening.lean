import MessageRouting.Router.EventLoop
import MessageRouting.Router.FdSet
import MessageRouting.Router.Progress

/-!
The event loop as a program (`Router::start_event_listener` of `router/src/router.cpp`), next
to the readers and writers.

`Router.EventLoop` lets the loop accept and report at any time. Here it goes through its turns:
it copies the list of clients, fills the descriptor set, waits in `select`, accepts a client if
the server socket is reported, and pushes the reported clients one by one. The outcomes of
`select` and `accept` are inputs. `select` leaves the reported sockets in the set, in any order;
after an error of `select` or of `accept` the loop starts its next turn.

`reset_fd_set` takes the vector `accepted_clients_` by value. The copy is made without
`sessions_mutex_`: it reads the size and then one element after the other, while the threads
may erase clients. An erasure is one step. `stale` is what the memory holds behind the last
element.

* `listening`: all interleavings. `hosting_of_listening`: they are runs of `hosting`.
* `pushed_clients_only`: only sockets of accepted clients are ever pushed, and never the
  server socket.
* `select_watches_clients`: while the loop waits, every client that is still accepted is in
  the set, or the set is full, if no client was removed during the copy. `torn_copy`: else one
  can be missing.
* `turn_pushes_reported`: a turn pushes the clients that `select` reported, all of them and in
  order, or none if `accept` failed.
-/

namespace MessageRouting

/-! ### The program -/

/-- Where the event loop stands, with its local variables `readfds`, `max_sd`, `activity`
and `i`. In `copy` it has read the size `n` of the vector and the elements `copied`. -/
inductive Listener where
  | reset (readfds : FdSet)
  | copy (readfds : FdSet) (n : ℕ) (copied : List ℤ)
  | select (maxSd : ℤ) (readfds : FdSet)
  | accept (readfds : FdSet) (activity : ℕ)
  | push (readfds : FdSet) (activity i : ℕ)
  deriving DecidableEq

/-- Who moves: a reader or writer, or the event loop with the outcome of its system call. -/
inductive ListenAct (T : Type) where
  | thread (i : T) (inp : Input)
  | go
  | select (ready : Option FdSet)
  | accept (client : Option ℤ) (ok : Bool)

/-- The label of a step. -/
inductive ListenEvent (T : Type) where
  | host (e : HostEvent T)
  | copying (n : ℕ)
  | reset (clients : List ℤ)
  | selected (ready : Option (List ℤ))
  | tick
  deriving DecidableEq

variable {T : Type}

/-- The step of the host in it. -/
def ListenEvent.ofHost : ListenEvent T → Option (HostEvent T)
  | .host e => some e
  | _ => none

/-- The host, its event loop, and what lies behind the end of `accepted_clients_`. -/
structure Listening (T : Type) where
  host : Host T
  loop : Listener
  stale : List ℤ

/-- `Sessions::get_accpeted_sockets`. -/
def Host.getAcceptedSockets (H : Host T) : List ℤ := H.router.shared.sessions.acceptedClients

/-- The memory of `accepted_clients_`, as far as it was ever written. -/
def Listening.memory (st : Listening T) : List ℤ := st.host.getAcceptedSockets ++ st.stale

/-- The next state. `erase` moves the elements behind the erased one and leaves the old last one
where it was, `push_back` writes behind the last one; the memory behind that is untouched. -/
def Listening.after (st : Listening T) (H : Host T) (l : Listener) : Listening T :=
  ⟨H, l, st.memory.drop H.getAcceptedSockets.length⟩

/-- After `select` has reported sockets: the server socket is checked first. -/
def afterSelect (serverSocket : ℤ) (ready : FdSet) : Listener :=
  if serverSocket ∈ ready.toList then .accept ready ready.toList.length
  else .push ready ready.toList.length 0

variable [DecidableEq T]

/-- What a party does next, and where that leads the host and the event loop. -/
def Listening.next (serverSocket : ℤ) (st : Listening T) :
    ListenAct T → Option (ListenEvent T × Host T × Listener)
  | .thread i inp => (st.host.step (.thread i inp)).map fun r => (.host r.1, r.2, st.loop)
  | .go =>
      match st.loop with
      | .reset readfds =>
          let n := st.host.getAcceptedSockets.length
          some (.copying n, st.host, .copy readfds n [])
      | .copy readfds n copied =>
          if copied.length < n then
            match st.memory[copied.length]? with
            | none => none
            | some socket => some (.tick, st.host, .copy readfds n (copied ++ [socket]))
          else
            let r := resetFdSet readfds serverSocket copied
            some (.reset copied, st.host, .select r.1 r.2)
      | .push readfds activity i =>
          if i < activity then
            match readfds.toList[i]? with
            | none => none
            | some socket =>
                if socket ≠ serverSocket then
                  (st.host.step (.readable socket)).map fun r =>
                    (.host r.1, r.2, .push readfds activity (i + 1))
                else some (.tick, st.host, .push readfds activity (i + 1))
          else some (.tick, st.host, .reset readfds)
      | _ => none
  | .select ready =>
      match st.loop, ready with
      | .select _ readfds, none => some (.selected none, st.host, .reset readfds)
      | .select _ readfds, some ready =>
          if ready.toList ≠ [] ∧ ∀ s ∈ ready.toList, s ∈ readfds.toList then
            some (.selected (some ready.toList), st.host, afterSelect serverSocket ready)
          else none
      | _, _ => none
  | .accept client ok =>
      match st.loop with
      | .accept readfds activity =>
          (st.host.step (.connection client ok)).map fun r =>
            (.host r.1, r.2, if r.1 = .refused then .reset readfds else .push readfds activity 0)
      | _ => none

/-- One step. -/
def Listening.step (serverSocket : ℤ) (st : Listening T) (act : ListenAct T) :
    Option (ListenEvent T × Listening T) :=
  (st.next serverSocket act).map fun r => (r.1, st.after r.2.1 r.2.2)

/-- All interleavings of the readers, the writers and the event loop. -/
def listening (T : Type) [DecidableEq T] (serverSocket : ℤ) : Lts (Listening T) (ListenEvent T) :=
  Lts.ofFn (fun st => st.host.Initial ∧ (∃ readfds, st.loop = .reset readfds) ∧ st.stale = [])
    (Listening.step serverSocket)

/-! ### The transitions -/

/-- What one step can be, where the memory of the vector holds `M`. -/
inductive ListenStep (serverSocket : ℤ) (M : List ℤ) (H : Host T) :
    Listener → ListenEvent T → Listener → Host T → Prop where
  | thread {l : Listener} {i : T} {inp : Input} {e : Event T} {H' : Host T} :
      H.step (.thread i inp) = some (.router e, H') →
      ListenStep serverSocket M H l (.host (.router e)) l H'
  | copying {fd : FdSet} :
      ListenStep serverSocket M H (.reset fd) (.copying H.getAcceptedSockets.length)
        (.copy fd H.getAcceptedSockets.length []) H
  | read {fd : FdSet} {n : ℕ} {copied : List ℤ} {s : ℤ} : copied.length < n →
      M[copied.length]? = some s →
      ListenStep serverSocket M H (.copy fd n copied) .tick (.copy fd n (copied ++ [s])) H
  | reset {fd : FdSet} {n : ℕ} {copied : List ℤ} : n ≤ copied.length →
      ListenStep serverSocket M H (.copy fd n copied) (.reset copied)
        (.select (resetFdSet fd serverSocket copied).1 (resetFdSet fd serverSocket copied).2) H
  | select_error {maxSd : ℤ} {fd : FdSet} :
      ListenStep serverSocket M H (.select maxSd fd) (.selected none) (.reset fd) H
  | select {maxSd : ℤ} {fd ready : FdSet} : (∀ s ∈ ready.toList, s ∈ fd.toList) →
      ListenStep serverSocket M H (.select maxSd fd) (.selected (some ready.toList))
        (afterSelect serverSocket ready) H
  | refused {fd : FdSet} {n : ℕ} {H' : Host T} {client : Option ℤ} {ok : Bool} :
      H.step (.connection client ok) = some (.refused, H') →
      ListenStep serverSocket M H (.accept fd n) (.host .refused) (.reset fd) H'
  | accepted {fd : FdSet} {n : ℕ} {s : ℤ} {H' : Host T} {client : Option ℤ} {ok : Bool} :
      H.step (.connection client ok) = some (.router (.accepted s), H') →
      ListenStep serverSocket M H (.accept fd n) (.host (.router (.accepted s)))
        (.push fd n 0) H'
  | push {fd : FdSet} {n i : ℕ} {s : ℤ} {H' : Host T} : i < n → fd.toList[i]? = some s →
      s ≠ serverSocket → H.step (.readable s) = some (.router (.readable s), H') →
      ListenStep serverSocket M H (.push fd n i) (.host (.router (.readable s)))
        (.push fd n (i + 1)) H'
  | skip {fd : FdSet} {n i : ℕ} : i < n → fd.toList[i]? = some serverSocket →
      ListenStep serverSocket M H (.push fd n i) .tick (.push fd n (i + 1)) H
  | done {fd : FdSet} {n i : ℕ} : n ≤ i →
      ListenStep serverSocket M H (.push fd n i) .tick (.reset fd) H

variable {serverSocket : ℤ} {M : List ℤ} {H H' : Host T}

/-- The step of a thread. -/
lemma thread_cases {i : T} {inp : Input} {e : HostEvent T}
    (h : H.step (.thread i inp) = some (e, H')) : ∃ ev pc' sh', e = .router ev ∧
      Step i H.router.shared (H.router.loc i) ev pc' sh' ∧
      H' = ⟨⟨sh', Function.update H.router.loc i pc'⟩, H.fds⟩ := by
  simp only [Host.step, Program.step, Option.map_map, Option.map_eq_some_iff,
    Function.comp_apply, Prod.mk.injEq, Prod.exists] at h
  obtain ⟨ev, pc', sh', hn, rfl, rfl⟩ := h
  exact ⟨ev, pc', sh', rfl, step_of_next hn, rfl⟩

/-- A connection that is not refused is accepted. -/
lemma connection_cases {client : Option ℤ} {ok : Bool} {e : HostEvent T}
    (h : H.step (.connection client ok) = some (e, H')) :
    e = .refused ∨ ∃ s, e = .router (.accepted s) := by
  simp only [Host.step, Option.bind_eq_some_iff, Prod.exists] at h
  obtain ⟨r, fds, -, h⟩ := h
  split_ifs at h
  · cases h
    exact .inl rfl
  · simp only [Option.map_eq_some_iff, Prod.exists, Program.step, router] at h
    obtain ⟨ev, st, ⟨ev', sh, hloop, hev⟩, h⟩ := h
    cases hev
    cases h
    simp only [loopStep] at hloop
    split_ifs at hloop
    simp only [Option.map_eq_some_iff, Prod.mk.injEq] at hloop
    obtain ⟨S, -, rfl, -⟩ := hloop
    exact .inr ⟨r, rfl⟩

variable {st st' : Listening T} {e : ListenEvent T} {tr : List (ListenEvent T)}

/-- Everything a party can do next. -/
lemma listenStep_of_next {act : ListenAct T} {l' : Listener}
    (h : st.next serverSocket act = some (e, H', l')) :
    ListenStep serverSocket st.memory st.host st.loop e l' H' := by
  generalize hM : st.memory = M at h ⊢
  obtain ⟨H, l, stale⟩ := st
  cases act with
  | thread i inp =>
      simp only [Listening.next, Option.map_eq_some_iff, Prod.exists] at h
      obtain ⟨ev, H', hthread, h⟩ := h
      cases h
      obtain ⟨ev, -, -, rfl, -⟩ := thread_cases hthread
      exact .thread hthread
  | go =>
      cases l with
      | reset fd =>
          cases h
          exact .copying
      | copy fd n copied =>
          simp only [Listening.next] at h
          split_ifs at h with hn
          · split at h
            · cases h
            · cases h
              exact .read hn (by rwa [← hM])
          · cases h
            exact .reset (not_lt.mp hn)
      | push fd n i =>
          simp only [Listening.next] at h
          split_ifs at h with hi
          · split at h
            · cases h
            · rename_i s hs
              split_ifs at h with hsrv
              · simp only [Option.map_eq_some_iff, Prod.exists] at h
                obtain ⟨ev, H', hread, h⟩ := h
                cases h
                have hlabel : ev = .router (.readable s) := by
                  simp only [Host.step, Program.step, router, loopStep, Option.map_some,
                    Option.some.injEq, Prod.mk.injEq] at hread
                  exact hread.1.symm
                subst hlabel
                exact .push hi hs hsrv hread
              · cases h
                push Not at hsrv
                exact .skip hi (hsrv ▸ hs)
          · cases h
            exact .done (not_lt.mp hi)
      | select maxSd fd => cases h
      | accept fd n => cases h
  | select ready =>
      cases l with
      | select maxSd fd =>
          cases ready with
          | none =>
              cases h
              exact .select_error
          | some ready =>
              simp only [Listening.next] at h
              split_ifs at h with hready
              cases h
              exact .select hready.2
      | reset fd => cases ready <;> cases h
      | copy fd n copied => cases ready <;> cases h
      | accept fd n => cases ready <;> cases h
      | push fd n i => cases ready <;> cases h
  | accept client ok =>
      cases l with
      | accept fd n =>
          simp only [Listening.next, Option.map_eq_some_iff, Prod.exists] at h
          obtain ⟨ev, H', hconn, h⟩ := h
          cases h
          rcases connection_cases hconn with rfl | ⟨s, rfl⟩
          · exact .refused hconn
          · exact .accepted hconn
      | reset fd => cases h
      | copy fd n copied => cases h
      | select maxSd fd => cases h
      | push fd n i => cases h

/-- Every step of the program is one of these. -/
lemma listenStep_of_step (h : (listening T serverSocket).step st e st') :
    ListenStep serverSocket st.memory st.host st.loop e st'.loop st'.host := by
  obtain ⟨act, h⟩ := h
  simp only [Listening.step, Option.map_eq_some_iff, Prod.mk.injEq, Prod.exists] at h
  obtain ⟨ev, H', l', hnext, rfl, rfl⟩ := h
  exact listenStep_of_next hnext

lemma after_of_step (h : (listening T serverSocket).step st e st') :
    st' = st.after st'.host st'.loop := by
  obtain ⟨act, h⟩ := h
  simp only [Listening.step, Option.map_eq_some_iff, Prod.mk.injEq, Prod.exists] at h
  obtain ⟨ev, H', l', -, -, rfl⟩ := h
  rfl

/-- What the event loop and the threads do together is a run of `hosting`. -/
lemma hosting_of_listening (h : (listening T serverSocket).Reaches tr st) :
    (hosting T).Reaches (tr.filterMap ListenEvent.ofHost) st.host := by
  refine Lts.Reaches.map Listening.host ListenEvent.ofHost ?_ ?_ h
  · rintro st ⟨hinit, -⟩
    exact hinit
  · rintro tr st e ⟨H', l', stale'⟩ - hs
    have hone : ∀ {a r}, st.host.step a = some r → (hosting T).Run st.host [r.1] r.2 :=
      fun ha => .single ⟨_, ha⟩
    have hstep := listenStep_of_step hs
    generalize st.loop = l at hstep
    cases hstep with
    | thread hthread => exact hone hthread
    | refused hconn => exact hone hconn
    | accepted hconn => exact hone hconn
    | push _ _ _ hread => exact hone hread
    | _ => exact .nil

/-! ### The sockets in the set -/

/-- The client was accepted earlier in the run. -/
def WasAccepted (tr : List (ListenEvent T)) (s : ℤ) : Prop := .host (.router (.accepted s)) ∈ tr

/-- The sockets of a set are clients that were accepted, and perhaps the server socket. -/
def OfClients (serverSocket : ℤ) (tr : List (ListenEvent T)) (fd : FdSet) : Prop :=
  ∀ s ∈ fd.toList, s = serverSocket ∨ WasAccepted tr s

/-- The client that a thread removes. -/
def ListenEvent.removedSocket : ListenEvent T → Option ℤ
  | .host (.router (.removed _ s)) => some s
  | _ => none

/-- No client is removed in this part of a run. -/
def Undisturbed (mid : List (ListenEvent T)) : Prop := ∀ e ∈ mid, e.removedSocket = none

instance (mid : List (ListenEvent T)) : Decidable (Undisturbed mid) :=
  inferInstanceAs (Decidable (∀ e ∈ mid, e.removedSocket = none))

/-- The event loop copies the vector: it has read the size `n`, and since then `mid` happened. -/
def CopyBegun (tr : List (ListenEvent T)) (n : ℕ) (mid : List (ListenEvent T)) : Prop :=
  ∃ pre, tr = pre ++ .copying n :: mid ∧ ∀ n', .copying n' ∉ mid

/-- The last copy of the vector that the event loop has finished: `mid` happened meanwhile, and
the copy is `clients`. -/
def LastCopy (tr : List (ListenEvent T)) (mid : List (ListenEvent T)) (clients : List ℤ) : Prop :=
  ∃ pre n post, tr = pre ++ .copying n :: (mid ++ .reset clients :: post) ∧
    (∀ n', .copying n' ∉ mid) ∧ ∀ c, .reset c ∉ post

/-- What holds of the event loop at its location, where the memory of the vector holds `M`.
While nobody is removed, the copy grows along the list; while the loop waits in `select`
clients may be removed, but none is added. -/
def Watching (serverSocket : ℤ) (tr : List (ListenEvent T)) (M : List ℤ) (H : Host T) :
    Listener → Prop
  | .reset _ => True
  | .copy _ n copied => n ≤ M.length ∧ (∀ s ∈ copied, WasAccepted tr s) ∧
      ∃ mid, CopyBegun tr n mid ∧ (Undisturbed mid → n = H.getAcceptedSockets.length ∧
        copied = H.getAcceptedSockets.take copied.length)
  | .select maxSd readfds => ∃ mid clients, LastCopy tr mid clients ∧
      resetFdSet .empty serverSocket clients = (maxSd, readfds) ∧
      (∀ s ∈ clients, WasAccepted tr s) ∧ (Undisturbed mid → H.getAcceptedSockets ⊆ clients)
  | .accept readfds _ => OfClients serverSocket tr readfds
  | .push readfds _ _ => OfClients serverSocket tr readfds

omit [DecidableEq T] in
lemma WasAccepted.snoc {s : ℤ} (h : WasAccepted tr s) : WasAccepted (tr ++ [e]) s :=
  List.mem_append_left _ h

omit [DecidableEq T] in
lemma OfClients.snoc {fd : FdSet} (h : OfClients serverSocket tr fd) :
    OfClients serverSocket (tr ++ [e]) fd :=
  fun s hs => (h s hs).imp id WasAccepted.snoc

omit [DecidableEq T] in
lemma Undisturbed.of_snoc {mid : List (ListenEvent T)} (h : Undisturbed (mid ++ [e])) :
    Undisturbed mid ∧ e.removedSocket = none :=
  ⟨fun e' he' => h e' (List.mem_append_left _ he'),
    h e (List.mem_append_right _ (List.mem_singleton_self e))⟩

omit [DecidableEq T] in
lemma CopyBegun.snoc {n : ℕ} {mid : List (ListenEvent T)} (h : CopyBegun tr n mid)
    (he : ∀ n', e ≠ .copying n') : CopyBegun (tr ++ [e]) n (mid ++ [e]) := by
  obtain ⟨pre, rfl, hmid⟩ := h
  refine ⟨pre, by simp, fun n' hn' => ?_⟩
  rcases List.mem_append.mp hn' with hmem | hmem
  · exact hmid n' hmem
  · exact he n' (List.mem_singleton.mp hmem).symm

omit [DecidableEq T] in
lemma CopyBegun.finish {n : ℕ} {mid : List (ListenEvent T)} (h : CopyBegun tr n mid)
    (clients : List ℤ) : LastCopy (tr ++ [.reset clients]) mid clients := by
  obtain ⟨pre, rfl, hmid⟩ := h
  exact ⟨pre, n, [], by simp, hmid, by simp⟩

omit [DecidableEq T] in
lemma LastCopy.undisturbed {mid : List (ListenEvent T)} {clients : List ℤ}
    (h : LastCopy tr mid clients) (htr : Undisturbed tr) : Undisturbed mid := by
  obtain ⟨pre, n, post, rfl, -⟩ := h
  exact fun e he => htr e (by simp [he])

omit [DecidableEq T] in
lemma LastCopy.snoc {mid : List (ListenEvent T)} {clients : List ℤ} (h : LastCopy tr mid clients)
    (he : ∀ c, e ≠ .reset c) : LastCopy (tr ++ [e]) mid clients := by
  obtain ⟨pre, n, post, rfl, hmid, hpost⟩ := h
  refine ⟨pre, n, post ++ [e], by simp, hmid, fun c hc => ?_⟩
  rcases List.mem_append.mp hc with hmem | hmem
  · exact hpost c hmem
  · exact he c (List.mem_singleton.mp hmem).symm

/-- The clients that are accepted now were accepted once. -/
lemma wasAccepted_of_mem (h : (listening T serverSocket).Reaches tr st) {s : ℤ}
    (hs : s ∈ st.host.getAcceptedSockets) : WasAccepted tr s := by
  have hr := router_of_hosting (hosting_of_listening h)
  obtain ⟨hst, -⟩ := standing_of_reaches hr
  obtain ⟨a, -, hsession⟩ := hst.exists_session ((hst.consistent.mem_accepted s).mp hs)
  have hacc := accepted_of_sessionOf hr hsession
  simp only [List.mem_filterMap] at hacc
  obtain ⟨he, ⟨le, hmem, hhost⟩, hrouter⟩ := hacc
  cases le with
  | host he' =>
      cases hhost
      cases he with
      | router ev =>
          cases hrouter
          exact hmem
      | refused => cases hrouter
  | _ => cases hhost

omit [DecidableEq T] in
/-- Only a removal changes the list. -/
lemma Step.acceptedClients_eq {i : T} {sh sh' : Shared T} {pc pc' : Pc} {ev : Event T}
    (h : Step i sh pc ev pc' sh') (he : ∀ s, ev ≠ .removed i s) :
    sh'.sessions.acceptedClients = sh.sessions.acceptedClients := by
  cases h with
  | addNode => simp
  | removeSrc => exact absurd rfl (he _)
  | removeDst => exact absurd rfl (he _)
  | _ => rfl

omit [DecidableEq T] in
lemma mem_memory_after {l : Listener} {s : ℤ} (h : s ∈ (st.after H l).memory) :
    s ∈ H.getAcceptedSockets ∨ s ∈ st.memory :=
  (List.mem_append.mp h).imp id List.mem_of_mem_drop

omit [DecidableEq T] in
lemma length_memory_le (H : Host T) (l : Listener) :
    st.memory.length ≤ (st.after H l).memory.length := by
  simp only [Listening.after, Listening.memory, List.length_append, List.length_drop]
  omega

/-- All that the memory of the vector holds are clients that were accepted once. -/
lemma wasAccepted_of_memory (h : (listening T serverSocket).Reaches tr st) :
    ∀ s ∈ st.memory, WasAccepted tr s := by
  refine h.induct_reached (fun tr st => ∀ s ∈ st.memory, WasAccepted tr s) ?_ ?_
  · rintro st ⟨⟨⟨hsessions, -⟩, -⟩, -, hstale⟩ s hs
    rw [Listening.memory, hstale, Host.getAcceptedSockets, hsessions] at hs
    cases hs
  · intro tr st e st' hr ih hs s hmem
    rw [after_of_step hs] at hmem
    rcases mem_memory_after hmem with hacc | hold
    · exact wasAccepted_of_mem (hr.append (.single hs)) hacc
    · exact (ih s hold).snoc

omit [DecidableEq T] in
/-- The element that is read next, as long as nobody was removed. -/
lemma take_snoc_of_read {acc stale copied : List ℤ} {s : ℤ} (hlt : copied.length < acc.length)
    (hread : (acc ++ stale)[copied.length]? = some s) (hcopied : copied = acc.take copied.length) :
    copied ++ [s] = acc.take (copied ++ [s]).length := by
  rw [List.getElem?_append_left hlt] at hread
  rw [List.length_append, List.length_singleton, List.take_add_one, hread, ← hcopied,
    Option.toList_some]

/-- **One step** of a thread or of the event loop. -/
lemma ListenStep.watching {l l' : Listener} {M' stale : List ℤ}
    (h : ListenStep serverSocket M H l e l' H') (hM : M = H.getAcceptedSockets ++ stale)
    (hM' : M.length ≤ M'.length) (hacc : ∀ s ∈ M, WasAccepted tr s)
    (hw : Watching serverSocket tr M H l) : Watching serverSocket (tr ++ [e]) M' H' l' := by
  cases h with
  | thread hthread =>
      obtain ⟨ev, pc', sh', he, hstep, rfl⟩ := thread_cases hthread
      obtain rfl := HostEvent.router.inj he
      cases l with
      | reset fd => trivial
      | copy fd n copied =>
          obtain ⟨hn, hcl, mid, hbegun, hcopy⟩ := hw
          refine ⟨hn.trans hM', fun s hs => (hcl s hs).snoc, _, hbegun.snoc (by simp), ?_⟩
          intro hun
          obtain ⟨hmid, hne⟩ := hun.of_snoc
          have hsame := hstep.acceptedClients_eq (by rintro s rfl; cases hne)
          rw [Host.getAcceptedSockets, hsame]
          exact hcopy hmid
      | select maxSd readfds =>
          obtain ⟨mid, clients, hlast, hreset, hcl, hsub⟩ := hw
          exact ⟨mid, clients, hlast.snoc (by simp), hreset, fun s hs => (hcl s hs).snoc,
            fun hun s hs => hsub hun (hstep.acceptedClients.subset hs)⟩
      | accept readfds n => exact OfClients.snoc hw
      | push readfds n i => exact OfClients.snoc hw
  | @copying fd =>
      refine ⟨?_, by simp, [], ⟨tr, rfl, by simp⟩, fun _ => ⟨rfl, by simp⟩⟩
      calc H.getAcceptedSockets.length ≤ M.length := by simp [hM]
        _ ≤ M'.length := hM'
  | @read fd n copied s hlt hread =>
      obtain ⟨hn, hcl, mid, hbegun, hcopy⟩ := hw
      refine ⟨hn.trans hM', fun t ht => ?_, _, hbegun.snoc (by simp), fun hun => ?_⟩
      · rcases List.mem_append.mp ht with ht | ht
        · exact (hcl t ht).snoc
        · rw [List.mem_singleton.mp ht]
          exact (hacc s (List.mem_of_getElem? hread)).snoc
      · obtain ⟨rfl, hcopied⟩ := hcopy hun.of_snoc.1
        exact ⟨rfl, take_snoc_of_read hlt (hM ▸ hread) hcopied⟩
  | @reset fd n copied hle =>
      obtain ⟨-, hcl, mid, hbegun, hcopy⟩ := hw
      refine ⟨mid, copied, hbegun.finish copied, by simp only [resetFdSet_eq],
        fun s hs => (hcl s hs).snoc, fun hun => ?_⟩
      obtain ⟨rfl, hcopied⟩ := hcopy hun
      rw [List.take_of_length_le hle] at hcopied
      rw [hcopied]
      exact fun s hs => hs
  | select_error => trivial
  | @select maxSd readfds ready hready =>
      obtain ⟨mid, clients, -, hreset, hcl, -⟩ := hw
      have hof : OfClients serverSocket (tr ++ [.selected (some ready.toList)]) ready := by
        intro s hs
        have hmem := hready s hs
        rw [resetFdSet_eq, Prod.mk.injEq] at hreset
        rw [← hreset.2] at hmem
        rcases BoundedSet.mem_or_mem_of_insertAll hmem with hnil | hmem
        · cases hnil
        · rcases List.mem_cons.mp hmem with rfl | hmem
          · exact .inl rfl
          · exact .inr (hcl s hmem).snoc
      rw [afterSelect]
      split_ifs
      · exact hof
      · exact hof
  | refused _ => trivial
  | accepted _ => exact OfClients.snoc hw
  | push _ _ _ _ => exact OfClients.snoc hw
  | skip _ _ => exact OfClients.snoc hw
  | done _ => trivial

lemma watching_of_reaches (h : (listening T serverSocket).Reaches tr st) :
    Watching serverSocket tr st.memory st.host st.loop := by
  refine h.induct_reached (fun tr st => Watching serverSocket tr st.memory st.host st.loop) ?_ ?_
  · rintro st ⟨-, ⟨fd, hl⟩, -⟩
    rw [hl]
    trivial
  · intro tr st e st' hr hw hs
    have hlen : st.memory.length ≤ st'.memory.length := by
      rw [after_of_step hs]
      exact length_memory_le st'.host st'.loop
    exact (listenStep_of_step hs).watching rfl hlen (wasAccepted_of_memory hr) hw

/-- The copy stays within the memory of the vector, and the event loop gets through it. -/
lemma exists_next_of_copy (h : (listening T serverSocket).Reaches tr st) {fd : FdSet} {n : ℕ}
    {copied : List ℤ} (hl : st.loop = .copy fd n copied) :
    ∃ r, st.next serverSocket .go = some r := by
  have hw := watching_of_reaches h
  rw [hl] at hw
  simp only [Listening.next, hl]
  split_ifs with hlt
  · rw [List.getElem?_eq_getElem (hlt.trans_le hw.1)]
    exact ⟨_, rfl⟩
  · exact ⟨_, rfl⟩

/-- **Only accepted clients are pushed.** In every interleaving, a socket that the event loop
pushes to the read queue is not the server socket, and is that of a client that was accepted
before. -/
theorem pushed_clients_only (h : (listening T serverSocket).Reaches tr st) :
    ∀ pre post s, tr = pre ++ .host (.router (.readable s)) :: post →
      s ≠ serverSocket ∧ .host (.router (.accepted s)) ∈ pre := by
  rintro pre post s rfl
  obtain ⟨st₁, ⟨H', l', stale'⟩, h₁, hs, -, -⟩ := h.at_label
  have hw := watching_of_reaches h₁
  have hstep := listenStep_of_step hs
  generalize st₁.loop = l at hstep hw
  cases hstep with
  | thread hthread =>
      obtain ⟨ev, pc', sh', he, hstep, -⟩ := thread_cases hthread
      cases he
      generalize st₁.host.router.loc _ = pc at hstep
      cases hstep
  | push _ hget hne _ => exact ⟨hne, (hw s (List.mem_of_getElem? hget)).resolve_left hne⟩

/-- A router with one reader, its event loop at the top. -/
def idle : Listening (Fin 1) := ⟨oneReader, .reset .empty, []⟩

/-- A client connects on 4, and then it and a new one are reported together. -/
def twoTurns : List (ListenAct (Fin 1)) :=
  [.go, .go, .select (some (BoundedSet.empty.insertAll [3])), .accept (some 4) true, .go, .go,
    .go, .go, .go, .select (some (BoundedSet.empty.insertAll [3, 4])), .accept (some 7) true,
    .go, .go, .go, .go, .go, .go, .go]

/-- In the second turn the client is pushed. -/
theorem pushed_clients_only_four :
    ∃ tr st, (listening (Fin 1) 3).Reaches tr st ∧
      tr[12]? = some (.host (.router (.readable 4))) ∧
      ∀ pre post s, tr = pre ++ .host (.router (.readable s)) :: post →
        s ≠ 3 ∧ .host (.router (.accepted s)) ∈ pre := by
  obtain ⟨tr, st, hreach, hpushed⟩ : ∃ tr st, (listening (Fin 1) 3).Reaches tr st ∧
      tr[12]? = some (.host (.router (.readable 4))) :=
    Lts.reaches_of_execute idle twoTurns ⟨initial_oneReader, ⟨_, rfl⟩, rfl⟩ (by decide)
  exact ⟨tr, st, hreach, hpushed, pushed_clients_only hreach⟩

/-- **Every client is watched.** In every interleaving, while the event loop waits in
`select`, the server socket is in its set. The set was filled from the last copy of the list of
clients, and if no client was removed during that copy, then every client that is accepted at
this moment is at most `max_sd` and is in the set too, unless it holds `FD_SETSIZE` sockets. -/
theorem select_watches_clients (h : (listening T serverSocket).Reaches tr st) {maxSd : ℤ}
    {readfds : FdSet} (hl : st.loop = .select maxSd readfds) :
    serverSocket ∈ readfds.toList ∧ ∃ mid clients, LastCopy tr mid clients ∧
      resetFdSet .empty serverSocket clients = (maxSd, readfds) ∧
      (Undisturbed mid → ∀ s ∈ st.host.getAcceptedSockets,
        s ≤ maxSd ∧ (s ∈ readfds.toList ∨ readfds.toList.length = fdSetSize)) := by
  have hw := watching_of_reaches h
  rw [hl] at hw
  obtain ⟨mid, clients, hlast, hreset, -, hsub⟩ := hw
  have hsets := hreset
  rw [resetFdSet_eq, Prod.mk.injEq] at hsets
  obtain ⟨rfl, rfl⟩ := hsets
  refine ⟨?_, mid, clients, hlast, hreset, fun hun s hs => ⟨?_, ?_⟩⟩
  · rw [BoundedSet.insertAll_cons]
    exact BoundedSet.mem_insertAll_of_mem (BoundedSet.mem_insert.mpr (.inr ⟨rfl, by decide⟩))
  · exact (isGreatest_foldl_max serverSocket).2 (.inr (hsub hun hs))
  · exact BoundedSet.mem_insertAll_or_full (List.mem_cons_of_mem _ (hsub hun hs))

/-- After the two turns both clients are watched. -/
theorem select_watches_clients_two :
    ∃ tr st fd, (listening (Fin 1) 3).Reaches tr st ∧ st.loop = .select 7 fd ∧
      st.host.getAcceptedSockets = [4, 7] ∧ 3 ∈ fd.toList ∧
      ∀ s ∈ st.host.getAcceptedSockets, s ≤ 7 ∧ (s ∈ fd.toList ∨ fd.toList.length = fdSetSize) := by
  obtain ⟨tr, st, hreach, hun, hloop, hclients⟩ : ∃ tr st, (listening (Fin 1) 3).Reaches tr st ∧
      Undisturbed tr ∧ st.loop = .select 7 (BoundedSet.empty.insertAll [3, 4, 7]) ∧
        st.host.getAcceptedSockets = [4, 7] :=
    Lts.reaches_of_execute idle twoTurns ⟨initial_oneReader, ⟨_, rfl⟩, rfl⟩ (by decide)
  obtain ⟨hserver, mid, clients, hlast, -, hall⟩ := select_watches_clients hreach hloop
  exact ⟨tr, st, _, hreach, hloop, hclients, hserver, hall (hlast.undisturbed hun)⟩

/-- A turn in which a client connects on `s` while `n` are accepted. -/
def connectTurn (n : ℕ) (s : ℤ) : List (ListenAct (Fin 1)) :=
  List.replicate (n + 2) .go ++
    [.select (some (BoundedSet.empty.insertAll [3])), .accept (some s) true, .go, .go]

/-- Clients connect on 4, 7 and 9; the reader finds that 4 has closed its connection, and
removes it when the event loop has read the first element of the vector. -/
def tornTurn : List (ListenAct (Fin 1)) :=
  connectTurn 0 4 ++ connectTurn 1 7 ++ connectTurn 2 9 ++
    List.replicate 5 .go ++ [.select (some (BoundedSet.empty.insertAll [4])), .go, .go] ++
    ([.go, .go, .go, .go, .go, .recv .closed] : List Input).map (.thread 0) ++
    [.go, .go, .thread 0 .go, .go, .go, .go]

/-- **A torn copy.** Where a client is removed during the copy, another one that stays accepted
can be missing from a set that has room for it: here the copy is `[4, 9, 9]`. -/
theorem torn_copy :
    ¬ ∀ (tr : List (ListenEvent (Fin 1))) (st : Listening (Fin 1)) (maxSd : ℤ) (readfds : FdSet),
      (listening (Fin 1) 3).Reaches tr st → st.loop = .select maxSd readfds →
      ∀ s ∈ st.host.getAcceptedSockets,
        s ≤ maxSd ∧ (s ∈ readfds.toList ∨ readfds.toList.length = fdSetSize) := by
  intro hall
  obtain ⟨tr, st, hreach, hloop, hclients⟩ : ∃ tr st, (listening (Fin 1) 3).Reaches tr st ∧
      st.loop = .select 9 (BoundedSet.empty.insertAll [3, 4, 9]) ∧
        st.host.getAcceptedSockets = [7, 9] :=
    Lts.reaches_of_execute idle tornTurn ⟨initial_oneReader, ⟨_, rfl⟩, rfl⟩ (by decide)
  have hseven := hall tr st _ _ hreach hloop 7 (by simp [hclients])
  exact absurd hseven (by decide)

/-! ### One turn -/

/-- The socket that the event loop pushes. -/
def ListenEvent.pushedSocket : ListenEvent T → Option ℤ
  | .host (.router (.readable s)) => some s
  | _ => none

/-- The client that it accepts. -/
def ListenEvent.acceptedSocket : ListenEvent T → Option ℤ
  | .host (.router (.accepted s)) => some s
  | _ => none

/-- What a turn has done in the end, `ready` being what `select` reported: it has pushed the
clients and accepted one if the server socket was reported, or this has failed. -/
def TurnDone (serverSocket : ℤ) (ready : List ℤ) (mid : List (ListenEvent T)) : Prop :=
  (mid.filterMap ListenEvent.pushedSocket = ready.filter (· ≠ serverSocket) ∧
    (mid.filterMap ListenEvent.acceptedSocket).length = if serverSocket ∈ ready then 1 else 0) ∨
  (serverSocket ∈ ready ∧ .host .refused ∈ mid ∧
    mid.filterMap ListenEvent.pushedSocket = [] ∧ mid.filterMap ListenEvent.acceptedSocket = [])

/-- What the turn has done since `select` reported `ready`. -/
def Turn (serverSocket : ℤ) (ready : List ℤ) (mid : List (ListenEvent T)) : Listener → Prop
  | .reset _ => TurnDone serverSocket ready mid
  | .copy _ _ _ => TurnDone serverSocket ready mid
  | .select _ _ => False
  | .accept readfds n => readfds.toList = ready ∧ n = ready.length ∧ serverSocket ∈ ready ∧
      mid.filterMap ListenEvent.pushedSocket = [] ∧ mid.filterMap ListenEvent.acceptedSocket = []
  | .push readfds n i => readfds.toList = ready ∧ n = ready.length ∧
      mid.filterMap ListenEvent.pushedSocket = (ready.take i).filter (· ≠ serverSocket) ∧
      (mid.filterMap ListenEvent.acceptedSocket).length = if serverSocket ∈ ready then 1 else 0

omit [DecidableEq T] in
lemma filterMap_snoc {kind : ListenEvent T → Option ℤ} (mid : List (ListenEvent T)) :
    (mid ++ [e]).filterMap kind = mid.filterMap kind ++ (kind e).toList := by
  rw [List.filterMap_append]
  cases h : kind e <;> simp [h]

omit [DecidableEq T] in
/-- A step that neither accepts nor pushes changes nothing. -/
lemma TurnDone.snoc {ready : List ℤ} {mid : List (ListenEvent T)}
    (h : TurnDone serverSocket ready mid) (hp : e.pushedSocket = none)
    (ha : e.acceptedSocket = none) : TurnDone serverSocket ready (mid ++ [e]) := by
  rcases h with hdone | ⟨hsrv, href, hnone⟩
  · refine .inl ?_
    simpa only [filterMap_snoc, hp, ha, Option.toList_none, List.append_nil] using hdone
  · refine .inr ⟨hsrv, List.mem_append_left _ href, ?_⟩
    simpa only [filterMap_snoc, hp, ha, Option.toList_none, List.append_nil] using hnone

/-- **One step** of a turn. -/
lemma ListenStep.turn {l l' : Listener} {ready : List ℤ} {mid : List (ListenEvent T)}
    (h : ListenStep serverSocket M H l e l' H') (hne : ∀ c, e ≠ .reset c)
    (ht : Turn serverSocket ready mid l) : Turn serverSocket ready (mid ++ [e]) l' := by
  cases h with
  | @thread l i inp ev H' hthread =>
      obtain ⟨ev', pc', sh', he, hstep, -⟩ := thread_cases hthread
      obtain rfl := HostEvent.router.inj he
      -- a thread neither accepts nor reports
      have hquiet : (ListenEvent.host (.router ev)).pushedSocket = none ∧
          (ListenEvent.host (.router ev)).acceptedSocket = none := by
        generalize H.router.loc _ = pc at hstep
        cases hstep <;> exact ⟨rfl, rfl⟩
      cases l with
      | select maxSd fd => exact ht
      | reset fd => exact TurnDone.snoc ht hquiet.1 hquiet.2
      | copy fd n copied => exact TurnDone.snoc ht hquiet.1 hquiet.2
      | accept fd n =>
          simpa only [Turn, filterMap_snoc, hquiet, Option.toList_none, List.append_nil] using ht
      | push fd n i =>
          simpa only [Turn, filterMap_snoc, hquiet, Option.toList_none, List.append_nil] using ht
  | copying => exact TurnDone.snoc ht rfl rfl
  | read _ _ => exact TurnDone.snoc ht rfl rfl
  | reset => exact absurd rfl (hne _)
  | select_error => exact ht.elim
  | select _ => exact ht.elim
  | refused _ =>
      obtain ⟨-, -, hsrv, hpushed, haccepted⟩ := ht
      refine .inr ⟨hsrv, by simp, ?_, ?_⟩
      · rw [filterMap_snoc, hpushed]
        rfl
      · rw [filterMap_snoc, haccepted]
        rfl
  | accepted _ =>
      obtain ⟨hfd, hn, hsrv, hpushed, haccepted⟩ := ht
      refine ⟨hfd, hn, ?_, ?_⟩
      · rw [filterMap_snoc, hpushed]
        rfl
      · rw [filterMap_snoc, haccepted, if_pos hsrv]
        rfl
  | @push fd n i s H' hi hget hsrv _ =>
      obtain ⟨rfl, rfl, hpushed, haccepted⟩ := ht
      refine ⟨rfl, rfl, ?_, ?_⟩
      · rw [filterMap_snoc, hpushed, List.take_add_one, hget, List.filter_append]
        simp [ListenEvent.pushedSocket, hsrv]
      · rw [filterMap_snoc, ← haccepted]
        simp [ListenEvent.acceptedSocket]
  | @skip fd n i hi hget =>
      obtain ⟨rfl, rfl, hpushed, haccepted⟩ := ht
      refine ⟨rfl, rfl, ?_, ?_⟩
      · rw [filterMap_snoc, hpushed, List.take_add_one, hget, List.filter_append]
        simp [ListenEvent.pushedSocket]
      · rw [filterMap_snoc, ← haccepted]
        simp [ListenEvent.acceptedSocket]
  | done hi =>
      obtain ⟨rfl, rfl, hpushed, haccepted⟩ := ht
      rw [List.take_of_length_le hi] at hpushed
      refine .inl ⟨?_, ?_⟩
      · rw [filterMap_snoc, hpushed]
        simp [ListenEvent.pushedSocket]
      · rw [filterMap_snoc, ← haccepted]
        simp [ListenEvent.acceptedSocket]

/-- What a turn has done, wherever it stands. -/
lemma turn_of_run {st₁ st₂ : Listening T} {ready : List ℤ} {mid : List (ListenEvent T)}
    (hs : (listening T serverSocket).step st₁ (.selected (some ready)) st₂)
    (hrun : (listening T serverSocket).Run st₂ mid st) (hmid : ∀ c, .reset c ∉ mid) :
    Turn serverSocket ready mid st.loop := by
  refine hrun.induct (fun mid st => (∀ c, .reset c ∉ mid) → Turn serverSocket ready mid st.loop)
    ?_ ?_ hmid
  · intro _
    have hstep := listenStep_of_step hs
    generalize st₁.loop = l at hstep
    generalize st₂.host = H' at hstep
    generalize st₂.loop = l' at hstep ⊢
    cases hstep with
    | select _ =>
        rw [afterSelect]
        split_ifs with hsrv
        · exact ⟨rfl, rfl, hsrv, rfl, rfl⟩
        · exact ⟨rfl, rfl, rfl, by rw [if_neg hsrv]; rfl⟩
  · intro mid st e st' ih hs hmid
    refine (listenStep_of_step hs).turn (fun c he => hmid c (by simp [he])) (ih fun c hc => ?_)
    exact hmid c (List.mem_append_left _ hc)

/-- What the event loop pushes goes to the end of the queue, if it does not stand there. -/
lemma readQueue_of_readable {s : ℤ}
    (h : (listening T serverSocket).step st (.host (.router (.readable s))) st') :
    st'.host.router.shared.readQueue =
      if st.host.router.shared.readQueue.getLast? = some s then st.host.router.shared.readQueue
      else st.host.router.shared.readQueue ++ [s] := by
  have hstep := listenStep_of_step h
  generalize st.loop = l at hstep
  generalize st'.loop = l' at hstep
  cases hstep with
  | thread hthread =>
      obtain ⟨ev, pc', sh', he, hstep, -⟩ := thread_cases hthread
      cases he
      generalize st.host.router.loc _ = pc at hstep
      cases hstep
  | push _ _ _ hread =>
      simp only [Host.step, Program.step, router, loopStep, Option.map_some, Option.some.injEq,
        Prod.mk.injEq, true_and] at hread
      rw [← hread, SignalingQueue.push]
      simp

/-- **A turn pushes what was reported.** In every interleaving, between the return of `select`
with the sockets `ready` and the next reset, the event loop pushes exactly the reported client
sockets, each once and in their order, and accepts one client if the server socket is among
them and none otherwise; or the server socket was reported, its `accept` failed, and nothing is
pushed in this turn. A push puts the socket at the end of the queue of the readers, unless it
stands there already. -/
theorem turn_pushes_reported :
    (∀ (tr : List (ListenEvent T)) st, (listening T serverSocket).Reaches tr st →
      ∀ pre ready mid c post, tr = pre ++ .selected (some ready) :: (mid ++ .reset c :: post) →
      (∀ c', .reset c' ∉ mid) →
      (mid.filterMap ListenEvent.pushedSocket = ready.filter (· ≠ serverSocket) ∧
        (mid.filterMap ListenEvent.acceptedSocket).length = if serverSocket ∈ ready then 1 else 0) ∨
      (serverSocket ∈ ready ∧ .host .refused ∈ mid ∧
        mid.filterMap ListenEvent.pushedSocket = [] ∧
        mid.filterMap ListenEvent.acceptedSocket = [])) ∧
    ∀ s (st st' : Listening T),
      (listening T serverSocket).step st (.host (.router (.readable s))) st' →
      st'.host.router.shared.readQueue =
        if st.host.router.shared.readQueue.getLast? = some s then st.host.router.shared.readQueue
        else st.host.router.shared.readQueue ++ [s] := by
  refine ⟨?_, fun s st st' => readQueue_of_readable⟩
  rintro _ st h pre ready mid c post rfl hmid
  obtain ⟨st₁, st₂, -, hs, -, hrun⟩ := h.at_label
  obtain ⟨st₃, hrun₃, hrest⟩ := hrun.split
  obtain ⟨⟨H', l', stale'⟩, hreset, -⟩ := hrest.uncons
  have ht := turn_of_run hs hrun₃ hmid
  have hstep := listenStep_of_step hreset
  generalize st₃.loop = l at hstep ht
  cases hstep with
  | reset => exact ht

/-- The second turn pushes the client and accepts another one. -/
theorem turn_pushes_reported_four :
    ∃ tr st pre mid, (listening (Fin 1) 3).Reaches tr st ∧
      tr = pre ++ .selected (some [3, 4]) :: (mid ++ [.reset [4, 7]]) ∧
      ((mid.filterMap ListenEvent.pushedSocket = [4] ∧
        (mid.filterMap ListenEvent.acceptedSocket).length = 1) ∨
      (.host .refused ∈ mid ∧ mid.filterMap ListenEvent.pushedSocket = [] ∧
        mid.filterMap ListenEvent.acceptedSocket = [])) := by
  obtain ⟨tr, st, hreach, htr⟩ : ∃ tr st, (listening (Fin 1) 3).Reaches tr st ∧
      tr = tr.take 9 ++ .selected (some [3, 4]) :: ([.host (.router (.accepted 7)), .tick,
        .host (.router (.readable 4)), .tick, .copying 2, .tick, .tick] ++ [.reset [4, 7]]) :=
    Lts.reaches_of_execute idle twoTurns ⟨initial_oneReader, ⟨_, rfl⟩, rfl⟩ (by decide)
  refine ⟨tr, st, tr.take 9, _, hreach, htr, ?_⟩
  rcases turn_pushes_reported.1 tr st hreach _ _ _ _ [] htr (by simp) with hdone | hfailed
  · exact .inl hdone
  · exact .inr hfailed.2

end MessageRouting
