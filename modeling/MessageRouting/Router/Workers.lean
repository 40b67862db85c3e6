import MessageRouting.Lib.Threads
import MessageRouting.Router.Reading
import MessageRouting.Router.Registry

/-!
The threads of the router (`router/src/router.cpp`): the event loop, the readers
(`worker_thread_read_handler`, `do_reads`) and the writers
(`worker_thread_write_handler`, `do_writes`), in every interleaving.

A step is what happens between two points at which another thread can come in:
a call on the registry or on a queue (each runs under a mutex of its own), the
lock and the unlock of a session's mutex, one `recv`, one `send`. The outcomes
of `recv` and `send` are inputs. A descriptor the event loop has accepted is
never closed by the router, so the OS does not issue it again (`opened`).

* `Pc`: where a thread stands in `do_reads` or `do_writes`, with its local
  variables; `next`: its next step; `workers`: all interleavings.
* `Step`: the same transitions as a relation, one constructor for each
  (`step_of_next`), the case split of every later proof.
* `Standing`, `Located`: what holds of the registry, and of a thread at its
  location. `standing_of_reaches` shows them for every interleaving: a reader
  inside its loop holds the mutex of the session that is registered for its
  socket, and no two threads hold one mutex.
-/

namespace MessageRouting

/-! ### The program -/

/-- A write task. Its `seq` only tells tasks apart: it is the number of pushes
before this one. -/
structure Task where
  socket : ℤ
  msg : List UInt8
  seq : ℕ
  deriving DecidableEq, Repr

/-- Which of the two kinds of message `read_async` is asked for. -/
inductive Wanted where
  | idMessage
  | dataMessage
  deriving DecidableEq, Repr

/-- The size `read_async` is called with. -/
def Wanted.size : Wanted → ℕ
  | .idMessage => idMessageSize
  | .dataMessage => dataMessageSize

/-- Where a thread stands. In `do_reads` the socket is `s`, the session found
first, whose mutex is taken, is `a`, and the one found again is `src`. -/
inductive Pc where
  | popRead
  | findSrc (s : ℤ)
  | lockSrc (s : ℤ) (a : Addr)
  | refindSrc (s : ℤ) (a : Addr)
  | turn (s : ℤ) (a src : Addr)
  | recv (s : ℤ) (a src : Addr) (w : Wanted) (got : List UInt8)
  | addNode (s : ℤ) (a src : Addr) (w : List UInt8)
  | findDst (s : ℤ) (a src : Addr) (m : List UInt8)
  | forward (s : ℤ) (a src dst : Addr) (m : List UInt8)
  | removeSrc (s : ℤ) (a src : Addr)
  | unlockSrc (s : ℤ) (a : Addr)
  | popWrite
  | findSession (t : Task)
  | lockDst (t : Task) (a : Addr)
  | send (t : Task) (a : Addr)
  | removeDst (t : Task) (a : Addr)
  | unlockDst (t : Task) (a : Addr)
  deriving DecidableEq, Repr

/-- The outcome of a system call, `go` where the step makes none. -/
inductive Input where
  | go
  | recv (r : Recv)
  | sent (ok : Bool)

/-- What the event loop does. -/
inductive LoopAct where
  | accept (s : ℤ)
  | readable (s : ℤ)

variable {T : Type}

/-- The label of a step. -/
inductive Event (T : Type) where
  | accepted (s : ℤ)
  | readable (s : ℤ)
  | poppedRead (i : T) (s : ℤ)
  | lookedUp (i : T) (s : ℤ) (p : SessionPtr)
  | locked (i : T) (a : Addr)
  | turned (i : T) (s : ℤ) (w : Wanted)
  | received (i : T) (s : ℤ) (r : Recv)
  | added (i : T) (s id : ℤ)
  | routed (i : T) (s : ℤ) (m : List UInt8) (dst : SessionPtr)
  | pushed (i : T) (s : ℤ) (t : Task)
  | removed (i : T) (s : ℤ)
  | unlocked (i : T) (a : Addr)
  | poppedWrite (i : T) (t : Task)
  | found (i : T) (t : Task) (a : Addr)
  | dropped (i : T) (t : Task)
  | lockedDst (i : T) (t : Task) (a : Addr)
  | sent (i : T) (seq : ℕ) (s : ℤ) (msg : List UInt8) (ok : Bool)
  deriving DecidableEq

/-- What the threads share. -/
structure Shared (T : Type) where
  sessions : Sessions
  readQueue : List ℤ
  writeQueue : List Task
  holder : Addr → Option T
  opened : List ℤ
  pushes : ℕ

/-- The shared state with the mutex of a session taken or released. -/
def Shared.setHolder (sh : Shared T) (a : Addr) (o : Option T) : Shared T :=
  { sh with holder := Function.update sh.holder a o }

/-- The shared state after `forward`. -/
def Shared.push (sh : Shared T) (t : Task) : Shared T :=
  { sh with writeQueue := SignalingQueue.push sh.writeQueue t false, pushes := sh.pushes + 1 }

/-- The task that `forward` pushes. -/
def Shared.task (sh : Shared T) (dst : Addr) (m : List UInt8) : Task :=
  ⟨sh.sessions.getSocket (some dst), m, sh.pushes⟩

/-- A `recv` outcome inside `read_async`, which has `got` so far: where the thread
goes, `none` if the outcome is impossible. -/
def afterRecv (s : ℤ) (a src : Addr) (w : Wanted) (got : List UInt8) : Recv → Option Pc
  | .bytes bs =>
      if bs = [] ∨ w.size < got.length + bs.length then none
      else if got.length + bs.length = w.size then
        match w with
        | .idMessage => some (.addNode s a src (got ++ bs))
        | .dataMessage => some (.findDst s a src (got ++ bs))
      else some (.recv s a src w (got ++ bs))
  -- nothing was read: the loop ends; a short message is dropped and the loop goes on
  | .wouldBlock => some (if got = [] then .unlockSrc s a else .turn s a src)
  | .closed => some (.removeSrc s a src)
  | .error => some (.removeSrc s a src)

/-- The next step of a thread, `none` when it is blocked or the input does not
fit. -/
def next (sh : Shared T) (i : T) : Pc → Input → Option (Event T × Pc × Shared T)
  | .popRead, .go =>
      match SignalingQueue.pop sh.readQueue with
      | none => none
      | some (s, q) => some (.poppedRead i s, .findSrc s, { sh with readQueue := q })
  | .findSrc s, .go =>
      match sh.sessions.findSessionBySocket s with
      | none => some (.lookedUp i s none, .popRead, sh)
      | some a => some (.lookedUp i s (some a), .lockSrc s a, sh)
  | .lockSrc s a, .go =>
      match sh.holder a with
      | none => some (.locked i a, .refindSrc s a, sh.setHolder a (some i))
      | some _ => none
  | .refindSrc s a, .go =>
      match sh.sessions.findSessionBySocket s with
      | none => some (.lookedUp i s none, .unlockSrc s a, sh)
      | some src => some (.lookedUp i s (some src), .turn s a src, sh)
  | .turn s a src, .go =>
      let w := if sh.sessions.getId (some src) = NONE then Wanted.idMessage else .dataMessage
      some (.turned i s w, .recv s a src w [], sh)
  | .recv s a src w got, .recv r =>
      (afterRecv s a src w got r).map fun pc => (.received i s r, pc, sh)
  | .addNode s a src w, .go =>
      some (.added i s (announcedId w), .turn s a src,
        { sh with sessions := sh.sessions.addNode s (announcedId w) })
  | .findDst s a src m, .go =>
      match sh.sessions.findSessionById (destinationId m) with
      | none => some (.routed i s m none, .unlockSrc s a, sh)
      | some dst => some (.routed i s m (some dst), .forward s a src dst m, sh)
  | .forward s a src dst m, .go =>
      some (.pushed i s (sh.task dst m), .turn s a src, sh.push (sh.task dst m))
  | .removeSrc s a _, .go =>
      some (.removed i s, .unlockSrc s a, { sh with sessions := sh.sessions.removeSession s })
  | .unlockSrc _ a, .go => some (.unlocked i a, .popRead, sh.setHolder a none)
  | .popWrite, .go =>
      match SignalingQueue.pop sh.writeQueue with
      | none => none
      | some (t, q) => some (.poppedWrite i t, .findSession t, { sh with writeQueue := q })
  | .findSession t, .go =>
      match sh.sessions.findSessionBySocket t.socket with
      | none => some (.dropped i t, .popWrite, sh)
      | some a => some (.found i t a, .lockDst t a, sh)
  | .lockDst t a, .go =>
      match sh.holder a with
      | none => some (.lockedDst i t a, .send t a, sh.setHolder a (some i))
      | some _ => none
  | .send t a, .sent ok =>
      some (.sent i t.seq t.socket t.msg ok, if ok then .unlockDst t a else .removeDst t a, sh)
  | .removeDst t a, .go =>
      let s := sh.sessions.getSocket (some a)
      some (.removed i s, .unlockDst t a, { sh with sessions := sh.sessions.removeSession s })
  | .unlockDst _ a, .go => some (.unlocked i a, .popWrite, sh.setHolder a none)
  | _, _ => none

/-- The event loop accepts a new descriptor, or finds one readable. -/
def loopStep (sh : Shared T) : LoopAct → Option (Event T × Shared T)
  | .accept s =>
      if s ∈ sh.opened then none
      else (sh.sessions.acceptClient s).map fun S =>
        (.accepted s, { sh with sessions := S, opened := s :: sh.opened })
  | .readable s =>
      some (.readable s, { sh with readQueue := SignalingQueue.push sh.readQueue s true })

/-- The program of the router. -/
def router (T : Type) : Program T (Shared T) Pc Input LoopAct (Event T) := ⟨next, loopStep⟩

/-- A state of the router. -/
abbrev RouterState (T : Type) := Program.State T (Shared T) Pc

/-- `Router::start`: no client, any read queue, every thread at the top of its
handler. -/
def Started (st : RouterState T) : Prop :=
  st.shared.sessions = Sessions.empty ∧ st.shared.writeQueue = [] ∧
    (∀ a, st.shared.holder a = none) ∧ st.shared.pushes = 0 ∧
    ∀ i, st.loc i = .popRead ∨ st.loc i = .popWrite

/-- All interleavings of the threads. -/
def workers (T : Type) [DecidableEq T] : Lts (RouterState T) (Event T) :=
  (router T).system Started

/-! ### The transitions -/

/-- What one step of thread `i` can be. -/
inductive Step (i : T) (sh : Shared T) : Pc → Event T → Pc → Shared T → Prop where
  | popRead {s : ℤ} {q : List ℤ} : sh.readQueue = s :: q →
      Step i sh .popRead (.poppedRead i s) (.findSrc s) { sh with readQueue := q }
  | findSrc_none {s : ℤ} : sh.sessions.findSessionBySocket s = none →
      Step i sh (.findSrc s) (.lookedUp i s none) .popRead sh
  | findSrc {s : ℤ} {a : Addr} : sh.sessions.sessionsBySocket s = some (some a) →
      Step i sh (.findSrc s) (.lookedUp i s (some a)) (.lockSrc s a) sh
  | lockSrc {s : ℤ} {a : Addr} : sh.holder a = none →
      Step i sh (.lockSrc s a) (.locked i a) (.refindSrc s a) (sh.setHolder a (some i))
  | refindSrc_none {s : ℤ} {a : Addr} : sh.sessions.findSessionBySocket s = none →
      Step i sh (.refindSrc s a) (.lookedUp i s none) (.unlockSrc s a) sh
  | refindSrc {s : ℤ} {a src : Addr} : sh.sessions.sessionsBySocket s = some (some src) →
      Step i sh (.refindSrc s a) (.lookedUp i s (some src)) (.turn s a src) sh
  | turn_id {s : ℤ} {a src : Addr} : sh.sessions.getId (some src) = NONE →
      Step i sh (.turn s a src) (.turned i s .idMessage) (.recv s a src .idMessage []) sh
  | turn_data {s : ℤ} {a src : Addr} : sh.sessions.getId (some src) ≠ NONE →
      Step i sh (.turn s a src) (.turned i s .dataMessage) (.recv s a src .dataMessage []) sh
  | recv_id {s : ℤ} {a src : Addr} {got bs : List UInt8} : bs ≠ [] →
      (got ++ bs).length = idMessageSize →
      Step i sh (.recv s a src .idMessage got) (.received i s (.bytes bs))
        (.addNode s a src (got ++ bs)) sh
  | recv_data {s : ℤ} {a src : Addr} {got bs : List UInt8} : bs ≠ [] →
      (got ++ bs).length = dataMessageSize →
      Step i sh (.recv s a src .dataMessage got) (.received i s (.bytes bs))
        (.findDst s a src (got ++ bs)) sh
  | recv_more {s : ℤ} {a src : Addr} {w : Wanted} {got bs : List UInt8} : bs ≠ [] →
      (got ++ bs).length < w.size →
      Step i sh (.recv s a src w got) (.received i s (.bytes bs)) (.recv s a src w (got ++ bs)) sh
  | recv_nothing {s : ℤ} {a src : Addr} {w : Wanted} :
      Step i sh (.recv s a src w []) (.received i s .wouldBlock) (.unlockSrc s a) sh
  | recv_short {s : ℤ} {a src : Addr} {w : Wanted} {got : List UInt8} : got ≠ [] →
      Step i sh (.recv s a src w got) (.received i s .wouldBlock) (.turn s a src) sh
  | recv_failed {s : ℤ} {a src : Addr} {w : Wanted} {got : List UInt8} {r : Recv} :
      r = .closed ∨ r = .error →
      Step i sh (.recv s a src w got) (.received i s r) (.removeSrc s a src) sh
  | addNode {s : ℤ} {a src : Addr} {w : List UInt8} :
      Step i sh (.addNode s a src w) (.added i s (announcedId w)) (.turn s a src)
        { sh with sessions := sh.sessions.addNode s (announcedId w) }
  | findDst_none {s : ℤ} {a src : Addr} {m : List UInt8} :
      sh.sessions.findSessionById (destinationId m) = none →
      Step i sh (.findDst s a src m) (.routed i s m none) (.unlockSrc s a) sh
  | findDst {s : ℤ} {a src dst : Addr} {m : List UInt8} :
      sh.sessions.sessionsById (destinationId m) = some (some dst) →
      Step i sh (.findDst s a src m) (.routed i s m (some dst)) (.forward s a src dst m) sh
  | forward {s : ℤ} {a src dst : Addr} {m : List UInt8} :
      Step i sh (.forward s a src dst m) (.pushed i s (sh.task dst m)) (.turn s a src)
        (sh.push (sh.task dst m))
  | removeSrc {s : ℤ} {a src : Addr} :
      Step i sh (.removeSrc s a src) (.removed i s) (.unlockSrc s a)
        { sh with sessions := sh.sessions.removeSession s }
  | unlockSrc {s : ℤ} {a : Addr} :
      Step i sh (.unlockSrc s a) (.unlocked i a) .popRead (sh.setHolder a none)
  | popWrite {t : Task} {q : List Task} : sh.writeQueue = t :: q →
      Step i sh .popWrite (.poppedWrite i t) (.findSession t) { sh with writeQueue := q }
  | findSession_none {t : Task} : sh.sessions.findSessionBySocket t.socket = none →
      Step i sh (.findSession t) (.dropped i t) .popWrite sh
  | findSession {t : Task} {a : Addr} : sh.sessions.sessionsBySocket t.socket = some (some a) →
      Step i sh (.findSession t) (.found i t a) (.lockDst t a) sh
  | lockDst {t : Task} {a : Addr} : sh.holder a = none →
      Step i sh (.lockDst t a) (.lockedDst i t a) (.send t a) (sh.setHolder a (some i))
  | send {t : Task} {a : Addr} :
      Step i sh (.send t a) (.sent i t.seq t.socket t.msg true) (.unlockDst t a) sh
  | send_failed {t : Task} {a : Addr} :
      Step i sh (.send t a) (.sent i t.seq t.socket t.msg false) (.removeDst t a) sh
  | removeDst {t : Task} {a : Addr} :
      Step i sh (.removeDst t a) (.removed i (sh.sessions.getSocket (some a)))
        (.unlockDst t a)
        { sh with sessions := sh.sessions.removeSession (sh.sessions.getSocket (some a)) }
  | unlockDst {t : Task} {a : Addr} :
      Step i sh (.unlockDst t a) (.unlocked i a) .popWrite (sh.setHolder a none)

variable {sh sh' : Shared T} {i : T} {pc pc' : Pc} {e : Event T} {inp : Input}

lemma step_of_afterRecv {s : ℤ} {a src : Addr} {w : Wanted} {got : List UInt8} {r : Recv}
    (h : afterRecv s a src w got r = some pc') :
    Step i sh (.recv s a src w got) (.received i s r) pc' sh := by
  cases r with
  | bytes bs =>
      simp only [afterRecv] at h
      split_ifs at h with hbad hfull
      · push Not at hbad
        rw [← List.length_append] at hfull
        cases w with
        | idMessage =>
            cases h
            exact .recv_id hbad.1 hfull
        | dataMessage =>
            cases h
            exact .recv_data hbad.1 hfull
      · push Not at hbad
        cases h
        refine .recv_more hbad.1 ?_
        rw [List.length_append]
        omega
  | wouldBlock =>
      simp only [afterRecv, Option.some.injEq] at h
      subst h
      split_ifs with hgot
      · subst hgot
        exact .recv_nothing
      · exact .recv_short hgot
  | closed =>
      cases h
      exact .recv_failed (.inl rfl)
  | error =>
      cases h
      exact .recv_failed (.inr rfl)

/-- Every step of the program is one of these. -/
lemma step_of_next (h : next sh i pc inp = some (e, pc', sh')) : Step i sh pc e pc' sh' := by
  cases pc <;> cases inp
  case recv.recv s a src w got r =>
    simp only [next, Option.map_eq_some_iff, Prod.mk.injEq] at h
    obtain ⟨pc, hpc, rfl, rfl, rfl⟩ := h
    exact step_of_afterRecv hpc
  case send.sent t a ok =>
    cases ok with
    | true => cases h; exact .send
    | false => cases h; exact .send_failed
  case turn.go s a src =>
    simp only [next] at h
    split_ifs at h with hid
    · cases h; exact .turn_id hid
    · cases h; exact .turn_data hid
  case popRead.go =>
    simp only [next] at h
    split at h
    · cases h
    · rename_i hpop
      cases h
      exact .popRead (SignalingQueue.pop_eq_some.mp hpop)
  case popWrite.go =>
    simp only [next] at h
    split at h
    · cases h
    · rename_i hpop
      cases h
      exact .popWrite (SignalingQueue.pop_eq_some.mp hpop)
  case findSrc.go s =>
    simp only [next] at h
    split at h
    · rename_i hfind
      cases h
      exact .findSrc_none hfind
    · rename_i hfind
      cases h
      exact .findSrc (Sessions.findSessionBySocket_eq_some.mp hfind)
  case refindSrc.go s a =>
    simp only [next] at h
    split at h
    · rename_i hfind
      cases h
      exact .refindSrc_none hfind
    · rename_i hfind
      cases h
      exact .refindSrc (Sessions.findSessionBySocket_eq_some.mp hfind)
  case findDst.go s a src m =>
    simp only [next] at h
    split at h
    · rename_i hfind
      cases h
      exact .findDst_none hfind
    · rename_i hfind
      cases h
      exact .findDst (Sessions.findSessionById_eq_some.mp hfind)
  case findSession.go t =>
    simp only [next] at h
    split at h
    · rename_i hfind
      cases h
      exact .findSession_none hfind
    · rename_i hfind
      cases h
      exact .findSession (Sessions.findSessionBySocket_eq_some.mp hfind)
  case lockSrc.go s a =>
    simp only [next] at h
    split at h
    · rename_i hfree
      cases h
      exact .lockSrc hfree
    · cases h
  case lockDst.go t a =>
    simp only [next] at h
    split at h
    · rename_i hfree
      cases h
      exact .lockDst hfree
    · cases h
  case addNode.go => cases h; exact .addNode
  case forward.go => cases h; exact .forward
  case removeSrc.go => cases h; exact .removeSrc
  case unlockSrc.go => cases h; exact .unlockSrc
  case removeDst.go => cases h; exact .removeDst
  case unlockDst.go => cases h; exact .unlockDst
  -- the other inputs do not fit their location
  all_goals cases h

/-- What a step of the event loop can be. -/
lemma loopStep_cases {act : LoopAct} (h : loopStep sh act = some (e, sh')) :
    (∃ s S, e = .accepted s ∧ s ∉ sh.opened ∧ sh.sessions.acceptClient s = some S ∧
      sh' = { sh with sessions := S, opened := s :: sh.opened }) ∨
    (∃ s, e = .readable s ∧
      sh' = { sh with readQueue := SignalingQueue.push sh.readQueue s true }) := by
  cases act with
  | accept s =>
      simp only [loopStep] at h
      split_ifs at h with hs
      simp only [Option.map_eq_some_iff, Prod.mk.injEq] at h
      obtain ⟨S, hS, rfl, rfl⟩ := h
      exact .inl ⟨s, S, rfl, hs, hS, rfl⟩
  | readable s =>
      simp only [loopStep, Option.some.injEq, Prod.mk.injEq] at h
      exact .inr ⟨s, h.1.symm, h.2.symm⟩

/-- What a step does to the registration of sockets: nothing, or it removes
one. -/
lemma Step.bySocket_cases (h : Step i sh pc e pc' sh') :
    sh'.sessions.sessionsBySocket = sh.sessions.sessionsBySocket ∨
    ∃ s, e = .removed i s ∧
      sh'.sessions.sessionsBySocket = Function.update sh.sessions.sessionsBySocket s none := by
  cases h with
  | addNode => exact .inl Sessions.addNode_sessionsBySocket
  | removeSrc => exact .inr ⟨_, rfl, Sessions.removeSession_sessionsBySocket⟩
  | removeDst => exact .inr ⟨_, rfl, Sessions.removeSession_sessionsBySocket⟩
  | _ => exact .inl rfl

/-- A thread accepts nobody, and may remove one client. -/
lemma Step.acceptedClients (h : Step i sh pc e pc' sh') :
    sh'.sessions.acceptedClients.Sublist sh.sessions.acceptedClients := by
  cases h with
  | addNode =>
      rw [Sessions.addNode_acceptedClients]
  | removeSrc =>
      rw [Sessions.removeSession_acceptedClients]
      exact List.erase_sublist
  | removeDst =>
      rw [Sessions.removeSession_acceptedClients]
      exact List.erase_sublist
  | _ => exact List.Sublist.refl _

/-- Only the event loop opens descriptors. -/
lemma Step.opened (h : Step i sh pc e pc' sh') : sh'.opened = sh.opened := by
  cases h <;> rfl

/-! ### What holds at each location -/

/-- What holds of the shared state: the registry is consistent, no two sessions
were made for one socket, an indexed session exists, and the tasks are for
sockets that were accepted. -/
structure Standing (sh : Shared T) : Prop where
  consistent : sh.sessions.Consistent
  unique : ∀ (a b : Addr) x y, sh.sessions.heap[a]? = some x → sh.sessions.heap[b]? = some y →
    x.socket = y.socket → a = b
  opened : ∀ (a : Addr) x, sh.sessions.heap[a]? = some x → x.socket ∈ sh.opened
  byId : ∀ k a, sh.sessions.sessionsById k = some (some a) → ∃ x, sh.sessions.heap[a]? = some x
  queued : ∀ t ∈ sh.writeQueue, t.socket ∈ sh.opened

/-- The session `a` was made for the socket `s`. -/
def SessionOf (sh : Shared T) (s : ℤ) (a : Addr) : Prop :=
  ∃ x, sh.sessions.heap[a]? = some x ∧ x.socket = s

/-- A reader inside its loop holds the mutex of the session of its socket, which
is registered and is the one it found again. -/
def Serving (sh : Shared T) (i : T) (s : ℤ) (a src : Addr) : Prop :=
  sh.holder a = some i ∧ src = a ∧ sh.sessions.sessionsBySocket s = some (some a)

/-- What holds of a thread at its location. -/
def Located (sh : Shared T) (i : T) : Pc → Prop
  | .lockSrc s a => SessionOf sh s a
  | .refindSrc s a => SessionOf sh s a ∧ sh.holder a = some i
  | .turn s a src => Serving sh i s a src
  | .recv s a src .idMessage _ => Serving sh i s a src ∧ sh.sessions.getId (some src) = NONE
  | .recv s a src .dataMessage _ => Serving sh i s a src
  | .addNode s a src w =>
      Serving sh i s a src ∧ sh.sessions.getId (some src) = NONE ∧ w.length = idMessageSize
  | .findDst s a src m => Serving sh i s a src ∧ m.length = dataMessageSize
  | .forward s a src dst m =>
      Serving sh i s a src ∧ m.length = dataMessageSize ∧ ∃ x, sh.sessions.heap[dst]? = some x
  | .removeSrc s a src => Serving sh i s a src
  | .unlockSrc s a => SessionOf sh s a ∧ sh.holder a = some i
  | .findSession t => t.socket ∈ sh.opened
  | .lockDst t a => SessionOf sh t.socket a
  | .send t a => SessionOf sh t.socket a ∧ sh.holder a = some i
  | .removeDst t a => SessionOf sh t.socket a ∧ sh.holder a = some i
  | .unlockDst t a => SessionOf sh t.socket a ∧ sh.holder a = some i
  | _ => True

/-- What thread `j` relies on: the sessions stay and keep their sockets, those
whose mutex it holds also keep their id, their registration and the mutex, and
an accepted socket stays so. -/
structure Keeps (j : T) (sh sh' : Shared T) : Prop where
  holder : ∀ b, sh.holder b = some j → sh'.holder b = some j
  heap : ∀ (b : Addr) x, sh.sessions.heap[b]? = some x → ∃ y, sh'.sessions.heap[b]? = some y ∧
    y.socket = x.socket ∧ (sh.holder b = some j → y.id = x.id)
  bySocket : ∀ b s, sh.holder b = some j → sh.sessions.sessionsBySocket s = some (some b) →
    sh'.sessions.sessionsBySocket s = some (some b)
  opened : ∀ s ∈ sh.opened, s ∈ sh'.opened

lemma Serving.sessionOf {s : ℤ} {a src : Addr} (hst : Standing sh) (h : Serving sh i s a src) :
    SessionOf sh s a := by
  obtain ⟨b, x, hb, hx, hs⟩ := hst.consistent.bySocket s _ h.2.2
  cases hb
  exact ⟨x, hx, hs⟩

/-- The session of a registered socket. -/
lemma SessionOf.of_bySocket {s : ℤ} {a : Addr} (hst : Standing sh)
    (h : sh.sessions.sessionsBySocket s = some (some a)) : SessionOf sh s a := by
  obtain ⟨b, x, hb, hx, hs⟩ := hst.consistent.bySocket s _ h
  cases hb
  exact ⟨x, hx, hs⟩

/-- A registered socket has a session. -/
lemma Standing.exists_session {s : ℤ} (hst : Standing sh)
    (h : sh.sessions.sessionsBySocket s ≠ none) :
    ∃ a, sh.sessions.sessionsBySocket s = some (some a) ∧ SessionOf sh s a := by
  obtain ⟨p, hp⟩ := Option.ne_none_iff_exists'.mp h
  obtain ⟨a, x, rfl, hx, hs⟩ := hst.consistent.bySocket s p hp
  exact ⟨a, hp, x, hx, hs⟩

/-- A socket has one session. -/
lemma SessionOf.inj {s : ℤ} {a b : Addr} (hst : Standing sh) (ha : SessionOf sh s a)
    (hb : SessionOf sh s b) : a = b := by
  obtain ⟨x, hx, rfl⟩ := ha
  obtain ⟨y, hy, hxy⟩ := hb
  exact hst.unique a b x y hx hy hxy.symm

lemma SessionOf.getSocket {s : ℤ} {a : Addr} (h : SessionOf sh s a) :
    sh.sessions.getSocket (some a) = s := by
  obtain ⟨x, hx, rfl⟩ := h
  exact Sessions.getSocket_of_heap hx

/-- The socket and the session whose mutex a thread holds at its location. -/
def Pc.held : Pc → Option (ℤ × Addr)
  | .refindSrc s a => some (s, a)
  | .turn s a _ => some (s, a)
  | .recv s a _ _ _ => some (s, a)
  | .addNode s a _ _ => some (s, a)
  | .findDst s a _ _ => some (s, a)
  | .forward s a _ _ _ => some (s, a)
  | .removeSrc s a _ => some (s, a)
  | .unlockSrc s a => some (s, a)
  | .send t a => some (t.socket, a)
  | .removeDst t a => some (t.socket, a)
  | .unlockDst t a => some (t.socket, a)
  | _ => none

/-- A thread holds the mutex of the session at which it stands. -/
lemma Located.held {s : ℤ} {a : Addr} (hst : Standing sh) (hl : Located sh i pc)
    (h : pc.held = some (s, a)) :
    SessionOf sh s a ∧ sh.holder a = some i := by
  have hserv : ∀ {t : ℤ} {b src : Addr}, Serving sh i t b src → some (t, b) = some (s, a) →
      SessionOf sh s a ∧ sh.holder a = some i := by
    intro t b src hs heq
    cases heq
    exact ⟨hs.sessionOf hst, hs.1⟩
  have hpair : ∀ {t : ℤ} {b : Addr}, SessionOf sh t b ∧ sh.holder b = some i →
      some (t, b) = some (s, a) → SessionOf sh s a ∧ sh.holder a = some i := by
    intro t b hs heq
    cases heq
    exact hs
  cases pc with
  | refindSrc => exact hpair hl h
  | turn => exact hserv hl h
  | recv _ _ _ w _ =>
      cases w with
      | idMessage => exact hserv hl.1 h
      | dataMessage => exact hserv hl h
  | addNode => exact hserv hl.1 h
  | findDst => exact hserv hl.1 h
  | forward => exact hserv hl.1 h
  | removeSrc => exact hserv hl h
  | unlockSrc => exact hpair hl h
  | send => exact hpair hl h
  | removeDst => exact hpair hl h
  | unlockDst => exact hpair hl h
  | popRead => cases h
  | findSrc => cases h
  | lockSrc => cases h
  | popWrite => cases h
  | findSession => cases h
  | lockDst => cases h

/-! ### What the steps leave to the other threads -/

section Keeps

variable {j : T} {s : ℤ} {a src : Addr}

lemma Keeps.of_eq (hs : sh'.sessions = sh.sessions) (hh : sh'.holder = sh.holder)
    (ho : sh'.opened = sh.opened) : Keeps j sh sh' := by
  refine ⟨fun b hb => by rw [hh]; exact hb, fun b x hx => ?_,
    fun b s _ hs' => by rw [hs]; exact hs',
    fun s hs' => by rw [ho]; exact hs'⟩
  exact ⟨x, by rw [hs]; exact hx, rfl, fun _ => rfl⟩

lemma Keeps.lock {o : Option T} (h : sh.holder a ≠ some j) : Keeps j sh (sh.setHolder a o) := by
  refine ⟨fun b hb => ?_, fun b x hx => ⟨x, hx, rfl, fun _ => rfl⟩, fun b s _ hs => hs,
    fun s hs => hs⟩
  have hba : b ≠ a := by
    rintro rfl
    exact h hb
  show Function.update sh.holder a o b = some j
  rw [Function.update_of_ne hba]
  exact hb

/-- An object keeps its socket under `add_node`, and all but the named one their
id. -/
lemma addNode_heap_cases {S : Sessions} {k : ℤ} (hs : S.sessionsBySocket s = some (some a))
    (b : Addr) :
    (S.addNode s k).heap[b]? = S.heap[b]? ∨
      b = a ∧ (S.addNode s k).heap[b]? = S.heap[b]?.map fun x => { x with id := k } := by
  by_cases hk : k < maxClientsCount
  · rw [Sessions.addNode_heap hs hk]
    by_cases hba : b = a
    · exact .inr ⟨hba, if_pos hba⟩
    · exact .inl (if_neg hba)
  · exact .inl (by rw [Sessions.addNode_of_rejected (.inr (not_lt.mp hk))])

lemma Keeps.addNode {k : ℤ} (hj : j ≠ i) (h : Serving sh i s a src) :
    Keeps j sh { sh with sessions := sh.sessions.addNode s k } := by
  refine ⟨fun b hb => hb, fun b x hx => ?_, fun b t _ ht => ?_, fun t ht => ht⟩
  · rcases addNode_heap_cases (k := k) h.2.2 b with hsame | ⟨hba, hnamed⟩
    · exact ⟨x, hsame.trans hx, rfl, fun _ => rfl⟩
    · refine ⟨{ x with id := k }, hnamed.trans (by rw [hx]; rfl), rfl, fun hb => ?_⟩
      rw [hba, h.1] at hb
      exact absurd (Option.some.inj hb).symm hj
  · rw [Sessions.addNode_sessionsBySocket]
    exact ht

lemma Keeps.removeSession (hst : Standing sh) (hj : j ≠ i) (hs : SessionOf sh s a)
    (ha : sh.holder a = some i) :
    Keeps j sh { sh with sessions := sh.sessions.removeSession s } := by
  refine ⟨fun b hb => hb, fun b x hx => ⟨x, by simpa using hx, rfl, fun _ => rfl⟩, ?_,
    fun t ht => ht⟩
  intro b t hb ht
  -- the session removed is the one whose mutex `i` holds
  have hts : t ≠ s := by
    rintro rfl
    obtain rfl := (SessionOf.of_bySocket hst ht).inj hst hs
    rw [ha] at hb
    exact hj (Option.some.inj hb).symm
  rw [Sessions.removeSession_sessionsBySocket, Function.update_of_ne hts]
  exact ht

lemma Keeps.accept {S : Sessions} (hs : sh.sessions.acceptClient s = some S) :
    Keeps j sh { sh with sessions := S, opened := s :: sh.opened } := by
  obtain ⟨hnone, hbs, -, -, -⟩ := Sessions.acceptClient_spec hs
  refine ⟨fun b hb => hb,
    fun b x hx => ⟨x, Sessions.acceptClient_heap hs hx, rfl, fun _ => rfl⟩, fun b t _ ht => ?_,
    fun t ht => List.mem_cons_of_mem _ ht⟩
  show S.sessionsBySocket t = some (some b)
  rw [hbs, Function.update_of_ne, ht]
  rintro rfl
  rw [hnone] at ht
  cases ht

lemma Keeps.sessionOf (hk : Keeps j sh sh') (h : SessionOf sh s a) : SessionOf sh' s a := by
  obtain ⟨x, hx, rfl⟩ := h
  obtain ⟨y, hy, hyx, -⟩ := hk.heap a x hx
  exact ⟨y, hy, hyx⟩

lemma Keeps.serving (hk : Keeps j sh sh') (h : Serving sh j s a src) : Serving sh' j s a src :=
  ⟨hk.holder a h.1, h.2.1, hk.bySocket a s h.1 h.2.2⟩

lemma Keeps.getId (hst : Standing sh) (hk : Keeps j sh sh') (h : Serving sh j s a src) :
    sh'.sessions.getId (some src) = sh.sessions.getId (some src) := by
  obtain ⟨x, hx, -⟩ := h.sessionOf hst
  obtain ⟨y, hy, -, hid⟩ := hk.heap a x hx
  rw [h.2.1, Sessions.getId_of_heap hx, Sessions.getId_of_heap hy, hid h.1]

/-- What holds of a thread at its location is stable. -/
lemma Located.stable (hst : Standing sh) (hk : Keeps j sh sh') (h : Located sh j pc) :
    Located sh' j pc := by
  cases pc with
  | lockSrc s a => exact hk.sessionOf h
  | refindSrc s a => exact ⟨hk.sessionOf h.1, hk.holder a h.2⟩
  | turn s a src => exact hk.serving h
  | recv s a src w got =>
      cases w with
      | idMessage => exact ⟨hk.serving h.1, (hk.getId hst h.1).trans h.2⟩
      | dataMessage => exact hk.serving h
  | addNode s a src w => exact ⟨hk.serving h.1, (hk.getId hst h.1).trans h.2.1, h.2.2⟩
  | findDst s a src m => exact ⟨hk.serving h.1, h.2⟩
  | forward s a src dst m =>
      obtain ⟨hserv, hlen, x, hx⟩ := h
      obtain ⟨y, hy, -⟩ := hk.heap dst x hx
      exact ⟨hk.serving hserv, hlen, y, hy⟩
  | removeSrc s a src => exact hk.serving h
  | unlockSrc s a => exact ⟨hk.sessionOf h.1, hk.holder a h.2⟩
  | lockDst t a => exact hk.sessionOf h
  | send t a => exact ⟨hk.sessionOf h.1, hk.holder a h.2⟩
  | removeDst t a => exact ⟨hk.sessionOf h.1, hk.holder a h.2⟩
  | unlockDst t a => exact ⟨hk.sessionOf h.1, hk.holder a h.2⟩
  | popRead => trivial
  | findSrc s => trivial
  | popWrite => trivial
  | findSession t => exact hk.opened t.socket h

end Keeps

/-! ### What a step keeps for itself -/

/-- A step that makes no session keeps `Standing` when the registry stays
consistent, the sockets of the sessions are the old ones, and the entries of
the id index and the tasks are in order. -/
lemma Standing.of_sockets (hst : Standing sh) (hc : sh'.sessions.Consistent)
    (ho : sh'.opened = sh.opened)
    (hheap : ∀ (b : Addr) y, sh'.sessions.heap[b]? = some y →
      ∃ x, sh.sessions.heap[b]? = some x ∧ x.socket = y.socket)
    (hbyId : ∀ k a, sh'.sessions.sessionsById k = some (some a) →
      ∃ x, sh'.sessions.heap[a]? = some x)
    (hq : ∀ t ∈ sh'.writeQueue, t.socket ∈ sh.opened) : Standing sh' := by
  refine ⟨hc, fun a b y z hy hz hyz => ?_, fun a y hy => ?_, hbyId, fun t ht => ho ▸ hq t ht⟩
  · obtain ⟨x, hx, hxy⟩ := hheap a y hy
    obtain ⟨w, hw, hwz⟩ := hheap b z hz
    exact hst.unique a b x w hx hw (by rw [hxy, hwz, hyz])
  · obtain ⟨x, hx, hxy⟩ := hheap a y hy
    rw [ho, ← hxy]
    exact hst.opened a x hx

lemma Standing.of_eq (hst : Standing sh) (hs : sh'.sessions = sh.sessions)
    (ho : sh'.opened = sh.opened) (hq : ∀ t ∈ sh'.writeQueue, t.socket ∈ sh.opened) :
    Standing sh' :=
  hst.of_sockets (by rw [hs]; exact hst.consistent) ho
    (fun b y hy => ⟨y, by rw [← hs]; exact hy, rfl⟩) (by rw [hs]; exact hst.byId) hq

lemma Standing.addNode {s k : ℤ} {a src : Addr} (hst : Standing sh) (h : Serving sh i s a src)
    (hid : sh.sessions.getId (some src) = NONE) :
    Standing { sh with sessions := sh.sessions.addNode s k } := by
  have hid' : ∀ p, sh.sessions.sessionsBySocket s = some p → sh.sessions.getId p = NONE := by
    intro p hp
    rw [h.2.2] at hp
    cases hp
    rw [← h.2.1]
    exact hid
  have hheap : ∀ (b : Addr) x, sh.sessions.heap[b]? = some x →
      ∃ y, (sh.sessions.addNode s k).heap[b]? = some y ∧ x.socket = y.socket := by
    intro b x hx
    rcases addNode_heap_cases (k := k) h.2.2 b with hsame | ⟨-, hnamed⟩
    · exact ⟨x, hsame.trans hx, rfl⟩
    · rw [hx] at hnamed
      exact ⟨_, hnamed, rfl⟩
  refine hst.of_sockets (hst.consistent.addNode hid') rfl (fun b y hy => ?_) (fun j b hj => ?_)
    hst.queued
  · rcases addNode_heap_cases (k := k) h.2.2 b with hsame | ⟨-, hnamed⟩
    · exact ⟨y, hsame.symm.trans hy, rfl⟩
    · rw [show (_ : Option Session) = _ from hnamed, Option.map_eq_some_iff] at hy
      obtain ⟨x, hx, rfl⟩ := hy
      exact ⟨x, hx, rfl⟩
  · obtain ⟨x, hx⟩ : ∃ x, sh.sessions.heap[b]? = some x := by
      rcases Sessions.sessionsById_of_addNode hj with hold | ⟨-, -, hreg⟩
      · exact hst.byId j b hold
      · obtain ⟨x, hx, -⟩ := SessionOf.of_bySocket hst hreg
        exact ⟨x, hx⟩
    obtain ⟨y, hy, -⟩ := hheap b x hx
    exact ⟨y, hy⟩

lemma Standing.removeSession {s : ℤ} (hst : Standing sh) :
    Standing { sh with sessions := sh.sessions.removeSession s } := by
  refine hst.of_sockets hst.consistent.removeSession rfl
    (fun b y hy => ⟨y, by simpa using hy, rfl⟩) (fun k a hk => ?_) hst.queued
  obtain ⟨x, hx⟩ := hst.byId k a (Sessions.sessionsById_of_removeSession hk).1
  exact ⟨x, by simpa using hx⟩

lemma Standing.push {dst : Addr} {x : Session} {m : List UInt8} (hst : Standing sh)
    (hx : sh.sessions.heap[dst]? = some x) : Standing (sh.push (sh.task dst m)) := by
  refine hst.of_eq rfl rfl fun t ht => ?_
  rw [Shared.push, SignalingQueue.push_false] at ht
  rcases List.mem_append.mp ht with ht | ht
  · exact hst.queued t ht
  · rw [List.mem_singleton.mp ht, Shared.task, Sessions.getSocket_of_heap hx]
    exact hst.opened dst x hx

lemma Standing.accept {s : ℤ} {S : Sessions} (hst : Standing sh) (hnew : s ∉ sh.opened)
    (hs : sh.sessions.acceptClient s = some S) :
    Standing { sh with sessions := S, opened := s :: sh.opened } := by
  obtain ⟨-, -, hbi, -, hhp⟩ := Sessions.acceptClient_spec hs
  -- a session is an old one, or the one of the new socket
  have hcases : ∀ (b : Addr) y, S.heap[b]? = some y →
      sh.sessions.heap[b]? = some y ∨ b = sh.sessions.heap.length ∧ y.socket = s := by
    intro b y hy
    rw [hhp, List.getElem?_append] at hy
    split_ifs at hy with hlt
    · exact .inl hy
    · obtain ⟨hb, rfl⟩ := List.getElem?_eq_some_iff.mp hy
      rw [List.length_singleton, Nat.lt_one_iff, Nat.sub_eq_zero_iff_le] at hb
      exact .inr ⟨le_antisymm hb (not_lt.mp hlt), by simp [Session.new]⟩
  refine ⟨hst.consistent.acceptClient hs, fun a b y z hy hz hyz => ?_, fun a y hy => ?_,
    fun k a hk => ?_, fun t ht => List.mem_cons_of_mem _ (hst.queued t ht)⟩
  · rcases hcases a y hy with hy' | ⟨rfl, hys⟩ <;> rcases hcases b z hz with hz' | ⟨rfl, hzs⟩
    · exact hst.unique a b y z hy' hz' hyz
    · exact absurd (hst.opened a y hy') (by rw [hyz, hzs]; exact hnew)
    · exact absurd (hst.opened b z hz') (by rw [← hyz, hys]; exact hnew)
    · rfl
  · rcases hcases a y hy with hy' | ⟨-, hys⟩
    · exact List.mem_cons_of_mem _ (hst.opened a y hy')
    · exact hys ▸ List.mem_cons_self
  · obtain ⟨x, hx⟩ := hst.byId k a (hbi ▸ hk)
    exact ⟨x, Sessions.acceptClient_heap hs hx⟩

/-- **One step** of a thread keeps the registry in order, puts the thread where it
should be, and leaves to the others what they rely on. -/
lemma Step.located (hst : Standing sh) (hl : Located sh i pc) (h : Step i sh pc e pc' sh') :
    Standing sh' ∧ Located sh' i pc' ∧ ∀ j, j ≠ i → Keeps j sh sh' := by
  have hid : ∀ j, j ≠ i → Keeps j sh sh := fun j _ => .of_eq rfl rfl rfl
  have hfree : ∀ {a : Addr} {o : Option T}, sh.holder a = none ∨ sh.holder a = some i →
      ∀ j, j ≠ i → Keeps j sh (sh.setHolder a o) := by
    intro a o ha j hj
    refine .lock fun h => ?_
    rcases ha with ha | ha
    · rw [ha] at h; cases h
    · rw [ha] at h; exact hj (Option.some.inj h).symm
  cases h with
  | popRead _ => exact ⟨hst.of_eq rfl rfl hst.queued, trivial, fun j _ => .of_eq rfl rfl rfl⟩
  | findSrc_none _ => exact ⟨hst, trivial, hid⟩
  | findSrc hs => exact ⟨hst, .of_bySocket hst hs, hid⟩
  | lockSrc ha =>
      exact ⟨hst.of_eq rfl rfl hst.queued, ⟨hl, Function.update_self _ _ _⟩, hfree (.inl ha)⟩
  | refindSrc_none _ => exact ⟨hst, hl, hid⟩
  | refindSrc hs =>
      obtain rfl := (SessionOf.of_bySocket hst hs).inj hst hl.1
      exact ⟨hst, ⟨hl.2, rfl, hs⟩, hid⟩
  | turn_id hnone => exact ⟨hst, ⟨hl, hnone⟩, hid⟩
  | turn_data _ => exact ⟨hst, hl, hid⟩
  | recv_id _ hlen => exact ⟨hst, ⟨hl.1, hl.2, hlen⟩, hid⟩
  | recv_data _ hlen => exact ⟨hst, ⟨hl, hlen⟩, hid⟩
  | @recv_more s a src w got bs _ _ =>
      cases w with
      | idMessage => exact ⟨hst, hl, hid⟩
      | dataMessage => exact ⟨hst, hl, hid⟩
  | @recv_nothing s a src w =>
      cases w with
      | idMessage => exact ⟨hst, ⟨hl.1.sessionOf hst, hl.1.1⟩, hid⟩
      | dataMessage => exact ⟨hst, ⟨hl.sessionOf hst, hl.1⟩, hid⟩
  | @recv_short s a src w got _ =>
      cases w with
      | idMessage => exact ⟨hst, hl.1, hid⟩
      | dataMessage => exact ⟨hst, hl, hid⟩
  | @recv_failed s a src w got r _ =>
      cases w with
      | idMessage => exact ⟨hst, hl.1, hid⟩
      | dataMessage => exact ⟨hst, hl, hid⟩
  | addNode =>
      refine ⟨hst.addNode hl.1 hl.2.1, ⟨hl.1.1, hl.1.2.1, ?_⟩, fun j hj => .addNode hj hl.1⟩
      simpa using hl.1.2.2
  | findDst_none _ => exact ⟨hst, ⟨hl.1.sessionOf hst, hl.1.1⟩, hid⟩
  | findDst hdst => exact ⟨hst, ⟨hl.1, hl.2, hst.byId _ _ hdst⟩, hid⟩
  | forward =>
      obtain ⟨x, hx⟩ := hl.2.2
      exact ⟨hst.push hx, hl.1, fun j _ => .of_eq rfl rfl rfl⟩
  | @removeSrc s a src =>
      obtain ⟨x, hx, hxs⟩ := hl.sessionOf hst
      exact ⟨hst.removeSession, ⟨⟨x, by simpa using hx, hxs⟩, hl.1⟩,
        fun j hj => .removeSession hst hj ⟨x, hx, hxs⟩ hl.1⟩
  | unlockSrc => exact ⟨hst.of_eq rfl rfl hst.queued, trivial, hfree (.inr hl.2)⟩
  | @popWrite t q hq =>
      have hmem : ∀ u ∈ t :: q, u.socket ∈ sh.opened := fun u hu => hst.queued u (hq ▸ hu)
      exact ⟨hst.of_eq rfl rfl fun u hu => hmem u (List.mem_cons_of_mem _ hu),
        hmem t List.mem_cons_self, fun j _ => .of_eq rfl rfl rfl⟩
  | findSession_none _ => exact ⟨hst, trivial, hid⟩
  | findSession hs => exact ⟨hst, .of_bySocket hst hs, hid⟩
  | lockDst ha =>
      exact ⟨hst.of_eq rfl rfl hst.queued, ⟨hl, Function.update_self _ _ _⟩, hfree (.inl ha)⟩
  | send => exact ⟨hst, hl, hid⟩
  | send_failed => exact ⟨hst, hl, hid⟩
  | @removeDst t a =>
      obtain ⟨x, hx, hxs⟩ := hl.1
      rw [hl.1.getSocket]
      exact ⟨hst.removeSession, ⟨⟨x, by simpa using hx, hxs⟩, hl.2⟩,
        fun j hj => .removeSession hst hj ⟨x, hx, hxs⟩ hl.2⟩
  | unlockDst => exact ⟨hst.of_eq rfl rfl hst.queued, trivial, hfree (.inr hl.2)⟩

/-- **Every interleaving** of the threads keeps the registry in order and every
thread where it should be. -/
theorem standing_of_reaches [DecidableEq T] {tr : List (Event T)} {st : RouterState T}
    (h : (workers T).Reaches tr st) : Standing st.shared ∧ ∀ i, Located st.shared i (st.loc i) := by
  refine Program.interference_free (fun _ => Standing) (fun _ => Located) ?_ ?_ ?_ ?_ h
  · rintro st ⟨hS, hq, -, -, hloc⟩
    refine ⟨⟨?_, ?_, ?_, ?_, ?_⟩, fun i => ?_⟩
    · rw [hS]
      exact Sessions.consistent_empty
    · simp [hS, Sessions.empty]
    · simp [hS, Sessions.empty]
    · simp [hS, Sessions.empty]
    · simp [hq]
    · rcases hloc i with hi | hi
      · rw [hi]
        trivial
      · rw [hi]
        trivial
  · intro tr sh i l inp e l' sh' hst hl hn
    obtain ⟨hst', hl', -⟩ := (step_of_next hn).located hst hl
    exact ⟨hst', hl'⟩
  · intro tr sh i l inp e l' sh' j m hj hst hl hm hn
    exact hm.stable hst (((step_of_next hn).located hst hl).2.2 j hj)
  · intro tr sh act e sh' hst hn
    rcases loopStep_cases hn with ⟨s, S, -, hnew, hS, rfl⟩ | ⟨s, -, rfl⟩
    · exact ⟨hst.accept hnew hS, fun j m hm => hm.stable hst (.accept hS)⟩
    · exact ⟨hst.of_eq rfl rfl hst.queued, fun j m hm => hm.stable hst (.of_eq rfl rfl rfl)⟩

/-- Everything one step of the router can be. -/
lemma workers_step_cases [DecidableEq T] {st st' : RouterState T}
    (h : (workers T).step st e st') :
    (∃ i pc' sh', Step i st.shared (st.loc i) e pc' sh' ∧
      st' = ⟨sh', Function.update st.loc i pc'⟩) ∨
    (∃ s S, e = .accepted s ∧ s ∉ st.shared.opened ∧ st.shared.sessions.acceptClient s = some S ∧
      st' = ⟨{ st.shared with sessions := S, opened := s :: st.shared.opened }, st.loc⟩) ∨
    (∃ s, e = .readable s ∧
      st' = ⟨{ st.shared with readQueue := SignalingQueue.push st.shared.readQueue s true },
        st.loc⟩) := by
  rcases Program.step_cases h with ⟨i, inp, l, sh, hn, rfl⟩ | ⟨act, sh, hn, rfl⟩
  · exact .inl ⟨i, l, sh, step_of_next hn, rfl⟩
  · rcases loopStep_cases hn with ⟨s, S, rfl, hnew, hS, rfl⟩ | ⟨s, rfl, rfl⟩
    · exact .inr (.inl ⟨s, S, rfl, hnew, hS, rfl⟩)
    · exact .inr (.inr ⟨s, rfl, rfl⟩)

/-! ### A removed socket stays removed -/

/-- The socket was accepted once and is no longer registered. -/
def Retired (s : ℤ) (sh : Shared T) : Prop :=
  s ∈ sh.opened ∧ sh.sessions.sessionsBySocket s = none

lemma Retired.of_removeSession {s t : ℤ} (h : t ∈ sh.opened)
    (hs : t = s ∨ sh.sessions.sessionsBySocket t = none) :
    Retired t { sh with sessions := sh.sessions.removeSession s } := by
  refine ⟨h, ?_⟩
  show (sh.sessions.removeSession s).sessionsBySocket t = none
  rw [Sessions.removeSession_sessionsBySocket]
  rcases hs with rfl | hs
  · exact Function.update_self _ _ _
  · by_cases hts : t = s
    · rw [hts]
      exact Function.update_self _ _ _
    · rw [Function.update_of_ne hts]
      exact hs

/-- A socket that a step removes is retired. -/
lemma Step.removed {s : ℤ} (hst : Standing sh) (hl : Located sh i pc)
    (h : Step i sh pc (.removed i s) pc' sh') : Retired s sh' := by
  have hopened : ∀ a, SessionOf sh s a → s ∈ sh.opened := by
    rintro a ⟨x, hx, rfl⟩
    exact hst.opened a x hx
  cases h with
  | removeSrc => exact .of_removeSession (hopened _ (hl.sessionOf hst)) (.inl rfl)
  | @removeDst t a =>
      have hsess : SessionOf sh (sh.sessions.getSocket (some a)) a := by
        rw [hl.1.getSocket]
        exact hl.1
      exact .of_removeSession (hopened a hsess) (.inl rfl)

/-- A retired socket stays so: the router never closes a descriptor, so it is not
accepted again. -/
lemma Retired.step {s : ℤ} (hr : Retired s sh) (h : Step i sh pc e pc' sh') : Retired s sh' := by
  cases h with
  | addNode => exact ⟨hr.1, by simpa using hr.2⟩
  | removeSrc => exact .of_removeSession hr.1 (.inr hr.2)
  | removeDst => exact .of_removeSession hr.1 (.inr hr.2)
  | _ => exact hr

lemma Retired.accept {s t : ℤ} {S : Sessions} (hr : Retired s sh) (hnew : t ∉ sh.opened)
    (hS : sh.sessions.acceptClient t = some S) :
    Retired s { sh with sessions := S, opened := t :: sh.opened } := by
  obtain ⟨-, hbs, -, -, -⟩ := Sessions.acceptClient_spec hS
  refine ⟨List.mem_cons_of_mem _ hr.1, ?_⟩
  show S.sessionsBySocket s = none
  rw [hbs, Function.update_of_ne, hr.2]
  rintro rfl
  exact hnew hr.1

/-- A retired socket stays so in every run. -/
lemma Retired.run [DecidableEq T] {s : ℤ} {st st' : RouterState T} {tr : List (Event T)}
    (hr : Retired s st.shared) (h : (workers T).Run st tr st') : Retired s st'.shared := by
  refine h.invariant (fun st => Retired s st.shared) hr ?_
  intro st e st' hr hs
  rcases workers_step_cases hs with ⟨i, pc', sh', hstep, rfl⟩ | ⟨t, S, -, hnew, hS, rfl⟩ |
    ⟨t, -, rfl⟩
  · exact hr.step hstep
  · exact hr.accept hnew hS
  · exact hr

/-- A step that removes a socket retires it. -/
lemma removed_retired [DecidableEq T] {s : ℤ} {j : T} {st st' : RouterState T}
    {tr : List (Event T)} (hr : (workers T).Reaches tr st)
    (h : (workers T).step st (.removed j s) st') : Retired s st'.shared := by
  obtain ⟨hst, hloc⟩ := standing_of_reaches hr
  rcases workers_step_cases h with ⟨i, pc', sh', hstep, rfl⟩ | ⟨t, S, he, -⟩ | ⟨t, he, -⟩
  · obtain rfl : j = i := by
      generalize st.loc i = pc at hstep
      cases hstep with
      | removeSrc => rfl
      | removeDst => rfl
    exact hstep.removed hst (hloc j)
  · cases he
  · cases he

end MessageRouting
