import MessageRouting.Lib.Locks
import MessageRouting.Router.EventLoop

/-!
The mutexes of the router: `sessions_mutex_` (`router/src/sessions.cpp`), the mutexes of
the two queues (`router/include/signaling_queue.h`) and the mutex of each session.

In `Router.Workers` a call on the registry or on a queue is one step. Here it is cut
into the steps that take the mutex, do the work and release the mutex, so that a
thread can be seen waiting for a mutex and holding others; `pop` on an empty queue
releases the mutex, sleeps and asks for it again. `Sessions::accept_client` calls
`removeSession` on a socket that is registered already, which asks for
`sessions_mutex_` once more (`Site.nested`).

* `Pc.guard`, `Phase`, `Site`: which mutex a call takes, and where a thread and the event
  loop stand in it; `locking`: all interleavings.
* `LockStep`: the transitions as a relation.
* `Ordered`: a mutex is held at the locations between its acquisition and its release.
* `router_of_locking`: every interleaving is one of `workers`, with the calls at once.
* `deadlock_free`: the guarantee. A session's mutex is only asked for by a thread that
  holds nothing, and the others only by threads that hold at most a session's.
-/

namespace MessageRouting

open Locks

/-! ### The program -/

/-- The mutexes that are not a session's. -/
inductive Guard where
  | sessions
  | readQueue
  | writeQueue
  deriving DecidableEq, Repr

/-- The mutexes. -/
inductive Mutex where
  | guard (g : Guard)
  | session (a : Addr)
  deriving DecidableEq, Repr

/-- The mutex that the call at a location takes: `std::shared_lock` in the two
`find_session` functions, `std::unique_lock` in all others. -/
def Pc.guard : Pc → Option (Guard × Mode)
  | .popRead => some (.readQueue, .exclusive)
  | .findSrc _ => some (.sessions, .shared)
  | .refindSrc _ _ => some (.sessions, .shared)
  | .addNode _ _ _ _ => some (.sessions, .exclusive)
  | .findDst _ _ _ _ => some (.sessions, .shared)
  | .forward _ _ _ _ _ => some (.writeQueue, .exclusive)
  | .removeSrc _ _ _ => some (.sessions, .exclusive)
  | .popWrite => some (.writeQueue, .exclusive)
  | .findSession _ => some (.sessions, .shared)
  | .removeDst _ _ => some (.sessions, .exclusive)
  | _ => none

/-- Where a thread stands in the call at its location: before it, under its mutex, after
the work with the mutex still held, or inside `m_cond.wait`. -/
inductive Phase where
  | ready
  | inside
  | leaving (g : Guard)
  | asleep
  deriving DecidableEq, Repr

/-- The thread is in `pop` and the queue is empty. -/
def Pc.starved {T : Type} (sh : Shared T) : Pc → Bool
  | .popRead => sh.readQueue.isEmpty
  | .popWrite => sh.writeQueue.isEmpty
  | _ => false

/-- Where the event loop stands: at `select`, before and under the mutex of
`Sessions::accept_client`, at the call of `removeSession` in it, before and under the
mutex of `push`, or after either with the mutex still held. -/
inductive Site where
  | select
  | accepted (s : ℤ)
  | registering (s : ℤ)
  | nested (s : ℤ)
  | reported (s : ℤ)
  | reporting (s : ℤ)
  | leaving (g : Guard)
  deriving DecidableEq, Repr

variable {T : Type}

/-- The router, the open client descriptors, the owners of the mutexes (`none` is the
event loop; the owner of a session's mutex stands in the router's state), and where
everybody stands. -/
structure LockState (T : Type) where
  router : RouterState T
  fds : List ℤ
  owners : Guard → List (Option T × Mode)
  phase : T → Phase
  site : Site

/-- Who moves. From `select` the event loop accepts a client or pushes a socket that is
ready, in any order; `loop` is its next step inside either. -/
inductive LockAct (T : Type) where
  | thread (i : T) (inp : Input)
  | connection (client : Option ℤ) (ok : Bool)
  | readable (s : ℤ)
  | loop

variable [DecidableEq T]

/-- A mutex with other owners. -/
def LockState.setOwners (st : LockState T) (g : Guard) (o : List (Option T × Mode)) :
    LockState T :=
  { st with owners := Function.update st.owners g o }

/-- A thread in another phase. -/
def LockState.setPhase (st : LockState T) (i : T) (p : Phase) : LockState T :=
  { st with phase := Function.update st.phase i p }

/-- One step of a reader or writer. -/
def LockState.threadStep (st : LockState T) (i : T) (inp : Input) :
    Option (Option (Event T) × LockState T) :=
  match st.phase i, (st.router.loc i).guard with
  | .ready, none =>
      ((MessageRouting.router T).step st.router (.thread i inp)).map fun r =>
        (some r.1, { st with router := r.2 })
  | .ready, some (g, mode) =>
      (acquire (st.owners g) (some i) mode).map fun o =>
        (none, (st.setOwners g o).setPhase i .inside)
  | .inside, some (g, _) =>
      -- `m_cond.wait`
      if (st.router.loc i).starved st.router.shared then
        some (none, (st.setOwners g (release (st.owners g) (some i))).setPhase i .asleep)
      else
        ((MessageRouting.router T).step st.router (.thread i inp)).map fun r =>
          (some r.1, { st with router := r.2 }.setPhase i (.leaving g))
  | .leaving g, _ =>
      some (none, (st.setOwners g (release (st.owners g) (some i))).setPhase i .ready)
  | .asleep, _ => some (none, st.setPhase i .ready)
  | .inside, none => none

/-- One step of the event loop inside `Sessions::accept_client` or `push`. -/
def LockState.loopStep (st : LockState T) : Option (Option (Event T) × LockState T) :=
  match st.site with
  | .select => none
  | .accepted s =>
      (acquire (st.owners .sessions) none .exclusive).map fun o =>
        (none, { st.setOwners .sessions o with site := .registering s })
  | .registering s =>
      match st.router.shared.sessions.acceptClient s with
      | none => some (none, { st with site := .nested s })
      | some S =>
          some (some (.accepted s), { st with
            router := ⟨{ st.router.shared with
              sessions := S, opened := s :: st.router.shared.opened }, st.router.loc⟩
            site := .leaving .sessions })
  -- the mutex is not recursive
  | .nested _ => none
  | .reported s =>
      (acquire (st.owners .readQueue) none .exclusive).map fun o =>
        (none, { st.setOwners .readQueue o with site := .reporting s })
  | .reporting s =>
      ((MessageRouting.router T).step st.router (.env (.readable s))).map fun r =>
        (some r.1, { st with router := r.2, site := .leaving .readQueue })
  | .leaving g =>
      some (none, { st.setOwners g (release (st.owners g) none) with site := .select })

/-- One step. Its label is the step that the router makes, if any. -/
def LockState.step (st : LockState T) : LockAct T → Option (Option (Event T) × LockState T)
  | .thread i inp => st.threadStep i inp
  | .connection client ok =>
      if st.site = .select then
        (tcpAcceptClient st.fds client ok).map fun (newClientSocket, fds) =>
          if newClientSocket = socketError then (none, { st with fds := fds })
          else (none, { st with fds := fds, site := .accepted newClientSocket })
      else none
  | .readable s => if st.site = .select then some (none, { st with site := .reported s }) else none
  | .loop => st.loopStep

/-- `Router::start`: no client, and nobody holds a mutex. -/
def LockState.Initial (st : LockState T) : Prop :=
  Started st.router ∧ st.router.shared.opened = [] ∧ st.fds = [] ∧ (∀ g, st.owners g = []) ∧
    (∀ i, st.phase i = .ready) ∧ st.site = .select

/-- All interleavings. -/
def locking (T : Type) [DecidableEq T] : Lts (LockState T) (Option (Event T)) :=
  Lts.ofFn LockState.Initial LockState.step

/-! ### The transitions -/

/-- What one step can be. -/
inductive LockStep (st : LockState T) : Option (Event T) → LockState T → Prop where
  | work {i : T} {inp : Input} {e : Event T} {pc : Pc} {sh : Shared T} :
      st.phase i = .ready → (st.router.loc i).guard = none →
      next st.router.shared i (st.router.loc i) inp = some (e, pc, sh) →
      LockStep st (some e) { st with router := ⟨sh, Function.update st.router.loc i pc⟩ }
  | enter {i : T} {g : Guard} {mode : Mode} {o : List (Option T × Mode)} :
      st.phase i = .ready → (st.router.loc i).guard = some (g, mode) →
      acquire (st.owners g) (some i) mode = some o →
      LockStep st none ((st.setOwners g o).setPhase i .inside)
  | sleep {i : T} {g : Guard} {mode : Mode} :
      st.phase i = .inside → (st.router.loc i).guard = some (g, mode) →
      LockStep st none
        ((st.setOwners g (release (st.owners g) (some i))).setPhase i .asleep)
  | call {i : T} {g : Guard} {mode : Mode} {inp : Input} {e : Event T} {pc : Pc} {sh : Shared T} :
      st.phase i = .inside → (st.router.loc i).guard = some (g, mode) →
      next st.router.shared i (st.router.loc i) inp = some (e, pc, sh) →
      LockStep st (some e)
        ({ st with router := ⟨sh, Function.update st.router.loc i pc⟩ }.setPhase i (.leaving g))
  | leave {i : T} {g : Guard} : st.phase i = .leaving g →
      LockStep st none ((st.setOwners g (release (st.owners g) (some i))).setPhase i .ready)
  | wake {i : T} : st.phase i = .asleep → LockStep st none (st.setPhase i .ready)
  | refused {client : Option ℤ} {ok : Bool} {fds : List ℤ} : st.site = .select →
      tcpAcceptClient st.fds client ok = some (socketError, fds) →
      LockStep st none { st with fds := fds }
  | connection {client : Option ℤ} {ok : Bool} {fds : List ℤ} {s : ℤ} : st.site = .select →
      s ≠ socketError → tcpAcceptClient st.fds client ok = some (s, fds) →
      LockStep st none { st with fds := fds, site := .accepted s }
  | readable {s : ℤ} : st.site = .select → LockStep st none { st with site := .reported s }
  | enterAccept {s : ℤ} {o : List (Option T × Mode)} : st.site = .accepted s →
      acquire (st.owners .sessions) none .exclusive = some o →
      LockStep st none { st.setOwners .sessions o with site := .registering s }
  | nest {s : ℤ} : st.site = .registering s → st.router.shared.sessions.acceptClient s = none →
      LockStep st none { st with site := .nested s }
  | register {s : ℤ} {S : Sessions} : st.site = .registering s →
      st.router.shared.sessions.acceptClient s = some S →
      LockStep st (some (.accepted s)) { st with
        router := ⟨{ st.router.shared with
          sessions := S, opened := s :: st.router.shared.opened }, st.router.loc⟩
        site := .leaving .sessions }
  | enterPush {s : ℤ} {o : List (Option T × Mode)} : st.site = .reported s →
      acquire (st.owners .readQueue) none .exclusive = some o →
      LockStep st none { st.setOwners .readQueue o with site := .reporting s }
  | push {s : ℤ} : st.site = .reporting s →
      LockStep st (some (.readable s)) { st with
        router := ⟨{ st.router.shared with
          readQueue := SignalingQueue.push st.router.shared.readQueue s true }, st.router.loc⟩
        site := .leaving .readQueue }
  | leaveLoop {g : Guard} : st.site = .leaving g →
      LockStep st none { st.setOwners g (release (st.owners g) none) with site := .select }

variable {st st' : LockState T} {e : Option (Event T)} {tr : List (Option (Event T))}

lemma lockStep_of_threadStep {i : T} {inp : Input} (h : st.threadStep i inp = some (e, st')) :
    LockStep st e st' := by
  rw [LockState.threadStep] at h
  split at h
  · rename_i hphase hguard
    simp only [Program.step, Option.map_map, Option.map_eq_some_iff, Function.comp_apply,
      Prod.mk.injEq, Prod.exists] at h
    obtain ⟨ev, pc, sh, hn, rfl, rfl⟩ := h
    exact .work hphase hguard hn
  · rename_i g mode hphase hguard
    simp only [Option.map_eq_some_iff, Prod.mk.injEq] at h
    obtain ⟨o, ho, rfl, rfl⟩ := h
    exact .enter hphase hguard ho
  · rename_i g mode hphase hguard
    split_ifs at h
    · cases h
      exact .sleep hphase hguard
    · simp only [Program.step, Option.map_map, Option.map_eq_some_iff, Function.comp_apply,
        Prod.mk.injEq, Prod.exists] at h
      obtain ⟨ev, pc, sh, hn, rfl, rfl⟩ := h
      exact .call hphase hguard hn
  · rename_i hphase
    cases h
    exact .leave hphase
  · rename_i hphase
    cases h
    exact .wake hphase
  · cases h

lemma lockStep_of_loopStep (h : st.loopStep = some (e, st')) : LockStep st e st' := by
  rw [LockState.loopStep] at h
  split at h
  · cases h
  · rename_i s hsite
    simp only [Option.map_eq_some_iff, Prod.mk.injEq] at h
    obtain ⟨o, ho, rfl, rfl⟩ := h
    exact .enterAccept hsite ho
  · rename_i s hsite
    split at h
    · rename_i hnone
      cases h
      exact .nest hsite hnone
    · rename_i hsome
      cases h
      exact .register hsite hsome
  · cases h
  · rename_i s hsite
    simp only [Option.map_eq_some_iff, Prod.mk.injEq] at h
    obtain ⟨o, ho, rfl, rfl⟩ := h
    exact .enterPush hsite ho
  · rename_i s hsite
    cases h
    exact .push hsite
  · rename_i g hsite
    cases h
    exact .leaveLoop hsite

/-- Every step is one of these. -/
lemma lockStep_of_step (h : (locking T).step st e st') : LockStep st e st' := by
  obtain ⟨act, h⟩ := h
  cases act with
  | thread i inp => exact lockStep_of_threadStep h
  | connection client ok =>
      simp only [LockState.step] at h
      split_ifs at h with hsite
      simp only [Option.map_eq_some_iff, Prod.exists] at h
      obtain ⟨s, fds, hacc, h⟩ := h
      split_ifs at h with herr
      · cases h
        rw [herr] at hacc
        exact .refused hsite hacc
      · cases h
        exact .connection hsite herr hacc
  | readable s =>
      simp only [LockState.step] at h
      split_ifs at h with hsite
      cases h
      exact .readable hsite
  | loop => exact lockStep_of_loopStep h

/-! ### The descriptors, and the router seen with its calls at once -/

/-- A descriptor that is to be registered is open and was not registered before. -/
structure Reserved (st : LockState T) : Prop where
  nonneg : ∀ s ∈ st.fds, 0 ≤ s
  opened : ∀ s ∈ st.router.shared.opened, s ∈ st.fds
  fresh : ∀ s, st.site = .accepted s ∨ st.site = .registering s →
    s ∈ st.fds ∧ s ∉ st.router.shared.opened

omit [DecidableEq T] in
/-- A step that opens and registers nothing, and after which the event loop is not on
its way to. -/
lemma Reserved.of_site (h : Reserved st) (hfds : st'.fds = st.fds)
    (hopened : st'.router.shared.opened = st.router.shared.opened)
    (hsite : ∀ s, st'.site = .accepted s ∨ st'.site = .registering s →
      st.site = .accepted s ∨ st.site = .registering s) : Reserved st' := by
  refine ⟨hfds ▸ h.nonneg, ?_, fun s hs => ?_⟩
  · rw [hfds, hopened]
    exact h.opened
  · rw [hfds, hopened]
    exact h.fresh s (hsite s hs)

/-- `accept` returns no descriptor that is open. -/
lemma Reserved.step (h : Reserved st) (hs : LockStep st e st') : Reserved st' := by
  cases hs with
  | work _ _ hn => exact h.of_site rfl (step_of_next hn).opened fun s hs => hs
  | call _ _ hn => exact h.of_site rfl (step_of_next hn).opened fun s hs => hs
  | refused _ hacc =>
      rcases tcpAcceptClient_cases h.nonneg hacc with ⟨-, rfl⟩ | ⟨hpos, -, -⟩
      · exact h
      · exact absurd hpos (by decide)
  | connection _ herr hacc =>
      rcases tcpAcceptClient_cases h.nonneg hacc with ⟨rfl, -⟩ | ⟨hpos, hnew, rfl⟩
      · exact absurd rfl herr
      · refine ⟨?_, fun t ht => List.mem_cons_of_mem _ (h.opened t ht), ?_⟩
        · intro t ht
          rcases List.mem_cons.mp ht with rfl | ht
          · exact hpos
          · exact h.nonneg t ht
        · rintro t (ht | ht)
          · cases ht
            exact ⟨List.mem_cons_self, fun hmem => hnew (h.opened _ hmem)⟩
          · cases ht
  | enterAccept hsite _ =>
      refine h.of_site rfl rfl fun t ht => .inl ?_
      rcases ht with ht | ht
      · cases ht
      · cases ht
        exact hsite
  | @register s S hsite _ =>
      refine ⟨h.nonneg, fun t ht => ?_, ?_⟩
      · rcases List.mem_cons.mp ht with rfl | ht
        · exact (h.fresh t (.inr hsite)).1
        · exact h.opened t ht
      · rintro t (ht | ht)
        · cases ht
        · cases ht
  | enter _ _ _ => exact h.of_site rfl rfl fun s hs => hs
  | sleep _ _ => exact h.of_site rfl rfl fun s hs => hs
  | leave _ => exact h.of_site rfl rfl fun s hs => hs
  | wake _ => exact h.of_site rfl rfl fun s hs => hs
  | readable _ => exact h.of_site rfl rfl (by rintro s (hs | hs) <;> cases hs)
  | nest _ _ => exact h.of_site rfl rfl (by rintro s (hs | hs) <;> cases hs)
  | enterPush _ _ => exact h.of_site rfl rfl (by rintro s (hs | hs) <;> cases hs)
  | push _ => exact h.of_site rfl rfl (by rintro s (hs | hs) <;> cases hs)
  | leaveLoop _ => exact h.of_site rfl rfl (by rintro s (hs | hs) <;> cases hs)

lemma reserved_of_reaches (h : (locking T).Reaches tr st) : Reserved st := by
  refine h.invariant Reserved ?_ fun st e st' hinv hs => hinv.step (lockStep_of_step hs)
  rintro st ⟨-, hopened, hfds, -, -, hsite⟩
  exact ⟨by simp [hfds], by simp [hopened], by simp [hsite]⟩

/-- A step that the router makes is one of its own. -/
lemma LockStep.router (hres : Reserved st) (h : LockStep st e st') :
    (workers T).Run st.router e.toList st'.router := by
  cases h with
  | @work i inp e pc sh _ _ hn =>
      exact .single ⟨.thread i inp, by simp [Program.step, MessageRouting.router, hn]⟩
  | @call i g mode inp e pc sh _ _ hn =>
      exact .single ⟨.thread i inp, by
        simp [Program.step, MessageRouting.router, hn, LockState.setPhase]⟩
  | @register s S hsite hS =>
      have hnew := (hres.fresh s (.inr hsite)).2
      exact .single ⟨.env (.accept s), by
        simp [Program.step, MessageRouting.router, MessageRouting.loopStep, hnew, hS]⟩
  | @push s _ => exact .single ⟨.env (.readable s), rfl⟩
  | _ => exact .nil

/-- **Every interleaving is one with the calls at once.** -/
lemma router_of_locking (h : (locking T).Reaches tr st) :
    (workers T).Reaches (tr.filterMap id) st.router := by
  refine Lts.Reaches.map LockState.router id (fun st (hst : st.Initial) => hst.1) ?_ h
  intro tr st e st' hreach hs
  exact (lockStep_of_step hs).router (reserved_of_reaches hreach)

omit [DecidableEq T] in
/-- A socket that was not registered before is registered without removing another
session. -/
lemma Standing.acceptClient_ne_none {sh : Shared T} {s : ℤ} (hst : Standing sh)
    (hs : s ∉ sh.opened) : sh.sessions.acceptClient s ≠ none := by
  have hnone : sh.sessions.sessionsBySocket s = none := by
    by_contra hreg
    obtain ⟨p, hp⟩ := Option.ne_none_iff_exists'.mp hreg
    obtain ⟨a, x, -, hx, rfl⟩ := hst.consistent.bySocket s p hp
    exact hs (hst.opened a x hx)
  have hsome := Sessions.acceptClient_isSome.mpr hnone
  exact Option.isSome_iff_ne_none.mp hsome

/-- The call of `removeSession` inside `Sessions::accept_client` is not reached. -/
lemma not_nested (h : (locking T).Reaches tr st) (s : ℤ) : st.site ≠ .nested s := by
  have key : (locking T).Reaches tr st ∧ ∀ s, st.site ≠ .nested s := by
    refine h.induct (fun tr st => (locking T).Reaches tr st ∧ ∀ s, st.site ≠ .nested s) ?_ ?_
    · intro st hst
      refine ⟨⟨st, hst, .nil⟩, fun s => ?_⟩
      rw [hst.2.2.2.2.2]
      simp
    · rintro tr st e st' ⟨hreach, hsite⟩ hs
      refine ⟨hreach.append (.single hs), fun s => ?_⟩
      cases lockStep_of_step hs with
      | @nest s hreg hnone =>
          have hst := (standing_of_reaches (router_of_locking hreach)).1
          have hnew := ((reserved_of_reaches hreach).fresh s (.inr hreg)).2
          exact absurd hnone (hst.acceptClient_ne_none hnew)
      | work _ _ _ => exact hsite s
      | call _ _ _ => exact hsite s
      | enter _ _ _ => exact hsite s
      | sleep _ _ => exact hsite s
      | leave _ => exact hsite s
      | wake _ => exact hsite s
      | refused _ _ => exact hsite s
      | _ => simp
  exact key.2 s

/-! ### Who holds a session's mutex -/

omit [DecidableEq T] in
/-- What a step does to the session that its thread has locked: nothing, it locks
one, or it unlocks it. -/
lemma Step.held_cases {i : T} {sh sh' : Shared T} {pc pc' : Pc} {ev : Event T}
    (h : Step i sh pc ev pc' sh') :
    (sh'.holder = sh.holder ∧ pc'.held = pc.held) ∨
    (∃ s a, pc.held = none ∧ pc'.held = some (s, a) ∧ sh.holder a = none ∧
      sh'.holder = Function.update sh.holder a (some i)) ∨
    (∃ s a, pc.held = some (s, a) ∧ sh'.holder = Function.update sh.holder a none) := by
  cases h with
  | lockSrc ha => exact .inr (.inl ⟨_, _, rfl, rfl, ha, rfl⟩)
  | lockDst ha => exact .inr (.inl ⟨_, _, rfl, rfl, ha, rfl⟩)
  | unlockSrc => exact .inr (.inr ⟨_, _, rfl, rfl⟩)
  | unlockDst => exact .inr (.inr ⟨_, _, rfl, rfl⟩)
  | _ => exact .inl ⟨rfl, rfl⟩

/-- A thread has locked at most the session of its location. -/
lemma held_of_holder {tr : List (Event T)} {st : RouterState T}
    (h : (workers T).Reaches tr st) :
    ∀ i a, st.shared.holder a = some i → ∃ s, (st.loc i).held = some (s, a) := by
  refine Program.each_of_reaches
    (fun sh i pc => ∀ a, sh.holder a = some i → ∃ s, pc.held = some (s, a)) ?_ ?_ ?_ ?_ h
  · rintro st ⟨-, -, hfree, -⟩ i a ha
    rw [hfree a] at ha
    cases ha
  · intro sh i pc inp ev pc' sh' hown hn b hb
    rcases (step_of_next hn).held_cases with ⟨hsame, hheld⟩ | ⟨s, a, hpc, hpc', -, hh⟩ |
      ⟨s, a, hpc, hh⟩
    · rw [hheld]
      exact hown b (hsame ▸ hb)
    · by_cases hba : b = a
      · exact ⟨s, hba ▸ hpc'⟩
      · rw [hh, Function.update_of_ne hba] at hb
        obtain ⟨t, ht⟩ := hown b hb
        rw [hpc] at ht
        cases ht
    · have hba : b ≠ a := by
        rintro rfl
        rw [hh, Function.update_self] at hb
        cases hb
      rw [hh, Function.update_of_ne hba] at hb
      obtain ⟨t, ht⟩ := hown b hb
      rw [hpc] at ht
      cases ht
      exact absurd rfl hba
  · intro sh i pc inp ev pc' sh' j m hj _ hother hn b hb
    refine hother b ?_
    rcases (step_of_next hn).held_cases with ⟨hsame, -⟩ | ⟨s, a, -, -, hfree, hh⟩ |
      ⟨s, a, -, hh⟩
    · exact hsame ▸ hb
    · by_cases hba : b = a
      · rw [hh, hba, Function.update_self] at hb
        exact absurd (Option.some.inj hb).symm hj
      · rwa [hh, Function.update_of_ne hba] at hb
    · by_cases hba : b = a
      · rw [hh, hba, Function.update_self] at hb
        cases hb
      · rwa [hh, Function.update_of_ne hba] at hb
  · intro sh act ev sh' j m hn hm
    rcases loopStep_cases hn with ⟨s, S, -, -, -, rfl⟩ | ⟨s, -, rfl⟩
    · exact hm
    · exact hm

/-! ### Who holds the other mutexes -/

/-- The thread stands between the acquisition of a mutex and its release. -/
def LockState.Inside (st : LockState T) (i : T) (g : Guard) : Prop :=
  (st.phase i = .inside ∧ ∃ mode, (st.router.loc i).guard = some (g, mode)) ∨
    st.phase i = .leaving g

/-- The event loop stands between the acquisition of a mutex and its release. -/
def Site.Inside (g : Guard) : Site → Prop
  | .registering _ => g = .sessions
  | .nested _ => g = .sessions
  | .reporting _ => g = .readQueue
  | .leaving g' => g = g'
  | _ => False

/-- A mutex is held at the locations between its acquisition and its release. -/
structure Ordered (st : LockState T) : Prop where
  thread : ∀ i g mode, (some i, mode) ∈ st.owners g → st.Inside i g
  loop : ∀ g mode, (none, mode) ∈ st.owners g → st.site.Inside g

section Owners

variable {g g' : Guard} {who : Option T} {mode : Mode} {p : Option T × Mode}

omit [DecidableEq T] in
lemma setOwners_owners {o : List (Option T × Mode)} :
    (st.setOwners g o).owners g' = if g' = g then o else st.owners g' :=
  Function.update_apply _ _ _ _

omit [DecidableEq T] in
lemma mem_acquired {o : List (Option T × Mode)} (h : acquire (st.owners g) who mode = some o)
    (hp : p ∈ (st.setOwners g o).owners g') : (g' = g ∧ p = (who, mode)) ∨ p ∈ st.owners g' := by
  rw [setOwners_owners] at hp
  split_ifs at hp with hg
  · rcases mem_acquire h hp with hnew | hold
    · exact .inl ⟨hg, hnew⟩
    · exact .inr (hg ▸ hold)
  · exact .inr hp

omit [DecidableEq T] in
/-- An acquisition adds no other owner. -/
lemma mem_of_acquired {o : List (Option T × Mode)} (h : acquire (st.owners g) who mode = some o)
    (hp : p ∈ (st.setOwners g o).owners g') (hne : p.1 ≠ who) : p ∈ st.owners g' := by
  rcases mem_acquired h hp with ⟨-, rfl⟩ | hold
  · exact absurd rfl hne
  · exact hold

lemma mem_released (hp : p ∈ (st.setOwners g (release (st.owners g) who)).owners g') :
    p ∈ st.owners g' ∧ (g' = g → p.1 ≠ who) := by
  rw [setOwners_owners] at hp
  split_ifs at hp with hg
  · obtain ⟨hold, hne⟩ := mem_release hp
    exact ⟨hg ▸ hold, fun _ => hne⟩
  · exact ⟨hp, fun h => absurd h hg⟩

end Owners

omit [DecidableEq T] in
/-- A step of one thread, which takes and releases mutexes for itself only. -/
lemma Ordered.of_thread (h : Ordered st) {i : T} (hsite : st'.site = st.site)
    (hphase : ∀ j ≠ i, st'.phase j = st.phase j)
    (hloc : ∀ j ≠ i, st'.router.loc j = st.router.loc j)
    (howners : ∀ g p, p ∈ st'.owners g → p.1 ≠ some i → p ∈ st.owners g)
    (hself : ∀ g mode, (some i, mode) ∈ st'.owners g → st'.Inside i g) : Ordered st' := by
  refine ⟨fun j g mode hj => ?_, fun g mode hg => ?_⟩
  · by_cases hji : j = i
    · subst hji
      exact hself g mode hj
    · have hold := h.thread j g mode (howners g _ hj (by simpa using hji))
      rw [LockState.Inside, hphase j hji, hloc j hji]
      exact hold
  · rw [hsite]
    exact h.loop g mode (howners g _ hg (by simp))

omit [DecidableEq T] in
/-- A step of the event loop. -/
lemma Ordered.of_loop (h : Ordered st) (hphase : st'.phase = st.phase)
    (hloc : st'.router.loc = st.router.loc)
    (howners : ∀ g p, p ∈ st'.owners g → p.1 ≠ none → p ∈ st.owners g)
    (hself : ∀ g mode, (none, mode) ∈ st'.owners g → st'.site.Inside g) : Ordered st' := by
  refine ⟨fun j g mode hj => ?_, hself⟩
  rw [LockState.Inside, hphase, hloc]
  exact h.thread j g mode (howners g _ hj (by simp))

/-- **One step** keeps the order. -/
lemma Ordered.step (h : Ordered st) (hs : LockStep st e st') : Ordered st' := by
  have hset : ∀ {i j : T} {p : Phase}, j ≠ i → Function.update st.phase i p j = st.phase j :=
    fun hji => Function.update_of_ne hji _ _
  have hmove : ∀ {i j : T} {pc : Pc}, j ≠ i →
      Function.update st.router.loc i pc j = st.router.loc j :=
    fun hji => Function.update_of_ne hji _ _
  -- a thread that is not inside a call owns none of these mutexes
  have hout : ∀ {i g mode}, (some i, mode) ∈ st.owners g →
      st.phase i ≠ .ready ∧ st.phase i ≠ .asleep := by
    intro i g mode hmem
    rcases h.thread i g mode hmem with ⟨hp, -⟩ | hp
    · rw [hp]
      simp
    · rw [hp]
      simp
  have hloop : ∀ {site : Site} {g mode}, st.site = site → (none, mode) ∈ st.owners g →
      site.Inside g := by
    rintro site g mode rfl hmem
    exact h.loop g mode hmem
  cases hs with
  | @work i inp e pc sh hphase _ _ =>
      refine h.of_thread (i := i) rfl (fun j _ => rfl) (fun j hj => hmove hj)
        (fun g p hp _ => hp) fun g mode hmem => ?_
      exact absurd hphase (hout hmem).1
  | @enter i g mode o hphase hguard hacq =>
      refine h.of_thread (i := i) rfl (fun j hj => hset hj) (fun j _ => rfl)
        (fun g' p hp hne => mem_of_acquired hacq hp hne) ?_
      intro g' mode' hmem
      rcases mem_acquired hacq hmem with ⟨rfl, -⟩ | hold
      · exact .inl ⟨Function.update_self _ _ _, mode, hguard⟩
      · exact absurd hphase (hout hold).1
  | @sleep i g mode hphase hguard =>
      refine h.of_thread (i := i) rfl (fun j hj => hset hj) (fun j _ => rfl)
        (fun g' p hp _ => (mem_released hp).1) ?_
      intro g' mode' hmem
      obtain ⟨hold, hne⟩ := mem_released hmem
      rcases h.thread i g' mode' hold with ⟨-, mode'', hguard'⟩ | hleave
      · rw [hguard] at hguard'
        cases hguard'
        exact absurd rfl (hne rfl)
      · rw [hphase] at hleave
        cases hleave
  | @call i g mode inp e pc sh hphase hguard _ =>
      refine h.of_thread (i := i) rfl (fun j hj => hset hj) (fun j hj => hmove hj)
        (fun g' p hp _ => hp) ?_
      intro g' mode' hmem
      rcases h.thread i g' mode' hmem with ⟨-, mode'', hguard'⟩ | hleave
      · rw [hguard] at hguard'
        cases hguard'
        exact .inr (Function.update_self _ _ _)
      · rw [hphase] at hleave
        cases hleave
  | @leave i g hphase =>
      refine h.of_thread (i := i) rfl (fun j hj => hset hj) (fun j _ => rfl)
        (fun g' p hp _ => (mem_released hp).1) ?_
      intro g' mode' hmem
      obtain ⟨hold, hne⟩ := mem_released hmem
      rcases h.thread i g' mode' hold with ⟨hin, -⟩ | hleave
      · rw [hphase] at hin
        cases hin
      · rw [hphase] at hleave
        cases hleave
        exact absurd rfl (hne rfl)
  | @wake i hphase =>
      refine h.of_thread (i := i) rfl (fun j hj => hset hj) (fun j _ => rfl)
        (fun g p hp _ => hp) fun g mode hmem => ?_
      exact absurd hphase (hout hmem).2
  | refused _ _ => exact h.of_loop rfl rfl (fun g p hp _ => hp) h.loop
  | connection hsite _ _ =>
      exact h.of_loop rfl rfl (fun g p hp _ => hp) fun g mode hmem => (hloop hsite hmem).elim
  | readable hsite =>
      exact h.of_loop rfl rfl (fun g p hp _ => hp) fun g mode hmem => (hloop hsite hmem).elim
  | @enterAccept s o hsite hacq =>
      refine h.of_loop rfl rfl (fun g p hp hne => mem_of_acquired hacq hp hne) fun g mode hmem => ?_
      rcases mem_acquired hacq hmem with ⟨rfl, -⟩ | hold
      · exact rfl
      · exact (hloop hsite hold).elim
  | nest hsite _ =>
      refine h.of_loop rfl rfl (fun g p hp _ => hp) fun g mode hmem => ?_
      have hin := hloop hsite hmem
      exact hin
  | register hsite _ =>
      refine h.of_loop rfl rfl (fun g p hp _ => hp) fun g mode hmem => ?_
      have hin := hloop hsite hmem
      exact hin
  | @enterPush s o hsite hacq =>
      refine h.of_loop rfl rfl (fun g p hp hne => mem_of_acquired hacq hp hne) fun g mode hmem => ?_
      rcases mem_acquired hacq hmem with ⟨rfl, -⟩ | hold
      · exact rfl
      · exact (hloop hsite hold).elim
  | push hsite =>
      refine h.of_loop rfl rfl (fun g p hp _ => hp) fun g mode hmem => ?_
      have hin := hloop hsite hmem
      exact hin
  | @leaveLoop g hsite =>
      refine h.of_loop rfl rfl (fun g' p hp _ => (mem_released hp).1) fun g' mode hmem => ?_
      obtain ⟨hold, hne⟩ := mem_released hmem
      exact absurd rfl (hne (hloop hsite hold))

/-- **Every interleaving** keeps the order. -/
lemma ordered_of_reaches (h : (locking T).Reaches tr st) : Ordered st := by
  refine h.invariant Ordered ?_ fun st e st' hinv hs => hinv.step (lockStep_of_step hs)
  rintro st ⟨-, -, -, hfree, -, -⟩
  exact ⟨fun i g mode hmem => by simp [hfree] at hmem, fun g mode hmem => by simp [hfree] at hmem⟩

/-! ### No deadlock -/

/-- The mutex that a thread asks for next at its location. -/
def Pc.wants : Pc → Option Mutex
  | .lockSrc _ a => some (.session a)
  | .lockDst _ a => some (.session a)
  | pc => pc.guard.map fun p => .guard p.1

/-- The mutex that the event loop asks for next. -/
def Site.wants : Site → Option Mutex
  | .accepted _ => some (.guard .sessions)
  | .nested _ => some (.guard .sessions)
  | .reported _ => some (.guard .readQueue)
  | _ => none

/-- The thread's next step is to take the mutex, free or not. The event loop is
`none`. -/
def LockState.Requests (st : LockState T) : Option T → Mutex → Prop
  | some i, m => st.phase i = .ready ∧ (st.router.loc i).wants = some m
  | none, m => st.site.wants = some m

/-- The thread owns the mutex, alone or with others. -/
def LockState.Holds (st : LockState T) (who : Option T) : Mutex → Prop
  | .guard g => ∃ mode, (who, mode) ∈ st.owners g
  | .session a => ∃ i, who = some i ∧ st.router.shared.holder a = some i

/-- The order in which mutexes are taken: a session's first. -/
def Mutex.rank : Mutex → Bool
  | .session _ => false
  | .guard _ => true

/-- Who asks for a session's mutex has locked no session. -/
lemma Pc.held_of_wants {pc : Pc} {a : Addr} (h : pc.wants = some (.session a)) :
    pc.held = none := by
  cases pc <;> simp_all [Pc.wants, Pc.guard, Pc.held]

/-- A thread asks only for mutexes that rank above those it holds. -/
lemma rank_lt_of_requests (h : (locking T).Reaches tr st) {who : Option T} {m m' : Mutex}
    (hholds : st.Holds who m') (hreq : st.Requests who m) : m'.rank < m.rank := by
  have hord := ordered_of_reaches h
  cases who with
  | none =>
      cases m' with
      | session a =>
          obtain ⟨i, hi, -⟩ := hholds
          cases hi
      | guard g =>
          obtain ⟨mode, hmem⟩ := hholds
          have hin := hord.loop g mode hmem
          have hnested := not_nested h
          have hreq' : st.site.wants = some m := hreq
          generalize st.site = site at hin hnested hreq'
          -- where the event loop asks for a mutex it holds none
          cases site with
          | accepted s => exact hin.elim
          | nested s => exact absurd rfl (hnested s)
          | reported s => exact hin.elim
          | select => cases hreq'
          | registering s => cases hreq'
          | reporting s => cases hreq'
          | leaving g => cases hreq'
  | some i =>
      obtain ⟨hready, hwants⟩ := hreq
      cases m' with
      | guard g =>
          obtain ⟨mode, hmem⟩ := hholds
          rcases hord.thread i g mode hmem with ⟨hin, -⟩ | hin
          · rw [hready] at hin
            cases hin
          · rw [hready] at hin
            cases hin
      | session a =>
          obtain ⟨j, hj, hholder⟩ := hholds
          cases hj
          cases m with
          | guard g => exact Bool.false_lt_true
          | session b =>
              obtain ⟨s, hheld⟩ := held_of_holder (router_of_locking h) i a hholder
              rw [Pc.held_of_wants hwants] at hheld
              cases hheld

/-- **The router does not deadlock.** In every interleaving of the event loop with any
number of readers and writers there is no nonempty set of threads each of which
waits for a mutex that a member of the set holds; nobody asks for a mutex that it
holds, so never for `sessions_mutex_`, and the call of `removeSession` inside
`Sessions::accept_client` is not reached. -/
theorem deadlock_free (h : (locking T).Reaches tr st) :
    (∀ D : Set (Option T), ¬ Deadlocked st.Requests st.Holds D) ∧
    (∀ who m, st.Requests who m → ¬ st.Holds who m) ∧
    ∀ s, st.site ≠ .nested s := by
  refine ⟨fun D => ?_, fun who m hreq hholds => ?_, not_nested h⟩
  · refine not_deadlocked Mutex.rank ?_ D
    intro who m m' hholds hreq
    exact rank_lt_of_requests h hholds hreq
  · exact lt_irrefl _ (rank_lt_of_requests h hholds hreq)

/-- A reader and a writer at the start. -/
def readerAndWriter : LockState (Fin 2) where
  router := ⟨⟨Sessions.empty, [], [], fun _ => none, [], 0⟩,
    fun i => if i.val = 0 then .popRead else .popWrite⟩
  fds := []
  owners _ := []
  phase _ := .ready
  site := .select

/-- The reader has locked the session of descriptor 4 and asks for `sessions_mutex_`,
which the event loop holds to register descriptor 7. -/
theorem deadlock_free_waiting :
    ∃ tr, ∃ st : LockState (Fin 2), (locking (Fin 2)).Reaches tr st ∧
      st.Requests (some 0) (.guard .sessions) ∧ st.Holds (some 0) (.session 0) ∧
      st.Holds none (.guard .sessions) ∧
      ∀ D : Set (Option (Fin 2)), ¬ Deadlocked st.Requests st.Holds D := by
  have hinit : readerAndWriter.Initial := by
    refine ⟨⟨rfl, rfl, fun _ => rfl, rfl, fun i => ?_⟩, rfl, rfl, fun _ => rfl, fun _ => rfl, rfl⟩
    by_cases hi : i.val = 0
    · exact .inl (if_pos hi)
    · exact .inr (if_neg hi)
  obtain ⟨tr, st, hreach, hphase, hwants, hholder, howns⟩ : ∃ tr, ∃ st : LockState (Fin 2),
      (locking (Fin 2)).Reaches tr st ∧ st.phase 0 = .ready ∧
        (st.router.loc 0).wants = some (.guard .sessions) ∧ st.router.shared.holder 0 = some 0 ∧
        (none, Mode.exclusive) ∈ st.owners .sessions :=
    Lts.reaches_of_execute readerAndWriter
      ([.connection (some 4) true, .loop, .loop, .loop, .readable 4, .loop, .loop, .loop] ++
        List.replicate 7 (.thread 0 .go) ++ [.connection (some 7) true, .loop]) hinit
      (by decide +kernel)
  exact ⟨tr, st, hreach, ⟨hphase, hwants⟩, ⟨0, rfl, hholder⟩, ⟨.exclusive, howns⟩,
    (deadlock_free hreach).1⟩

end MessageRouting
