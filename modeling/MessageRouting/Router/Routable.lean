import MessageRouting.Router.Handshake
import MessageRouting.Router.Registry

/-!
The keys of `sessions_by_id_` over every run of the router on any set of
clients.

* `reading`: clients are accepted and removed, bytes arrive on their sockets, and
  reader threads call `do_reads`.
* `Announces`: the windows of three bytes that the handshakes of one call read in
  full, as long as they read something and leave the session without an id.
* `keys_valid`: as long as no such window parses to a negative number, every key
  is in `0..998`, and no frame without a destination number is ever enqueued.
* `keys_valid_fails`: `-1` is what three bytes that are no number parse to, and
  `add_node` takes it as a key.
-/

namespace MessageRouting

open Sessions

/-! ### Runs of the router -/

/-- The registry, what the OS has for each socket, and the tasks enqueued so
far. -/
structure Served where
  sessions : Sessions
  pending : ℤ → List Arrival
  tasks : List WriteTask

/-- A step of the router or of a client. -/
inductive Served.Op where
  | acceptClient (s : ℤ)
  | arrive (s : ℤ) (x : Arrival)
  | doReads (s : ℤ) (buffer : List UInt8)
  | removeSession (s : ℤ)

/-- The step that was made. -/
inductive Served.Event where
  | accepted (s : ℤ)
  | arrived (s : ℤ) (x : Arrival)
  | read (s : ℤ)
  | removed (s : ℤ)

/-- One step. A call of `do_reads` from which an exception escapes is no step. -/
def Served.step (st : Served) : Served.Op → Option (Served.Event × Served)
  | .acceptClient s =>
      (st.sessions.acceptClient s).map fun S => (.accepted s, { st with sessions := S })
  | .arrive s x =>
      some (.arrived s x,
        { st with pending := Function.update st.pending s (st.pending s ++ [x]) })
  | .doReads s buffer =>
      match doReads s ⟨st.sessions, st.pending s, buffer, st.tasks⟩ with
      | .error _ => none
      | .ok st' =>
          some (.read s, ⟨st'.sessions, Function.update st.pending s st'.arrivals, st'.tasks⟩)
  | .removeSession s => some (.removed s, { st with sessions := st.sessions.removeSession s })

/-- The runs of the router. -/
def reading : Lts Served Served.Event :=
  Lts.ofFn (fun st => st.sessions = empty ∧ st.tasks = []) Served.step

/-! ### What the handshakes of a call read -/

/-- The three bytes `w` are read by one of the handshakes of a call. Each of those before
read something, so that the loop went on, and gave the session no id. -/
inductive Announces : List Arrival → List UInt8 → Prop where
  | now {u u' : List Arrival} {w : List UInt8} : readBytes idMessageSize u = (some w, u') →
      w.length = idMessageSize → Announces u w
  | later {u u' : List Arrival} {w w' : List UInt8} : readBytes idMessageSize u = (some w', u') →
      w' ≠ [] → (w'.length = idMessageSize → ¬ Acceptable w') → Announces u' w → Announces u w

/-- The handshakes of a call on a session without an id parse no negative
number. -/
def Unsigned (st : Served) : Served.Event → Prop
  | .read s => ∀ a, st.sessions.sessionsBySocket s = some (some a) →
      st.sessions.getId (some a) = NONE → ∀ w, Announces (st.pending s) w → 0 ≤ announcedId w
  | _ => True

/-! ### The invariant -/

/-- Every key of the id index is an id below `MAX_CLIENTS_COUNT`. -/
def KeysValid (S : Sessions) : Prop :=
  ∀ k p, S.sessionsById k = some p → 0 ≤ k ∧ k < maxClientsCount

/-- Every enqueued message has a destination number. -/
def TasksNumbered (tasks : List WriteTask) : Prop :=
  ∀ t ∈ tasks, extractDstId t.2 dataMessageSize ≠ .ok (-1)

lemma KeysValid.addNode {S : Sessions} {s k : ℤ} (h : KeysValid S) (hk : 0 ≤ k) :
    KeysValid (S.addNode s k) := by
  intro j q hj
  rcases sessionsById_of_addNode hj with hold | ⟨rfl, hlt, -⟩
  · exact h j q hold
  · exact ⟨hk, hlt⟩

lemma KeysValid.removeSession {S : Sessions} {s : ℤ} (h : KeysValid S) :
    KeysValid (S.removeSession s) :=
  fun j q hj => h j q (sessionsById_of_removeSession hj).1

/-- What a call keeps: the registry is consistent, its keys are valid and the
tasks numbered. -/
structure Sound (v : View) : Prop where
  consistent : v.sessions.Consistent
  keys : KeysValid v.sessions
  tasks : TasksNumbered v.tasks

section Call

variable {s : ℤ} {a : Addr} {v v' : View} {n : ℤ}

/-- One turn on a session whose handshakes announce no negative number. -/
lemma Sound.turn (h : Sound v) (hreg : v.sessions.sessionsBySocket s = some (some a))
    (hann : v.sessions.getId (some a) = NONE → ∀ w, Announces v.arrivals w → 0 ≤ announcedId w)
    (ht : v.turn s (some a) = (n, v')) :
    Sound v' ∧ v'.sessions.sessionsBySocket s = some (some a) ∧
      (v'.sessions.getId (some a) = NONE → ∀ w, 0 < n → Announces v'.arrivals w →
        0 ≤ announcedId w) := by
  rw [View.turn] at ht
  split_ifs at ht with hid
  · rcases v.handshake_cases s with ⟨u, he⟩ | ⟨w, u, hr, hw, he⟩ | ⟨w, u, hr, hw, he⟩
    · rw [he] at ht
      cases ht
      exact ⟨⟨h.consistent, h.keys, h.tasks⟩, hreg, fun _ _ hpos => absurd hpos (by decide)⟩
    · rw [he] at ht
      cases ht
      refine ⟨⟨h.consistent, h.keys, h.tasks⟩, hreg, fun _ w' hpos hw' => ?_⟩
      refine hann hid w' (.later hr ?_ (fun heq => by omega) hw')
      exact List.length_pos_iff.mp (by exact_mod_cast hpos)
    · rw [he] at ht
      cases ht
      have hid' : ∀ p, v.sessions.sessionsBySocket s = some p → v.sessions.getId p = NONE := by
        intro p hp
        rw [hreg] at hp
        cases hp
        exact hid
      refine ⟨⟨h.consistent.addNode hid', h.keys.addNode (hann hid w (.now hr hw)), h.tasks⟩,
        by simpa using hreg, fun hnone w' _ hw' => ?_⟩
      -- the session is still without an id, so the announcement was not acceptable
      refine hann hid w' (.later hr (List.length_pos_iff.mp (by rw [hw]; decide))
        (fun _ hacc => hacc.1 ?_) hw')
      obtain ⟨b, i, hb, hx, -⟩ := h.consistent.exists_session hreg
      cases hb
      have hx' : (v.sessions.addNode s (announcedId w)).heap[a]? = some ⟨s, announcedId w⟩ := by
        rw [addNode_heap hreg hacc.2, if_pos rfl, hx]
        rfl
      exact (getId_of_heap hx').symm.trans hnone
  · obtain ⟨m, u, he⟩ | ⟨m, u, d, hr, hm, hd, he⟩ := v.message_cases
    · rw [he] at ht
      cases ht
      exact ⟨⟨h.consistent, h.keys, h.tasks⟩, hreg, fun hnone => absurd hnone hid⟩
    · rw [he] at ht
      cases ht
      refine ⟨⟨h.consistent, h.keys, fun t ht => ?_⟩, hreg, fun hnone => absurd hnone hid⟩
      rcases List.mem_append.mp ht with ht | ht
      · exact h.tasks t ht
      · obtain rfl := List.mem_singleton.mp ht
        intro hdst
        rw [destinationId_eq hdst, findSessionById_eq_some] at hd
        exact absurd (h.keys _ _ hd).1 (by decide)

lemma Sound.turns (h : Sound v) (hreg : v.sessions.sessionsBySocket s = some (some a))
    (hann : v.sessions.getId (some a) = NONE → ∀ w, Announces v.arrivals w → 0 ≤ announcedId w)
    (ht : Turns s (some a) v n v') : Sound v' := by
  induction ht with
  | last ht _ => exact (h.turn hreg hann ht).1
  | more ht hm _ ih =>
      obtain ⟨h', hreg', hann'⟩ := h.turn hreg hann ht
      exact ih h' hreg' fun hid w => hann' hid w hm

end Call

/-- The view of a call's state that holds everything the invariant is about. -/
def Served.view (st : Served) : View := ⟨st.sessions, [], st.tasks⟩

lemma Sound.of_arrivals {v : View} (h : Sound v) (u : List Arrival) :
    Sound { v with arrivals := u } := ⟨h.consistent, h.keys, h.tasks⟩

lemma Sound.step {st st' : Served} {e : Served.Event} (h : Sound st.view)
    (hs : reading.step st e st') (hu : Unsigned st e) : Sound st'.view := by
  obtain ⟨op, hs⟩ := hs
  cases op with
  | acceptClient s =>
      simp only [Served.step, Option.map_eq_some_iff, Prod.mk.injEq] at hs
      obtain ⟨S, hS, rfl, rfl⟩ := hs
      obtain ⟨-, -, hbi, -, -⟩ := acceptClient_spec hS
      exact ⟨h.consistent.acceptClient hS, fun k p hk => h.keys k p (hbi ▸ hk), h.tasks⟩
  | arrive s x =>
      simp only [Served.step, Option.some.injEq, Prod.mk.injEq] at hs
      obtain ⟨rfl, rfl⟩ := hs
      exact h
  | removeSession s =>
      simp only [Served.step, Option.some.injEq, Prod.mk.injEq] at hs
      obtain ⟨rfl, rfl⟩ := hs
      exact ⟨h.consistent.removeSession, h.keys.removeSession, h.tasks⟩
  | doReads s buffer =>
      obtain ⟨st₁, hdo, hcall⟩ := doReads_spec s ⟨st.sessions, st.pending s, buffer, st.tasks⟩
      simp only [Served.step, hdo, Option.some.injEq, Prod.mk.injEq] at hs
      obtain ⟨rfl, rfl⟩ := hs
      obtain ⟨-, rfl⟩ | ⟨a, n, v', hfind, hturns, hview⟩ := hcall
      · exact h
      · have hreg := findSessionBySocket_eq_some.mp hfind
        have hv' : Sound v' :=
          (h.of_arrivals (st.pending s)).turns hreg (fun hid w => hu a hreg hid w) hturns
        have hst₁ : Sound st₁.view := by
          rw [hview]
          split_ifs
          · exact ⟨hv'.consistent.removeSession, hv'.keys.removeSession, hv'.tasks⟩
          · exact hv'
        exact ⟨hst₁.consistent, hst₁.keys, hst₁.tasks⟩

/-- **Only valid ids are routable**: in every run whose handshakes parse no
negative number, every key of the id index is in `0..998`, and no message whose
destination is not a number is ever enqueued. -/
theorem keys_valid {tr : List Served.Event} {st : Served}
    (h : (reading.restrict Unsigned).Reaches tr st) :
    (∀ k p, st.sessions.sessionsById k = some p → 0 ≤ k ∧ k ≤ maxClientsCount - 1) ∧
    ∀ t ∈ st.tasks, extractDstId t.2 dataMessageSize ≠ .ok (-1) := by
  have hsound : Sound st.view := by
    refine h.invariant (fun st => Sound st.view) ?_ ?_
    · rintro ⟨S, pending, tasks⟩ ⟨rfl, rfl⟩
      exact ⟨consistent_empty, by simp [KeysValid, Served.view, empty],
        by simp [TasksNumbered, Served.view]⟩
    · rintro st e st' h ⟨hs, hu⟩
      exact h.step hs hu
  refine ⟨fun k p hk => ?_, hsound.tasks⟩
  have := hsound.keys k p hk
  omega

/-- A client that announces 005 is registered in a run of this kind. -/
theorem keys_valid_005 :
    ∃ st, (reading.restrict Unsigned).Reaches
        [.accepted 4, .arrived 4 (.data 48 [48, 53]), .read 4] st ∧
      (∀ k p, st.sessions.sessionsById k = some p → 0 ≤ k ∧ k ≤ maxClientsCount - 1) ∧
      ∀ t ∈ st.tasks, extractDstId t.2 dataMessageSize ≠ .ok (-1) := by
  -- the one id message there is in the stream
  have hann : ∀ w, Announces [.data 48 [48, 53]] w → 0 ≤ announcedId w := by
    have hread : readBytes idMessageSize [.data 48 [48, 53]] = (some [48, 48, 53], []) := by decide
    intro w hw
    cases hw with
    | now hr _ =>
        rw [hread] at hr
        cases hr
        decide
    | later hr _ hrej _ =>
        rw [hread] at hr
        cases hr
        exact absurd (⟨by decide, by decide⟩ : Acceptable [48, 48, 53]) (hrej rfl)
  set st₀ : Served := ⟨empty, fun _ => [], []⟩ with hst₀
  obtain ⟨st₁, h₁, hpend₁⟩ : ∃ st₁, reading.step st₀ (.accepted 4) st₁ ∧ st₁.pending 4 = [] :=
    ⟨_, ⟨.acceptClient 4, rfl⟩, rfl⟩
  obtain ⟨st₂, h₂, hpend₂⟩ : ∃ st₂, reading.step st₁ (.arrived 4 (.data 48 [48, 53])) st₂ ∧
      st₂.pending 4 = [.data 48 [48, 53]] :=
    ⟨_, ⟨.arrive 4 (.data 48 [48, 53]), rfl⟩, by simp [hpend₁]⟩
  obtain ⟨st₃, h₃⟩ : ∃ st₃, reading.step st₂ (.read 4) st₃ := by
    obtain ⟨st', hdo, -⟩ := doReads_spec 4 ⟨st₂.sessions, st₂.pending 4, [], st₂.tasks⟩
    refine ⟨⟨st'.sessions, Function.update st₂.pending 4 st'.arrivals, st'.tasks⟩,
      .doReads 4 [], ?_⟩
    simp only [Served.step, hdo]
  have h₁' : (reading.restrict Unsigned).step st₀ _ st₁ := ⟨h₁, trivial⟩
  have h₂' : (reading.restrict Unsigned).step st₁ _ st₂ := ⟨h₂, trivial⟩
  have h₃' : (reading.restrict Unsigned).step st₂ (.read 4) st₃ := by
    refine ⟨h₃, fun a _ _ w hw => ?_⟩
    rw [hpend₂] at hw
    exact hann w hw
  have hst : (reading.restrict Unsigned).Reaches _ st₃ :=
    ⟨st₀, ⟨rfl, rfl⟩, (Lts.Run.single h₁').append ((Lts.Run.single h₂').append (.single h₃'))⟩
  exact ⟨st₃, hst, keys_valid hst⟩

/-- The message `005 2200 123456 1111111111111111 xyz`. -/
def frameToXyz : List UInt8 :=
  [48, 48, 53, 50, 50, 48, 48, 49, 50, 51, 52, 53, 54] ++ List.replicate 16 49 ++ [120, 121, 122]

/-- A client that announces `abc` becomes the destination of every frame whose
destination is not a number. -/
theorem keys_valid_fails :
    ¬ ∀ (tr : List Served.Event) (st : Served), reading.Reaches tr st →
      (∀ k p, st.sessions.sessionsById k = some p → 0 ≤ k ∧ k ≤ maxClientsCount - 1) ∧
      ∀ t ∈ st.tasks, extractDstId t.2 dataMessageSize ≠ .ok (-1) := by
  intro hall
  obtain ⟨tr, st, hreach, hkey, htasks⟩ : ∃ tr st, reading.Reaches tr st ∧
      st.sessions.sessionsById (-1) = some (some 0) ∧ st.tasks = [(4, frameToXyz)] :=
    Lts.reaches_of_execute ⟨empty, fun _ => [], []⟩ [.acceptClient 4,
      .arrive 4 (.data 97 [98, 99]), .doReads 4 [], .acceptClient 7, .arrive 7 (.data 48 [48, 53]),
      .arrive 7 (.data 48 (frameToXyz.drop 1)), .doReads 7 []] ⟨rfl, rfl⟩ (by decide)
  obtain ⟨hkeys, -⟩ := hall tr st hreach
  exact absurd (hkeys _ _ hkey).1 (by decide)

end MessageRouting
