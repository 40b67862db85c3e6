import MessageRouting.Router.Reading

/-!
A client's stream over many `do_reads` calls: what reaches the write queue does
not depend on how TCP cuts the stream, as long as no pause falls inside a
message.

* `serve`: the calls of `do_reads` on one socket, with whatever the other threads
  do to the registry before each of them.
* `Chunked`: the rest of a stream of whole messages, with pauses between them
  only. One call of `read_async` takes the message in front (`Chunked.data`) or
  finds nothing (`Chunked.wouldBlock`).
* `serve_tasks`: a client that announces its id and then sends frames gets each
  frame enqueued once, in order, however its stream is cut between and inside
  the `recv` results.
* `serve_drops_split_frame`: a frame with a pause inside is dropped, as the
  comment at the short read in `process_message` says.
-/

namespace MessageRouting

open Decimal

/-! ### The calls on one socket -/

/-- A call of `do_reads`: what the other threads did to the registry since the
call before, and what the buffer of the calling thread holds. -/
structure Call where
  others : Sessions → Sessions
  buffer : List UInt8

/-- The calls of `do_reads` on one socket. -/
def serve (s : ℤ) : List Call → ReadState → Except StoiError ReadState
  | [], st => .ok st
  | c :: calls, st =>
      match doReads s { st with sessions := c.others st.sessions, buffer := c.buffer } with
      | .error e => .error e
      | .ok st' => serve s calls st'

/-! ### Streams of whole messages -/

/-- What is still to come is a sequence of whole messages, with no pause inside
one of them. -/
structure Chunked (msgs : List (List UInt8)) (u : List Arrival) : Prop where
  flowing : Flowing u
  bytes : bytesOf u = msgs.flatten
  pauses : ∀ p q, u = p ++ .wouldBlock :: q → ∃ k, bytesOf p = (msgs.take k).flatten

namespace Chunked

variable {msgs ms : List (List UInt8)} {m bs : List UInt8} {b : UInt8} {u : List Arrival}

lemma wouldBlock (h : Chunked msgs (.wouldBlock :: u)) : Chunked msgs u := by
  refine ⟨h.flowing.of_cons, h.bytes, fun p q hpq => ?_⟩
  exact h.pauses (.wouldBlock :: p) q (by rw [hpq]; rfl)

/-- When bytes are there, the message in front is read whole. -/
lemma data (h : Chunked (m :: ms) (.data b bs :: u)) (hm : 0 < m.length) :
    ∃ u', readBytes m.length (.data b bs :: u) = (some m, u') ∧ Chunked ms u' ∧
      u'.length ≤ u.length + 1 := by
  have hbytes : bytesOf (.data b bs :: u) = m ++ ms.flatten := h.bytes
  -- a pause stands behind at least one byte, so behind the whole message
  have hpause : ∀ p q, .data b bs :: u = p ++ .wouldBlock :: q → m.length ≤ (bytesOf p).length := by
    intro p q hpq
    obtain ⟨k, hk⟩ := h.pauses p q hpq
    cases p with
    | nil => simp at hpq
    | cons x p =>
        simp only [List.cons_append, List.cons.injEq] at hpq
        obtain ⟨rfl, -⟩ := hpq
        cases k with
        | zero => simp [bytesOf] at hk
        | succ k => simp [hk]
  obtain ⟨u', hread, hrest, hflow, hlen, hpauses⟩ :=
    readBytes_whole h.flowing hm (by rw [hbytes, List.length_append]; omega) hpause
  rw [hbytes, List.take_left] at hread
  rw [hbytes, List.drop_left] at hrest
  refine ⟨u', hread, ⟨hflow, hrest, fun p q hpq => ?_⟩, hlen⟩
  obtain ⟨p₀, hp₀, hbp⟩ := hpauses p q hpq
  rw [hbytes, List.take_left] at hbp
  obtain ⟨k, hk⟩ := h.pauses p₀ q hp₀
  cases k with
  | zero =>
      have hlen₀ := congrArg List.length (hbp.symm.trans hk)
      simp only [List.length_append, List.take_zero, List.flatten_nil, List.length_nil] at hlen₀
      omega
  | succ k =>
      refine ⟨k, ?_⟩
      rw [hbp, List.take_succ_cons, List.flatten_cons] at hk
      exact List.append_cancel_left hk

end Chunked

/-! ### Every frame is enqueued once -/

/-- The registry while a client is served: its session carries `i`, and the
destination of each frame finds a session of the socket `route` gives, once
the client itself is registered under `me`. -/
structure Ready (s me : ℤ) (frames : List (List UInt8)) (route : List UInt8 → ℤ) (i : ℤ)
    (S : Sessions) : Prop where
  src : ∃ a, S.sessionsBySocket s = some (some a) ∧ S.heap[a]? = some ⟨s, i⟩
  dst : ∀ f ∈ frames, ∃ d,
    (if i = NONE then S.addNode s me else S).findSessionById (destinationId f) = some d ∧
    (if i = NONE then S.addNode s me else S).getSocket (some d) = route f

section Stream

variable {s me : ℤ} {frames : List (List UInt8)} {route : List UInt8 → ℤ} {idMsg : List UInt8}
  {tasks : List WriteTask}

/-- The handshake makes the registry ready for the frames. -/
lemma Ready.addNode {S : Sessions} (h : Ready s me frames route NONE S) (hme : 0 ≤ me)
    (hlt : me < maxClientsCount) : Ready s me frames route me (S.addNode s me) := by
  obtain ⟨a, ha, hx⟩ := h.src
  have hne : me ≠ NONE := by simp only [NONE]; omega
  refine ⟨⟨a, by rw [Sessions.addNode_sessionsBySocket, ha], ?_⟩, ?_⟩
  · rw [Sessions.addNode_heap ha hlt, if_pos rfl, hx]
    rfl
  · have := h.dst
    simp only [if_true] at this
    simpa only [if_neg hne] using this

/-- How far a stream has come: nothing is read, or the client is registered and
some of the frames are enqueued. -/
def Progress (s me : ℤ) (idMsg : List UInt8) (frames : List (List UInt8))
    (route : List UInt8 → ℤ) (tasks : List WriteTask) (v : View) : Prop :=
  (Ready s me frames route NONE v.sessions ∧ Chunked (idMsg :: frames) v.arrivals ∧
    v.tasks = tasks) ∨
  (∃ sent rest, frames = sent ++ rest ∧ Ready s me frames route me v.sessions ∧
    Chunked rest v.arrivals ∧ v.tasks = tasks ++ sent.map fun f => (route f, f))

lemma View.handshake_wouldBlock {v : View} {u : List Arrival} (h : v.arrivals = .wouldBlock :: u) :
    v.handshake s = (0, { v with arrivals := u }) := by
  rw [View.handshake, h]
  simp [readBytes, idMessageSize]

lemma View.message_wouldBlock {v : View} {u : List Arrival} (h : v.arrivals = .wouldBlock :: u) :
    v.message = (0, { v with arrivals := u }) := by
  rw [View.message, h]
  simp [readBytes, dataMessageSize]

lemma View.message_nil {v : View} (h : v.arrivals = []) : v.message = (0, v) := by
  rw [View.message, h]
  simp [readBytes, dataMessageSize, ← h]

/-- One turn keeps the progress, raises no error, and ends the call only when
it has consumed a pause or nothing is left. -/
lemma Progress.turn {v : View} {src : Addr} (hid : announcedId idMsg = me) (hme : 0 ≤ me)
    (hlt : me < maxClientsCount) (hlen : idMsg.length = idMessageSize)
    (hframes : ∀ f ∈ frames, f.length = dataMessageSize)
    (h : Progress s me idMsg frames route tasks v)
    (hsrc : v.sessions.sessionsBySocket s = some (some src)) :
    ∃ n v', v.turn s (some src) = (n, v') ∧ 0 ≤ n ∧ Progress s me idMsg frames route tasks v' ∧
      v'.sessions.sessionsBySocket = v.sessions.sessionsBySocket ∧
      v'.arrivals.length ≤ v.arrivals.length ∧
      (n = 0 → v'.arrivals = [] ∨ v'.arrivals.length < v.arrivals.length) := by
  have hne : me ≠ NONE := by simp only [NONE]; omega
  rcases h with ⟨hready, hchunk, htasks⟩ | ⟨sent, rest, hsplit, hready, hchunk, htasks⟩
  · obtain ⟨a, ha, hx⟩ := hready.src
    obtain rfl : a = src := by rw [hsrc] at ha; cases ha; rfl
    rw [View.turn, if_pos (Sessions.getId_of_heap hx)]
    cases hu : v.arrivals with
    | nil =>
        have := congrArg List.length hchunk.bytes
        rw [hu] at this
        simp [bytesOf, hlen, idMessageSize] at this
        omega
    | cons x u =>
        rw [hu] at hchunk
        cases x with
        | wouldBlock =>
            refine ⟨0, _, View.handshake_wouldBlock hu, le_refl _,
              .inl ⟨hready, hchunk.wouldBlock, htasks⟩, rfl, by simp, fun _ => .inr (by simp)⟩
        | closed => simpa using hchunk.flowing .closed (by simp)
        | error => simpa using hchunk.flowing .error (by simp)
        | data b bs =>
            obtain ⟨u', hread, hrest, hle⟩ := hchunk.data (by rw [hlen]; decide)
            rw [hlen, ← hu] at hread
            rw [View.handshake_of_whole hread hlen]
            refine ⟨_, _, rfl, by decide, .inr ⟨[], frames, rfl, ?_, hrest, by simp [htasks]⟩,
              by simp, by simpa using hle, fun h0 => absurd h0 (by decide)⟩
            rw [hid]
            exact hready.addNode hme hlt
  · obtain ⟨a, ha, hx⟩ := hready.src
    obtain rfl : a = src := by rw [hsrc] at ha; cases ha; rfl
    have hserved : ∀ u, Chunked rest u →
        Progress s me idMsg frames route tasks { v with arrivals := u } :=
      fun u hu => .inr ⟨sent, rest, hsplit, hready, hu, htasks⟩
    rw [View.turn, if_neg (by rw [Sessions.getId_of_heap hx]; exact hne)]
    cases hu : v.arrivals with
    | nil =>
        refine ⟨0, v, View.message_nil hu, le_refl _, ?_, rfl, by simp [hu], fun _ => .inl hu⟩
        exact .inr ⟨sent, rest, hsplit, hready, hchunk, htasks⟩
    | cons x u =>
        rw [hu] at hchunk
        cases x with
        | wouldBlock =>
            exact ⟨0, _, View.message_wouldBlock hu, le_refl _, hserved u hchunk.wouldBlock, rfl,
              by simp, fun _ => .inr (by simp)⟩
        | closed => simpa using hchunk.flowing .closed (by simp)
        | error => simpa using hchunk.flowing .error (by simp)
        | data b bs =>
            cases rest with
            | nil =>
                have := hchunk.bytes
                simp [bytesOf] at this
            | cons f rest =>
                have hmem : f ∈ frames := by rw [hsplit]; simp
                have hf := hframes f hmem
                obtain ⟨u', hread, hrest, hle⟩ := hchunk.data (by rw [hf]; decide)
                obtain ⟨d, hd, hsock⟩ := hready.dst f hmem
                simp only [if_neg hne] at hd hsock
                rw [hf, ← hu] at hread
                rw [View.message_of_routable hread hf hd, hsock]
                refine ⟨_, _, rfl, by decide, .inr ⟨sent ++ [f], rest, by simp [hsplit], hready,
                  hrest, by simp [htasks]⟩, rfl, by simpa using hle,
                  fun h0 => absurd h0 (by decide)⟩

/-- One call keeps the progress and consumes a pause, unless nothing is left. -/
lemma Progress.turns {v v' : View} {src : Addr} {n : ℤ} (hid : announcedId idMsg = me)
    (hme : 0 ≤ me) (hlt : me < maxClientsCount) (hlen : idMsg.length = idMessageSize)
    (hframes : ∀ f ∈ frames, f.length = dataMessageSize)
    (h : Progress s me idMsg frames route tasks v)
    (hsrc : v.sessions.sessionsBySocket s = some (some src)) (hturns : Turns s (some src) v n v') :
    n = 0 ∧ Progress s me idMsg frames route tasks v' ∧
      (v'.arrivals = [] ∨ v'.arrivals.length < v.arrivals.length) := by
  induction hturns with
  | last ht hn =>
      obtain ⟨m, w, hturn, hpos, hprog, -, -, hend⟩ := h.turn hid hme hlt hlen hframes hsrc
      rw [ht] at hturn
      cases hturn
      obtain rfl := le_antisymm hn hpos
      exact ⟨rfl, hprog, hend rfl⟩
  | more ht hm _ ih =>
      obtain ⟨m, w, hturn, -, hprog, hsame, hle, -⟩ := h.turn hid hme hlt hlen hframes hsrc
      rw [ht] at hturn
      cases hturn
      obtain ⟨h0, hprog', hend⟩ := ih hprog (by rw [hsame, hsrc])
      exact ⟨h0, hprog', hend.imp id fun hlt => lt_of_lt_of_le hlt hle⟩

/-- The calls keep the progress, and consume the stream when there are enough
of them. -/
lemma Progress.serve {calls : List Call} {st : ReadState} (hid : announcedId idMsg = me)
    (hme : 0 ≤ me) (hlt : me < maxClientsCount) (hlen : idMsg.length = idMessageSize)
    (hframes : ∀ f ∈ frames, f.length = dataMessageSize)
    (hothers : ∀ c ∈ calls, ∀ i S, Ready s me frames route i S →
      Ready s me frames route i (c.others S))
    (h : Progress s me idMsg frames route tasks st.view) :
    ∃ st', MessageRouting.serve s calls st = .ok st' ∧
      Progress s me idMsg frames route tasks st'.view ∧
      (st'.arrivals = [] ∨ st'.arrivals.length + calls.length ≤ st.arrivals.length) := by
  induction calls generalizing st with
  | nil => exact ⟨st, rfl, h, .inr (le_refl _)⟩
  | cons c calls ih =>
      set st₀ : ReadState := { st with sessions := c.others st.sessions, buffer := c.buffer }
        with hst₀
      -- the other threads keep what the stream needs
      have h₀ : Progress s me idMsg frames route tasks st₀.view := by
        refine h.imp (fun h => ⟨hothers c (by simp) _ _ h.1, h.2⟩) ?_
        rintro ⟨sent, rest, hsplit, hready, hrest⟩
        exact ⟨sent, rest, hsplit, hothers c (by simp) _ _ hready, hrest⟩
      obtain ⟨src, hsrc⟩ : ∃ a, st₀.sessions.sessionsBySocket s = some (some a) := by
        rcases h₀ with ⟨hready, -⟩ | ⟨_, _, _, hready, -⟩
        all_goals
          obtain ⟨a, ha, -⟩ := hready.src
          exact ⟨a, ha⟩
      obtain ⟨st₁, hdo, ⟨hnone, -⟩ | ⟨src', n, v, hfind, hturns, hview⟩⟩ := doReads_spec s st₀
      · rw [Sessions.findSessionBySocket, hsrc] at hnone
        cases hnone
      obtain rfl : src' = src := by
        rw [Sessions.findSessionBySocket, hsrc] at hfind
        cases hfind
        rfl
      obtain ⟨rfl, hprog, hend⟩ := h₀.turns hid hme hlt hlen hframes hsrc hturns
      rw [if_neg (by decide)] at hview
      obtain ⟨st', hserve, hprog', hend'⟩ :=
        ih (fun c hc => hothers c (List.mem_cons_of_mem _ hc)) (by rw [hview]; exact hprog)
      refine ⟨st', by rw [MessageRouting.serve, ← hst₀, hdo]; exact hserve, hprog', ?_⟩
      have harr : st₁.arrivals = v.arrivals := congrArg View.arrivals hview
      have hle : v.arrivals = [] ∨ v.arrivals.length < st.arrivals.length := hend
      rw [harr] at hend'
      rcases hend' with hnil | hle'
      · exact .inl hnil
      · rcases hle with hnil | hless
        · rw [hnil] at hle'
          exact .inl (List.eq_nil_of_length_eq_zero
            (Nat.le_zero.mp ((Nat.le_add_right _ _).trans hle')))
        · exact .inr (by simp only [List.length_cons]; omega)

end Stream

/-- A sequence of nonempty messages with no bytes has no messages. -/
lemma eq_nil_of_flatten {n : ℕ} {msgs : List (List UInt8)} (hn : 0 < n)
    (h : ∀ m ∈ msgs, m.length = n) (hflat : msgs.flatten = []) : msgs = [] := by
  cases msgs with
  | nil => rfl
  | cons m ms =>
      rw [List.flatten_cons, List.append_eq_nil_iff] at hflat
      have := h m (by simp)
      rw [hflat.1, List.length_nil] at this
      omega

/-- **Chunking independence**: a client announces an id in `0..998` with three
digits and sends frames whose destinations stay registered. However its stream
is cut, with pauses between its messages only, the calls raise no exception;
once the stream is consumed one task per frame is pushed, in order, with the
bytes of the frame; and as many calls as the stream has pieces consume it. -/
theorem serve_tasks {s : ℤ} {S : Sessions} {idMsg buffer : List UInt8}
    {frames : List (List UInt8)} {route : List UInt8 → ℤ} {tasks : List WriteTask}
    {u : List Arrival} {calls : List Call} (hlen : idMsg.length = idMessageSize)
    (hdigits : ∀ d ∈ idMsg, isDigit d = true) (hid : digitsVal idMsg ≤ 998)
    (hframes : ∀ f ∈ frames, f.length = dataMessageSize)
    (hready : Ready s (digitsVal idMsg) frames route NONE S)
    (hothers : ∀ c ∈ calls, ∀ i S, Ready s (digitsVal idMsg) frames route i S →
      Ready s (digitsVal idMsg) frames route i (c.others S))
    (hchunk : Chunked (idMsg :: frames) u) :
    ∃ st', serve s calls ⟨S, u, buffer, tasks⟩ = .ok st' ∧
      (bytesOf st'.arrivals = [] → st'.tasks = tasks ++ frames.map fun f => (route f, f)) ∧
      (u.length ≤ calls.length → bytesOf st'.arrivals = []) := by
  have hann : announcedId idMsg = digitsVal idMsg :=
    announcedId_eq (extractSrcId_digits hlen hdigits)
  have hprog : Progress s (digitsVal idMsg) idMsg frames route tasks
      (ReadState.mk S u buffer tasks).view := .inl ⟨hready, hchunk, rfl⟩
  obtain ⟨st', hserve, hprog', hend⟩ := hprog.serve hann (by omega)
    (by simp only [maxClientsCount]; omega) hlen hframes hothers
  refine ⟨st', hserve, fun hnil => ?_, fun hcalls => ?_⟩
  · rcases hprog' with ⟨-, hwait, -⟩ | ⟨sent, rest, hsplit, -, hrest, htasks⟩
    · -- the id message would still be unread
      have hbytes : bytesOf st'.arrivals = (idMsg :: frames).flatten := hwait.bytes
      rw [hnil, List.flatten_cons, eq_comm, List.append_eq_nil_iff] at hbytes
      rw [hbytes.1] at hlen
      simp [idMessageSize] at hlen
    · have hflat : rest.flatten = [] := hrest.bytes.symm.trans hnil
      obtain rfl := eq_nil_of_flatten (by decide)
        (fun f hf => hframes f (by rw [hsplit]; exact List.mem_append_right _ hf)) hflat
      rw [List.append_nil] at hsplit
      rw [hsplit]
      exact htasks
  · have hempty : st'.arrivals = [] := by
      rcases hend with h | h
      · exact h
      · have hle : st'.arrivals.length + calls.length ≤ u.length := h
        exact List.eq_nil_of_length_eq_zero (by omega)
    rw [hempty]
    rfl

/-- Two clients, of which the one on socket 7 is registered under 6. -/
def twoClients : Sessions :=
  { sessionsBySocket := fun s =>
      if s = 4 then some (some 0) else if s = 7 then some (some 1) else none
    sessionsById := fun k => if k = 6 then some (some 1) else none
    acceptedClients := [4, 7]
    heap := [⟨4, NONE⟩, ⟨7, 6⟩] }

/-- The message `005 2200 123456 1111111111111111 006`. -/
def frameTo006 : List UInt8 :=
  [48, 48, 53, 50, 50, 48, 48, 49, 50, 51, 52, 53, 54] ++ List.replicate 16 49 ++ [48, 48, 54]

lemma ready_twoClients :
    Ready 4 (digitsVal [48, 48, 53]) [frameTo006] (fun _ => 7) NONE twoClients :=
  ⟨⟨0, by decide, by decide⟩, by
    intro f hf
    obtain rfl := List.mem_singleton.mp hf
    exact ⟨1, by decide, by decide⟩⟩

/-- The stream of a client that is cut inside both of its messages, without a
pause inside one. -/
theorem serve_tasks_cut :
    ∃ st', serve 4 (List.replicate 5 ⟨id, []⟩) ⟨twoClients,
        [.wouldBlock, .data 48 [48], .data 53 [], .wouldBlock,
          .data 48 (frameTo006.drop 1)], [], []⟩ = .ok st' ∧
      (bytesOf st'.arrivals = [] → st'.tasks = [] ++ [frameTo006].map fun f => (7, f)) ∧
      (5 ≤ 5 → bytesOf st'.arrivals = []) := by
  have hchunk : Chunked ([48, 48, 53] :: [frameTo006])
      [.wouldBlock, .data 48 [48], .data 53 [], .wouldBlock, .data 48 (frameTo006.drop 1)] := by
    refine ⟨by simp [Flowing], by decide, ?_⟩
    intro p q hpq
    match p, hpq with
    | [], _ => exact ⟨0, rfl⟩
    | [_, _, _], hpq =>
        simp only [List.cons_append, List.cons.injEq, List.nil_append] at hpq
        obtain ⟨rfl, rfl, rfl, -⟩ := hpq
        exact ⟨1, rfl⟩
    | [_], hpq => simp at hpq
    | [_, _], hpq => simp at hpq
    | [_, _, _, _], hpq => simp at hpq
    | _ :: _ :: _ :: _ :: _ :: _, hpq =>
        have := congrArg List.length hpq
        simp at this
  have hothers : ∀ c ∈ List.replicate 5 (⟨id, []⟩ : Call), ∀ i S,
      Ready 4 (digitsVal [48, 48, 53]) [frameTo006] (fun _ => 7) i S →
      Ready 4 (digitsVal [48, 48, 53]) [frameTo006] (fun _ => 7) i (c.others S) := by
    rintro c hc i S hS
    rw [List.eq_of_mem_replicate hc]
    exact hS
  exact serve_tasks (by decide) (by simp [isDigit]) (by decide) (by decide) ready_twoClients hothers
    hchunk

/-- A frame with a pause inside is dropped in two pieces. -/
theorem serve_drops_split_frame :
    ¬ ∀ (s : ℤ) (S : Sessions) (idMsg buffer : List UInt8) (frames : List (List UInt8))
      (route : List UInt8 → ℤ) (tasks : List WriteTask) (u : List Arrival) (calls : List Call),
      idMsg.length = idMessageSize → (∀ d ∈ idMsg, isDigit d = true) → digitsVal idMsg ≤ 998 →
      (∀ f ∈ frames, f.length = dataMessageSize) →
      Ready s (digitsVal idMsg) frames route NONE S →
      (∀ c ∈ calls, ∀ i S, Ready s (digitsVal idMsg) frames route i S →
        Ready s (digitsVal idMsg) frames route i (c.others S)) →
      Flowing u → bytesOf u = (idMsg :: frames).flatten →
      ∀ st', serve s calls ⟨S, u, buffer, tasks⟩ = .ok st' → bytesOf st'.arrivals = [] →
        st'.tasks = tasks ++ frames.map fun f => (route f, f) := by
  intro hall
  set u : List Arrival := [.data 48 [48, 53], .data 48 [48, 53, 50], .wouldBlock,
    .data 50 (frameTo006.drop 5)] with hu
  obtain ⟨st', hserve, hnil, hnone⟩ : ∃ st', serve 4 [⟨id, []⟩] ⟨twoClients, u, [], []⟩ = .ok st' ∧
      bytesOf st'.arrivals = [] ∧ st'.tasks = [] := ⟨_, rfl, by decide, by decide⟩
  have htasks := hall 4 twoClients [48, 48, 53] [] [frameTo006] (fun _ => 7) [] u [⟨id, []⟩]
    (by decide) (by simp [isDigit]) (by decide) (by decide) ready_twoClients
    (by rintro c hc i S hS; rw [List.mem_singleton.mp hc]; exact hS) (by simp [hu, Flowing])
    (by decide) st' hserve hnil
  rw [hnone] at htasks
  simp at htasks

end MessageRouting
