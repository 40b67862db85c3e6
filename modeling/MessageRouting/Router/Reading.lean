import MessageRouting.Router.Message
import MessageRouting.Router.Sessions
import MessageRouting.Router.SignalingQueue
import MessageRouting.Router.TcpServer

/-!
One `do_reads` call of a reader thread, with its `handle_handshake` and
`process_message` (`router/src/router.cpp`).

* `handleHandshake`, `processMessage`, `doReadsLoop`, `doReads`: the functions of
  the source on the registry, the socket, the receive buffer of the thread and
  the write queue. An exception that leaves a function is `Except.error`.
* `View`: the same state without the buffer, and `turn`, what one turn of the
  loop does to it. `doReads_spec` says that a call runs the loop of `turn`s to
  its end and raises no exception, whatever the buffer held before: three bytes
  are never out of the range of `int`.
* `Turns`: the turns of one call, as a relation; the induction over a call.
-/

namespace MessageRouting

open Decimal

/-- A task of `ready_write_sockets_queue_`: the destination socket and the
message. -/
abbrev WriteTask := ℤ × List UInt8

/-- What a reader thread works on: the registry, the socket, its own receive
buffer and the tasks on the write queue. -/
structure ReadState where
  sessions : Sessions
  arrivals : List Arrival
  buffer : List UInt8
  tasks : List WriteTask

/-- `Router::forward`. -/
def forward (S : Sessions) (tasks : List WriteTask) (dstSession : SessionPtr) (msg : List UInt8) :
    List WriteTask :=
  SignalingQueue.push tasks (S.getSocket dstSession, msg) false

/-- `Router::handle_handshake`. A short message is dropped. -/
def handleHandshake (readyReadSocket : ℤ) (st : ReadState) : Except StoiError (ℤ × ReadState) :=
  match readAsync st.buffer idMessageSize st.arrivals with
  | (bytesRead, buffer, arrivals) =>
      if bytesRead = idMessageSize then
        -- the message is terminated in place before it is parsed
        let buffer := buffer.set idMessageSize 0
        match extractSrcId buffer bytesRead.toNat with
        | .error e => .error e
        | .ok srcId =>
            .ok (bytesRead, { st with
              sessions := st.sessions.addNode readyReadSocket srcId
              buffer := buffer
              arrivals := arrivals })
      else .ok (bytesRead, { st with buffer := buffer, arrivals := arrivals })

/-- `Router::process_message`. It returns `0` also when no session has the
destination id, and a short message is dropped. -/
def processMessage (st : ReadState) : Except StoiError (ℤ × ReadState) :=
  match readAsync st.buffer dataMessageSize st.arrivals with
  | (bytesRead, buffer, arrivals) =>
      if bytesRead = dataMessageSize then
        let buffer := buffer.set dataMessageSize 0
        match extractDstId buffer bytesRead.toNat with
        | .error e => .error e
        | .ok dstId =>
            match st.sessions.findSessionById dstId with
            | none => .ok (0, { st with buffer := buffer, arrivals := arrivals })
            | some dst =>
                .ok (bytesRead, { st with
                  buffer := buffer
                  arrivals := arrivals
                  tasks := forward st.sessions st.tasks (some dst) (buffer.take dataMessageSize) })
      else .ok (bytesRead, { st with buffer := buffer, arrivals := arrivals })

/-- The loop of `Router::do_reads`, with a bound on its turns that it does not
reach. -/
def doReadsLoop (readyReadSocket : ℤ) (srcSession : SessionPtr) :
    ℕ → ReadState → Except StoiError (ℤ × ReadState)
  | 0, st => .ok (0, st)
  | fuel + 1, st =>
      match
        if st.sessions.getId srcSession = NONE then handleHandshake readyReadSocket st
        else processMessage st with
      | .error e => .error e
      | .ok (bytesRead, st') =>
          if 0 < bytesRead then doReadsLoop readyReadSocket srcSession fuel st'
          else .ok (bytesRead, st')

/-- `Router::do_reads`. Every turn of the loop but the last takes a byte from
the socket. -/
def doReads (readyReadSocket : ℤ) (st : ReadState) : Except StoiError ReadState :=
  match st.sessions.findSessionBySocket readyReadSocket with
  | none => .ok st
  | some _ =>
      -- looked up again under the mutex of the session that was found
      match st.sessions.findSessionBySocket readyReadSocket with
      | none => .ok st
      | some src =>
          match doReadsLoop readyReadSocket (some src) ((bytesOf st.arrivals).length + 1) st with
          | .error e => .error e
          | .ok (bytesRead, st') =>
              if bytesRead = socketError then
                .ok { st' with sessions := st'.sessions.removeSession readyReadSocket }
              else .ok st'

/-! ### The call without the buffer -/

/-- The id that a message of three bytes announces. -/
def announcedId (w : List UInt8) : ℤ :=
  match extractSrcId w idMessageSize with
  | .ok id => id
  | .error _ => NONE

/-- The destination id of a message of 32 bytes. -/
def destinationId (m : List UInt8) : ℤ :=
  match extractDstId m dataMessageSize with
  | .ok id => id
  | .error _ => NONE

/-- The state of a reader without its buffer. -/
structure View where
  sessions : Sessions
  arrivals : List Arrival
  tasks : List WriteTask

/-- What a state shows of itself. -/
def ReadState.view (st : ReadState) : View := ⟨st.sessions, st.arrivals, st.tasks⟩

namespace View

/-- What `handle_handshake` does. -/
def handshake (s : ℤ) (v : View) : ℤ × View :=
  match readBytes idMessageSize v.arrivals with
  | (none, u) => (socketError, { v with arrivals := u })
  | (some w, u) =>
      (w.length, { v with
        arrivals := u
        sessions :=
          if w.length = idMessageSize then v.sessions.addNode s (announcedId w) else v.sessions })

/-- What `process_message` does. -/
def message (v : View) : ℤ × View :=
  match readBytes dataMessageSize v.arrivals with
  | (none, u) => (socketError, { v with arrivals := u })
  | (some m, u) =>
      if m.length = dataMessageSize then
        match v.sessions.findSessionById (destinationId m) with
        | none => (0, { v with arrivals := u })
        | some dst =>
            (m.length, { v with
              arrivals := u, tasks := v.tasks ++ [(v.sessions.getSocket (some dst), m)] })
      else (m.length, { v with arrivals := u })

/-- One turn of the loop of `do_reads`. -/
def turn (s : ℤ) (src : SessionPtr) (v : View) : ℤ × View :=
  if v.sessions.getId src = NONE then v.handshake s else v.message

end View

/-- The turns of one call, from a view to the result of the last turn. -/
inductive Turns (s : ℤ) (src : SessionPtr) : View → ℤ → View → Prop where
  | last {v v' : View} {n : ℤ} : v.turn s src = (n, v') → n ≤ 0 → Turns s src v n v'
  | more {v v' v'' : View} {m n : ℤ} :
      v.turn s src = (m, v') → 0 < m → Turns s src v' n v'' → Turns s src v n v''

/-- The turns of a call are determined. -/
lemma Turns.unique {s : ℤ} {src : SessionPtr} {v v' v'' : View} {m n : ℤ}
    (h : Turns s src v m v') (h' : Turns s src v n v'') : m = n ∧ v' = v'' := by
  induction h with
  | last ht hm =>
      cases h' with
      | last ht' _ =>
          rw [ht] at ht'
          cases ht'
          exact ⟨rfl, rfl⟩
      | more ht' hpos _ =>
          rw [ht] at ht'
          cases ht'
          omega
  | more ht hpos _ ih =>
      cases h' with
      | last ht' hn =>
          rw [ht] at ht'
          cases ht'
          omega
      | more ht' _ hrest =>
          rw [ht] at ht'
          cases ht'
          exact ih hrest

/-! ### What one turn does -/

namespace View

variable {s : ℤ} {v : View} {u : List Arrival} {w m : List UInt8}

lemma handshake_of_none (h : readBytes idMessageSize v.arrivals = (none, u)) :
    v.handshake s = (socketError, { v with arrivals := u }) := by
  rw [handshake, h]

lemma handshake_of_whole (h : readBytes idMessageSize v.arrivals = (some w, u))
    (hw : w.length = idMessageSize) :
    v.handshake s = ((idMessageSize : ℤ), { v with
      arrivals := u, sessions := v.sessions.addNode s (announcedId w) }) := by
  rw [handshake, h]
  simp only [hw, if_true]

lemma handshake_of_short (h : readBytes idMessageSize v.arrivals = (some w, u))
    (hw : w.length ≠ idMessageSize) :
    v.handshake s = ((w.length : ℤ), { v with arrivals := u }) := by
  rw [handshake, h]
  simp only [if_neg hw]

lemma message_of_none (h : readBytes dataMessageSize v.arrivals = (none, u)) :
    v.message = (socketError, { v with arrivals := u }) := by
  rw [message, h]

lemma message_of_short (h : readBytes dataMessageSize v.arrivals = (some m, u))
    (hm : m.length ≠ dataMessageSize) :
    v.message = ((m.length : ℤ), { v with arrivals := u }) := by
  rw [message, h]
  simp only [if_neg hm]

lemma message_of_unroutable (h : readBytes dataMessageSize v.arrivals = (some m, u))
    (hm : m.length = dataMessageSize)
    (hd : v.sessions.findSessionById (destinationId m) = none) :
    v.message = (0, { v with arrivals := u }) := by
  rw [message, h]
  simp only [hm, if_true, hd]

lemma message_of_routable {dst : Addr} (h : readBytes dataMessageSize v.arrivals = (some m, u))
    (hm : m.length = dataMessageSize)
    (hd : v.sessions.findSessionById (destinationId m) = some dst) :
    v.message = ((dataMessageSize : ℤ), { v with
      arrivals := u, tasks := v.tasks ++ [(v.sessions.getSocket (some dst), m)] }) := by
  rw [message, h]
  simp only [hm, if_true, hd]

/-- What a handshake can do: fail, take less than an id message, or add a
node. -/
lemma handshake_cases (s : ℤ) (v : View) :
    (∃ u, v.handshake s = (socketError, { v with arrivals := u })) ∨
    (∃ w u, readBytes idMessageSize v.arrivals = (some w, u) ∧ w.length < idMessageSize ∧
      v.handshake s = ((w.length : ℤ), { v with arrivals := u })) ∨
    (∃ w u, readBytes idMessageSize v.arrivals = (some w, u) ∧ w.length = idMessageSize ∧
      v.handshake s = ((idMessageSize : ℤ), { v with
        arrivals := u, sessions := v.sessions.addNode s (announcedId w) })) := by
  cases h : readBytes idMessageSize v.arrivals with
  | mk o u =>
      cases o with
      | none => exact .inl ⟨u, handshake_of_none h⟩
      | some w =>
          rcases (readBytes_some h).1.lt_or_eq with hw | hw
          · exact .inr (.inl ⟨w, u, rfl, hw, handshake_of_short h (by omega)⟩)
          · exact .inr (.inr ⟨w, u, rfl, hw, handshake_of_whole h hw⟩)

/-- What the processing of a message can do: fail, drop bytes, or enqueue a
message for the session of its destination. -/
lemma message_cases (v : View) :
    (∃ n u, v.message = (n, { v with arrivals := u })) ∨
    (∃ m u dst, readBytes dataMessageSize v.arrivals = (some m, u) ∧
      m.length = dataMessageSize ∧ v.sessions.findSessionById (destinationId m) = some dst ∧
      v.message = ((dataMessageSize : ℤ), { v with
        arrivals := u, tasks := v.tasks ++ [(v.sessions.getSocket (some dst), m)] })) := by
  cases h : readBytes dataMessageSize v.arrivals with
  | mk o u =>
      cases o with
      | none => exact .inl ⟨_, u, message_of_none h⟩
      | some m =>
          by_cases hm : m.length = dataMessageSize
          · cases hd : v.sessions.findSessionById (destinationId m) with
            | none => exact .inl ⟨_, u, message_of_unroutable h hm hd⟩
            | some dst => exact .inr ⟨m, u, dst, rfl, hm, hd, message_of_routable h hm hd⟩
          · exact .inl ⟨_, u, message_of_short h hm⟩

end View

/-! ### The functions show what the view does -/

lemma announcedId_eq {w : List UInt8} {id : ℤ} (h : extractSrcId w idMessageSize = .ok id) :
    announcedId w = id := by
  rw [announcedId, h]

lemma destinationId_eq {m : List UInt8} {id : ℤ} (h : extractDstId m dataMessageSize = .ok id) :
    destinationId m = id := by
  rw [destinationId, h]

lemma handleHandshake_spec (s : ℤ) (st : ReadState) :
    ∃ st', handleHandshake s st = .ok ((st.view.handshake s).1, st') ∧
      st'.view = (st.view.handshake s).2 := by
  cases hread : readBytes idMessageSize st.view.arrivals with
  | mk o u =>
      cases o with
      | none =>
          rw [View.handshake_of_none hread]
          obtain ⟨buffer, hbuf⟩ := readAsync_of_none st.buffer (by decide) hread
          refine ⟨{ st with buffer := buffer, arrivals := u }, ?_, rfl⟩
          rw [handleHandshake, show st.arrivals = st.view.arrivals from rfl, hbuf]
          rfl
      | some w =>
          have hbuf := readAsync_of_some st.buffer (by decide) hread
          by_cases hw : w.length = idMessageSize
          · rw [View.handshake_of_whole hread hw]
            obtain ⟨id, hid⟩ := extractSrcId_ok (by rw [hw]; decide) idMessageSize
            have hsrc : extractSrcId ((w ++ st.buffer.drop w.length).set idMessageSize 0)
                idMessageSize = .ok id := by
              rw [← hid, ← hw, extractSrcId_terminated]
            refine ⟨{ st with
              sessions := st.sessions.addNode s id
              buffer := (w ++ st.buffer.drop w.length).set idMessageSize 0
              arrivals := u }, ?_, by rw [announcedId_eq hid]; rfl⟩
            rw [handleHandshake, show st.arrivals = st.view.arrivals from rfl, hbuf]
            simp only [hw, if_true, Int.toNat_natCast]
            rw [hw] at hsrc
            rw [hsrc]
          · rw [View.handshake_of_short hread hw]
            refine ⟨{ st with buffer := w ++ st.buffer.drop w.length, arrivals := u }, ?_, rfl⟩
            rw [handleHandshake, show st.arrivals = st.view.arrivals from rfl, hbuf]
            simp only [Nat.cast_inj, if_neg hw]

lemma processMessage_spec (st : ReadState) :
    ∃ st', processMessage st = .ok (st.view.message.1, st') ∧ st'.view = st.view.message.2 := by
  cases hread : readBytes dataMessageSize st.view.arrivals with
  | mk o u =>
      cases o with
      | none =>
          rw [View.message_of_none hread]
          obtain ⟨buffer, hbuf⟩ := readAsync_of_none st.buffer (by decide) hread
          refine ⟨{ st with buffer := buffer, arrivals := u }, ?_, rfl⟩
          rw [processMessage, show st.arrivals = st.view.arrivals from rfl, hbuf]
          rfl
      | some m =>
          have hbuf := readAsync_of_some st.buffer (by decide) hread
          by_cases hm : m.length = dataMessageSize
          · obtain ⟨id, hid⟩ := extractDstId_ok (by rw [hm]; decide) dataMessageSize
            have hdst : extractDstId ((m ++ st.buffer.drop m.length).set dataMessageSize 0)
                dataMessageSize = .ok id := by
              rw [← hid, ← hm, extractDstId_terminated (by rw [hm]; decide)]
            have htake : ((m ++ st.buffer.drop m.length).set dataMessageSize 0).take
                dataMessageSize = m := by
              rw [← hm]
              obtain h | ⟨rest, h⟩ := set_length_append m (st.buffer.drop m.length)
              · rw [h, List.take_length]
              · rw [h, List.take_left]
            rw [hm] at hdst htake
            cases hd : st.view.sessions.findSessionById (destinationId m) with
            | none =>
                rw [View.message_of_unroutable hread hm hd]
                refine ⟨{ st with
                  buffer := (m ++ st.buffer.drop m.length).set dataMessageSize 0
                  arrivals := u }, ?_, rfl⟩
                rw [destinationId_eq hid] at hd
                rw [processMessage, show st.arrivals = st.view.arrivals from rfl, hbuf]
                simp only [hm, if_true, Int.toNat_natCast, hdst]
                rw [show st.sessions.findSessionById id = none from hd]
            | some dst =>
                rw [View.message_of_routable hread hm hd]
                refine ⟨{ st with
                  buffer := (m ++ st.buffer.drop m.length).set dataMessageSize 0
                  arrivals := u
                  tasks := st.tasks ++ [(st.sessions.getSocket (some dst), m)] }, ?_, rfl⟩
                rw [destinationId_eq hid] at hd
                rw [processMessage, show st.arrivals = st.view.arrivals from rfl, hbuf]
                simp only [hm, if_true, Int.toNat_natCast, hdst]
                rw [show st.sessions.findSessionById id = some dst from hd]
                simp only [forward, htake, SignalingQueue.push_false]
          · rw [View.message_of_short hread hm]
            refine ⟨{ st with buffer := m ++ st.buffer.drop m.length, arrivals := u }, ?_, rfl⟩
            rw [processMessage, show st.arrivals = st.view.arrivals from rfl, hbuf]
            simp only [Nat.cast_inj, if_neg hm]

/-- A turn that goes on has taken a byte from the socket. -/
lemma View.turn_bytes {s : ℤ} {src : SessionPtr} {v v' : View} {n : ℤ}
    (h : v.turn s src = (n, v')) (hn : 0 < n) :
    (bytesOf v'.arrivals).length < (bytesOf v.arrivals).length := by
  have key : ∀ {len : ℕ} {r : List UInt8} {u : List Arrival},
      readBytes len v.arrivals = (some r, u) → 0 < r.length →
      (bytesOf u).length < (bytesOf v.arrivals).length := by
    intro len r u hr hpos
    rw [(readBytes_some hr).2, List.length_append]
    omega
  rw [turn] at h
  split_ifs at h
  · rcases v.handshake_cases s with ⟨u, he⟩ | ⟨w, u, hr, -, he⟩ | ⟨w, u, hr, hw, he⟩
    · rw [he] at h
      cases h
      simp [socketError] at hn
    · rw [he] at h
      cases h
      exact key hr (by exact_mod_cast hn)
    · rw [he] at h
      cases h
      exact key hr (by rw [hw]; decide)
  · cases hr : readBytes dataMessageSize v.arrivals with
    | mk o u =>
        cases o with
        | none =>
            rw [message_of_none hr] at h
            cases h
            simp [socketError] at hn
        | some m =>
            have hpos : 0 < m.length := by
              by_cases hm : m.length = dataMessageSize
              · rw [hm]; decide
              · rw [message_of_short hr hm] at h
                cases h
                exact_mod_cast hn
            have hu : v'.arrivals = u := by
              rw [message, hr] at h
              dsimp only at h
              split_ifs at h
              · split at h <;> (cases h; rfl)
              · cases h; rfl
            rw [hu]
            exact key hr hpos

lemma doReadsLoop_spec {s : ℤ} {src : SessionPtr} {fuel : ℕ} {st : ReadState}
    (hf : (bytesOf st.arrivals).length < fuel) :
    ∃ n st', doReadsLoop s src fuel st = .ok (n, st') ∧ Turns s src st.view n st'.view := by
  induction fuel generalizing st with
  | zero => omega
  | succ fuel ih =>
      -- one turn, whichever of the two functions it calls
      obtain ⟨st', hst', hview⟩ : ∃ st',
          (if st.sessions.getId src = NONE then handleHandshake s st else processMessage st) =
            .ok ((st.view.turn s src).1, st') ∧ st'.view = (st.view.turn s src).2 := by
        rw [View.turn]
        by_cases hid : st.sessions.getId src = NONE
        · rw [if_pos hid, if_pos (show st.view.sessions.getId src = NONE from hid)]
          exact handleHandshake_spec s st
        · rw [if_neg hid, if_neg (show ¬ st.view.sessions.getId src = NONE from hid)]
          exact processMessage_spec st
      have hturn : st.view.turn s src = ((st.view.turn s src).1, st'.view) := by rw [hview]
      rw [doReadsLoop, hst']
      dsimp only
      by_cases hpos : 0 < (st.view.turn s src).1
      · rw [if_pos hpos]
        have hless := View.turn_bytes hturn hpos
        have hless' : (bytesOf st'.arrivals).length < fuel := by
          have hf' : (bytesOf st.view.arrivals).length < fuel + 1 := hf
          exact lt_of_lt_of_le hless (Nat.lt_succ_iff.mp hf')
        obtain ⟨n, st'', hrun, hturns⟩ := ih hless'
        exact ⟨n, st'', hrun, .more hturn hpos hturns⟩
      · rw [if_neg hpos]
        exact ⟨_, st', rfl, .last hturn (not_lt.mp hpos)⟩

/-- **One call of `do_reads`** raises no exception, and runs the turns of the
view to their end, whatever the buffer held. -/
theorem doReads_spec (s : ℤ) (st : ReadState) :
    ∃ st', doReads s st = .ok st' ∧
      (st.sessions.findSessionBySocket s = none ∧ st' = st ∨
        ∃ src n v', st.sessions.findSessionBySocket s = some src ∧
          Turns s (some src) st.view n v' ∧
          st'.view = if n = socketError then
            { v' with sessions := v'.sessions.removeSession s } else v') := by
  cases hfind : st.sessions.findSessionBySocket s with
  | none => exact ⟨st, by rw [doReads, hfind], .inl ⟨rfl, rfl⟩⟩
  | some src =>
      obtain ⟨n, st', hloop, hturns⟩ : ∃ n st',
          doReadsLoop s (some src) ((bytesOf st.arrivals).length + 1) st = .ok (n, st') ∧
            Turns s (some src) st.view n st'.view := doReadsLoop_spec (Nat.lt_succ_self _)
      by_cases hn : n = socketError
      · refine ⟨{ st' with sessions := st'.sessions.removeSession s }, ?_,
          .inr ⟨src, n, st'.view, rfl, hturns, by rw [if_pos hn]; rfl⟩⟩
        simp only [doReads, hfind, hloop, if_pos hn]
      · refine ⟨st', ?_, .inr ⟨src, n, st'.view, rfl, hturns, by rw [if_neg hn]⟩⟩
        simp only [doReads, hfind, hloop, if_neg hn]

/-- A call on a registered socket whose turns are known. -/
lemma doReads_of_turns {s n : ℤ} {a : Addr} {v : View} (st : ReadState)
    (hfind : st.sessions.findSessionBySocket s = some a) (h : Turns s (some a) st.view n v) :
    ∃ st', doReads s st = .ok st' ∧ st'.view =
      if n = socketError then { v with sessions := v.sessions.removeSession s } else v := by
  obtain ⟨st', hst', hcall⟩ := doReads_spec s st
  refine ⟨st', hst', ?_⟩
  obtain ⟨hnone, -⟩ | ⟨src, n', v', hsrc, hturns, hview⟩ := hcall
  · rw [hfind] at hnone
    cases hnone
  · obtain rfl : a = src := Option.some.inj (hfind.symm.trans hsrc)
    obtain ⟨rfl, rfl⟩ := h.unique hturns
    exact hview

end MessageRouting
