import MessageRouting.Router.Calls

/-!
What a reader thread logs (`worker_thread_read_handler` and `process_message` in
`router/src/router.cpp`).

`process_message` logs its receive buffer as a C string before it sets the terminator. The
thread has one buffer for all its clients; it is set to zero when the thread begins, and
since no message is longer than 32 bytes only zeros ever stand behind them.

* `Clean`: zeros behind the place of a message; `Clean.readAsync`, `Clean.set`: what the
  calls do to the buffer keeps it so.
* `doReadsLog`, `readerLog`: the texts that a call of `do_reads` logs, and those of a thread;
  `receivedIn`: the messages that a call takes from its socket.
* `readerLog_eq`: a thread logs these messages and nothing else, each up to its first NUL.
-/

namespace MessageRouting

/-! ### The buffer of a thread -/

/-- `RECV_BUFF_SIZE`. -/
def recvBuffSize : ℕ := 32 * 3000

/-- `new char[RECV_BUFF_SIZE]()`. -/
def newBuffer : List UInt8 := List.replicate recvBuffSize 0

/-- The buffer has its size, and only zeros behind the place of a message. -/
structure Clean (buffer : List UInt8) : Prop where
  size : buffer.length = recvBuffSize
  zeros : ∀ b ∈ buffer.drop dataMessageSize, b = 0

variable {buffer : List UInt8} {u : List Arrival} {s : ℤ} {src : SessionPtr} {st st' : ReadState}
  {n : ℤ} {len : ℕ}

lemma clean_newBuffer : Clean newBuffer := by
  refine ⟨List.length_replicate, fun b hb => ?_⟩
  rw [newBuffer, List.drop_replicate] at hb
  exact List.eq_of_mem_replicate hb

/-- Bytes in the place of a message. -/
lemma Clean.writeAt (h : Clean buffer) {offset : ℕ} {bs : List UInt8}
    (hle : offset + bs.length ≤ dataMessageSize) : Clean (writeAt buffer offset bs) := by
  have hsize := h.size
  have hbig : dataMessageSize ≤ recvBuffSize := by decide
  have hfront : (buffer.take offset ++ bs).length = offset + bs.length := by
    rw [List.length_append, List.length_take]
    omega
  constructor
  · rw [MessageRouting.writeAt, List.length_append, hfront, List.length_drop]
    omega
  · have hdrop : (MessageRouting.writeAt buffer offset bs).drop dataMessageSize =
        buffer.drop dataMessageSize := by
      rw [MessageRouting.writeAt, List.drop_append, List.drop_of_length_le (by omega), hfront,
        List.nil_append, List.drop_drop]
      congr 1
      omega
    rw [hdrop]
    exact h.zeros

/-- A terminator, wherever it is set. -/
lemma Clean.set (h : Clean buffer) (k : ℕ) : Clean (buffer.set k 0) := by
  refine ⟨by rw [List.length_set, h.size], fun b hb => ?_⟩
  rw [List.drop_set] at hb
  split_ifs at hb with hlt
  · exact h.zeros b hb
  · rcases List.mem_or_eq_of_mem_set hb with hmem | rfl
    · exact h.zeros b hmem
    · rfl

lemma recv_length_le {bs : List UInt8} {u' : List Arrival} (h : recv len u = (.bytes bs, u')) :
    bs.length ≤ len := by
  cases u with
  | nil => cases h
  | cons x u =>
      cases x with
      | data b cs =>
          rw [recv] at h
          split_ifs at h
          · cases h
          · obtain ⟨rfl, -⟩ : (b :: cs).take len = bs ∧ _ := by simpa using h
            exact List.length_take_le _ _
      | _ => cases h

/-- `read_async` for a message. -/
lemma Clean.readAsyncLoop (h : Clean buffer) {fuel total : ℕ} (ht : total ≤ len)
    (hlen : len ≤ dataMessageSize) : Clean (readAsyncLoop len fuel total buffer u).2.1 := by
  induction fuel generalizing total buffer u with
  | zero => exact h
  | succ fuel ih =>
      rw [MessageRouting.readAsyncLoop]
      cases hr : recv (len - total) u with
      | mk r u' =>
          cases r with
          | bytes bs =>
              have hle := recv_length_le hr
              have hwrite : Clean (MessageRouting.writeAt buffer total bs) := h.writeAt (by omega)
              dsimp only
              split_ifs
              · exact hwrite
              · exact ih hwrite (by omega)
          | _ => exact h

lemma Clean.readAsync (h : Clean buffer) (hlen : len ≤ dataMessageSize) :
    Clean (readAsync buffer len u).2.1 :=
  h.readAsyncLoop (Nat.zero_le len) hlen

/-- A handshake. -/
lemma Clean.handshake (h : Clean st.buffer) (hst : handleHandshake s st = .ok (n, st')) :
    Clean st'.buffer := by
  have hread : Clean (MessageRouting.readAsync st.buffer idMessageSize st.arrivals).2.1 :=
    h.readAsync (by decide)
  rw [handleHandshake] at hst
  generalize MessageRouting.readAsync st.buffer idMessageSize st.arrivals = r at hst hread
  obtain ⟨bytesRead, buffer, arrivals⟩ := r
  dsimp only at hst hread
  split_ifs at hst
  · split at hst
    · cases hst
    · cases hst
      exact hread.set _
  · cases hst
    exact hread

/-- A message. -/
lemma Clean.message (h : Clean st.buffer) (hst : processMessage st = .ok (n, st')) :
    Clean st'.buffer := by
  have hread : Clean (MessageRouting.readAsync st.buffer dataMessageSize st.arrivals).2.1 :=
    h.readAsync le_rfl
  rw [processMessage] at hst
  generalize MessageRouting.readAsync st.buffer dataMessageSize st.arrivals = r at hst hread
  obtain ⟨bytesRead, buffer, arrivals⟩ := r
  dsimp only at hst hread
  split_ifs at hst
  · split at hst
    · cases hst
    · split at hst
      · cases hst
        exact hread.set _
      · cases hst
        exact hread.set _
  · cases hst
    exact hread

/-! ### The texts -/

/-- What `process_message` logs of the message that it has received. -/
def loggedText (st : ReadState) : List (List UInt8) :=
  match readAsync st.buffer dataMessageSize st.arrivals with
  | (bytesRead, buffer, _) => if bytesRead = dataMessageSize then [cString buffer] else []

/-- What the turns of `do_reads` log. -/
def doReadsLoopLog (readyReadSocket : ℤ) (srcSession : SessionPtr) :
    ℕ → ReadState → List (List UInt8)
  | 0, _ => []
  | fuel + 1, st =>
      if st.sessions.getId srcSession = NONE then
        match handleHandshake readyReadSocket st with
        | .error _ => []
        | .ok (bytesRead, st') =>
            if 0 < bytesRead then doReadsLoopLog readyReadSocket srcSession fuel st' else []
      else
        loggedText st ++
          match processMessage st with
          | .error _ => []
          | .ok (bytesRead, st') =>
              if 0 < bytesRead then doReadsLoopLog readyReadSocket srcSession fuel st' else []

/-- What a call of `do_reads` logs. -/
def doReadsLog (readyReadSocket : ℤ) (st : ReadState) : List (List UInt8) :=
  match st.sessions.findSessionBySocket readyReadSocket with
  | none => []
  | some src => doReadsLoopLog readyReadSocket (some src) ((bytesOf st.arrivals).length + 1) st

/-- What a reader thread logs. -/
def readerLog : List UInt8 → List (ℤ × View) → List (List UInt8)
  | _, [] => []
  | buffer, (readyReadSocket, v) :: calls =>
      doReadsLog readyReadSocket (v.withBuffer buffer) ++
        match doReads readyReadSocket (v.withBuffer buffer) with
        | .error _ => []
        | .ok st => readerLog st.buffer calls

/-! ### The messages -/

namespace View

/-- The message of 32 bytes that a turn takes from the socket. -/
def received (v : View) : List (List UInt8) :=
  match readBytes dataMessageSize v.arrivals with
  | (some m, _) => if m.length = dataMessageSize then [m] else []
  | (none, _) => []

/-- The messages that the turns take. -/
def receivedLoop (s : ℤ) (src : SessionPtr) : ℕ → View → List (List UInt8)
  | 0, _ => []
  | fuel + 1, v =>
      (if v.sessions.getId src = NONE then [] else v.received) ++
        if 0 < (v.turn s src).1 then receivedLoop s src fuel (v.turn s src).2 else []

/-- The messages that a call on the socket takes. -/
def receivedIn (s : ℤ) (v : View) : List (List UInt8) :=
  match v.sessions.findSessionBySocket s with
  | none => []
  | some src => v.receivedLoop s (some src) ((bytesOf v.arrivals).length + 1)

end View

/-- In a clean buffer the C string ends with the message. -/
lemma cString_of_zeros {m rest : List UInt8} (hrest : rest ≠ []) (h : ∀ b ∈ rest, b = 0) :
    cString (m ++ rest) = cString m := by
  obtain ⟨b, rest, rfl⟩ := List.exists_cons_of_ne_nil hrest
  rw [h b List.mem_cons_self, cString_window]

/-- The text of a turn is its message. -/
lemma Clean.loggedText (h : Clean st.buffer) :
    loggedText st = st.view.received.map cString := by
  cases hread : readBytes dataMessageSize st.view.arrivals with
  | mk o u =>
      cases o with
      | none =>
          obtain ⟨buffer, hbuf⟩ := readAsync_of_none st.buffer (by decide) hread
          have hbuf' : MessageRouting.readAsync st.buffer dataMessageSize st.arrivals =
              (socketError, buffer, u) := hbuf
          simp [MessageRouting.loggedText, View.received, hread, hbuf', socketError]
      | some m =>
          have hbuf : MessageRouting.readAsync st.buffer dataMessageSize st.arrivals = _ :=
            readAsync_of_some st.buffer (by decide) hread
          by_cases hm : m.length = dataMessageSize
          · have hrest : st.buffer.drop m.length ≠ [] := by
              rw [Ne, List.drop_eq_nil_iff, h.size, hm]
              decide
            have htext : cString (m ++ st.buffer.drop m.length) = cString m :=
              cString_of_zeros hrest (by rw [hm]; exact h.zeros)
            simp only [MessageRouting.loggedText, View.received, hread, hbuf, htext]
            simp [hm]
          · simp only [MessageRouting.loggedText, View.received, hread, hbuf]
            simp [hm]

/-- The texts of the turns are their messages. -/
lemma Clean.doReadsLoopLog (h : Clean st.buffer) (fuel : ℕ) :
    doReadsLoopLog s src fuel st = (st.view.receivedLoop s src fuel).map cString := by
  induction fuel generalizing st with
  | zero => rfl
  | succ fuel ih =>
      rw [MessageRouting.doReadsLoopLog, View.receivedLoop, View.turn]
      by_cases hid : st.sessions.getId src = NONE
      · have hid' : st.view.sessions.getId src = NONE := hid
        obtain ⟨st', hst', hview⟩ := handleHandshake_spec s st
        simp only [if_pos hid, if_pos hid', hst', List.nil_append]
        split_ifs
        · rw [ih (h.handshake hst'), hview]
        · rfl
      · have hid' : ¬ st.view.sessions.getId src = NONE := hid
        obtain ⟨st', hst', hview⟩ := processMessage_spec st
        simp only [if_neg hid, if_neg hid', hst', List.map_append, h.loggedText]
        split_ifs
        · rw [ih (h.message hst'), hview]
        · rfl

/-! ### A reader thread -/

/-- The turns of a call leave the buffer clean. -/
lemma Clean.doReadsLoop (h : Clean st.buffer) {fuel : ℕ}
    (hst : doReadsLoop s src fuel st = .ok (n, st')) : Clean st'.buffer := by
  induction fuel generalizing st with
  | zero =>
      cases hst
      exact h
  | succ fuel ih =>
      rw [MessageRouting.doReadsLoop] at hst
      split at hst
      · cases hst
      · rename_i m st₁ hturn
        have h₁ : Clean st₁.buffer := by
          split_ifs at hturn
          · exact h.handshake hturn
          · exact h.message hturn
        split_ifs at hst
        · exact ih h₁ hst
        · cases hst
          exact h₁

lemma Clean.doReads (h : Clean st.buffer) (hst : doReads s st = .ok st') : Clean st'.buffer := by
  cases hfind : st.sessions.findSessionBySocket s with
  | none =>
      rw [MessageRouting.doReads, hfind] at hst
      cases hst
      exact h
  | some src =>
      rw [MessageRouting.doReads, hfind] at hst
      simp only at hst
      split at hst
      · cases hst
      · rename_i m st₁ hloop
        have h₁ : Clean st₁.buffer := h.doReadsLoop hloop
        split_ifs at hst
        · cases hst
          exact h₁
        · cases hst
          exact h₁

lemma Clean.doReadsLog (h : Clean st.buffer) :
    doReadsLog s st = (st.view.receivedIn s).map cString := by
  have hview : st.view.sessions = st.sessions := rfl
  rw [MessageRouting.doReadsLog, View.receivedIn, hview]
  cases st.sessions.findSessionBySocket s with
  | none => rfl
  | some src => exact h.doReadsLoopLog _

/-- **What a reader logs.** Over any sequence of `do_reads` calls of one thread, for whichever
clients, and whatever the other threads do in between, the thread logs exactly the messages of
32 bytes that it takes from the sockets, in their order, each up to its first NUL: no text
shows bytes of an earlier message or runs out of the buffer, although it is logged before the
terminator is set. -/
theorem readerLog_eq (calls : List (ℤ × View)) :
    readerLog newBuffer calls = (calls.flatMap fun c => c.2.receivedIn c.1).map cString := by
  have key : ∀ buffer, Clean buffer →
      readerLog buffer calls = (calls.flatMap fun c => c.2.receivedIn c.1).map cString := by
    induction calls with
    | nil => exact fun _ _ => rfl
    | cons c calls ih =>
        intro buffer hclean
        obtain ⟨s, v⟩ := c
        have hclean' : Clean (v.withBuffer buffer).buffer := hclean
        obtain ⟨st, hst, -⟩ := doReads_spec s (v.withBuffer buffer)
        have hrest := ih st.buffer (hclean'.doReads hst)
        simp only [readerLog, hst, hrest, hclean'.doReadsLog, List.flatMap_cons, List.map_append]
        rfl
  exact key newBuffer clean_newBuffer

end MessageRouting
