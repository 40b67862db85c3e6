import MessageRouting.Router.Chunking
import MessageRouting.Router.Registry

/-!
One call of `do_reads`, exactly, and the calls of one reader thread.

* `buffer_irrelevant`: what a call does is the same for any two contents of the
  receive buffer, and so is all that `worker_thread_read_handler` does with its
  one buffer over any sequence of calls.
* `Terminal`, `OnlyData`: bytes that are there at once, and what stands behind
  them. `readBytes_front` and `readBytes_end`: what `read_async` takes of them.
* `turns_frames`: the turns on a session that has its id, by induction over the
  frames in front.
* `doReads_exact`: which frames a call enqueues, how many bytes it takes, and what
  it leaves of the registry.
-/

namespace MessageRouting

/-! ### The receive buffer -/

/-- The state of a reader with a buffer. -/
def View.withBuffer (v : View) (buffer : List UInt8) : ReadState :=
  ⟨v.sessions, v.arrivals, buffer, v.tasks⟩

/-- `Router::worker_thread_read_handler`: each call finds the registry, its socket and
the write queue as the others left them, and the buffer as the call before left
it. -/
def workerThreadReadHandler : List UInt8 → List (ℤ × View) → Except Decimal.StoiError (List View)
  | _, [] => .ok []
  | buffer, (readyReadSocket, v) :: calls =>
      match doReads readyReadSocket (v.withBuffer buffer) with
      | .error e => .error e
      | .ok st =>
          match workerThreadReadHandler st.buffer calls with
          | .error e => .error e
          | .ok views => .ok (st.view :: views)

/-- What a call does to all but the buffer does not depend on the buffer. -/
lemma doReads_view (s : ℤ) (v : View) :
    ∃ v', ∀ buffer, ∃ st, doReads s (v.withBuffer buffer) = .ok st ∧ st.view = v' := by
  obtain ⟨st₀, -, hcall₀⟩ := doReads_spec s (v.withBuffer [])
  refine ⟨st₀.view, fun buffer => ?_⟩
  rcases hcall₀ with ⟨hnone₀, rfl⟩ | ⟨src₀, n₀, v₀, hsrc₀, hturns₀, hview₀⟩
  · obtain ⟨st, hst, ⟨-, rfl⟩ | ⟨src, -, -, hsrc, -⟩⟩ := doReads_spec s (v.withBuffer buffer)
    · exact ⟨_, hst, rfl⟩
    · cases (show none = some src from hnone₀.symm.trans hsrc)
  · -- both calls run the turns of one session from one view
    obtain ⟨st, hst, hview⟩ := doReads_of_turns (v.withBuffer buffer) hsrc₀ hturns₀
    exact ⟨st, hst, hview.trans hview₀.symm⟩

/-- **No influence through the buffer.** For any two contents of the buffer a call of
`do_reads` registers the same, enqueues the same, removes the same and takes the
same bytes from the socket; and a reader thread does the same over any sequence
of calls, whatever its buffer holds at the start of each of them. -/
theorem buffer_irrelevant :
    (∀ (s : ℤ) (v : View) (buffer buffer' : List UInt8), ∃ st st',
      doReads s (v.withBuffer buffer) = .ok st ∧ doReads s (v.withBuffer buffer') = .ok st' ∧
        st.sessions = st'.sessions ∧ st.tasks = st'.tasks ∧ st.arrivals = st'.arrivals) ∧
    ∀ calls : List (ℤ × View), ∃ views,
      (∀ buffer, workerThreadReadHandler buffer calls = .ok views) ∧
      List.Forall₂ (fun c v' => ∀ buffer, ∃ st,
        doReads c.1 (c.2.withBuffer buffer) = .ok st ∧ st.view = v') calls views := by
  refine ⟨?_, ?_⟩
  · intro s v buffer buffer'
    obtain ⟨v', hall⟩ := doReads_view s v
    obtain ⟨st, hst, hview⟩ := hall buffer
    obtain ⟨st', hst', hview'⟩ := hall buffer'
    have heq : st.view = st'.view := hview.trans hview'.symm
    exact ⟨st, st', hst, hst', congrArg View.sessions heq, congrArg View.tasks heq,
      congrArg View.arrivals heq⟩
  · intro calls
    induction calls with
    | nil => exact ⟨[], fun _ => rfl, .nil⟩
    | cons c calls ih =>
        obtain ⟨s, v⟩ := c
        obtain ⟨v', hall⟩ := doReads_view s v
        obtain ⟨views, hviews, hcalls⟩ := ih
        refine ⟨v' :: views, fun buffer => ?_, .cons hall hcalls⟩
        obtain ⟨st, hst, hview⟩ := hall buffer
        simp only [workerThreadReadHandler, hst, hviews, hview]

/-! ### Bytes that are there at once -/

/-- Nothing but bytes. -/
def OnlyData (u : List Arrival) : Prop := ∀ x ∈ u, ∃ b bs, x = .data b bs

/-- What stands behind the bytes: nothing for now, a close or an error. -/
inductive Terminal where
  | wouldBlock
  | closed
  | error
  deriving DecidableEq, Repr

def Terminal.arrival : Terminal → Arrival
  | .wouldBlock => .wouldBlock
  | .closed => .closed
  | .error => .error

lemma bytesOf_terminal (t : Terminal) : bytesOf [t.arrival] = [] := by
  cases t <;> rfl

lemma OnlyData.cons_inv {x : Arrival} {u : List Arrival} (h : OnlyData (x :: u)) :
    ∃ b bs, x = .data b bs ∧ OnlyData u := by
  obtain ⟨b, bs, hx⟩ := h x List.mem_cons_self
  exact ⟨b, bs, hx, fun y hy => h y (List.mem_cons_of_mem _ hy)⟩

lemma OnlyData.unread {u : List Arrival} (h : OnlyData u) (bs : List UInt8) :
    OnlyData (unread bs u) := by
  cases bs with
  | nil => exact h
  | cons b bs =>
      intro x hx
      rcases List.mem_cons.mp hx with rfl | hx
      · exact ⟨b, bs, rfl⟩
      · exact h x hx

lemma unread_append (bs : List UInt8) (u v : List Arrival) :
    unread bs (u ++ v) = unread bs u ++ v := by
  cases bs <;> rfl

/-- Enough bytes in front: the call takes as many as it wants. -/
lemma readBytes_front {n : ℕ} {u : List Arrival} (v : List Arrival) (hu : OnlyData u) (hn : 0 < n)
    (hlen : n ≤ (bytesOf u).length) :
    ∃ u', readBytes n (u ++ v) = (some ((bytesOf u).take n), u' ++ v) ∧ OnlyData u' ∧
      bytesOf u' = (bytesOf u).drop n := by
  induction u generalizing n with
  | nil =>
      rw [bytesOf, List.length_nil] at hlen
      omega
  | cons x u ih =>
      obtain ⟨b, bs, rfl, htail⟩ := hu.cons_inv
      have hbytes : bytesOf (.data b bs :: u) = b :: bs ++ bytesOf u := rfl
      rw [hbytes, List.length_append, List.length_cons] at hlen
      rw [List.cons_append, readBytes, hbytes]
      by_cases hle : n ≤ bs.length + 1
      · have hle' : n ≤ (b :: bs).length := hle
        refine ⟨unread ((b :: bs).drop n) u, ?_, htail.unread _, ?_⟩
        · rw [if_pos hle, unread_append, List.take_append_of_le_length hle']
        · rw [bytesOf_unread, List.drop_append_of_le_length hle']
      · obtain ⟨u', hread, hdata, hrest⟩ :=
          ih (n := n - (bs.length + 1)) htail (by omega) (by omega)
        have htake : (b :: bs ++ bytesOf u).take n =
            b :: bs ++ (bytesOf u).take (n - (bs.length + 1)) := by
          rw [List.take_append, List.take_of_length_le (by simp; omega)]
          rfl
        have hdrop : (b :: bs ++ bytesOf u).drop n = (bytesOf u).drop (n - (bs.length + 1)) := by
          rw [List.drop_append, List.drop_of_length_le (by simp; omega)]
          rfl
        exact ⟨u', by rw [if_neg hle, hread, htake], hdata, by rw [hrest, hdrop]⟩

/-- Not enough bytes in front: the call takes them all and meets what stands behind
them. -/
lemma readBytes_end {n : ℕ} {u : List Arrival} (t : Terminal) (hu : OnlyData u)
    (hlen : (bytesOf u).length < n) :
    ∃ v, readBytes n (u ++ [t.arrival]) =
      (if t = .wouldBlock then some (bytesOf u) else none, v) ∧ bytesOf v = [] ∧
        (t = .wouldBlock → v = []) := by
  induction u generalizing n with
  | nil => cases t <;> exact ⟨_, rfl, rfl, by simp⟩
  | cons x u ih =>
      obtain ⟨b, bs, rfl, htail⟩ := hu.cons_inv
      have hbytes : bytesOf (.data b bs :: u) = b :: bs ++ bytesOf u := rfl
      rw [hbytes, List.length_append, List.length_cons] at hlen
      obtain ⟨v, hread, hv, hnil⟩ := ih (n := n - (bs.length + 1)) htail (by omega)
      refine ⟨v, ?_, hv, hnil⟩
      rw [List.cons_append, readBytes, if_neg (by omega), hread, hbytes]
      split_ifs <;> rfl

/-! ### The frames of a call -/

/-- The destination of the message finds a session. -/
def routable (S : Sessions) (m : List UInt8) : Bool := (S.findSessionById (destinationId m)).isSome

/-- The task that forwards the message. -/
def taskFor (S : Sessions) (m : List UInt8) : WriteTask :=
  (S.getSocket (S.findSessionById (destinationId m)), m)

/-- The messages up to the first that finds no session. -/
def deliverable (S : Sessions) (fs : List (List UInt8)) : List (List UInt8) :=
  fs.takeWhile (routable S)

lemma deliverable_append_cons {S : Sessions} {fs₁ fs₂ : List (List UInt8)} {f : List UInt8}
    (hbefore : ∀ g ∈ fs₁, routable S g = true) (hf : routable S f = false) :
    deliverable S (fs₁ ++ f :: fs₂) = fs₁ := by
  rw [deliverable, List.takeWhile_append_of_pos hbefore, List.takeWhile_cons, hf]
  simp

section Frames

variable {s : ℤ} {src : SessionPtr} {v : View} {t : Terminal} {r : List UInt8}

/-- The turns on the bytes that are left over, less than a frame. -/
lemma turns_rest {u : List Arrival} (hid : v.sessions.getId src ≠ NONE)
    (harr : v.arrivals = u ++ [t.arrival]) (hu : OnlyData u)
    (hlen : (bytesOf u).length < dataMessageSize) :
    ∃ u', Turns s src v (if t = .wouldBlock then 0 else socketError) { v with arrivals := u' } ∧
      bytesOf u' = [] := by
  obtain ⟨u', hread, hu', hnil⟩ := readBytes_end t hu hlen
  rw [← harr] at hread
  have hturn : v.turn s src = v.message := by rw [View.turn, if_neg hid]
  refine ⟨u', ?_, hu'⟩
  by_cases ht : t = .wouldBlock
  · rw [if_pos ht] at hread ⊢
    have hmsg := View.message_of_short hread (by omega)
    rcases Nat.eq_zero_or_pos (bytesOf u).length with hzero | hpos
    · rw [hzero] at hmsg
      exact .last (hturn.trans hmsg) le_rfl
    · -- the short message is dropped, and the next turn finds nothing
      have hnext : ({ v with arrivals := u' } : View).turn s src =
          (0, { v with arrivals := u' }) := by
        rw [View.turn, if_neg hid, hnil ht]
        rfl
      exact .more (hturn.trans hmsg) (by exact_mod_cast hpos) (.last hnext le_rfl)
  · rw [if_neg ht] at hread ⊢
    exact .last (hturn.trans (View.message_of_none hread)) (by decide)

/-- **The turns of a call** on a session that has its id: the frames in front are
enqueued up to the first that finds no session, which ends the call; if there is
none, the bytes are used up and the call ends with what stands behind them. -/
lemma turns_frames {u : List Arrival} {fs : List (List UInt8)}
    (hid : v.sessions.getId src ≠ NONE) (harr : v.arrivals = u ++ [t.arrival]) (hu : OnlyData u)
    (hbytes : bytesOf u = fs.flatten ++ r) (hfs : ∀ f ∈ fs, f.length = dataMessageSize)
    (hr : r.length < dataMessageSize) :
    ∃ n u', Turns s src v n { v with
        arrivals := u', tasks := v.tasks ++ (deliverable v.sessions fs).map (taskFor v.sessions) } ∧
      (deliverable v.sessions fs = fs →
        n = (if t = .wouldBlock then 0 else socketError) ∧ bytesOf u' = []) ∧
      (deliverable v.sessions fs ≠ fs →
        n = 0 ∧ bytesOf u' =
          (bytesOf u).drop (dataMessageSize * ((deliverable v.sessions fs).length + 1))) := by
  induction fs generalizing u v with
  | nil =>
      rw [List.flatten_nil, List.nil_append] at hbytes
      obtain ⟨u', hturns, hu'⟩ := turns_rest (s := s) hid harr hu (by rw [hbytes]; exact hr)
      refine ⟨_, u', ?_, fun _ => ⟨rfl, hu'⟩, fun hne => absurd rfl hne⟩
      rw [show (deliverable v.sessions []).map (taskFor v.sessions) = [] from rfl, List.append_nil]
      exact hturns
  | cons f fs ih =>
      have hf : f.length = dataMessageSize := hfs f List.mem_cons_self
      rw [List.flatten_cons, List.append_assoc] at hbytes
      have hlong : dataMessageSize ≤ (bytesOf u).length := by
        rw [hbytes, List.length_append, hf]
        omega
      obtain ⟨u₁, hread, hdata, hrest⟩ := readBytes_front [t.arrival] hu (by decide) hlong
      rw [← harr, hbytes, ← hf, List.take_left] at hread
      rw [hbytes, ← hf, List.drop_left] at hrest
      have hturn : v.turn s src = v.message := by rw [View.turn, if_neg hid]
      cases hd : v.sessions.findSessionById (destinationId f) with
      | none =>
          have hrouted : deliverable v.sessions (f :: fs) = [] := by
            rw [deliverable, List.takeWhile_cons, routable, hd]
            rfl
          have hmsg := View.message_of_unroutable (hf ▸ hread) hf hd
          rw [hrouted]
          refine ⟨0, u₁ ++ [t.arrival], ?_, fun heq => absurd heq (by simp), fun _ => ⟨rfl, ?_⟩⟩
          · rw [List.map_nil, List.append_nil]
            exact .last (hturn.trans hmsg) le_rfl
          · rw [bytesOf_append, bytesOf_terminal, List.append_nil, hrest, hbytes, List.length_nil,
              Nat.zero_add, Nat.mul_one, ← hf, List.drop_left]
      | some dst =>
          have hrouted : deliverable v.sessions (f :: fs) = f :: deliverable v.sessions fs := by
            rw [deliverable, List.takeWhile_cons, routable, hd]
            rfl
          have hmsg := View.message_of_routable (hf ▸ hread) hf hd
          have htask : taskFor v.sessions f = (v.sessions.getSocket (some dst), f) := by
            rw [taskFor, hd]
          obtain ⟨n, u', hturns, hall, hsome⟩ := ih
            (v := { v with arrivals := u₁ ++ [t.arrival]
                           tasks := v.tasks ++ [taskFor v.sessions f] })
            hid rfl hdata hrest (fun g hg => hfs g (List.mem_cons_of_mem _ hg))
          refine ⟨n, u', ?_, fun heq => ?_, fun hne => ?_⟩
          · rw [htask] at hturns
            rw [hrouted, List.map_cons, htask]
            have hstep := Turns.more (hturn.trans hmsg) (by decide) hturns
            simpa only [List.append_assoc, List.singleton_append] using hstep
          · rw [hrouted] at heq
            exact hall (List.cons.inj heq).2
          · rw [hrouted] at hne
            obtain ⟨hn, hdrop⟩ := hsome fun heq => hne (by rw [heq])
            refine ⟨hn, ?_⟩
            have hcount : dataMessageSize * ((deliverable v.sessions fs).length + 1 + 1) =
                f.length + dataMessageSize * ((deliverable v.sessions fs).length + 1) := by
              rw [hf, Nat.mul_succ, Nat.add_comm]
            rw [hdrop, hrest, hbytes, hrouted, List.length_cons, hcount,
              List.drop_length_add_append]

end Frames

/-! ### The effect of a call -/

/-- A call whose turns are known, part by part. -/
lemma doReads_parts {s n : ℤ} {a : Addr} {st : ReadState} {v : View}
    (hreg : st.sessions.findSessionBySocket s = some a) (h : Turns s (some a) st.view n v) :
    ∃ st', doReads s st = .ok st' ∧ st'.tasks = v.tasks ∧ st'.arrivals = v.arrivals ∧
      st'.sessions = if n = socketError then v.sessions.removeSession s else v.sessions := by
  obtain ⟨st', hst', hview⟩ := doReads_of_turns st hreg h
  refine ⟨st', hst', ?_, ?_, ?_⟩
  · rw [show st'.tasks = st'.view.tasks from rfl, hview]
    split_ifs <;> rfl
  · rw [show st'.arrivals = st'.view.arrivals from rfl, hview]
    split_ifs <;> rfl
  · rw [show st'.sessions = st'.view.sessions from rfl, hview]
    split_ifs <;> rfl

/-- No other session is found under the id of the session `a`. -/
def Unshared (S : Sessions) (a : Addr) : Prop :=
  ∀ b, b ≠ a → S.findSessionById (S.getId (some a)) ≠ some b

/-- In a consistent table it is enough that no other registered session carries the
id. -/
lemma Sessions.Consistent.unshared {S : Sessions} {a : Addr} (hc : S.Consistent)
    (hid : S.getId (some a) ≠ NONE)
    (h : ∀ q b, b ≠ a → S.sessionsBySocket q = some (some b) →
      S.getId (some b) ≠ S.getId (some a)) : Unshared S a := by
  intro b hb hfound
  obtain ⟨b', x, hb', hx, hxid, hsock⟩ := hc.byId _ _ hid (findSessionById_eq_some.mp hfound)
  cases hb'
  exact h x.socket b hb hsock ((getId_of_heap hx).trans hxid)

/-- The table `S'` is `S` without the session `a` of the socket `s`, and otherwise the
same. -/
structure Without (s : ℤ) (a : Addr) (S S' : Sessions) : Prop where
  socket : S'.findSessionBySocket s = none
  sockets : ∀ q, q ≠ s → S'.findSessionBySocket q = S.findSessionBySocket q
  accepted : S'.acceptedClients = S.acceptedClients.erase s
  id : S'.findSessionById (S.getId (some a)) = none
  ids : ∀ k, k ≠ S.getId (some a) → S'.findSessionById k = S.findSessionById k
  others : ∀ k b, b ≠ a → (S'.findSessionById k = some b ↔ S.findSessionById k = some b)
  heap : S'.heap = S.heap

/-- The removal of a session under whose id no other session is found. -/
lemma without_removeSession {S : Sessions} {s : ℤ} {a : Addr}
    (hreg : S.sessionsBySocket s = some (some a)) (hid : S.getId (some a) ≠ NONE)
    (hun : Unshared S a) : Without s a S (S.removeSession s) := by
  have hbyId : (S.removeSession s).sessionsById =
      Function.update S.sessionsById (S.getId (some a)) none := by
    rw [Sessions.removeSession_sessionsById, hreg]
    simp only [if_pos hid]
  have hnone : (S.removeSession s).findSessionById (S.getId (some a)) = none := by
    rw [Sessions.findSessionById, hbyId, Function.update_self]
  have hsame : ∀ k, k ≠ S.getId (some a) →
      (S.removeSession s).findSessionById k = S.findSessionById k := by
    intro k hk
    rw [Sessions.findSessionById, hbyId, Function.update_of_ne hk, Sessions.findSessionById]
  refine ⟨?_, fun q hq => ?_, Sessions.removeSession_acceptedClients, hnone, hsame,
    fun k b hb => ?_, Sessions.removeSession_heap⟩
  · rw [Sessions.findSessionBySocket, Sessions.removeSession_sessionsBySocket, Function.update_self]
  · rw [Sessions.findSessionBySocket, Sessions.removeSession_sessionsBySocket,
      Function.update_of_ne hq, Sessions.findSessionBySocket]
  · by_cases hk : k = S.getId (some a)
    · subst hk
      rw [hnone]
      exact iff_of_false (by simp) (hun b hb)
    · rw [hsame k hk]

/-- **The exact effect of one call** of `do_reads` on a session that has its id, with
the bytes of whole frames and a rest on the socket, and a pause, a close or an
error behind them. The call ends. If a frame finds no session, the frames before
the first such frame are enqueued in order, the bytes up to the end of this frame
are taken, and the registry stays as it is. Otherwise all frames are enqueued in
order, all bytes are taken, and the session is removed exactly when a close or an
error stands behind them; the rest of the table is the same if no other session is
found under its id. -/
theorem doReads_exact {s : ℤ} {a : Addr} {st : ReadState} {u : List Arrival} {t : Terminal}
    {fs : List (List UInt8)} {r : List UInt8}
    (hreg : st.sessions.findSessionBySocket s = some a) (hid : st.sessions.getId (some a) ≠ NONE)
    (harr : st.arrivals = u ++ [t.arrival]) (hu : OnlyData u) (hbytes : bytesOf u = fs.flatten ++ r)
    (hfs : ∀ f ∈ fs, f.length = dataMessageSize) (hr : r.length < dataMessageSize) :
    (∃ n v, Turns s (some a) st.view n v) ∧
    ∃ st', doReads s st = .ok st' ∧
      (∀ fs₁ f fs₂, fs = fs₁ ++ f :: fs₂ → (∀ g ∈ fs₁, routable st.sessions g = true) →
        routable st.sessions f = false →
        st'.tasks = st.tasks ++ fs₁.map (taskFor st.sessions) ∧
        bytesOf st'.arrivals = (bytesOf u).drop (dataMessageSize * (fs₁.length + 1)) ∧
        st'.sessions = st.sessions) ∧
      ((∀ f ∈ fs, routable st.sessions f = true) →
        st'.tasks = st.tasks ++ fs.map (taskFor st.sessions) ∧
        bytesOf st'.arrivals = [] ∧
        (st'.sessions.findSessionBySocket s = none ↔ t = .closed ∨ t = .error) ∧
        (t = .wouldBlock → st'.sessions = st.sessions) ∧
        (t ≠ .wouldBlock → Unshared st.sessions a → Without s a st.sessions st'.sessions)) := by
  obtain ⟨n, u', hturns, hall, hsome⟩ :=
    turns_frames (s := s) (v := st.view) hid harr hu hbytes hfs hr
  refine ⟨⟨n, _, hturns⟩, ?_⟩
  obtain ⟨st', hst', htasks, harrivals, hsessions⟩ := doReads_parts hreg hturns
  refine ⟨st', hst', ?_, ?_⟩
  · intro fs₁ f fs₂ hsplit hbefore hf
    have hrouted : deliverable st.view.sessions fs = fs₁ := by
      rw [hsplit]
      exact deliverable_append_cons hbefore hf
    have hne : deliverable st.view.sessions fs ≠ fs := by
      rw [hrouted, hsplit]
      simp
    obtain ⟨hn, hrest⟩ := hsome hne
    rw [hrouted] at htasks hrest
    refine ⟨htasks, by rw [harrivals, hrest], ?_⟩
    rw [hsessions, hn, if_neg (by decide)]
    rfl
  · intro hrout
    have hrouted : deliverable st.view.sessions fs = fs := List.takeWhile_eq_self_iff.mpr hrout
    obtain ⟨hn, hrest⟩ := hall hrouted
    have hbySocket := Sessions.findSessionBySocket_eq_some.mp hreg
    have hremoved : t ≠ .wouldBlock → st'.sessions = st.sessions.removeSession s := by
      intro ht
      rw [hsessions, hn, if_neg ht, if_pos rfl]
      rfl
    have hkept : t = .wouldBlock → st'.sessions = st.sessions := by
      intro ht
      rw [hsessions, hn, if_pos ht, if_neg (by decide)]
      rfl
    rw [hrouted] at htasks
    refine ⟨htasks, by rw [harrivals, hrest], ?_, hkept, fun ht hun => ?_⟩
    · cases t with
      | wouldBlock => simp [hkept rfl, hreg]
      | closed => simp [hremoved, Sessions.findSessionBySocket]
      | error => simp [hremoved, Sessions.findSessionBySocket]
    · rw [hremoved ht]
      exact without_removeSession hbySocket hid hun

lemma consistent_twoClients : twoClients.Consistent := by
  refine ⟨by decide, fun q => ?_, fun q p hq => ?_, fun k p _ hk => ?_⟩
  · simp only [twoClients, List.mem_cons, List.not_mem_nil, or_false]
    split_ifs with h₄ h₇
    · simp [h₄]
    · simp [h₇]
    · simp [h₄, h₇]
  · simp only [twoClients] at hq
    split_ifs at hq with h₄ h₇
    · cases hq
      exact ⟨0, ⟨4, NONE⟩, rfl, rfl, h₄.symm⟩
    · cases hq
      exact ⟨1, ⟨7, 6⟩, rfl, rfl, h₇.symm⟩
  · simp only [twoClients] at hk
    split_ifs at hk with h₆
    cases hk
    exact ⟨1, ⟨7, 6⟩, rfl, rfl, h₆.symm, rfl⟩

/-- A client that sends a message to itself and two bytes more, and closes. -/
theorem doReads_exact_closed :
    ∃ st', doReads 7 ⟨twoClients, [.data 48 (frameTo006.drop 1), .data 48 [48], .closed], [], []⟩ =
        .ok st' ∧
      st'.tasks = [(7, frameTo006)] ∧ bytesOf st'.arrivals = [] ∧
      st'.sessions.findSessionBySocket 7 = none ∧ Without 7 1 twoClients st'.sessions := by
  have hunshared : Unshared twoClients 1 := by
    refine consistent_twoClients.unshared (by decide) fun q b hb hq => ?_
    simp only [twoClients] at hq
    split_ifs at hq
    · cases hq
      decide
    · cases hq
      exact absurd rfl hb
  have hdata : OnlyData [.data 48 (frameTo006.drop 1), .data 48 [48]] := by
    intro x hx
    simp only [List.mem_cons, List.not_mem_nil, or_false] at hx
    rcases hx with rfl | rfl
    · exact ⟨_, _, rfl⟩
    · exact ⟨_, _, rfl⟩
  obtain ⟨-, st', hst', -, hall⟩ := @doReads_exact 7 1
    ⟨twoClients, [.data 48 (frameTo006.drop 1), .data 48 [48], .closed], [], []⟩
    [.data 48 (frameTo006.drop 1), .data 48 [48]] .closed [frameTo006] [48, 48]
    (by decide) (by decide) rfl hdata (by decide) (by decide) (by decide)
  obtain ⟨htasks, hbytes, hremoved, -, hwithout⟩ := hall (by decide)
  exact ⟨st', hst', htasks.trans (by decide), hbytes, hremoved.mpr (.inl rfl),
    hwithout (by decide) hunshared⟩

end MessageRouting
