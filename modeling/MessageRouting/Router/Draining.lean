import MessageRouting.Router.Calls

/-!
A client's frames over many `do_reads` calls when some of them find no session.

`process_message` returns `0` for a frame whose destination is not registered, and
`do_reads` takes this for the end of the data: it leaves its loop with bytes still on the
socket. `select` reports the socket again, and the next call goes on behind the dropped
frame, with the registry as the other threads have left it by then.

* `Enrolled`: the client has its session and its id; `registries`: what the calls find.
* `pushedFor`, `missedIn`: what comes of the frames that one call takes.
* `turn_chunked`: one turn on a stream of frames with pauses between them, case by case.
* `Turns.chunked`: one call takes a block of frames, and a piece of the stream or a dropped
  frame with it.
* `serve_drains`: every frame is taken by one call, which enqueues it or drops it.
-/

namespace MessageRouting

/-- The client on the socket has the session `a`, and has announced its id. -/
structure Enrolled (s : ℤ) (a : Addr) (S : Sessions) : Prop where
  registered : S.findSessionBySocket s = some a
  announced : S.getId (some a) ≠ NONE

/-- The registries that the calls find. -/
def registries : Sessions → List Call → List Sessions
  | _, [] => []
  | S, c :: calls => c.others S :: registries (c.others S) calls

/-- The tasks for the frames of a block that find a session. -/
def pushedFor (S : Sessions) (block : List (List UInt8)) : List WriteTask :=
  (block.filter (routable S)).map (taskFor S)

/-- The number of those that find none. -/
def missedIn (S : Sessions) (block : List (List UInt8)) : ℕ := block.countP fun f => !routable S f

variable {s : ℤ} {a : Addr} {v v' : View} {n : ℤ} {fs block : List (List UInt8)} {f : List UInt8}

lemma pushedFor_cons {S : Sessions} (h : routable S f = true) :
    pushedFor S (f :: block) = taskFor S f :: pushedFor S block := by
  rw [pushedFor, List.filter_cons_of_pos h, List.map_cons, pushedFor]

lemma missedIn_cons {S : Sessions} (h : routable S f = true) :
    missedIn S (f :: block) = missedIn S block := by
  simp [missedIn, h]

/-! ### One call -/

/-- **One turn** on a stream of frames: nothing is there, a pause is taken, or the frame in
front, which is dropped or enqueued. -/
lemma turn_chunked (hs : Enrolled s a v.sessions) (hfs : ∀ f ∈ fs, f.length = dataMessageSize)
    (hchunk : Chunked fs v.arrivals) :
    v.arrivals = [] ∧ v.turn s (some a) = (0, v) ∨
    (∃ u, v.turn s (some a) = (0, { v with arrivals := u }) ∧ Chunked fs u ∧
      u.length < v.arrivals.length) ∨
    (∃ f fs' u, fs = f :: fs' ∧ Chunked fs' u ∧ u.length ≤ v.arrivals.length ∧
      routable v.sessions f = false ∧ v.turn s (some a) = (0, { v with arrivals := u })) ∨
    (∃ f fs' u, fs = f :: fs' ∧ Chunked fs' u ∧ u.length ≤ v.arrivals.length ∧
      routable v.sessions f = true ∧ v.turn s (some a) = ((dataMessageSize : ℤ), { v with
        arrivals := u, tasks := v.tasks ++ [taskFor v.sessions f] })) := by
  have hturn : v.turn s (some a) = v.message := by rw [View.turn, if_neg hs.announced]
  rw [hturn]
  cases hu : v.arrivals with
  | nil => exact .inl ⟨rfl, View.message_nil hu⟩
  | cons x u =>
      rw [hu] at hchunk
      cases x with
      | wouldBlock =>
          exact .inr (.inl ⟨u, View.message_wouldBlock hu, hchunk.wouldBlock, by simp⟩)
      | closed => simpa using hchunk.flowing .closed (by simp)
      | error => simpa using hchunk.flowing .error (by simp)
      | data b bs =>
          cases fs with
          | nil =>
              have hbytes := hchunk.bytes
              simp [bytesOf] at hbytes
          | cons f fs' =>
              have hf := hfs f List.mem_cons_self
              obtain ⟨u', hread, hrest, hle⟩ := hchunk.data (by rw [hf]; decide)
              rw [hf, ← hu] at hread
              cases hd : v.sessions.findSessionById (destinationId f) with
              | none =>
                  exact .inr (.inr (.inl ⟨f, fs', u', rfl, hrest, hle, by rw [routable, hd]; rfl,
                    View.message_of_unroutable hread hf hd⟩))
              | some dst =>
                  have htask : taskFor v.sessions f = (v.sessions.getSocket (some dst), f) := by
                    rw [taskFor, hd]
                  exact .inr (.inr (.inr ⟨f, fs', u', rfl, hrest, hle, by rw [routable, hd]; rfl,
                    by rw [htask]; exact View.message_of_routable hread hf hd⟩))

/-- **One call** takes a block of frames. Unless it has taken everything, it has taken a piece
of the stream with it or dropped the last frame. -/
lemma Turns.chunked (hturns : Turns s (some a) v n v') (hs : Enrolled s a v.sessions)
    (hfs : ∀ f ∈ fs, f.length = dataMessageSize) (hchunk : Chunked fs v.arrivals) :
    n = 0 ∧ v'.sessions = v.sessions ∧ ∃ block left, fs = block ++ left ∧
      Chunked left v'.arrivals ∧ v'.tasks = v.tasks ++ pushedFor v.sessions block ∧
      (v'.arrivals = [] ∨
        v'.arrivals.length + 1 ≤ v.arrivals.length + missedIn v.sessions block) := by
  induction hturns generalizing fs with
  | @last v v' n ht hn =>
      rcases turn_chunked hs hfs hchunk with ⟨hnil, hturn⟩ | ⟨u, hturn, hrest, hlt⟩ |
        ⟨f, fs', u, rfl, hrest, hle, hf, hturn⟩ | ⟨f, fs', u, rfl, hrest, hle, hf, hturn⟩
      · obtain ⟨rfl, rfl⟩ := Prod.mk.inj (ht.symm.trans hturn)
        exact ⟨rfl, rfl, [], fs, rfl, hchunk, (List.append_nil _).symm, .inl hnil⟩
      · obtain ⟨rfl, rfl⟩ := Prod.mk.inj (ht.symm.trans hturn)
        exact ⟨rfl, rfl, [], fs, rfl, hrest, (List.append_nil _).symm, .inr hlt⟩
      · obtain ⟨rfl, rfl⟩ := Prod.mk.inj (ht.symm.trans hturn)
        refine ⟨rfl, rfl, [f], fs', rfl, hrest, ?_, .inr ?_⟩
        · simp [pushedFor, hf]
        · simpa [missedIn, hf] using hle
      · obtain ⟨rfl, -⟩ := Prod.mk.inj (ht.symm.trans hturn)
        exact absurd hn (by decide)
  | @more v v' v'' m n ht hm _ ih =>
      rcases turn_chunked hs hfs hchunk with ⟨hnil, hturn⟩ | ⟨u, hturn, hrest, hlt⟩ |
        ⟨f, fs', u, rfl, hrest, hle, hf, hturn⟩ | ⟨f, fs', u, rfl, hrest, hle, hf, hturn⟩
      · rw [(Prod.mk.inj (ht.symm.trans hturn)).1] at hm
        exact absurd hm (lt_irrefl 0)
      · rw [(Prod.mk.inj (ht.symm.trans hturn)).1] at hm
        exact absurd hm (lt_irrefl 0)
      · rw [(Prod.mk.inj (ht.symm.trans hturn)).1] at hm
        exact absurd hm (lt_irrefl 0)
      · obtain ⟨rfl, rfl⟩ := Prod.mk.inj (ht.symm.trans hturn)
        obtain ⟨hn, hsame, block, left, hsplit, hleft, htasks, hend⟩ :=
          ih hs (fun g hg => hfs g (List.mem_cons_of_mem f hg)) hrest
        refine ⟨hn, hsame, f :: block, left, by rw [hsplit, List.cons_append], hleft, ?_,
          hend.imp id fun hlt => ?_⟩
        · rw [htasks, pushedFor_cons hf]
          simp
        · rw [missedIn_cons hf]
          exact hlt.trans (Nat.add_le_add_right hle _)

/-! ### The calls -/

/-- The tasks that the calls push for their blocks. -/
def pushedBy (Ss : List Sessions) (blocks : List (List (List UInt8))) : List WriteTask :=
  (List.zipWith pushedFor Ss blocks).flatten

/-- The frames that they drop. -/
def droppedBy (Ss : List Sessions) (blocks : List (List (List UInt8))) : ℕ :=
  (List.zipWith missedIn Ss blocks).sum

lemma droppedBy_le (Ss : List Sessions) (blocks : List (List (List UInt8))) :
    droppedBy Ss blocks ≤ blocks.flatten.length := by
  induction blocks generalizing Ss with
  | nil => simp [droppedBy]
  | cons block blocks ih =>
      cases Ss with
      | nil => simp [droppedBy]
      | cons S Ss =>
          have hmissed : missedIn S block ≤ block.length := List.countP_le_length
          have hrest := ih Ss
          rw [List.flatten_cons, List.length_append]
          exact Nat.add_le_add hmissed hrest

/-- A call on a stream of frames, with the state it finds. -/
lemma doReads_chunked {st : ReadState} (hs : Enrolled s a st.sessions)
    (hfs : ∀ f ∈ fs, f.length = dataMessageSize) (hchunk : Chunked fs st.arrivals) :
    ∃ st' block left, doReads s st = .ok st' ∧ st'.sessions = st.sessions ∧ fs = block ++ left ∧
      Chunked left st'.arrivals ∧ st'.tasks = st.tasks ++ pushedFor st.sessions block ∧
      (st'.arrivals = [] ∨
        st'.arrivals.length + 1 ≤ st.arrivals.length + missedIn st.sessions block) := by
  obtain ⟨st', hst', ⟨hnone, -⟩ | ⟨src, n, v, hsrc, hturns, hview⟩⟩ := doReads_spec s st
  · rw [hs.registered] at hnone
    cases hnone
  · obtain rfl : a = src := Option.some.inj (hs.registered.symm.trans hsrc)
    obtain ⟨rfl, hsame, block, left, hsplit, hleft, htasks, hend⟩ :=
      hturns.chunked (v := st.view) hs hfs hchunk
    rw [if_neg (by decide)] at hview
    subst hview
    exact ⟨st', block, left, hst', hsame, hsplit, hleft, htasks, hend⟩

/-- The calls take the frames block by block. -/
lemma serve_blocks {calls : List Call} {st : ReadState} (hs : Enrolled s a st.sessions)
    (hothers : ∀ c ∈ calls, ∀ S, Enrolled s a S → Enrolled s a (c.others S))
    (hfs : ∀ f ∈ fs, f.length = dataMessageSize) (hchunk : Chunked fs st.arrivals) :
    ∃ st' blocks left, serve s calls st = .ok st' ∧ blocks.length = calls.length ∧
      fs = blocks.flatten ++ left ∧ Chunked left st'.arrivals ∧
      st'.tasks = st.tasks ++ pushedBy (registries st.sessions calls) blocks ∧
      (st'.arrivals = [] ∨ st'.arrivals.length + calls.length ≤
        st.arrivals.length + droppedBy (registries st.sessions calls) blocks) := by
  induction calls generalizing st fs with
  | nil => exact ⟨st, [], fs, rfl, rfl, rfl, hchunk, (List.append_nil _).symm, .inr le_rfl⟩
  | cons c calls ih =>
      set st₀ : ReadState := { st with sessions := c.others st.sessions, buffer := c.buffer }
        with hst₀
      have hs₀ : Enrolled s a st₀.sessions := hothers c List.mem_cons_self _ hs
      obtain ⟨st₁, block, rest, hdo, hsame, rfl, hrest, htasks, hend⟩ :=
        @doReads_chunked s a fs st₀ hs₀ hfs hchunk
      have hs₁ : Enrolled s a st₁.sessions := by rw [hsame]; exact hs₀
      obtain ⟨st', blocks, left, hserve, hlen, hsplit, hleft, htasks', hend'⟩ :=
        ih hs₁ (fun d hd => hothers d (List.mem_cons_of_mem c hd))
          (fun f hf => hfs f (List.mem_append_right block hf)) hrest
      rw [hsame] at htasks' hend'
      refine ⟨st', block :: blocks, left, by rw [serve, ← hst₀, hdo]; exact hserve,
        by rw [List.length_cons, List.length_cons, hlen],
        by rw [hsplit, List.flatten_cons, List.append_assoc], hleft, ?_, ?_⟩
      · rw [htasks', htasks, List.append_assoc]
        rfl
      · have hdropped : droppedBy (registries st.sessions (c :: calls)) (block :: blocks) =
            missedIn st₀.sessions block + droppedBy (registries st₀.sessions calls) blocks := rfl
        have hbefore : st₁.arrivals = [] ∨
            st₁.arrivals.length + 1 ≤ st.arrivals.length + missedIn st₀.sessions block := hend
        rw [hdropped, List.length_cons]
        rcases hend' with hnil | hle
        · exact .inl hnil
        · rcases hbefore with hnil | hle₁
          · -- nothing is left after the first call, so nothing is dropped later
            have hflat : (blocks.flatten ++ left).flatten = [] := by
              rw [← hsplit, ← hrest.bytes, hnil]
              rfl
            have hrest₀ : blocks.flatten ++ left = [] :=
              eq_nil_of_flatten (by decide) (fun f hf => hfs f (by
                rw [hsplit]
                exact List.mem_append_right block hf)) hflat
            have hzero := droppedBy_le (registries st₀.sessions calls) blocks
            rw [(List.append_eq_nil_iff.mp hrest₀).1, List.length_nil] at hzero
            rw [hnil, List.length_nil] at hle
            exact .inl (List.eq_nil_of_length_eq_zero (by omega))
          · exact .inr (by omega)

/-- **No frame is lost by the early return.** For every stream of whole frames with pauses
between them only, and every sequence of calls between which the other threads do anything but
remove the client's session, the calls raise no exception; each takes a block of frames, pushes
one task for every frame of its block whose destination is registered by then, in order, and
drops the others; the frames behind the last block are still on the socket. As many calls as
the stream has pieces and frames were dropped leave nothing. -/
theorem serve_drains {S : Sessions} {buffer : List UInt8} {tasks : List WriteTask}
    {u : List Arrival} {calls : List Call} (hs : Enrolled s a S)
    (hothers : ∀ c ∈ calls, ∀ S, Enrolled s a S → Enrolled s a (c.others S))
    (hfs : ∀ f ∈ fs, f.length = dataMessageSize) (hchunk : Chunked fs u) :
    ∃ st' blocks left, serve s calls ⟨S, u, buffer, tasks⟩ = .ok st' ∧
      blocks.length = calls.length ∧ fs = blocks.flatten ++ left ∧
      bytesOf st'.arrivals = left.flatten ∧
      st'.tasks = tasks ++ pushedBy (registries S calls) blocks ∧
      (u.length + droppedBy (registries S calls) blocks ≤ calls.length → left = []) := by
  obtain ⟨st', blocks, left, hserve, hlen, hsplit, hleft, htasks, hend⟩ :=
    @serve_blocks s a fs calls ⟨S, u, buffer, tasks⟩ hs hothers hfs hchunk
  refine ⟨st', blocks, left, hserve, hlen, hsplit, hleft.bytes, htasks, fun hcalls => ?_⟩
  have hnil : st'.arrivals = [] := by
    rcases hend with hnil | hle
    · exact hnil
    · exact List.eq_nil_of_length_eq_zero (by simp only at hle; omega)
  refine eq_nil_of_flatten (n := dataMessageSize) (by decide) (fun f hf => hfs f ?_) ?_
  · rw [hsplit]
    exact List.mem_append_right _ hf
  · rw [← hleft.bytes, hnil]
    rfl

/-- A frame for the node 9, which is not there, between two frames for the node 6. -/
def threeFrames : List (List UInt8) := [frameTo006, frameTo006.take 31 ++ [57], frameTo006]

lemma enrolled_twoClients : Enrolled 7 1 twoClients := ⟨by decide, by decide⟩

/-- The second call goes on behind the frame that the first one drops. -/
theorem serve_drains_two :
    ∃ st' blocks left, serve 7 [⟨id, []⟩, ⟨id, []⟩]
        ⟨twoClients, threeFrames.map fun f => .data 48 (f.drop 1), [], []⟩ = .ok st' ∧
      threeFrames = blocks.flatten ++ left ∧ bytesOf st'.arrivals = left.flatten ∧
      st'.tasks = pushedBy (registries twoClients [⟨id, []⟩, ⟨id, []⟩]) blocks ∧
      st'.tasks = [(7, frameTo006), (7, frameTo006)] ∧ bytesOf st'.arrivals = [] := by
  have hchunk : Chunked threeFrames (threeFrames.map fun f => .data 48 (f.drop 1)) := by
    refine ⟨by simp [Flowing], by decide, fun p q hpq => ?_⟩
    have hmem : Arrival.wouldBlock ∈ threeFrames.map fun f => Arrival.data 48 (f.drop 1) := by
      rw [hpq]
      simp
    simp at hmem
  have hothers : ∀ c ∈ ([⟨id, []⟩, ⟨id, []⟩] : List Call), ∀ S, Enrolled 7 1 S →
      Enrolled 7 1 (c.others S) := by
    intro c hc S hS
    simp only [List.mem_cons, List.not_mem_nil, or_false, or_self] at hc
    rw [hc]
    exact hS
  obtain ⟨st', blocks, left, hserve, -, hsplit, hbytes, htasks, -⟩ :=
    @serve_drains 7 1 threeFrames twoClients [] [] _ _ enrolled_twoClients hothers (by decide)
      hchunk
  obtain ⟨st, hst, htwo, hnone⟩ : ∃ st, serve 7 [⟨id, []⟩, ⟨id, []⟩]
      ⟨twoClients, threeFrames.map fun f => .data 48 (f.drop 1), [], []⟩ = .ok st ∧
      st.tasks = [(7, frameTo006), (7, frameTo006)] ∧ bytesOf st.arrivals = [] :=
    ⟨_, rfl, by decide, by decide⟩
  obtain rfl : st = st' := Except.ok.inj (hst.symm.trans hserve)
  exact ⟨st, blocks, left, hserve, hsplit, hbytes, htasks, htwo, hnone⟩

end MessageRouting
