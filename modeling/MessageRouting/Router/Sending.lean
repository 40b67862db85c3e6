import MessageRouting.Router.Progress

/-!
What the threads do to one socket, and the bytes that the writers put on it
(`Router::do_writes`, `TcpServer::send_to_client`).

In `Router.Workers` a `send` transmits its message or fails. Here it returns a count:
`send` may take a part of the message, which `send_to_client` turns into `SOCKET_ERROR`,
and the part is on the socket all the same.

* `socket_serialized`: a thread that reads from a socket or writes to it holds the mutex
  of its session, so that there is at most one.
* `sendToClient`, `afterSendToClient`: the counts; `Writing`, `writing`: the threads with the
  bytes that each socket was given. `router_of_writing`: they are runs of the readers and
  writers.
* `written_framed`: until a socket is removed, its bytes are the messages that were sent
  on it, whole and in order, and behind them at most a part of one more, whose writer is
  about to remove the socket.
-/

namespace MessageRouting

variable {T : Type}

/-! ### One thread at a time -/

/-- The socket of a call of `recv` or `send`, and the thread that makes it. -/
def Event.call : Event T → Option (T × ℤ)
  | .received i s _ => some (i, s)
  | .sent i _ s _ _ => some (i, s)
  | _ => none

/-- A thread that calls `recv` or `send` on a socket holds the mutex of a session of it. -/
lemma Step.held_of_call {i j : T} {s : ℤ} {sh sh' : Shared T} {pc pc' : Pc} {e : Event T}
    (h : Step i sh pc e pc' sh') (he : e.call = some (j, s)) :
    i = j ∧ ∃ a, pc.held = some (s, a) := by
  cases h with
  | recv_id _ _ => cases he; exact ⟨rfl, _, rfl⟩
  | recv_data _ _ => cases he; exact ⟨rfl, _, rfl⟩
  | recv_more _ _ => cases he; exact ⟨rfl, _, rfl⟩
  | recv_nothing => cases he; exact ⟨rfl, _, rfl⟩
  | recv_short _ => cases he; exact ⟨rfl, _, rfl⟩
  | recv_failed _ => cases he; exact ⟨rfl, _, rfl⟩
  | send => cases he; exact ⟨rfl, _, rfl⟩
  | send_failed => cases he; exact ⟨rfl, _, rfl⟩
  | _ => cases he

section Serialized

variable [DecidableEq T] {tr : List (Event T)} {st st' : RouterState T}

/-- No two threads hold mutexes for one socket. -/
lemma held_unique (h : (workers T).Reaches tr st) {i j : T} {s : ℤ} {a b : Addr}
    (hi : (st.loc i).held = some (s, a)) (hj : (st.loc j).held = some (s, b)) : i = j := by
  obtain ⟨hst, hloc⟩ := standing_of_reaches h
  obtain ⟨hsa, hai⟩ := (hloc i).held hst hi
  obtain ⟨hsb, hbj⟩ := (hloc j).held hst hj
  obtain rfl := hsa.inj hst hsb
  exact Option.some.inj (hai.symm.trans hbj)

/-- **The calls on one socket are serialized.** In every interleaving, at most one thread
stands between the lock and the unlock of the mutex that it takes for a socket, be it to
read or to write; and whoever calls `recv` or `send` on the socket holds the mutex of its
session, and is this thread. -/
theorem socket_serialized (h : (workers T).Reaches tr st) (s : ℤ) :
    (∀ i j a b, (st.loc i).held = some (s, a) → (st.loc j).held = some (s, b) →
      j = i ∧ b = a) ∧
    ∀ j e st', (workers T).step st e st' → e.call = some (j, s) →
      ∃ a, (st.loc j).held = some (s, a) ∧ st.shared.holder a = some j ∧
        ∀ i b, (st.loc i).held = some (s, b) → i = j := by
  refine ⟨fun i j a b hi hj => ?_, fun j e st' hs he => ?_⟩
  · obtain rfl := held_unique h hj hi
    rw [hi] at hj
    cases hj
    exact ⟨rfl, rfl⟩
  · rcases workers_step_cases hs with ⟨k, pc', sh', hstep, -⟩ | ⟨u, S, rfl, -⟩ | ⟨u, rfl, -⟩
    · obtain ⟨rfl, a, ha⟩ := hstep.held_of_call he
      obtain ⟨hst, hloc⟩ := standing_of_reaches h
      exact ⟨a, ha, ((hloc k).held hst ha).2, fun i b hi => held_unique h hi ha⟩
    · cases he
    · cases he

/-- The reader receives the id message of the first client, and holds the mutex of its
session. -/
theorem socket_serialized_reader :
    ∃ tr st st', (workers (Fin 3)).Reaches tr st ∧
      (workers (Fin 3)).step st (.received 0 7 (.bytes [48, 48, 54])) st' ∧
      ∃ a, (st.loc 0).held = some (7, a) ∧ st.shared.holder a = some 0 ∧
        ∀ i b, (st.loc i).held = some (7, b) → i = 0 := by
  obtain ⟨tr, st, hreach, htr⟩ : ∃ tr st, (workers (Fin 3)).Reaches tr st ∧
      tr = tr.take 7 ++ .received 0 7 (.bytes [48, 48, 54]) :: tr.drop 8 :=
    Lts.reaches_of_execute threeThreads twoMessages started_threeThreads (by decide)
  rw [htr] at hreach
  obtain ⟨st₁, st₂, h₁, hs, -, -⟩ := hreach.at_label
  exact ⟨_, st₁, st₂, h₁, hs, (socket_serialized h₁ 7).2 0 _ st₂ hs rfl⟩

end Serialized

/-! ### The counts that `send` returns -/

/-- `TcpServer::send_to_client`, from what `send` returns. -/
def sendToClient (buffer : List UInt8) (bytesSent : ℤ) : ℤ :=
  if bytesSent ≠ buffer.length then socketError else bytesSent

/-- What `do_writes` does about the result. -/
inductive AfterSend where
  | forwarded
  | removeSession
  | invalidCount
  deriving DecidableEq

/-- The branches of `do_writes` after `send_to_client`. -/
def afterSendToClient (msg : List UInt8) (sentByte : ℤ) : AfterSend :=
  if sentByte = msg.length then .forwarded
  else if sentByte = socketError then .removeSession
  else .invalidCount

/-- The branch that only logs an invalid count is never taken. -/
lemma afterSendToClient_eq (msg : List UInt8) (n : ℤ) :
    afterSendToClient msg (sendToClient msg n) =
      if n = msg.length then .forwarded else .removeSession := by
  by_cases hn : n = msg.length
  · simp [afterSendToClient, sendToClient, hn]
  · have hne : socketError ≠ (msg.length : ℤ) := by
      rw [socketError]
      omega
    simp [afterSendToClient, sendToClient, hn, hne]

/-- What `send` can return: an error, or a count of at most the length. -/
def Accepted (msg : List UInt8) (n : ℤ) : Prop := n = socketError ∨ 0 ≤ n ∧ n ≤ msg.length

instance (msg : List UInt8) (n : ℤ) : Decidable (Accepted msg n) :=
  inferInstanceAs (Decidable (n = socketError ∨ 0 ≤ n ∧ n ≤ msg.length))

/-! ### The bytes on the sockets -/

/-- The router, and the bytes that every socket was given. -/
structure Writing (T : Type) where
  router : RouterState T
  written : ℤ → List UInt8

/-- Who moves: the operating system answers a `send` with a count, or anything else. -/
inductive WritingAct (T : Type) where
  | send (i : T) (n : ℤ)
  | other (act : Program.Act T Input LoopAct)

variable [DecidableEq T]

/-- One step. The bytes that `send` takes are on the socket, whatever it returns. -/
def Writing.step (st : Writing T) : WritingAct T → Option (Event T × Writing T)
  | .send i n =>
      match st.router.loc i with
      | .send t _ =>
          if Accepted t.msg n then
            let ok := afterSendToClient t.msg (sendToClient t.msg n) = .forwarded
            ((MessageRouting.router T).step st.router (.thread i (.sent ok))).map fun r =>
              (r.1, ⟨r.2, Function.update st.written t.socket
                (st.written t.socket ++ t.msg.take n.toNat)⟩)
          else none
      | _ => none
  | .other (.thread _ (.sent _)) => none
  | .other act =>
      ((MessageRouting.router T).step st.router act).map fun r => (r.1, { st with router := r.2 })

/-- All interleavings, with nothing written yet. -/
def writing (T : Type) [DecidableEq T] : Lts (Writing T) (Event T) :=
  Lts.ofFn (fun st => Started st.router ∧ ∀ s, st.written s = []) Writing.step

variable {tr : List (Event T)} {st st' : Writing T} {e : Event T}

omit [DecidableEq T] in
/-- A step without the outcome of a `send` is not a `send`. -/
lemma sendCall_of_next {sh sh' : Shared T} {i : T} {pc pc' : Pc} {inp : Input} {e : Event T}
    (h : next sh i pc inp = some (e, pc', sh')) (hne : ∀ ok, inp ≠ .sent ok) :
    e.sendCall = none := by
  have hstep := step_of_next h
  cases hstep with
  | send =>
      cases inp with
      | sent ok => exact absurd rfl (hne ok)
      | _ => cases h
  | send_failed =>
      cases inp with
      | sent ok => exact absurd rfl (hne ok)
      | _ => cases h
  | _ => rfl

/-- One step is a step of the router; it writes when a `send` is answered, all of the
message if the session is kept, and a part of it if the session is to be removed. -/
lemma writing_step_cases (h : (writing T).step st e st') :
    (workers T).step st.router e st'.router ∧
    ((e.sendCall = none ∧ st'.written = st.written) ∨
    ∃ i t a bs, st.router.loc i = .send t a ∧ bs <+: t.msg ∧
      st'.written = Function.update st.written t.socket (st.written t.socket ++ bs) ∧
      ((e = .sent i t.seq t.socket t.msg true ∧ bs = t.msg) ∨
        (e = .sent i t.seq t.socket t.msg false ∧ st'.router.loc i = .removeDst t a))) := by
  obtain ⟨act, h⟩ := h
  cases act with
  | send i n =>
      simp only [Writing.step] at h
      split at h
      · rename_i t a hpc
        split_ifs at h with hn
        simp only [Option.map_eq_some_iff, Prod.exists] at h
        obtain ⟨ev, r, hs, h⟩ := h
        cases h
        refine ⟨⟨_, hs⟩, .inr ⟨i, t, a, t.msg.take n.toNat, hpc, List.take_prefix _ _, rfl, ?_⟩⟩
        rw [afterSendToClient_eq] at hs
        by_cases hfull : n = t.msg.length
        · rw [if_pos hfull] at hs
          simp only [Program.step, MessageRouting.router, hpc, next, decide_true, if_true,
            Option.map_some, Option.some.injEq, Prod.mk.injEq] at hs
          refine .inl ⟨hs.1.symm, ?_⟩
          rw [hfull, Int.toNat_natCast, List.take_length]
        · rw [if_neg hfull] at hs
          simp only [Program.step, MessageRouting.router, hpc, next, reduceCtorEq, decide_false,
            Bool.false_eq_true, if_false, Option.map_some, Option.some.injEq, Prod.mk.injEq] at hs
          refine .inr ⟨hs.1.symm, ?_⟩
          rw [← hs.2]
          exact Function.update_self _ _ _
      · cases h
  | other act =>
      have hother : ((MessageRouting.router T).step st.router act).map
          (fun r => (r.1, { st with router := r.2 })) = some (e, st') ∧
          ∀ i ok, act ≠ .thread i (.sent ok) := by
        rw [Writing.step.eq_def] at h
        split at h
        · rename_i heq
          cases heq
        · cases h
        · rename_i hne heq
          cases heq
          exact ⟨h, hne⟩
      obtain ⟨hact, hne⟩ := hother
      simp only [Option.map_eq_some_iff, Prod.exists] at hact
      obtain ⟨ev, r, hs, hact⟩ := hact
      cases hact
      refine ⟨⟨act, hs⟩, .inl ⟨?_, rfl⟩⟩
      cases act with
      | thread i inp =>
          simp only [Program.step, MessageRouting.router, Option.map_eq_some_iff, Prod.exists] at hs
          obtain ⟨ev, pc', sh', hn, hs⟩ := hs
          cases hs
          refine sendCall_of_next hn fun ok hok => ?_
          exact hne i ok (by rw [hok])
      | env act =>
          simp only [Program.step, MessageRouting.router, Option.map_eq_some_iff, Prod.exists] at hs
          obtain ⟨ev, sh', hn, hs⟩ := hs
          cases hs
          rcases loopStep_cases hn with ⟨u, S, rfl, -⟩ | ⟨u, rfl, -⟩
          · rfl
          · rfl

/-- Without its bytes a run is one of the readers and writers. -/
lemma router_of_writing (h : (writing T).Reaches tr st) : (workers T).Reaches tr st.router := by
  refine h.induct (fun tr st => (workers T).Reaches tr st.router) ?_ ?_
  · intro st hst
    exact ⟨st.router, hst.1, .nil⟩
  · intro tr st e st' hr hs
    exact hr.append (.single (writing_step_cases hs).1)

/-! ### The frames on a socket -/

/-- The messages that were transmitted on a socket, in order. -/
def sentOn (s : ℤ) (tr : List (Event T)) : List (List UInt8) :=
  ((tasksOf Event.sentTask tr).filter (·.socket = s)).map Task.msg

omit [DecidableEq T] in
lemma sentOn_append (s : ℤ) (tr : List (Event T)) (e : Event T) :
    sentOn s (tr ++ [e]) = sentOn s tr ++ sentOn s [e] := by
  have hone : tasksOf Event.sentTask [e] = e.sentTask.toList := by
    rw [← List.nil_append [e], tasksOf_append]
    rfl
  rw [sentOn, tasksOf_append, List.filter_append, List.map_append, sentOn, sentOn, hone]

/-- What is sent has the size of a message. -/
lemma length_of_sentOn [Fintype T] {r : RouterState T} (h : (workers T).Reaches tr r) {s : ℤ}
    {m : List UInt8} (hm : m ∈ sentOn s tr) : m.length = dataMessageSize := by
  obtain ⟨t, ht, rfl⟩ := List.mem_map.mp hm
  have hpopped : t ∈ tasksOf Event.poppedTask tr := by
    rw [← Multiset.mem_coe, (balanced_of_reaches h).popped]
    simp [List.mem_of_mem_filter ht]
  obtain ⟨pre, post, st₁, i, u, a, src, dst, m, -, h₁, hpc, rfl⟩ :=
    forward_of_pushed h (pushed_of_popped h hpopped)
  have hl := (standing_of_reaches h₁).2 i
  rw [hpc] at hl
  exact hl.2.1

/-- The bytes on a socket are whole messages, and behind them at most a part of one whose
writer is about to remove the socket. -/
def Framed (s : ℤ) (tr : List (Event T)) (st : Writing T) : Prop :=
  ∃ cut, st.written s = (sentOn s tr).flatten ++ cut ∧
    (cut = [] ∨ ∃ i t a, st.router.loc i = .removeDst t a ∧ t.socket = s ∧ cut <+: t.msg)

/-- A step that writes nothing on the socket. -/
lemma Framed.silent {s : ℤ} (hr : (writing T).Reaches tr st) (hf : Framed s tr st)
    (hs : (workers T).step st.router e st'.router) (hwritten : st'.written s = st.written s)
    (hsent : sentOn s [e] = []) (hkept : ∀ i, e ≠ .removed i s) : Framed s (tr ++ [e]) st' := by
  obtain ⟨cut, hbytes, hcut⟩ := hf
  refine ⟨cut, by rw [hwritten, hbytes, sentOn_append, hsent, List.append_nil], ?_⟩
  rcases hcut with hnil | ⟨i, t, a, hpc, rfl, hpre⟩
  · exact .inl hnil
  · rcases removeDst_step (router_of_writing hr) hs hpc with hstay | hrem
    · exact .inr ⟨i, t, a, hstay, rfl, hpre⟩
    · exact absurd hrem (hkept i)

/-- Before a `send` there is no part of a message on the socket: its writer would hold the
mutex that this one holds. -/
lemma Framed.whole {i : T} {t : Task} {a : Addr} (hr : (writing T).Reaches tr st)
    (hf : Framed t.socket tr st) (hpc : st.router.loc i = .send t a) :
    st.written t.socket = (sentOn t.socket tr).flatten := by
  obtain ⟨cut, hbytes, hnil | ⟨j, u, b, hj, hu, -⟩⟩ := hf
  · rw [hbytes, hnil, List.append_nil]
  · have hi : (st.router.loc i).held = some (t.socket, a) := by rw [hpc]; rfl
    have hheld : (st.router.loc j).held = some (t.socket, b) := by rw [hj, ← hu]; rfl
    rw [held_unique (router_of_writing hr) hheld hi, hpc] at hj
    cases hj

/-- **The bytes of a socket are framed.** In every interleaving of the readers and writers
in which `send` may take any part of a message: as long as a socket is not removed, what was
written on it is the messages whose `send` succeeded, each of 32 bytes, whole and in order,
followed by nothing, or by a part of one message whose writer still holds the mutex and
is about to remove the socket. -/
theorem written_framed [Fintype T] (h : (writing T).Reaches tr st) (s : ℤ)
    (hkept : ∀ i, .removed i s ∉ tr) :
    (∀ m ∈ sentOn s tr, m.length = dataMessageSize) ∧ Framed s tr st := by
  refine ⟨fun m hm => length_of_sentOn (router_of_writing h) hm, ?_⟩
  refine h.induct_reached (fun tr st => (∀ i, .removed i s ∉ tr) → Framed s tr st) ?_ ?_ hkept
  · intro st hst _
    exact ⟨[], hst.2 s, .inl rfl⟩
  · intro tr st e st' hr ih hs hkept
    have hf := ih fun i hi => hkept i (List.mem_append_left _ hi)
    have hnot : ∀ i, e ≠ .removed i s := fun i he => hkept i (by simp [he])
    obtain ⟨hstep, ⟨hcall, hwritten⟩ | ⟨i, t, a, bs, hpc, hpre, hwritten, hout⟩⟩ :=
      writing_step_cases hs
    · refine hf.silent hr hstep (by rw [hwritten]) ?_ hnot
      cases e with
      | sent => cases hcall
      | _ => rfl
    · by_cases hts : t.socket = s
      · subst hts
        have hbytes : st'.written t.socket = (sentOn t.socket tr).flatten ++ bs := by
          rw [hwritten, Function.update_self, hf.whole hr hpc]
        rcases hout with ⟨rfl, rfl⟩ | ⟨rfl, hremove⟩
        · refine ⟨[], ?_, .inl rfl⟩
          rw [hbytes, sentOn_append, List.flatten_append]
          simp [sentOn, tasksOf, Event.sentTask]
        · refine ⟨bs, ?_, .inr ⟨i, t, a, hremove, rfl, hpre⟩⟩
          rw [hbytes, sentOn_append]
          simp [sentOn, tasksOf, Event.sentTask]
      · refine hf.silent hr hstep ?_ ?_ hnot
        · rw [hwritten, Function.update_of_ne fun hst => hts hst.symm]
        · rcases hout with ⟨rfl, -⟩ | ⟨rfl, -⟩
          · simp [sentOn, tasksOf, Event.sentTask, hts]
          · simp [sentOn, tasksOf, Event.sentTask]

/-- The second of two messages is cut off after ten bytes. -/
theorem written_framed_cut :
    ∃ tr st, (writing (Fin 3)).Reaches tr st ∧
      st.written 7 = messageTo006 49 ++ (messageTo006 50).take 10 ∧
      (∀ m ∈ sentOn 7 tr, m.length = dataMessageSize) ∧ Framed 7 tr st := by
  obtain ⟨tr, st, hreach, hbytes, hkept⟩ : ∃ tr st, (writing (Fin 3)).Reaches tr st ∧
      st.written 7 = messageTo006 49 ++ (messageTo006 50).take 10 ∧ ∀ i, .removed i 7 ∉ tr :=
    Lts.reaches_of_execute ⟨threeThreads, fun _ => []⟩
      ((twoMessages ++ run 1 [.go, .go, .go]).map .other ++ [.send 1 32] ++
        (run 1 [.go] ++ run 2 [.go, .go, .go]).map .other ++ [.send 2 10])
      ⟨started_threeThreads, fun _ => rfl⟩ (by decide)
  exact ⟨tr, st, hreach, hbytes, written_framed hreach 7 hkept⟩

end MessageRouting
