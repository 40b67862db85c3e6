import MessageRouting.Node.Receiving

/-!
The sockets that a node opens and closes (`node/src/tcp_socket.cpp`), over whole runs of
`Node::start`.

`TcpSocket` keeps the descriptors that are open in the process next to the member
`_socket`. `connectToServer` overwrites `_socket`; `closeSocket` closes what it holds then.

* `Process`: a node with its sockets; `Node.process`: all runs, whatever `WSAStartup`,
  `socket`, `connect`, `send` and `recv` return. `system_of_process`: the node in it makes
  a run of its own.
* `process_step_cases`: what one step does to the sockets.
* `at_most_one_socket`: as long as no reply is lost there is at most one open socket, and
  none when the next one is created; the socket on which a reply was lost stays open for
  good.
-/

namespace MessageRouting

namespace Node

/-! ### The descriptors -/

/-- The open descriptors of the process, and `_socket`. -/
structure TcpSocket where
  fds : List ℤ
  socket : ℤ

/-- `TCPSocket::closeSocket`. -/
def TcpSocket.closeSocket (t : TcpSocket) : TcpSocket := { t with fds := t.fds.erase t.socket }

/-- `TCPSocket::connect_to_server`, on the outcomes of `WSAStartup`, `socket` and `connect`:
what it returns and what it leaves. `socket` gives a descriptor that is not open. -/
def TcpSocket.connectToServer (t : TcpSocket) (startup : Bool) (created : Option ℤ)
    (connected : Bool) : Option (ℤ × TcpSocket) :=
  if startup then
    match created with
    | none => some (1, { t with socket := -1 })
    | some s =>
        if s < 0 ∨ s ∈ t.fds then none
        else
          let t : TcpSocket := ⟨s :: t.fds, s⟩
          if connected then some (0, t) else some (1, t.closeSocket)
  else some (1, t)

/-! ### The runs of a node with its sockets -/

/-- A node and its sockets. -/
structure Process where
  node : State
  tcp : TcpSocket

/-- The outcomes of the calls in one step. -/
inductive Outcome where
  | connectToServer (startup : Bool) (created : Option ℤ) (connected : Bool)
  | sendMessage (n : ℤ)
  | recvMessage (r : Recv)
  | closeConnection

/-- One step of `Node::start`. -/
def Process.step (node : Node) (st : Process) : Outcome → Option (Event × Process)
  | .connectToServer startup created connected =>
      (st.tcp.connectToServer startup created connected).bind fun (errcode, tcp) =>
        (node.next st.node (if errcode = 0 then .connected tcp.socket.toNat else .refused)).map
          fun (e, n) => (e, ⟨n, tcp⟩)
  | .sendMessage n => (node.next st.node (.sent n)).map fun (e, n) => (e, { st with node := n })
  | .recvMessage r => (node.next st.node (.recv r)).map fun (e, n) => (e, { st with node := n })
  | .closeConnection =>
      (node.next st.node .go).map fun (e, n) => (e, ⟨n, st.tcp.closeSocket⟩)

/-- All runs, from the call of `Node::start` on. -/
def process (node : Node) : Lts Process Event :=
  Lts.ofFn (fun st => st.node.place = .connect ∧ st.tcp.fds = []) (Process.step node)

variable {node : Node} {st st' : Process} {e : Event} {tr : List Event} {s : ℤ}

/-- One step is a call of `connect_to_server`, a call of `send` or `recv` on the socket, or
the close of the socket, next to the step of the node. -/
lemma process_next (h : node.process.step st e st') :
    (∃ startup created connected err,
      st.tcp.connectToServer startup created connected = some (err, st'.tcp) ∧
      node.next st.node (if err = 0 then .connected st'.tcp.socket.toNat else .refused) =
        some (e, st'.node)) ∨
    (st'.tcp = st.tcp ∧ ∃ n, node.next st.node (.sent n) = some (e, st'.node)) ∨
    (st'.tcp = st.tcp ∧ ∃ r, node.next st.node (.recv r) = some (e, st'.node)) ∨
    (st'.tcp = st.tcp.closeSocket ∧ node.next st.node .go = some (e, st'.node)) := by
  obtain ⟨outcome, hs⟩ := h
  cases outcome with
  | connectToServer startup created connected =>
      simp only [Process.step, Option.bind_eq_some_iff, Option.map_eq_some_iff, Prod.exists] at hs
      obtain ⟨err, tcp, htcp, _, _, hn, hs⟩ := hs
      cases hs
      exact .inl ⟨startup, created, connected, err, htcp, hn⟩
  | sendMessage n =>
      simp only [Process.step, Option.map_eq_some_iff, Prod.exists] at hs
      obtain ⟨_, _, hn, hs⟩ := hs
      cases hs
      exact .inr (.inl ⟨rfl, n, hn⟩)
  | recvMessage r =>
      simp only [Process.step, Option.map_eq_some_iff, Prod.exists] at hs
      obtain ⟨_, _, hn, hs⟩ := hs
      cases hs
      exact .inr (.inr (.inl ⟨rfl, r, hn⟩))
  | closeConnection =>
      simp only [Process.step, Option.map_eq_some_iff, Prod.exists] at hs
      obtain ⟨_, _, hn, hs⟩ := hs
      cases hs
      exact .inr (.inr (.inr ⟨rfl, hn⟩))

/-- The node makes a run of its own. -/
lemma system_of_process (h : node.process.Reaches tr st) : node.system.Reaches tr st.node := by
  have hstep : ∀ st e st', node.process.step st e st' →
      node.system.step st.node e st'.node := by
    intro st e st' hs
    rcases process_next hs with ⟨_, _, _, _, -, hn⟩ | ⟨-, _, hn⟩ | ⟨-, _, hn⟩ | ⟨-, hn⟩
    · exact ⟨_, hn⟩
    · exact ⟨_, hn⟩
    · exact ⟨_, hn⟩
    · exact ⟨_, hn⟩
  have hmap : node.system.Reaches (tr.filterMap some) st.node :=
    h.map Process.node some (fun st (hst : st.node.place = .connect ∧ st.tcp.fds = []) => hst.1)
      fun _ st e st' _ hs => .single (hstep st e st' hs)
  simpa using hmap

/-! ### What a step does to the sockets -/

/-- A reply is lost: the last attempt to send it fails too. -/
def replyLost (st : Process) (e : Event) : Bool :=
  match st.node.place, e with
  | .send (.reply _) retry, .sent _ n => maxRetry ≤ retry + 1 ∧ n ≤ 0
  | _, _ => false

lemma afterSent_ne_connect (p : Purpose) : node.afterSent p ≠ .connect := by
  cases p with
  | subscribe =>
      rw [afterSent]
      split_ifs <;> simp
  | _ => simp [afterSent]

/-- Only a reply that could not be sent leads to the next connection without a close. -/
lemma afterSend_eq_connect {retry : ℕ} {p : Purpose} {n : ℤ}
    (hplace : st.node.place = .send p retry) :
    node.afterSend p retry n = .connect ↔ replyLost st (.sent p n) = true := by
  rw [afterSend]
  split_ifs with hn hretry
  · cases p <;> simp [replyLost, hplace, afterSent_ne_connect, hn]
  · cases p <;> simp [replyLost, hplace, hretry]
  · cases p with
    | reply m => simpa [replyLost, hplace, afterFailed] using ⟨not_lt.mp hretry, not_lt.mp hn⟩
    | _ => simp [replyLost, hplace, afterFailed]

lemma afterReceived_ne_connect (r : Recv) : node.afterReceived r ≠ .connect := by
  cases r with
  | bytes bs =>
      rw [afterReceived]
      split_ifs
      · cases processMessage node.id bs bs.length <;> simp
      · simp
  | _ => simp [afterReceived]

/-- What `connect_to_server` does to the descriptors. -/
lemma connectToServer_cases {t t' : TcpSocket} {startup connected : Bool} {created : Option ℤ}
    {err : ℤ} (h : t.connectToServer startup created connected = some (err, t')) :
    (err = 0 ∧ ∃ s, s ∉ t.fds ∧ t' = ⟨s :: t.fds, s⟩) ∨ (err ≠ 0 ∧ t'.fds = t.fds) := by
  cases startup with
  | false =>
      cases h
      exact .inr ⟨by decide, rfl⟩
  | true =>
      cases created with
      | none =>
          cases h
          exact .inr ⟨by decide, rfl⟩
      | some s =>
          simp only [TcpSocket.connectToServer, if_true] at h
          split_ifs at h with hs hconn
          · cases h
            exact .inl ⟨rfl, s, fun hmem => hs (.inr hmem), rfl⟩
          · cases h
            exact .inr ⟨by decide, by simp [TcpSocket.closeSocket]⟩

/-- What one step does to the sockets: `connect_to_server` succeeds or fails, the
connection is closed, or the node goes on with its socket, to the next connection when a
reply is lost. -/
lemma process_step_cases (h : node.process.step st e st') :
    (st.node.place = .connect ∧ st'.node.place ≠ .connect ∧
      ∃ s, s ∉ st.tcp.fds ∧ st'.tcp = ⟨s :: st.tcp.fds, s⟩) ∨
    (st.node.place = .connect ∧ st'.node.place = .connect ∧ st'.tcp.fds = st.tcp.fds) ∨
    (st.node.place = .close ∧ st'.node.place = .connect ∧ st'.tcp = st.tcp.closeSocket) ∨
    (st.node.place ≠ .connect ∧ st'.tcp = st.tcp ∧
      (st'.node.place = .connect ↔ replyLost st e = true)) := by
  rcases process_next h with ⟨startup, created, connected, err, htcp, hn⟩ | ⟨htcp, n, hn⟩ |
    ⟨htcp, r, hn⟩ | ⟨htcp, hn⟩
  · rcases connectToServer_cases htcp with ⟨rfl, hopen⟩ | ⟨herr, hfds⟩
    · rw [if_pos rfl] at hn
      obtain ⟨hplace, -, hnode⟩ := next_connected.mp hn
      exact .inl ⟨hplace, by simp [hnode], hopen⟩
    · rw [if_neg herr] at hn
      obtain ⟨hplace, -, hnode⟩ := next_refused.mp hn
      exact .inr (.inl ⟨hplace, hnode ▸ hplace, hfds⟩)
  · obtain ⟨p, retry, hplace, rfl, hnode⟩ := next_sent.mp hn
    refine .inr (.inr (.inr ⟨by simp [hplace], htcp, ?_⟩))
    rw [hnode]
    exact afterSend_eq_connect hplace
  · obtain ⟨hplace, -, hnode⟩ := next_recv.mp hn
    refine .inr (.inr (.inr ⟨by simp [hplace], htcp, ?_⟩))
    simp [hnode, replyLost, hplace, afterReceived_ne_connect]
  · obtain ⟨hplace, -, hnode⟩ := next_go.mp hn
    exact .inr (.inr (.inl ⟨hplace, by rw [hnode], htcp⟩))

/-! ### One socket at a time -/

/-- No socket is open before a connection, and later only the one that the node holds. -/
structure Single (st : Process) : Prop where
  none_open : st.node.place = .connect → st.tcp.fds = []
  one_open : st.node.place ≠ .connect → st.tcp.fds = [st.tcp.socket]

/-- A step that loses no reply keeps this. -/
lemma Single.step (hst : Single st) (h : node.process.step st e st')
    (hkept : replyLost st e = false) : Single st' := by
  rcases process_step_cases h with ⟨hp, hp', s, -, htcp⟩ | ⟨hp, hp', hfds⟩ | ⟨hp, hp', htcp⟩ |
    ⟨hp, htcp, hlost⟩
  · exact ⟨fun hc => absurd hc hp', fun _ => by rw [htcp, hst.none_open hp]⟩
  · exact ⟨fun _ => by rw [hfds, hst.none_open hp], fun hc => absurd hp' hc⟩
  · refine ⟨fun _ => ?_, fun hc => absurd hp' hc⟩
    rw [htcp, TcpSocket.closeSocket, hst.one_open (by simp [hp])]
    simp
  · have hp' : st'.node.place ≠ .connect := fun hc => by
      rw [hlost.mp hc] at hkept
      cases hkept
    exact ⟨fun hc => absurd hc hp', fun _ => by rw [htcp, hst.one_open hp]⟩

lemma single_of_reaches
    (h : (node.process.restrict fun st e => replyLost st e = false).Reaches tr st) : Single st := by
  refine h.invariant Single ?_ ?_
  · rintro st ⟨hplace, hfds⟩
    exact ⟨fun _ => hfds, fun hp => absurd hplace hp⟩
  · rintro st e st' hst ⟨hs, hkept⟩
    exact hst.step hs hkept

lemma Single.length_le (h : Single st) : st.tcp.fds.length ≤ 1 := by
  by_cases hp : st.node.place = .connect
  · rw [h.none_open hp]
    simp
  · rw [h.one_open hp]
    simp

/-! ### A lost reply -/

/-- In every run, the socket that the node holds is open. -/
lemma socket_open (h : node.process.Reaches tr st) :
    st.node.place ≠ .connect → st.tcp.socket ∈ st.tcp.fds := by
  refine h.invariant (fun st => st.node.place ≠ .connect → st.tcp.socket ∈ st.tcp.fds) ?_ ?_
  · intro st hst hp
    exact absurd hst.1 hp
  · intro st e st' hopen hs hp'
    rcases process_step_cases hs with ⟨-, -, s, -, htcp⟩ | ⟨-, hc, -⟩ | ⟨-, hc, -⟩ | ⟨hp, htcp, -⟩
    · rw [htcp]
      exact List.mem_cons_self
    · exact absurd hc hp'
    · exact absurd hc hp'
    · rw [htcp]
      exact hopen hp

/-- A socket that is open and is not the one that the node holds. -/
def Leaked (s : ℤ) (st : Process) : Prop :=
  s ∈ st.tcp.fds ∧ (st.node.place ≠ .connect → st.tcp.socket ≠ s)

/-- It stays so. -/
lemma Leaked.step (hst : Leaked s st) (h : node.process.step st e st') : Leaked s st' := by
  obtain ⟨hopen, hne⟩ := hst
  rcases process_step_cases h with ⟨-, -, s', hnew, htcp⟩ | ⟨-, hp', hfds⟩ | ⟨hp, hp', htcp⟩ |
    ⟨hp, htcp, -⟩
  · rw [Leaked, htcp]
    refine ⟨List.mem_cons_of_mem s' hopen, fun _ => ?_⟩
    rintro rfl
    exact hnew hopen
  · exact ⟨by rw [hfds]; exact hopen, fun hc => absurd hp' hc⟩
  · refine ⟨?_, fun hc => absurd hp' hc⟩
    rw [htcp]
    exact (List.mem_erase_of_ne (Ne.symm (hne (by simp [hp])))).mpr hopen
  · rw [Leaked, htcp]
    exact ⟨hopen, fun _ => hne hp⟩

/-- **At most one open socket.** In every run in which no reply is lost, whatever the calls
of the operating system return, at most one socket is open, and none when
`connect_to_server` creates the next one. A step that loses a reply leads to the next
connection with the old socket open, and that socket stays open in every later state. -/
theorem at_most_one_socket (node : Node) :
    (∀ tr st, (node.process.restrict fun st e => replyLost st e = false).Reaches tr st →
      (st.node.place = .connect → st.tcp.fds = []) ∧ st.tcp.fds.length ≤ 1) ∧
    ∀ tr st e st', node.process.Reaches tr st → node.process.step st e st' →
      replyLost st e = true →
      st'.node.place = .connect ∧
        ∀ tr' u, node.process.Run st' tr' u → st.tcp.socket ∈ u.tcp.fds := by
  refine ⟨fun tr st h => ⟨(single_of_reaches h).none_open, (single_of_reaches h).length_le⟩, ?_⟩
  intro tr st e st' h hs hlost
  -- a reply is lost in `send_message`, where the node holds a socket
  have hp : st.node.place ≠ .connect := fun hc => by simp [replyLost, hc] at hlost
  have hp' : st'.node.place = .connect ∧ st'.tcp = st.tcp := by
    rcases process_step_cases hs with ⟨hc, -⟩ | ⟨hc, -⟩ | ⟨hc, -⟩ | ⟨-, htcp, hiff⟩
    · exact absurd hc hp
    · exact absurd hc hp
    · simp [replyLost, hc] at hlost
    · exact ⟨hiff.mpr hlost, htcp⟩
  have hleaked : Leaked st.tcp.socket st' :=
    ⟨by rw [hp'.2]; exact socket_open h hp, fun hc => absurd hp'.1 hc⟩
  exact ⟨hp'.1, fun tr' u hr => (hr.invariant (Leaked st.tcp.socket) hleaked
    fun _ _ _ hl hstep => hl.step hstep).1⟩

/-- A process that has no socket yet. -/
def unconnected : Process := ⟨⟨.connect, 0⟩, ⟨[], -1⟩⟩

/-- A node that answers a frame, loses the connection and closes its socket. -/
theorem at_most_one_socket_closed :
    ∃ tr st, ((⟨3, 5, false⟩ : Node).process.restrict fun st e => replyLost st e = false).Reaches
        tr st ∧ tr.getLast? = some .closed ∧ st.tcp.fds = [] := by
  obtain ⟨tr, st, hreach, hlast, hplace⟩ : ∃ tr st,
      (Lts.ofFn (fun st : Process => st.node.place = .connect ∧ st.tcp.fds = [])
        (Lts.guarded (Process.step ⟨3, 5, false⟩)
          fun st e => replyLost st e = false)).Reaches tr st ∧
      tr.getLast? = some .closed ∧ st.node.place = .connect :=
    Lts.reaches_of_execute unconnected [.connectToServer true (some 4) true, .sendMessage 3,
      .recvMessage (.bytes (frame 5 2210 firstTrace firstPan 3)), .sendMessage 32,
      .recvMessage .closed, .closeConnection] ⟨rfl, rfl⟩ (by decide)
  exact ⟨tr, st, hreach.of_guarded, hlast,
    ((at_most_one_socket ⟨3, 5, false⟩).1 tr st hreach.of_guarded).1 hplace⟩

/-- A node whose reply cannot be sent connects again with the old socket open. -/
theorem socket_leaked :
    ¬ ∀ (node : Node) (tr : List Event) (st : Process), node.process.Reaches tr st →
      st.node.place = .connect → st.tcp.fds = [] := by
  intro hall
  obtain ⟨tr, st, hreach, hplace, hfds⟩ : ∃ tr st,
      (⟨3, 5, false⟩ : Node).process.Reaches tr st ∧ st.node.place = .connect ∧ st.tcp.fds = [4] :=
    Lts.reaches_of_execute unconnected [.connectToServer true (some 4) true, .sendMessage 3,
      .recvMessage (.bytes (frame 5 2210 firstTrace firstPan 3)), .sendMessage (-1),
      .sendMessage (-1), .sendMessage (-1)] ⟨rfl, rfl⟩ (by decide)
  have hnone := hall _ tr st hreach hplace
  rw [hfds] at hnone
  cases hnone

end Node

end MessageRouting
