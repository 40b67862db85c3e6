import MessageRouting.Node.Start
import MessageRouting.Router.Conservation

/-!
The system: nodes that run `Node::start`, the router, and the TCP connections
between them.

A connection is a pair of channels. What one `send` puts into a channel is a
packet; a `send` transmits all of it or nothing. A `recv` sees a number of whole
packets, those that have arrived, and takes at most the bytes it asks for: a
short count or a would-block falls between two packets, never inside one. A
connection can break at any time; the ends may still read a part of what was
under way, and what is sent afterwards is lost. A node makes a new connection
whenever it comes back to `connect_to_server`, and the router's descriptor for a
connection is fixed when it is accepted.

The event loop may report any socket here, as what is proved of all runs holds of
those with fewer reports too. Where a run is to be shown to exist, only sockets that
`select` can watch are reported (`World.Selects`).

* `Frame`, `Packet`, `Connection`, `World`: the state. How often a message was
  answered is recorded next to it; no program reads this number.
* `World.step`: one step of a thread of the router, of the event loop, of a node,
  or the break of a connection; `network`: all interleavings.
* `Move`: the same as a relation (`move_of_step`).
* `router_reaches`: in every run of the system the router makes a run of its own.
-/

namespace MessageRouting

/-! ### Channels -/

/-- A data message under way, and how often it has been answered. -/
structure Frame where
  bytes : List UInt8
  answered : ℕ
  deriving DecidableEq, Repr

/-- What one `send` puts into a channel. -/
inductive Packet where
  | idMessage (bytes : List UInt8)
  | data (f : Frame)
  deriving DecidableEq, Repr

namespace Packet

def bytes : Packet → List UInt8
  | .idMessage bs => bs
  | .data f => f.bytes

/-- The data message of a packet. -/
def frame : Packet → Option Frame
  | .idMessage _ => none
  | .data f => some f

/-- What is left of a packet when `n` bytes were taken from it. -/
def rest (n : ℕ) : Packet → Packet
  | .idMessage bs => .idMessage (bs.drop n)
  | .data f => .data { f with bytes := f.bytes.drop n }

end Packet

/-- A `recv` of at most `n` bytes from a channel of which the first `k` packets have
arrived. -/
def recvFrom (n k : ℕ) (ch : List Packet) : Recv :=
  match ((ch.take k).flatMap Packet.bytes).take n with
  | [] => .wouldBlock
  | b :: bs => .bytes (b :: bs)

/-- A channel from which `n` bytes were taken. -/
def dropBytes : ℕ → List Packet → List Packet
  | _, [] => []
  | n, p :: ps =>
      if n = 0 then p :: ps
      else if p.bytes.length ≤ n then dropBytes (n - p.bytes.length) ps
      else p.rest n :: ps

/-- How often the first message of a channel has been answered. -/
def answeredAtHead : List Packet → ℕ
  | .data f :: _ => f.answered
  | _ => 0

/-- A `recv` that asks for the size of the first packet takes this packet. -/
lemma recvFrom_cons {n k : ℕ} {p : Packet} {ps : List Packet} {bs : List UInt8}
    (hn : p.bytes.length = n) (hpos : 0 < n) (h : recvFrom n k (p :: ps) = .bytes bs) :
    bs = p.bytes ∧ dropBytes bs.length (p :: ps) = ps := by
  have hbs : bs = p.bytes := by
    cases k with
    | zero => simp [recvFrom] at h
    | succ k =>
        rw [recvFrom, List.take_succ_cons, List.flatMap_cons, List.take_left' hn] at h
        split at h
        · cases h
        · rename_i hp
          cases h
          exact hp.symm
  refine ⟨hbs, ?_⟩
  rw [hbs, dropBytes, if_neg (by omega), if_pos le_rfl, Nat.sub_self]
  cases ps with
  | nil => rfl
  | cons q qs => rw [dropBytes, if_pos rfl]

lemma recvFrom_nil {n k : ℕ} {bs : List UInt8} : recvFrom n k [] ≠ .bytes bs := by
  simp [recvFrom]

/-- A connection of a node, with the router's descriptor for it once it is
accepted. -/
structure Connection (N : Type) where
  node : N
  socket : Option ℤ
  up : Bool
  toRouter : List Packet
  toNode : List Packet

namespace Connection

variable {N : Type}

/-- A connection as `connect` makes it. -/
def new (n : N) : Connection N := ⟨n, none, true, [], []⟩

def sendToRouter (x : Connection N) (p : Packet) : Connection N :=
  if x.up then { x with toRouter := x.toRouter ++ [p] } else x

def sendToNode (x : Connection N) (p : Packet) : Connection N :=
  if x.up then { x with toNode := x.toNode ++ [p] } else x

/-- The connection breaks; the first packets can still be read. -/
def cut (x : Connection N) (k l : ℕ) : Connection N :=
  { x with up := false, toRouter := x.toRouter.take k, toNode := x.toNode.take l }

end Connection

/-! ### The state and its steps -/

variable {N T : Type}

/-- The state of the system. The last four fields only record: how often the
message in a reader's hands was answered, the one of a write task (by its
number), the reply of a node, and how many first messages were sent. -/
structure World (N T : Type) where
  router : RouterState T
  conns : List (Connection N)
  nodes : N → Node.State
  inHand : T → ℕ
  queued : ℕ → ℕ
  reply : N → ℕ
  initiated : ℕ

namespace World

/-- The connection behind a descriptor of the router. -/
def behind (w : World N T) (s : ℤ) : Option ℕ := w.conns.findIdx? fun x => x.socket == some s

/-- What a step of the router does to the connections. -/
def observe [DecidableEq T] (w : World N T) : Event T → World N T
  | .received i s (.bytes bs) =>
      match w.behind s with
      | none => w
      | some c =>
          { w with
            conns := w.conns.modify c fun x => { x with toRouter := dropBytes bs.length x.toRouter }
            inHand := Function.update w.inHand i
              ((w.conns[c]?).elim 0 fun x => answeredAtHead x.toRouter) }
  | .pushed i _ t => { w with queued := Function.update w.queued t.seq (w.inHand i) }
  | .sent _ seq s msg true =>
      match w.behind s with
      | none => w
      | some c =>
          { w with conns := w.conns.modify c fun x => x.sendToNode (.data ⟨msg, w.queued seq⟩) }
  | _ => w

end World

/-- The outcome of a system call of a thread of the router. -/
inductive Outcome where
  | go
  | arrived (k : ℕ)
  | closed
  | error
  | sent (ok : Bool)

/-- The outcome of a system call of a node. -/
inductive NodeOutcome where
  | connected
  | refused
  | sent (ok : Bool)
  | arrived (k : ℕ)
  | failed
  | go

/-- Who moves. -/
inductive WorldAct (N T : Type) where
  | thread (i : T) (o : Outcome)
  | accept (s : ℤ) (c : ℕ)
  | readable (s : ℤ)
  | node (n : N) (o : NodeOutcome)
  | cut (c k l : ℕ)

/-- The label of a step of the system. -/
inductive WorldEvent (N T : Type) where
  | router (e : Event T)
  | node (n : N) (e : Node.Event)
  | broken (c : ℕ)

/-- The step of the router in a step of the system. -/
def WorldEvent.ofRouter : WorldEvent N T → Option (Event T)
  | .router e => some e
  | _ => none

namespace World

/-- The input of a thread. A `recv` reads the channel behind its socket. -/
def input (w : World N T) (i : T) : Outcome → Option Input
  | .go => some .go
  | .arrived k =>
      match w.router.loc i with
      | .recv s _ _ want got =>
          ((w.behind s).bind fun c => w.conns[c]?).map fun x =>
            .recv (recvFrom (want.size - got.length) k x.toRouter)
      | _ => none
  | .closed => some (.recv .closed)
  | .error => some (.recv .error)
  | .sent ok => some (.sent ok)

/-- The packet in which a node sends a message. -/
def packet (cfg : N → Node) (w : World N T) (n : N) : Node.Purpose → Packet
  | .subscribe => .idMessage ((cfg n).message .subscribe)
  | .initiate => .data ⟨(cfg n).message .initiate, 0⟩
  | .reply msg => .data ⟨msg, w.reply n⟩

/-- The input of a node. A `recv` reads its channel, and blocks while nothing has
arrived. -/
def nodeInput (cfg : N → Node) (w : World N T) (n : N) : NodeOutcome → Option Node.Input
  | .connected => some (.connected w.conns.length)
  | .refused => some .refused
  | .sent ok =>
      match (w.nodes n).place with
      | .send p _ => some (.sent (if ok then ((cfg n).message p).length else -1))
      | _ => none
  | .arrived k =>
      match w.conns[(w.nodes n).socket]? with
      | none => none
      | some x =>
          match recvFrom Node.msgLen k x.toNode with
          | .bytes bs => some (.recv (.bytes bs))
          | _ => none
  | .failed => some (.recv .error)
  | .go => some .go

/-- What a step of a node does to the connections. -/
def observeNode [DecidableEq N] (cfg : N → Node) (w : World N T) (n : N) :
    Node.Event → World N T
  | .connected _ => { w with conns := w.conns ++ [.new n] }
  | .sent p k =>
      if 0 < k then
        { w with
          conns := w.conns.modify (w.nodes n).socket fun x => x.sendToRouter (w.packet cfg n p)
          initiated := if p = .initiate then w.initiated + 1 else w.initiated }
      else w
  | .received (.bytes bs) =>
      { w with
        conns := w.conns.modify (w.nodes n).socket fun x =>
          { x with toNode := dropBytes bs.length x.toNode }
        reply := Function.update w.reply n
          (((w.conns[(w.nodes n).socket]?).elim 0 fun x => answeredAtHead x.toNode) + 1) }
  | _ => w

variable [DecidableEq N] [DecidableEq T]

/-- One step of the system. -/
def step (cfg : N → Node) (w : World N T) : WorldAct N T → Option (WorldEvent N T × World N T)
  | .thread i o =>
      (w.input i o).bind fun inp =>
        ((MessageRouting.router T).step w.router (.thread i inp)).map fun r =>
          (.router r.1, { w.observe r.1 with router := r.2 })
  | .accept s c =>
      if (w.conns[c]?).any (·.socket.isNone) then
        ((MessageRouting.router T).step w.router (.env (.accept s))).map fun r =>
          (.router r.1, { w with
            router := r.2, conns := w.conns.modify c fun x => { x with socket := some s } })
      else none
  | .readable s =>
      ((MessageRouting.router T).step w.router (.env (.readable s))).map fun r =>
        (.router r.1, { w with router := r.2 })
  | .node n o =>
      (w.nodeInput cfg n o).bind fun inp =>
        ((cfg n).next (w.nodes n) inp).map fun r =>
          (.node n r.1, { w.observeNode cfg n r.1 with nodes := Function.update w.nodes n r.2 })
  | .cut c k l =>
      some (.broken c, { w with conns := w.conns.modify c fun x => x.cut k l })

/-- The router has started, no node is connected. -/
def Initial (w : World N T) : Prop :=
  Started w.router ∧ w.conns = [] ∧ (∀ n, (w.nodes n).place = .connect) ∧ w.initiated = 0

end World

variable [DecidableEq N] [DecidableEq T]

/-- All interleavings of the nodes and the router. -/
def network (T : Type) [DecidableEq T] (cfg : N → Node) : Lts (World N T) (WorldEvent N T) :=
  Lts.ofFn World.Initial (World.step cfg)

/-! ### The transitions -/

/-- A step of the router that neither takes bytes from a channel nor pushes a
task. -/
def Event.Quiet : Event T → Prop
  | .received _ _ (.bytes _) => False
  | .pushed .. => False
  | _ => True

/-- A step of a node that does nothing to its connection. -/
inductive Node.Slip : Node.Place → Node.Place → Prop where
  | refused : Slip .connect .connect
  | retry {p : Purpose} {k : ℕ} : Slip (.send p k) (.send p (k + 1))
  | failed {p : Purpose} {k : ℕ} : Slip (.send p k) (afterFailed p)
  | broken : Slip .receive .close
  | closed : Slip .close .connect

/-- Everything one step of the system can be. -/
inductive Move (cfg : N → Node) (w : World N T) : World N T → Prop where
  | quiet {i : T} {e : Event T} {pc' : Pc} {sh' : Shared T} :
      Step i w.router.shared (w.router.loc i) e pc' sh' → e.Quiet →
      Move cfg w { w with router := ⟨sh', Function.update w.router.loc i pc'⟩ }
  | recv {i : T} {s : ℤ} {a src : Addr} {want : Wanted} {got bs : List UInt8} {c k : ℕ}
      {x : Connection N} {pc' : Pc} : w.router.loc i = .recv s a src want got →
      w.behind s = some c → w.conns[c]? = some x →
      recvFrom (want.size - got.length) k x.toRouter = .bytes bs →
      afterRecv s a src want got (.bytes bs) = some pc' →
      Move cfg w { w with
        router := ⟨w.router.shared, Function.update w.router.loc i pc'⟩
        conns := w.conns.modify c fun x => { x with toRouter := dropBytes bs.length x.toRouter }
        inHand := Function.update w.inHand i (answeredAtHead x.toRouter) }
  | forward {i : T} {s : ℤ} {a src dst : Addr} {m : List UInt8} :
      w.router.loc i = .forward s a src dst m →
      Move cfg w { w with
        router := ⟨w.router.shared.push (w.router.shared.task dst m),
          Function.update w.router.loc i (.turn s a src)⟩
        queued := Function.update w.queued w.router.shared.pushes (w.inHand i) }
  | deliver {i : T} {t : Task} {a : Addr} {c : ℕ} : w.router.loc i = .send t a →
      w.behind t.socket = some c →
      Move cfg w { w with
        router := ⟨w.router.shared, Function.update w.router.loc i (.unlockDst t a)⟩
        conns := w.conns.modify c fun x => x.sendToNode (.data ⟨t.msg, w.queued t.seq⟩) }
  | accept {s : ℤ} {S : Sessions} {c : ℕ} {x : Connection N} : w.conns[c]? = some x →
      x.socket = none → s ∉ w.router.shared.opened →
      w.router.shared.sessions.acceptClient s = some S →
      Move cfg w { w with
        router := ⟨{ w.router.shared with sessions := S, opened := s :: w.router.shared.opened },
          w.router.loc⟩
        conns := w.conns.modify c fun x => { x with socket := some s } }
  | readable {s : ℤ} :
      Move cfg w { w with
        router := ⟨{ w.router.shared with
          readQueue := SignalingQueue.push w.router.shared.readQueue s true }, w.router.loc⟩ }
  | slip {n : N} {pl : Node.Place} : Node.Slip (w.nodes n).place pl →
      Move cfg w { w with nodes := Function.update w.nodes n { w.nodes n with place := pl } }
  | connect {n : N} : (w.nodes n).place = .connect →
      Move cfg w { w with
        conns := w.conns ++ [.new n]
        nodes := Function.update w.nodes n ⟨.send .subscribe 0, w.conns.length⟩ }
  | send {n : N} {p : Node.Purpose} {k : ℕ} : (w.nodes n).place = .send p k →
      (cfg n).message p ≠ [] →
      Move cfg w { w with
        conns := w.conns.modify (w.nodes n).socket fun x => x.sendToRouter (w.packet cfg n p)
        initiated := if p = .initiate then w.initiated + 1 else w.initiated
        nodes := Function.update w.nodes n { w.nodes n with place := (cfg n).afterSent p } }
  | answer {n : N} {x : Connection N} {k : ℕ} {bs : List UInt8} : (w.nodes n).place = .receive →
      w.conns[(w.nodes n).socket]? = some x → recvFrom Node.msgLen k x.toNode = .bytes bs →
      Move cfg w { w with
        conns := w.conns.modify (w.nodes n).socket fun x =>
          { x with toNode := dropBytes bs.length x.toNode }
        reply := Function.update w.reply n (answeredAtHead x.toNode + 1)
        nodes := Function.update w.nodes n
          { w.nodes n with place := (cfg n).afterReceived (.bytes bs) } }
  | cut {c k l : ℕ} :
      Move cfg w { w with conns := w.conns.modify c fun x => x.cut k l }

variable {cfg : N → Node} {w w' : World N T} {e : WorldEvent N T}

omit [DecidableEq T] in
/-- A thread that receives something stands at a `recv`, and this is its input. -/
lemma next_received {sh sh' : Shared T} {i j : T} {pc pc' : Pc} {inp : Input} {s : ℤ} {r : Recv}
    (h : next sh i pc inp = some (.received j s r, pc', sh')) :
    ∃ a src want got, pc = .recv s a src want got ∧ inp = .recv r ∧ j = i ∧ sh' = sh ∧
      afterRecv s a src want got r = some pc' := by
  obtain ⟨a, src, want, got, rfl⟩ := (step_of_next h).of_received
  cases inp with
  | recv r' =>
      simp only [next, Option.map_eq_some_iff, Prod.mk.injEq, Event.received.injEq] at h
      obtain ⟨pc, hpc, ⟨rfl, -, rfl⟩, rfl, rfl⟩ := h
      exact ⟨a, src, want, got, rfl, rfl, rfl, rfl, hpc⟩
  | go => cases h
  | sent ok => cases h

omit [DecidableEq N] [DecidableEq T] in
/-- The bytes that a thread receives come from the channel behind its socket. -/
lemma input_bytes {i : T} {o : Outcome} {s : ℤ} {a src : Addr} {want : Wanted}
    {got bs : List UInt8} (h : w.input i o = some (.recv (.bytes bs)))
    (hpc : w.router.loc i = .recv s a src want got) :
    ∃ c x k, w.behind s = some c ∧ w.conns[c]? = some x ∧
      recvFrom (want.size - got.length) k x.toRouter = .bytes bs := by
  cases o with
  | arrived k =>
      simp only [World.input, hpc, Option.map_eq_some_iff, Option.bind_eq_some_iff,
        Input.recv.injEq] at h
      obtain ⟨x, ⟨c, hc, hx⟩, hr⟩ := h
      exact ⟨c, x, k, hc, hx, hr⟩
  | _ => simp [World.input] at h

/-- A step of a thread is a quiet one, a `recv` of bytes, a push or a `send`. -/
lemma move_of_threadStep {i : T} {o : Outcome} (h : w.step cfg (.thread i o) = some (e, w')) :
    Move cfg w w' := by
  simp only [World.step, Program.step, Option.bind_eq_some_iff, Option.map_eq_some_iff,
    Prod.mk.injEq, Prod.exists] at h
  obtain ⟨inp, hin, _, _, ⟨e', pc', sh', hn, rfl, rfl⟩, -, rfl⟩ := h
  have hn' : next w.router.shared i (w.router.loc i) inp = some (e', pc', sh') := hn
  have hstep := step_of_next hn'
  cases e' with
  | received j s r =>
      obtain ⟨a, src, want, got, hpc, rfl, rfl, rfl, hafter⟩ := next_received hn'
      cases r with
      | bytes bs =>
          obtain ⟨c, x, k, hc, hx, hr⟩ := input_bytes hin hpc
          have hobs : w.observe (.received j s (.bytes bs)) = { w with
              conns := w.conns.modify c fun x =>
                { x with toRouter := dropBytes bs.length x.toRouter }
              inHand := Function.update w.inHand j (answeredAtHead x.toRouter) } := by
            simp [World.observe, hc, hx]
          rw [hobs]
          exact .recv hpc hc hx hr hafter
      | _ => exact .quiet hstep trivial
  | pushed j s t =>
      generalize hpc : w.router.loc i = pc at hstep
      cases hstep with
      | forward => exact .forward hpc
  | sent j k s m ok =>
      cases ok with
      | false => exact .quiet hstep trivial
      | true =>
          cases hb : w.behind s with
          | none =>
              have hobs : w.observe (.sent j k s m true) = w := by simp [World.observe, hb]
              rw [hobs]
              exact .quiet hstep trivial
          | some c =>
              have hobs : w.observe (.sent j k s m true) = { w with
                  conns := w.conns.modify c fun x => x.sendToNode (.data ⟨m, w.queued k⟩) } := by
                simp [World.observe, hb]
              rw [hobs]
              generalize hpc : w.router.loc i = pc at hstep
              cases hstep with
              | send => exact .deliver hpc hb
  | _ => exact .quiet hstep trivial

lemma slip_of_place {n : N} {pl : Node.Place} (h : Node.Slip (w.nodes n).place pl)
    {st : Node.State} (hst : st = { w.nodes n with place := pl }) :
    Move cfg w { w with nodes := Function.update w.nodes n st } := by
  subst hst
  exact .slip h

/-- A step of a node is a slip, a connection, a `send` or a `recv`. -/
lemma move_of_nodeStep {n : N} {o : NodeOutcome} (h : w.step cfg (.node n o) = some (e, w')) :
    Move cfg w w' := by
  simp only [World.step, Option.bind_eq_some_iff, Option.map_eq_some_iff, Prod.mk.injEq,
    Prod.exists] at h
  obtain ⟨inp, hin, e', st, hn, -, rfl⟩ := h
  cases o with
  | connected =>
      obtain rfl : Node.Input.connected w.conns.length = inp := by simpa [World.nodeInput] using hin
      obtain ⟨hpl, rfl, rfl⟩ := Node.next_connected.mp hn
      exact .connect hpl
  | refused =>
      obtain rfl : Node.Input.refused = inp := by simpa [World.nodeInput] using hin
      obtain ⟨hpl, rfl, rfl⟩ := Node.next_refused.mp hn
      exact slip_of_place (hpl ▸ .refused) rfl
  | sent ok =>
      cases hpl : (w.nodes n).place with
      | send p k =>
          obtain rfl : Node.Input.sent (if ok then ((cfg n).message p).length else -1) = inp := by
            simpa [World.nodeInput, hpl] using hin
          obtain ⟨_, _, hpl', rfl, rfl⟩ := Node.next_sent.mp hn
          obtain ⟨rfl, rfl⟩ := Node.Place.send.inj (hpl.symm.trans hpl')
          by_cases hpos : (0 : ℤ) < if ok then (((cfg n).message p).length : ℤ) else -1
          · have hne : (cfg n).message p ≠ [] := by
              rintro hnil
              cases ok <;> simp [hnil] at hpos
            simp only [World.observeNode, Node.afterSend, if_pos hpos]
            exact .send hpl hne
          · simp only [World.observeNode, Node.afterSend, if_neg hpos]
            split_ifs
            · exact slip_of_place (hpl ▸ .retry) rfl
            · exact slip_of_place (hpl ▸ .failed) rfl
      | _ => simp [World.nodeInput, hpl] at hin
  | arrived k =>
      cases hx : w.conns[(w.nodes n).socket]? with
      | none => simp [World.nodeInput, hx] at hin
      | some x =>
          cases hr : recvFrom Node.msgLen k x.toNode with
          | bytes bs =>
              obtain rfl : Node.Input.recv (.bytes bs) = inp := by
                simpa [World.nodeInput, hx, hr] using hin
              obtain ⟨hpl, rfl, rfl⟩ := Node.next_recv.mp hn
              have hobs : w.observeNode cfg n (.received (.bytes bs)) = { w with
                  conns := w.conns.modify (w.nodes n).socket fun x =>
                    { x with toNode := dropBytes bs.length x.toNode }
                  reply := Function.update w.reply n (answeredAtHead x.toNode + 1) } := by
                simp [World.observeNode, hx]
              rw [hobs]
              exact .answer hpl hx hr
          | _ => simp [World.nodeInput, hx, hr] at hin
  | failed =>
      obtain rfl : Node.Input.recv .error = inp := by simpa [World.nodeInput] using hin
      obtain ⟨hpl, rfl, rfl⟩ := Node.next_recv.mp hn
      exact slip_of_place (hpl ▸ .broken) rfl
  | go =>
      obtain rfl : Node.Input.go = inp := by simpa [World.nodeInput] using hin
      obtain ⟨hpl, rfl, rfl⟩ := Node.next_go.mp hn
      exact slip_of_place (hpl ▸ .closed) rfl

/-- Every step of the system is one of these. -/
lemma move_of_step (h : (network T cfg).step w e w') : Move cfg w w' := by
  obtain ⟨act, h⟩ := h
  cases act with
  | thread i o => exact move_of_threadStep h
  | accept s c =>
      simp only [World.step, Program.step, Option.ite_none_right_eq_some, Option.map_eq_some_iff,
        Prod.mk.injEq, Prod.exists] at h
      obtain ⟨hfree, _, _, ⟨e', sh', hn, rfl, rfl⟩, -, rfl⟩ := h
      obtain ⟨x, hx, hsock⟩ := (Option.any_eq_true _ _).mp hfree
      have hn' : loopStep w.router.shared (.accept s) = some (e', sh') := hn
      simp only [loopStep, Option.ite_none_left_eq_some, Option.map_eq_some_iff,
        Prod.mk.injEq] at hn'
      obtain ⟨hnew, S, hS, rfl, rfl⟩ := hn'
      exact .accept hx (Option.isNone_iff_eq_none.mp hsock) hnew hS
  | readable s =>
      simp only [World.step, Program.step, Option.map_eq_some_iff, Prod.mk.injEq, Prod.exists] at h
      obtain ⟨_, _, ⟨e', sh', hn, rfl, rfl⟩, -, rfl⟩ := h
      cases hn
      exact .readable
  | node n o => exact move_of_nodeStep h
  | cut c k l =>
      cases h
      exact .cut

omit [DecidableEq T] in
lemma observeNode_router (n : N) (e : Node.Event) :
    (w.observeNode cfg n e).router = w.router := by
  cases e with
  | sent p k =>
      by_cases hk : 0 < k
      · simp [World.observeNode, hk]
      · simp [World.observeNode, hk]
  | received r => cases r <;> rfl
  | _ => rfl

/-- **The router inside the system** makes a run of its own. -/
theorem router_reaches {tr : List (WorldEvent N T)} (h : (network T cfg).Reaches tr w) :
    (workers T).Reaches (tr.filterMap WorldEvent.ofRouter) w.router := by
  refine h.map World.router WorldEvent.ofRouter (fun w (hw : w.Initial) => hw.1) ?_
  rintro tr w e w' - ⟨act, hs⟩
  cases act with
  | thread i o =>
      simp only [World.step, Option.bind_eq_some_iff, Option.map_eq_some_iff, Prod.mk.injEq] at hs
      obtain ⟨inp, -, r, hr, rfl, rfl⟩ := hs
      exact .single ⟨_, hr⟩
  | accept s c =>
      simp only [World.step, Option.ite_none_right_eq_some, Option.map_eq_some_iff,
        Prod.mk.injEq] at hs
      obtain ⟨-, r, hr, rfl, rfl⟩ := hs
      exact .single ⟨_, hr⟩
  | readable s =>
      simp only [World.step, Option.map_eq_some_iff, Prod.mk.injEq] at hs
      obtain ⟨r, hr, rfl, rfl⟩ := hs
      exact .single ⟨_, hr⟩
  | node n o =>
      simp only [World.step, Option.bind_eq_some_iff, Option.map_eq_some_iff, Prod.mk.injEq] at hs
      obtain ⟨inp, -, r, -, rfl, rfl⟩ := hs
      show (workers T).Run w.router [] (w.observeNode cfg n r.1).router
      rw [observeNode_router]
      exact .nil
  | cut c k l =>
      cases hs
      exact .nil

end MessageRouting
