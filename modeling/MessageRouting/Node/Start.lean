import MessageRouting.Node.Message
import MessageRouting.Router.TcpServer

/-!
The loop of a node (`node/src/node.cpp`): it connects, announces its id, sends the
first message, and then answers what it receives. Whatever fails leads back to
the connection.

A step is one call of the operating system, whose outcome is an input. A failed
`connect`, a failed announcement or first message and a failed `recv` close the
socket; a reply that could not be sent leaves the receive loop without closing
it.

* `Node`: the parameters; `Place`: where the node stands in `Node::start`;
  `Node.next`: its next step.
* `next_connected`, `next_refused`, `next_sent`, `next_recv`, `next_go`: the step on
  each input.
-/

namespace MessageRouting

/-- The parameters of a node. -/
structure Node where
  id : ℤ
  dstId : ℤ
  initiateMessaging : Bool

namespace Node

/-- `MAX_RETRY`. -/
def maxRetry : ℕ := 3

/-- What `send_message` is called for. -/
inductive Purpose where
  | subscribe
  | initiate
  | reply (msg : List UInt8)
  deriving DecidableEq, Repr

/-- The message that is sent. -/
def message (node : Node) : Purpose → List UInt8
  | .subscribe => buildIdMessage node.id
  | .initiate => buildFirstMessage node.id node.dstId
  | .reply msg => msg

/-- Where the node stands in `Node::start`. In `send_message` it has tried `retry`
times. -/
inductive Place where
  | connect
  | send (p : Purpose) (retry : ℕ)
  | receive
  | close
  /-- an exception has left `Node::start` -/
  | stopped
  deriving DecidableEq, Repr

/-- A node at its place, with its socket. -/
structure State where
  place : Place
  socket : ℕ
  deriving DecidableEq, Repr

/-- The outcome of a call of the operating system: the new socket, what `send`
returns, what `recv` returns. -/
inductive Input where
  | connected (c : ℕ)
  | refused
  | sent (n : ℤ)
  | recv (r : Recv)
  | go

/-- The label of a step. -/
inductive Event where
  | connected (c : ℕ)
  | refused
  | sent (p : Purpose) (n : ℤ)
  | received (r : Recv)
  | closed
  deriving DecidableEq

/-- Where the node goes after a message was sent. -/
def afterSent (node : Node) : Purpose → Place
  | .subscribe => if node.initiateMessaging then .send .initiate 0 else .receive
  | .initiate => .receive
  | .reply _ => .receive

/-- Where the node goes when a message could not be sent. -/
def afterFailed : Purpose → Place
  | .subscribe => .close
  | .initiate => .close
  | .reply _ => .connect

/-- Where the node goes after a `send` in the loop of `send_message`: it tries again
as long as nothing was sent. -/
def afterSend (node : Node) (p : Purpose) (retry : ℕ) (n : ℤ) : Place :=
  if 0 < n then node.afterSent p
  else if retry + 1 < maxRetry then .send p (retry + 1)
  else afterFailed p

/-- Where the node goes after `recvMessage`: an error closes the socket, a message
of another length is only logged. -/
def afterReceived (node : Node) : Recv → Place
  | .bytes bs =>
      if bs.length = msgLen then
        match processMessage node.id bs bs.length with
        | .ok reply => .send (.reply reply) 0
        | .error _ => .stopped
      else .receive
  | _ => .close

/-- The next step of a node, `none` when the input does not fit. -/
def next (node : Node) (st : State) : Input → Option (Event × State)
  | .connected c =>
      if st.place = .connect then some (.connected c, ⟨.send .subscribe 0, c⟩) else none
  | .refused => if st.place = .connect then some (.refused, st) else none
  | .sent n =>
      match st.place with
      | .send p retry => some (.sent p n, { st with place := node.afterSend p retry n })
      | _ => none
  | .recv r =>
      if st.place = .receive then some (.received r, { st with place := node.afterReceived r })
      else none
  | .go => if st.place = .close then some (.closed, { st with place := .connect }) else none

/-! ### What each input does -/

variable {node : Node} {st st' : State} {e : Event}

lemma next_connected {c : ℕ} : node.next st (.connected c) = some (e, st') ↔
    st.place = .connect ∧ e = .connected c ∧ st' = ⟨.send .subscribe 0, c⟩ := by
  simp only [next, Option.ite_none_right_eq_some, Option.some.injEq, Prod.mk.injEq]
  exact and_congr_right fun _ => and_congr eq_comm eq_comm

lemma next_refused : node.next st .refused = some (e, st') ↔
    st.place = .connect ∧ e = .refused ∧ st' = st := by
  simp only [next, Option.ite_none_right_eq_some, Option.some.injEq, Prod.mk.injEq]
  exact and_congr_right fun _ => and_congr eq_comm eq_comm

lemma next_sent {n : ℤ} : node.next st (.sent n) = some (e, st') ↔
    ∃ p retry, st.place = .send p retry ∧ e = .sent p n ∧
      st' = { st with place := node.afterSend p retry n } := by
  cases hpl : st.place with
  | send p retry =>
      simp only [next, hpl, Option.some.injEq, Prod.mk.injEq, Place.send.injEq]
      constructor
      · rintro ⟨rfl, rfl⟩
        exact ⟨p, retry, ⟨rfl, rfl⟩, rfl, rfl⟩
      · rintro ⟨_, _, ⟨rfl, rfl⟩, rfl, rfl⟩
        exact ⟨rfl, rfl⟩
  | _ => simp [next, hpl]

lemma next_recv {r : Recv} : node.next st (.recv r) = some (e, st') ↔
    st.place = .receive ∧ e = .received r ∧ st' = { st with place := node.afterReceived r } := by
  simp only [next, Option.ite_none_right_eq_some, Option.some.injEq, Prod.mk.injEq]
  exact and_congr_right fun _ => and_congr eq_comm eq_comm

lemma next_go : node.next st .go = some (e, st') ↔
    st.place = .close ∧ e = .closed ∧ st' = { st with place := .connect } := by
  simp only [next, Option.ite_none_right_eq_some, Option.some.injEq, Prod.mk.injEq]
  exact and_congr_right fun _ => and_congr eq_comm eq_comm

end Node

end MessageRouting
