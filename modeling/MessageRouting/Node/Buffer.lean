import MessageRouting.Node.Receiving
import MessageRouting.Router.ReadAsync

/-!
The receive buffer of a node (`TCPSocket` in `node/src/tcp_socket.cpp`).

`recvMessage` lets `recv` store into `_buffer`, sets a terminator behind what came and
logs the C string that stands there. The buffer is allocated once, without a value, and
is never cleared: behind the terminator it holds what earlier messages left.
`processMessage` then reads its fields out of the buffer.

* `Buffer`: the 3200 bytes; `Buffer.store`: what `recv` and the terminator do to them,
  possible only where the terminator falls into the buffer.
* `recvMessage`: the call, for any length that is asked for; `Buffered`: a node with its
  buffer and what it has logged.
* `buffered_next_iff`: a step of it is a step of `Node.next` on the bytes that came.
* `buffer_refines`: the runs of a node with its buffer, whatever it holds at first, are
  those of the node without one, and each text it logs is a message it received.
-/

namespace MessageRouting

namespace Node

/-! ### The buffer -/

/-- `BUFFER_SIZE`. -/
def bufferSize : ℕ := 32 * 100

/-- `_buffer`. -/
structure Buffer where
  bytes : List UInt8
  length_eq : bytes.length = bufferSize

lemma length_terminated (buf : Buffer) {bs : List UInt8} (h : bs.length < bufferSize) :
    ((writeAt buf.bytes 0 bs).set bs.length 0).length = bufferSize := by
  have hlen := buf.length_eq
  simp only [writeAt, List.length_set, List.take_zero, List.nil_append, List.length_append,
    List.length_drop, Nat.zero_add, hlen]
  omega

/-- Bytes at the beginning of the buffer, with a terminator behind them. -/
def Buffer.store (buf : Buffer) (bs : List UInt8) (h : bs.length < bufferSize) : Buffer :=
  ⟨(writeAt buf.bytes 0 bs).set bs.length 0, length_terminated buf h⟩

/-- Behind the terminator the old bytes stand. -/
lemma Buffer.store_bytes (buf : Buffer) {bs : List UInt8} (h : bs.length < bufferSize) :
    (buf.store bs h).bytes = bs ++ 0 :: buf.bytes.drop (bs.length + 1) := by
  have hdrop : buf.bytes.drop bs.length ≠ [] := by
    rw [Ne, List.drop_eq_nil_iff, buf.length_eq]
    omega
  obtain ⟨b, rest, hcons⟩ := List.exists_cons_of_ne_nil hdrop
  have hrest : buf.bytes.drop (bs.length + 1) = rest := by
    rw [← List.drop_drop, hcons, List.drop_one, List.tail_cons]
  simp [store, writeAt, hcons, hrest]

/-- The C string in the buffer ends where the message does. -/
lemma cString_store (buf : Buffer) {bs : List UInt8} (h : bs.length < bufferSize) :
    cString (buf.store bs h).bytes = cString bs := by
  rw [buf.store_bytes h, cString_window]

/-! ### `recvMessage` -/

/-- The length that is handed to `recv`: the terminator has to have its place. -/
def neededBytes (needed : ℕ) : ℕ := if bufferSize - 1 ≤ needed then bufferSize - 1 else needed

lemma neededBytes_lt (needed : ℕ) : neededBytes needed < bufferSize := by
  rw [neededBytes]
  split_ifs with h
  · decide
  · omega

/-- `TCPSocket::recvMessage`: what it returns, the count and the buffer it leaves, and the
text it logs. `none` when more has come than was asked for, or a message of no bytes. -/
def recvMessage (buf : Buffer) (needed : ℕ) :
    Recv → Option (ℤ × ℤ × Buffer × Option (List UInt8))
  | .bytes bs =>
      if h : 1 ≤ bs.length ∧ bs.length ≤ neededBytes needed then
        let buf := buf.store bs (h.2.trans_lt (neededBytes_lt needed))
        some (0, bs.length, buf, some (cString buf.bytes))
      else none
  | r => some (1, r.bytesRead, buf, none)

/-! ### A node with its buffer -/

/-- A node, its buffer and the messages it has logged. -/
structure Buffered where
  state : State
  buffer : Buffer
  log : List (List UInt8)

/-- Where the node goes after `recvMessage`, which has left a message in the buffer. -/
def afterRecvMessage (node : Node) (err recvBytes : ℤ) (recvBuffer : Buffer) : Place :=
  if err ≠ 0 then .close
  else if recvBytes = msgLen then
    match processMessage node.id recvBuffer.bytes recvBytes.toNat with
    | .ok reply => .send (.reply reply) 0
    | .error _ => .stopped
  else .receive

/-- The next step of a node with its buffer. -/
def Buffered.next (node : Node) (b : Buffered) : Input → Option (Event × Buffered)
  | .recv r =>
      if b.state.place = .receive then
        (recvMessage b.buffer msgLen r).map fun (err, recvBytes, buffer, text) =>
          (.received r, ⟨{ b.state with place := node.afterRecvMessage err recvBytes buffer },
            buffer, b.log ++ text.toList⟩)
      else none
  | input => (node.next b.state input).map fun (e, st) => (e, { b with state := st })

/-- All runs from the call of `Node::start` on, with what the buffer holds then. -/
def buffered (node : Node) (buf : Buffer) : Lts Buffered Event :=
  Lts.ofFn (fun b => b.state.place = .connect ∧ b.buffer = buf ∧ b.log = []) (Buffered.next node)

/-- What comes is at most what was asked for. -/
def Answers : Event → Prop
  | .received (.bytes bs) => 1 ≤ bs.length ∧ bs.length ≤ msgLen
  | _ => True

/-- The message that is logged in a step. -/
def logged : Event → Option (List UInt8)
  | .received (.bytes bs) => some (cString bs)
  | _ => none

variable {node : Node} {b b' : Buffered} {e : Event} {tr : List Event} {buf : Buffer}

/-- The fields of a message are read in front of the terminator. -/
lemma processMessage_append {bs : List UInt8} (h : bs.length = msgLen) (id : ℤ)
    (rest : List UInt8) : processMessage id (bs ++ rest) msgLen = processMessage id bs msgLen := by
  have hfield : ∀ m n, m + n ≤ 32 → ((bs ++ rest).drop m).take n = (bs.drop m).take n := by
    intro m n hmn
    have hm : m ≤ bs.length := by rw [h, msgLen]; omega
    rw [List.drop_append_of_le_length hm, List.take_append_of_le_length]
    rw [List.length_drop, h, msgLen]
    omega
  have hsrc : (bs ++ rest).take 3 = bs.take 3 := hfield 0 3 (by omega)
  simp only [processMessage, hsrc, hfield 3 4 (by omega), hfield 7 6 (by omega),
    hfield 13 16 (by omega), hfield 29 3 (by omega)]

/-- What comes of a message in the buffer is what comes of the message. -/
lemma afterRecvMessage_store {bs : List UInt8} (h : bs.length < bufferSize) :
    node.afterRecvMessage 0 bs.length (buf.store bs h) = node.afterReceived (.bytes bs) := by
  rw [afterRecvMessage, afterReceived, if_neg (by simp)]
  by_cases hlen : bs.length = msgLen
  · have hproc : processMessage node.id (buf.store bs h).bytes msgLen =
        processMessage node.id bs msgLen := by
      rw [buf.store_bytes h, processMessage_append hlen]
    rw [if_pos (by exact_mod_cast hlen), if_pos hlen, Int.toNat_natCast, hlen]
    cases hmsg : processMessage node.id bs msgLen <;> simp only [hproc, hmsg]
  · rw [if_neg (by exact_mod_cast hlen), if_neg hlen]

/-! ### The node without a buffer -/

/-- In the receive loop: a message that fits. -/
lemma buffered_next_bytes {bs : List UInt8} (hplace : b.state.place = .receive)
    (h : 1 ≤ bs.length ∧ bs.length ≤ msgLen) (hlt : bs.length < bufferSize) :
    Buffered.next node b (.recv (.bytes bs)) =
      some (.received (.bytes bs), ⟨{ b.state with place := node.afterReceived (.bytes bs) },
        b.buffer.store bs hlt, b.log ++ [cString bs]⟩) := by
  have hneeded : 1 ≤ bs.length ∧ bs.length ≤ neededBytes msgLen := h
  simp only [Buffered.next, if_pos hplace, recvMessage, dif_pos hneeded, Option.map_some,
    cString_store, Option.toList_some]
  rw [← afterRecvMessage_store hlt]

/-- A message that does not answer the request. -/
lemma buffered_next_unfit {bs : List UInt8} (h : ¬ (1 ≤ bs.length ∧ bs.length ≤ msgLen)) :
    Buffered.next node b (.recv (.bytes bs)) = none := by
  have hneeded : ¬ (1 ≤ bs.length ∧ bs.length ≤ neededBytes msgLen) := h
  simp [Buffered.next, recvMessage, hneeded]

/-- No message. -/
lemma buffered_next_failed {r : Recv} (hplace : b.state.place = .receive)
    (h : ∀ bs, r ≠ .bytes bs) :
    Buffered.next node b (.recv r) =
      some (.received r, ⟨{ b.state with place := node.afterReceived r }, b.buffer, b.log⟩) := by
  cases r with
  | bytes bs => exact absurd rfl (h bs)
  | _ => simp [Buffered.next, hplace, recvMessage, afterRecvMessage, afterReceived]

/-- A call of `recvMessage` in the receive loop. -/
lemma buffered_next_recv {r : Recv} {st : State} {log : List (List UInt8)} :
    (∃ buffer, Buffered.next node b (.recv r) = some (e, ⟨st, buffer, log⟩)) ↔
      node.next b.state (.recv r) = some (e, st) ∧ Answers e ∧
        log = b.log ++ (logged e).toList := by
  rw [next_recv]
  by_cases hplace : b.state.place = .receive
  · by_cases hbytes : ∃ bs, r = .bytes bs
    · obtain ⟨bs, rfl⟩ := hbytes
      by_cases hbs : 1 ≤ bs.length ∧ bs.length ≤ msgLen
      · rw [buffered_next_bytes hplace hbs (hbs.2.trans_lt (by decide))]
        constructor
        · rintro ⟨_, hnext⟩
          cases hnext
          exact ⟨⟨hplace, rfl, rfl⟩, hbs, rfl⟩
        · rintro ⟨⟨-, rfl, rfl⟩, -, rfl⟩
          exact ⟨_, rfl⟩
      · rw [buffered_next_unfit hbs]
        constructor
        · rintro ⟨_, hnext⟩
          cases hnext
        · rintro ⟨⟨-, rfl, -⟩, hans, -⟩
          exact absurd hans hbs
    · have hne : ∀ bs, r ≠ .bytes bs := fun bs h => hbytes ⟨bs, h⟩
      have hquiet : Answers (.received r) ∧ logged (.received r) = none := by
        cases r with
        | bytes bs => exact absurd rfl (hne bs)
        | _ => exact ⟨trivial, rfl⟩
      rw [buffered_next_failed hplace hne]
      constructor
      · rintro ⟨_, hnext⟩
        cases hnext
        exact ⟨⟨hplace, rfl, rfl⟩, hquiet.1, by simp [hquiet.2]⟩
      · rintro ⟨⟨-, rfl, rfl⟩, -, hlog⟩
        refine ⟨b.buffer, ?_⟩
        rw [hlog, hquiet.2, Option.toList_none, List.append_nil]
  · simp [Buffered.next, hplace]

/-- **One step** of a node with its buffer is a step of the node, on a result of `recv` that
answers the request; the message that came is logged. -/
lemma buffered_next_iff {input : Input} {st : State} {log : List (List UInt8)} :
    (∃ buffer, Buffered.next node b input = some (e, ⟨st, buffer, log⟩)) ↔
      node.next b.state input = some (e, st) ∧ Answers e ∧
        log = b.log ++ (logged e).toList := by
  by_cases hinput : ∃ r, input = .recv r
  · obtain ⟨r, rfl⟩ := hinput
    exact buffered_next_recv
  · have hnext : Buffered.next node b input =
        (node.next b.state input).map fun (e, st) => (e, { b with state := st }) := by
      cases input with
      | recv r => exact absurd ⟨r, rfl⟩ hinput
      | _ => rfl
    -- nothing is received, so nothing is asked of the result and nothing is logged
    have hquiet : ∀ e st, node.next b.state input = some (e, st) → Answers e ∧ logged e = none := by
      intro e st h
      cases input with
      | connected c => exact (next_connected.mp h).2.1 ▸ ⟨trivial, rfl⟩
      | refused => exact (next_refused.mp h).2.1 ▸ ⟨trivial, rfl⟩
      | sent n =>
          obtain ⟨p, retry, -, rfl, -⟩ := next_sent.mp h
          exact ⟨trivial, rfl⟩
      | recv r => exact absurd ⟨r, rfl⟩ hinput
      | go => exact (next_go.mp h).2.1 ▸ ⟨trivial, rfl⟩
    simp only [hnext, Option.map_eq_some_iff, Prod.mk.injEq, Prod.exists]
    constructor
    · rintro ⟨_, e', st', h, rfl, heq⟩
      cases heq
      obtain ⟨hans, hlog⟩ := hquiet e' st h
      exact ⟨h, hans, by simp [hlog]⟩
    · rintro ⟨h, -, hlog⟩
      refine ⟨b.buffer, e, st, h, rfl, ?_⟩
      rw [hlog, (hquiet e st h).2, Option.toList_none, List.append_nil]

/-- Every result of a run answers its request. -/
def AllAnswer (tr : List Event) : Prop := ∀ e ∈ tr, Answers e

/-- **The buffer does not matter.** Whatever the receive buffer holds at the beginning, a node
with its buffer makes the same runs as the node that sees only the bytes that came, as far as
`recv` never gives more than it is asked for. In each of them it has logged exactly the
messages it received, in their order, each up to its first NUL, and nothing of older ones. -/
theorem buffer_refines (node : Node) (buf : Buffer) (tr : List Event) (st : State)
    (log : List (List UInt8)) :
    (∃ buffer, (node.buffered buf).Reaches tr ⟨st, buffer, log⟩) ↔
      node.system.Reaches tr st ∧ AllAnswer tr ∧ log = tr.filterMap logged := by
  have hsnoc : ∀ (tr : List Event) (e : Event),
      (tr ++ [e]).filterMap logged = tr.filterMap logged ++ (logged e).toList := by
    intro tr e
    rw [List.filterMap_append]
    cases h : logged e <;> simp [h]
  constructor
  · rintro ⟨buffer, hreach⟩
    refine hreach.induct (fun tr b => node.system.Reaches tr b.state ∧ AllAnswer tr ∧
      b.log = tr.filterMap logged) ?_ ?_
    · rintro b ⟨hplace, -, hlog⟩
      exact ⟨⟨b.state, hplace, .nil⟩, by simp [AllAnswer], hlog⟩
    · rintro tr b e b' ⟨hr, hall, hlog⟩ ⟨input, hs⟩
      obtain ⟨hstep, hans, hlog'⟩ := buffered_next_iff.mp ⟨b'.buffer, hs⟩
      refine ⟨hr.append (.single ⟨input, hstep⟩), ?_, ?_⟩
      · intro e' he'
        rcases List.mem_append.mp he' with he' | he'
        · exact hall e' he'
        · rw [List.mem_singleton.mp he']
          exact hans
      · rw [hlog', hlog, hsnoc]
  · rintro ⟨hreach, hall, rfl⟩
    refine hreach.induct (fun tr st => AllAnswer tr →
      ∃ buffer, (node.buffered buf).Reaches tr ⟨st, buffer, tr.filterMap logged⟩) ?_ ?_ hall
    · intro st hplace _
      exact ⟨buf, ⟨st, buf, []⟩, ⟨hplace, rfl, rfl⟩, .nil⟩
    · rintro tr st e st' ih ⟨input, hs⟩ hall
      obtain ⟨buffer, hr⟩ := ih fun e' he' => hall e' (List.mem_append_left [e] he')
      have hlast : Answers e := hall e (List.mem_append_right tr (List.mem_singleton_self e))
      obtain ⟨buffer', hstep⟩ := (buffered_next_iff (b := ⟨st, buffer, tr.filterMap logged⟩)).mpr
        ⟨hs, hlast, hsnoc tr e⟩
      exact ⟨buffer', hr.append (.single ⟨input, hstep⟩)⟩

end Node

end MessageRouting
