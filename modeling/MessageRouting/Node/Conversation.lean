import Mathlib.Tactic
import MessageRouting.Node.Receiving

/-!
What a node writes on one connection, over whole runs of `Node::start`
(`node/src/node.cpp`, `node/src/tcp_socket.cpp`).

A connection begins with the id message and, where the node initiates, the first
message; afterwards every result of 32 bytes is answered before the next `recv`.
`send_message` counts a message as sent as soon as `send` takes one byte of it.

* `opening`, `due`, `script`: what is to be written on a connection.
* `outstanding`: what of it is still to be written, by the place in `Node::start`;
  `Conversing`: what has been sent and what is outstanding make up the script.
* `conversing_of_reaches`: this holds from the last `connect` on, whatever the calls
  return.
* `written_eq_iff`: the bytes are those of the messages exactly when no `send` takes a
  part of one.
* `conversation_in_order`: the script is followed, message by message, and byte by byte
  as long as no message is cut.
-/

namespace MessageRouting

namespace Node

/-! ### The script of a connection -/

/-- The messages that a connection begins with. -/
def opening (node : Node) : List (List UInt8) :=
  buildIdMessage node.id ::
    if node.initiateMessaging then [buildFirstMessage node.id node.dstId] else []

/-- The reply that is due after a step. -/
def due (node : Node) : Event → Option (List UInt8)
  | .received (.bytes bs) =>
      if bs.length = msgLen then (processMessage node.id bs bs.length).toOption else none
  | _ => none

/-- What is to be written on a connection, by the steps since it was made. -/
def script (node : Node) (cur : List Event) : List (List UInt8) :=
  node.opening ++ cur.filterMap node.due

/-- What of it is still to be written. -/
def outstanding (node : Node) : Place → List (List UInt8)
  | .send .subscribe _ => node.opening
  | .send .initiate _ => [buildFirstMessage node.id node.dstId]
  | .send (.reply m) _ => [m]
  | _ => []

/-- The connection is given up: the node has closed it or is about to, or a reply was lost. -/
def GivenUp : Place → Prop
  | .connect | .close => True
  | _ => False

/-- What has been sent begins the script, and until the connection is given up the rest is
outstanding. -/
structure Conversing (node : Node) (cur : List Event) (place : Place) : Prop where
  begins : node.sentMessages cur <+: node.script cur
  rest : ¬ GivenUp place → node.sentMessages cur ++ node.outstanding place = node.script cur

variable {node : Node} {st st' : State} {e : Event} {tr cur : List Event}

lemma sentMessages_snoc (cur : List Event) (e : Event) :
    node.sentMessages (cur ++ [e]) = node.sentMessages cur ++ node.sentMessages [e] :=
  List.filterMap_append

lemma script_snoc (cur : List Event) (e : Event) :
    node.script (cur ++ [e]) = node.script cur ++ (node.due e).toList := by
  rw [script, script, List.filterMap_append, List.append_assoc]
  cases h : node.due e <;> simp [h]

/-- The first of the outstanding messages is the one that `send_message` is called with. -/
lemma outstanding_send (p : Purpose) (retry : ℕ) :
    node.outstanding (.send p retry) = node.message p :: node.outstanding (node.afterSent p) := by
  cases p with
  | subscribe =>
      simp only [outstanding, opening, message, afterSent]
      split_ifs <;> rfl
  | initiate => rfl
  | reply m => rfl

lemma givenUp_afterFailed (p : Purpose) : GivenUp (afterFailed p) := by
  cases p <;> trivial

/-- While the node waits for a message nothing is outstanding. -/
lemma Conversing.all_sent (h : node.Conversing cur .receive) :
    node.sentMessages cur = node.script cur := by
  have hrest := h.rest (by simp [GivenUp])
  rwa [show node.outstanding .receive = [] from rfl, List.append_nil] at hrest

/-- Where nothing is sent and nothing is due, the place alone has to be looked at. -/
lemma Conversing.quiet {place place' : Place} (h : node.Conversing cur place)
    (hsent : node.sentMessages [e] = []) (hdue : node.due e = none)
    (hplace : ¬ GivenUp place' → ¬ GivenUp place ∧
      node.outstanding place' = node.outstanding place) :
    node.Conversing (cur ++ [e]) place' := by
  have hs : node.sentMessages (cur ++ [e]) = node.sentMessages cur := by
    rw [sentMessages_snoc, hsent, List.append_nil]
  have hd : node.script (cur ++ [e]) = node.script cur := by
    rw [script_snoc, hdue]
    exact List.append_nil _
  refine ⟨by rw [hs, hd]; exact h.begins, fun hup => ?_⟩
  obtain ⟨hup', hout⟩ := hplace hup
  rw [hs, hd, hout, h.rest hup']

/-- A call of `send`: a message that is counted as sent is the next one of the script. -/
lemma Conversing.send {p : Purpose} {retry : ℕ} {n : ℤ}
    (h : node.Conversing cur (.send p retry)) :
    node.Conversing (cur ++ [.sent p n]) (node.afterSend p retry n) := by
  rw [afterSend]
  split_ifs with hn hretry
  · have hs : node.sentMessages (cur ++ [.sent p n]) =
        node.sentMessages cur ++ [node.message p] := by
      rw [sentMessages_snoc]
      simp [sentMessages, hn]
    have hd : node.script (cur ++ [.sent p n]) = node.script cur := by
      rw [script_snoc]
      exact List.append_nil _
    have hrest : node.sentMessages (cur ++ [.sent p n]) ++ node.outstanding (node.afterSent p) =
        node.script (cur ++ [.sent p n]) := by
      calc node.sentMessages (cur ++ [.sent p n]) ++ node.outstanding (node.afterSent p)
          = node.sentMessages cur ++ node.outstanding (.send p retry) := by
            rw [hs, outstanding_send, List.append_assoc, List.singleton_append]
        _ = node.script (cur ++ [.sent p n]) := by rw [h.rest (by simp [GivenUp]), hd]
    exact ⟨⟨_, hrest⟩, fun _ => hrest⟩
  · -- another attempt
    refine h.quiet (by simp [sentMessages, hn]) rfl fun _ => ⟨by simp [GivenUp], ?_⟩
    rw [outstanding_send, outstanding_send]
  · exact h.quiet (by simp [sentMessages, hn]) rfl fun hup => absurd (givenUp_afterFailed p) hup

/-- A result of `recv`: a whole message makes its reply due, which is then outstanding. -/
lemma Conversing.recv {r : Recv} (h : node.Conversing cur .receive) :
    node.Conversing (cur ++ [.received r]) (node.afterReceived r) := by
  have hs : node.sentMessages [.received r] = [] := rfl
  cases r with
  | bytes bs =>
      rw [afterReceived]
      split_ifs with hlen
      · cases hm : processMessage node.id bs bs.length with
        | error err =>
            refine h.quiet hs ?_ fun _ => ⟨by simp [GivenUp], rfl⟩
            rw [due, if_pos hlen, hm]
            rfl
        | ok m =>
            have hdue : node.due (.received (.bytes bs)) = some m := by
              rw [due, if_pos hlen, hm]
              rfl
            have hrest : node.sentMessages (cur ++ [.received (.bytes bs)]) ++ [m] =
                node.script (cur ++ [.received (.bytes bs)]) := by
              rw [sentMessages_snoc, hs, List.append_nil, script_snoc, hdue, h.all_sent]
              rfl
            exact ⟨⟨_, hrest⟩, fun _ => hrest⟩
      · exact h.quiet hs (by rw [due, if_neg hlen]) fun _ => ⟨by simp [GivenUp], rfl⟩
  | _ => exact h.quiet hs rfl fun hup => absurd trivial hup

/-- **One step** on a connection follows its script. -/
lemma Conversing.step (h : node.Conversing cur st.place) (hs : node.system.step st e st')
    (he : ∀ c, e ≠ .connected c) : node.Conversing (cur ++ [e]) st'.place := by
  obtain ⟨input, hs⟩ := hs
  cases input with
  | connected c => exact absurd (next_connected.mp hs).2.1 (he c)
  | refused =>
      obtain ⟨hplace, rfl, rfl⟩ := next_refused.mp hs
      exact h.quiet rfl rfl fun hup => ⟨hup, rfl⟩
  | sent n =>
      obtain ⟨p, retry, hplace, rfl, rfl⟩ := next_sent.mp hs
      rw [hplace] at h
      exact h.send
  | recv r =>
      obtain ⟨hplace, rfl, rfl⟩ := next_recv.mp hs
      rw [hplace] at h
      exact h.recv
  | go =>
      obtain ⟨hplace, rfl, rfl⟩ := next_go.mp hs
      exact h.quiet rfl rfl fun hup => absurd trivial hup

/-- From a connection on, as long as there is no other one. -/
lemma conversing_of_run {c : ℕ} (h : node.system.Run ⟨.send .subscribe 0, c⟩ cur st)
    (hcur : ∀ c', .connected c' ∉ cur) : node.Conversing cur st.place := by
  refine h.induct (fun cur st => (∀ c', .connected c' ∉ cur) → node.Conversing cur st.place)
    (fun _ => ?_) ?_ hcur
  · have hrest : node.sentMessages [] ++ node.outstanding (.send .subscribe 0) =
        node.script [] := by
      simp [sentMessages, script, outstanding]
    exact ⟨⟨_, hrest⟩, fun _ => hrest⟩
  · intro cur t e u ih hs hcur
    refine (ih fun c' hc => hcur c' (List.mem_append_left [e] hc)).step hs ?_
    rintro c' rfl
    exact hcur c' (by simp)

/-- **The script is followed**, in every run from the last `connect` on. -/
lemma conversing_of_reaches {c : ℕ} (h : node.system.Reaches (tr ++ .connected c :: cur) st)
    (hcur : ∀ c', .connected c' ∉ cur) : node.Conversing cur st.place := by
  obtain ⟨t, t', -, ⟨input, hs⟩, -, hrun⟩ := h.at_label
  have ht' : t' = ⟨.send .subscribe 0, c⟩ := by
    cases input with
    | connected c' =>
        obtain ⟨-, he, ht'⟩ := next_connected.mp hs
        cases he
        exact ht'
    | refused => exact absurd (next_refused.mp hs).2.1 (by simp)
    | sent n =>
        obtain ⟨p, retry, -, he, -⟩ := next_sent.mp hs
        exact absurd he (by simp)
    | recv r => exact absurd (next_recv.mp hs).2.1 (by simp)
    | go => exact absurd (next_go.mp hs).2.1 (by simp)
  subst ht'
  exact conversing_of_run hrun hcur

/-! ### The bytes of the messages -/

/-- The bytes that the calls of `send` have taken. -/
def written (node : Node) (cur : List Event) : List UInt8 :=
  cur.flatMap fun e =>
    match e with
    | .sent p n => (node.message p).take n.toNat
    | _ => []

/-- No `send` takes only a part of a message. -/
def Uncut (node : Node) (cur : List Event) : Prop :=
  ∀ p (n : ℤ), .sent p n ∈ cur → 0 < n → (node.message p).length ≤ n

lemma sentMessages_cons (e : Event) (cur : List Event) :
    node.sentMessages (e :: cur) = node.sentMessages [e] ++ node.sentMessages cur := by
  rw [← List.singleton_append]
  exact List.filterMap_append

lemma written_cons (e : Event) (cur : List Event) :
    node.written (e :: cur) = node.written [e] ++ node.written cur := by
  simp [written]

lemma uncut_cons : node.Uncut (e :: cur) ↔ node.Uncut [e] ∧ node.Uncut cur := by
  simp only [Uncut, List.mem_cons, List.not_mem_nil, or_false]
  constructor
  · intro h
    exact ⟨fun p n he => h p n (.inl he), fun p n he => h p n (.inr he)⟩
  · rintro ⟨he, hcur⟩ p n (h | h)
    · exact he p n h
    · exact hcur p n h

/-- One call of `send` takes the beginning of its message, and all of it when it is not cut. -/
lemma written_single (e : Event) :
    (node.written [e]).length ≤ (node.sentMessages [e]).flatten.length ∧
      (node.written [e] = (node.sentMessages [e]).flatten ↔ node.Uncut [e]) := by
  cases e with
  | sent p n =>
      by_cases hn : 0 < n
      · have huncut : node.Uncut [.sent p n] ↔ (node.message p).length ≤ n := by
          simp only [Uncut, List.mem_singleton, Event.sent.injEq]
          exact ⟨fun h => h p n ⟨rfl, rfl⟩ hn, fun h _ _ ⟨hp, hn'⟩ _ => by rw [hp, hn']; exact h⟩
        rw [huncut]
        simp only [written, sentMessages, List.flatMap_cons, List.flatMap_nil, List.append_nil,
          List.filterMap_cons, List.filterMap_nil, if_pos hn, List.flatten_cons, List.flatten_nil,
          List.length_take, List.take_eq_self_iff]
        omega
      · have huncut : node.Uncut [.sent p n] := by
          intro p' n' he hn'
          cases List.mem_singleton.mp he
          exact absurd hn' hn
        have hzero : n.toNat = 0 := by omega
        simp [written, sentMessages, hn, hzero, huncut]
  | _ => simp [written, sentMessages, Uncut]

lemma length_written_le (cur : List Event) :
    (node.written cur).length ≤ (node.sentMessages cur).flatten.length := by
  induction cur with
  | nil => simp [written]
  | cons e cur ih =>
      rw [written_cons, sentMessages_cons, List.flatten_append, List.length_append,
        List.length_append]
      exact Nat.add_le_add (written_single e).1 ih

/-- The bytes are those of the messages that were counted as sent exactly when none is cut. -/
lemma written_eq_iff (cur : List Event) :
    node.written cur = (node.sentMessages cur).flatten ↔ node.Uncut cur := by
  induction cur with
  | nil => simp [written, sentMessages, Uncut]
  | cons e cur ih =>
      rw [uncut_cons, ← ih, ← (written_single e).2, written_cons, sentMessages_cons,
        List.flatten_append]
      constructor
      · intro h
        -- neither part is longer than it should be
        have hlen := congrArg List.length h
        rw [List.length_append, List.length_append] at hlen
        have he := (@written_single node e).1
        have hcur := @length_written_le node cur
        exact List.append_inj h (by omega)
      · rintro ⟨he, hcur⟩
        rw [he, hcur]

/-! ### The script in frames -/

/-- A reply that is due is empty or has 32 bytes. -/
lemma length_of_due {m : List UInt8} (h : node.due e = some m) : m = [] ∨ m.length = msgLen := by
  cases e with
  | received r =>
      cases r with
      | bytes bs =>
          rw [due] at h
          split_ifs at h with hlen
          cases hm : processMessage node.id bs bs.length with
          | error err => simp [hm, Except.toOption] at h
          | ok m' =>
              obtain rfl : m' = m := by simpa [hm, Except.toOption] using h
              by_cases hnil : m' = []
              · exact .inl hnil
              · exact .inr (processMessage_reply hlen hm hnil).1
      | _ => simp [due] at h
  | _ => simp [due] at h

/-- For ids of three digits the bytes of the script are an id message and whole frames, as the
router reads them. -/
lemma script_framed {id dstId : ℕ} (hid : id < 1000) (hdst : dstId < 1000) {start : Bool} :
    ∃ fs : List (List UInt8), (∀ f ∈ fs, f.length = dataMessageSize) ∧
      ((⟨id, dstId, start⟩ : Node).script cur).flatten = buildIdMessage id ++ fs.flatten := by
  let node : Node := ⟨id, dstId, start⟩
  let first := if start then [buildFirstMessage (id : ℤ) dstId] else []
  let replies := (cur.filterMap node.due).filter (· ≠ [])
  have hfirst : ∀ f ∈ first, f.length = dataMessageSize := by
    intro f hf
    simp only [first] at hf
    split_ifs at hf
    · rw [List.mem_singleton.mp hf, buildFirstMessage_eq hid hdst]
      exact length_frame rfl rfl
    · cases hf
  have hreplies : ∀ f ∈ replies, f.length = dataMessageSize := by
    intro f hf
    obtain ⟨hmem, hne⟩ := List.mem_filter.mp hf
    obtain ⟨e, -, hdue⟩ := List.mem_filterMap.mp hmem
    exact (length_of_due hdue).resolve_left (of_decide_eq_true hne)
  refine ⟨first ++ replies, fun f hf => ?_, ?_⟩
  · rcases List.mem_append.mp hf with hf | hf
    · exact hfirst f hf
    · exact hreplies f hf
  · rw [script, opening, List.cons_append, List.flatten_cons, List.flatten_append,
      List.flatten_append, List.flatten_filter_ne_nil]

/-- **A connection, message by message.** In every run of a node, whatever the calls of the
operating system return, what it has sent since the last `connect` begins the script of this
connection: its id message, its first message where it initiates, and the replies to the
messages of 32 bytes that it received, in their order and each once. When it waits in `recv`
it has sent all of the script; the bytes that were taken are then those of the script exactly
when no `send` took a part of a message. For ids of three digits these bytes are an id message
and whole frames. -/
theorem conversation_in_order {c : ℕ} (h : node.system.Reaches (tr ++ .connected c :: cur) st)
    (hcur : ∀ c', .connected c' ∉ cur) :
    node.sentMessages cur <+: node.script cur ∧
    (st.place = .receive →
      node.sentMessages cur = node.script cur ∧
      (node.written cur = (node.script cur).flatten ↔ node.Uncut cur)) ∧
    ∀ id dstId : ℕ, id < 1000 → dstId < 1000 → node.id = id → node.dstId = dstId →
      (buildIdMessage node.id).length = idMessageSize ∧
      ∃ fs : List (List UInt8), (∀ f ∈ fs, f.length = dataMessageSize) ∧
        (node.script cur).flatten = buildIdMessage node.id ++ fs.flatten := by
  have hconv := conversing_of_reaches h hcur
  refine ⟨hconv.begins, fun hplace => ?_, ?_⟩
  · rw [hplace] at hconv
    refine ⟨hconv.all_sent, ?_⟩
    rw [← hconv.all_sent]
    exact written_eq_iff cur
  · obtain ⟨nid, ndst, start⟩ := node
    rintro id dstId hid hdst rfl rfl
    exact ⟨length_buildIdMessage hid, script_framed hid hdst⟩

/-- The node 3 has lost one connection; on the next one it announces itself at the second
attempt and answers a frame. -/
theorem conversation_in_order_again :
    ∃ cur st, (⟨3, 5, true⟩ : Node).system.Reaches
        ([.connected 4, .sent .subscribe 3, .sent .initiate 32, .received .closed, .closed] ++
          .connected 6 :: cur) st ∧
      (⟨3, 5, true⟩ : Node).sentMessages cur =
        [buildIdMessage 3, buildFirstMessage 3 5, frame 3 2220 firstTrace firstPan 5] := by
  have hexec : Lts.execute (next ⟨3, 5, true⟩) ⟨.connect, 0⟩ [.connected 4, .sent 3, .sent 32,
      .recv .closed, .go, .connected 6, .sent (-1), .sent 3, .sent 32,
      .recv (.bytes (frame 5 2210 firstTrace firstPan 3)), .sent 32] =
      some ([.connected 4, .sent .subscribe 3, .sent .initiate 32, .received .closed, .closed] ++
        .connected 6 :: [.sent .subscribe (-1), .sent .subscribe 3, .sent .initiate 32,
          .received (.bytes (frame 5 2210 firstTrace firstPan 3)),
          .sent (.reply (frame 3 2220 firstTrace firstPan 5)) 32], ⟨.receive, 6⟩) := by
    decide
  have hreach : (⟨3, 5, true⟩ : Node).system.Reaches _ _ :=
    ⟨⟨.connect, 0⟩, rfl, Lts.execute_run hexec⟩
  refine ⟨_, _, hreach, ?_⟩
  rw [((conversation_in_order hreach (by simp)).2.1 rfl).1]
  decide

end Node

end MessageRouting
