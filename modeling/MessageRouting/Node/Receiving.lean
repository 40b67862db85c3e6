import MessageRouting.Lib.Lts
import MessageRouting.Node.Reply
import MessageRouting.Node.Start

/-!
The receive loop of a node (the inner loop of `Node::start` in `node/src/node.cpp`),
on a sequence of `recv` results.

`recvMessage` asks for 32 bytes afresh each time; what it got of another length is
logged and dropped, and what `processMessage` answers, the empty string too, is
handed to `send_message`.

* `sendLoop`, `receiveLoop`: the steps `Node.next` of one `send_message` and of the
  loop, as long as it is not left; `receiveLoop_run`: they are a run of the node.
* `receiveLoop_bytes_short`, `receiveLoop_bytes_reply`, `receiveLoop_bytes_empty`,
  `receiveLoop_bytes_threw`: what the loop does with one result.
* `chunking_independent_iff`: frames that arrive in pieces are answered as whole ones
  exactly when no piece is cut.
* `misaddressed_not_ignored`: a frame that is not for the node makes it leave the loop.
-/

namespace MessageRouting

namespace Node

/-! ### The loop on a sequence of results -/

/-- The calls of `send` in one `send_message`: the messages that were sent, and where
the node goes. What `send` returns depends on the message. -/
def sendLoop (node : Node) (send : List UInt8 → ℤ) : ℕ → State → List (List UInt8) × State
  | 0, st => ([], st)
  | calls + 1, st =>
      match st.place with
      | .send p _ =>
          match node.next st (.sent (send (node.message p))) with
          | some (_, st') =>
              let r := node.sendLoop send calls st'
              (if 0 < send (node.message p) then node.message p :: r.1 else r.1, r.2)
          | none => ([], st)
      | _ => ([], st)

/-- The receive loop on the coming results of `recv`, up to where it is left: the replies
that were sent, and where the node is then. -/
def receiveLoop (node : Node) (send : List UInt8 → ℤ) :
    State → List Recv → List (List UInt8) × State
  | st, [] => ([], st)
  | st, r :: rs =>
      match node.next st (.recv r) with
      | some (_, st') =>
          let sent := node.sendLoop send maxRetry st'
          let rest := node.receiveLoop send sent.2 rs
          (sent.1 ++ rest.1, rest.2)
      | none => ([], st)

variable {node : Node} {send : List UInt8 → ℤ} {st : State} {c : ℕ}

/-- Out of the loop nothing is received. -/
lemma receiveLoop_of_left (h : st.place ≠ .receive) (rs : List Recv) :
    node.receiveLoop send st rs = ([], st) := by
  cases rs with
  | nil => rfl
  | cons r rs => simp only [receiveLoop, next, if_neg h]

/-- A reply is sent at once, unless `send` returns `0` or fails. -/
lemma sendLoop_reply (m : List UInt8) :
    node.sendLoop send maxRetry ⟨.send (.reply m) 0, c⟩ =
      if 0 < send m then ([m], ⟨.receive, c⟩) else ([], ⟨.connect, c⟩) := by
  by_cases h : 0 < send m
  · simp [sendLoop, maxRetry, next, afterSend, afterSent, message, h]
  · simp [sendLoop, maxRetry, next, afterSend, afterFailed, message, h]

/-- A result of another length is dropped. -/
lemma receiveLoop_bytes_short {bs : List UInt8} (h : bs.length ≠ msgLen) (rs : List Recv) :
    node.receiveLoop send ⟨.receive, c⟩ (.bytes bs :: rs) =
      node.receiveLoop send ⟨.receive, c⟩ rs := by
  simp [receiveLoop, next, afterReceived, h, sendLoop, maxRetry]

/-- A result of 32 bytes is answered, where `processMessage` returns. -/
lemma receiveLoop_bytes_ok {bs m : List UInt8} (hlen : bs.length = msgLen)
    (hm : processMessage node.id bs bs.length = .ok m) (rs : List Recv) :
    node.receiveLoop send ⟨.receive, c⟩ (.bytes bs :: rs) =
      if 0 < send m then
        (m :: (node.receiveLoop send ⟨.receive, c⟩ rs).1,
          (node.receiveLoop send ⟨.receive, c⟩ rs).2)
      else ([], ⟨.connect, c⟩) := by
  have hnext : node.next ⟨.receive, c⟩ (.recv (.bytes bs)) =
      some (.received (.bytes bs), ⟨.send (.reply m) 0, c⟩) :=
    next_recv.mpr ⟨rfl, rfl, by rw [afterReceived, if_pos hlen, hm]⟩
  rw [receiveLoop, hnext]
  simp only [sendLoop_reply]
  split_ifs
  · rfl
  · rw [receiveLoop_of_left (by simp)]
    rfl

/-- An exception of `processMessage` leaves `Node::start`. -/
lemma receiveLoop_bytes_error {bs : List UInt8} {e : Decimal.StoiError} (hlen : bs.length = msgLen)
    (hm : processMessage node.id bs bs.length = .error e) (rs : List Recv) :
    node.receiveLoop send ⟨.receive, c⟩ (.bytes bs :: rs) = ([], ⟨.stopped, c⟩) := by
  have hnext : node.next ⟨.receive, c⟩ (.recv (.bytes bs)) =
      some (.received (.bytes bs), ⟨.stopped, c⟩) :=
    next_recv.mpr ⟨rfl, rfl, by rw [afterReceived, if_pos hlen, hm]⟩
  rw [receiveLoop, hnext]
  simp [sendLoop, maxRetry, receiveLoop_of_left]

/-! ### It is a run of the node -/

/-- The steps of a node, from the call of `Node::start` on. -/
def system (node : Node) : Lts State Event := Lts.ofFn (fun st => st.place = .connect) node.next

/-- The messages that were sent. -/
def sentMessages (node : Node) (tr : List Event) : List (List UInt8) :=
  tr.filterMap fun e =>
    match e with
    | .sent p n => if 0 < n then some (node.message p) else none
    | _ => none

lemma sendLoop_run (calls : ℕ) (st : State) :
    ∃ tr, node.system.Run st tr (node.sendLoop send calls st).2 ∧
      node.sentMessages tr = (node.sendLoop send calls st).1 := by
  induction calls generalizing st with
  | zero => exact ⟨[], .nil, rfl⟩
  | succ calls ih =>
      rw [sendLoop]
      split
      · rename_i p retry hp
        obtain ⟨st', hst⟩ : ∃ st', node.next st (.sent (send (node.message p))) =
            some (.sent p (send (node.message p)), st') :=
          ⟨_, next_sent.mpr ⟨p, retry, hp, rfl, rfl⟩⟩
        obtain ⟨tr, hrun, hsent⟩ := ih st'
        rw [hst]
        refine ⟨.sent p (send (node.message p)) :: tr, ?_, ?_⟩
        · have hstep : node.system.step st _ st' := ⟨_, hst⟩
          exact (Lts.Run.single hstep).append hrun
        · by_cases h : 0 < send (node.message p)
          · simp [sentMessages, h, ← hsent]
          · simp [sentMessages, h, ← hsent]
      · exact ⟨[], .nil, rfl⟩

lemma receiveLoop_run (st : State) (rs : List Recv) :
    ∃ tr, node.system.Run st tr (node.receiveLoop send st rs).2 ∧
      node.sentMessages tr = (node.receiveLoop send st rs).1 := by
  induction rs generalizing st with
  | nil => exact ⟨[], .nil, rfl⟩
  | cons r rs ih =>
      rw [receiveLoop]
      cases hst : node.next st (.recv r) with
      | none => exact ⟨[], .nil, rfl⟩
      | some q =>
          obtain ⟨e, st'⟩ := q
          obtain ⟨tr, hrun, hsent⟩ := @sendLoop_run node send maxRetry st'
          obtain ⟨tr', hrun', hsent'⟩ := ih (node.sendLoop send maxRetry st').2
          have he : node.sentMessages [e] = [] := by
            rw [(next_recv.mp hst).2.1]
            rfl
          refine ⟨e :: tr ++ tr', ?_, ?_⟩
          · have hstep : node.system.step st e st' := ⟨_, hst⟩
            exact ((Lts.Run.single hstep).append hrun).append hrun'
          · have hsplit : node.sentMessages (e :: tr ++ tr') =
                node.sentMessages [e] ++ node.sentMessages tr ++ node.sentMessages tr' := by
              rw [sentMessages, show e :: tr ++ tr' = [e] ++ tr ++ tr' from rfl,
                List.filterMap_append, List.filterMap_append]
              rfl
            rw [hsplit, he, hsent, hsent', List.nil_append]

/-! ### Frames in pieces -/

/-- A frame that the node has to answer: addressed to it, with an MTI that is a number. -/
def Answerable (node : Node) (f : List UInt8) : Prop :=
  f.length = msgLen ∧ Decimal.stoi ((f.drop 29).take 3) = .ok node.id ∧
    ∃ mti, Decimal.stoi ((f.drop 3).take 4) = .ok mti

/-- Its answer is not empty. -/
lemma Answerable.reply {f : List UInt8} (h : node.Answerable f) :
    ∃ m, processMessage node.id f f.length = .ok m ∧ m ≠ [] := by
  obtain ⟨hlen, hdst, mti, hmti⟩ := h
  refine ⟨_, by rw [hlen, processMessage_eq, checkDestination_eq_passed.mpr hdst, respond, hmti],
    ?_⟩
  intro hnil
  have hdrop : f.drop 29 ≠ [] := by
    rw [Ne, List.drop_eq_nil_iff, hlen, msgLen]
    omega
  simp only [List.append_eq_nil_iff, List.take_eq_nil_iff] at hnil
  tauto

/-- The number of results that have 32 bytes. -/
def wholeCount (cs : List (List UInt8)) : ℕ := cs.countP fun b => b.length = msgLen

lemma wholeCount_cons (b : List UInt8) (cs : List (List UInt8)) :
    wholeCount (b :: cs) = wholeCount cs + if b.length = msgLen then 1 else 0 := by
  simp [wholeCount, List.countP_cons]

/-- At most these are answered. -/
lemma length_receiveLoop_le (cs : List (List UInt8)) :
    (node.receiveLoop send ⟨.receive, c⟩ (cs.map .bytes)).1.length ≤ wholeCount cs := by
  induction cs with
  | nil => simp [receiveLoop]
  | cons b cs ih =>
      rw [List.map_cons, wholeCount_cons]
      by_cases hlen : b.length = msgLen
      · rw [if_pos hlen]
        cases hm : processMessage node.id b b.length with
        | error e => simp [receiveLoop_bytes_error hlen hm]
        | ok m =>
            rw [receiveLoop_bytes_ok hlen hm]
            split_ifs
            · exact Nat.succ_le_succ ih
            · simp
      · rw [receiveLoop_bytes_short hlen, if_neg hlen]
        exact ih

/-- Whole frames are all answered. -/
lemma length_receiveLoop_frames (hsend : ∀ m, m ≠ [] → 0 < send m) {fs : List (List UInt8)}
    (hfs : ∀ f ∈ fs, node.Answerable f) :
    (node.receiveLoop send ⟨.receive, c⟩ (fs.map .bytes)).1.length = fs.length := by
  induction fs with
  | nil => rfl
  | cons f fs ih =>
      have hf := hfs f List.mem_cons_self
      obtain ⟨m, hm, hne⟩ := hf.reply
      rw [List.map_cons, receiveLoop_bytes_ok hf.1 hm, if_pos (hsend m hne)]
      simp [ih fun g hg => hfs g (List.mem_cons_of_mem f hg)]

/-- The whole results are part of the stream. -/
lemma wholeCount_le (cs : List (List UInt8)) : msgLen * wholeCount cs ≤ cs.flatten.length := by
  induction cs with
  | nil => simp [wholeCount]
  | cons b cs ih =>
      rw [wholeCount_cons, List.flatten_cons, List.length_append, Nat.mul_add]
      split_ifs with hlen
      · omega
      · omega

/-- Where a result is cut, they are not all of it. -/
lemma wholeCount_lt {cs : List (List UInt8)} {b : List UInt8} (hb : b ∈ cs) (hpos : 0 < b.length)
    (hcut : b.length ≠ msgLen) : msgLen * wholeCount cs < cs.flatten.length := by
  obtain ⟨pre, post, rfl⟩ := List.append_of_mem hb
  have hpre := wholeCount_le pre
  have hpost := wholeCount_le post
  have hcount : wholeCount (pre ++ b :: post) = wholeCount pre + wholeCount post := by
    rw [wholeCount, List.countP_append, ← wholeCount, ← wholeCount, wholeCount_cons, if_neg hcut,
      Nat.add_zero]
  rw [hcount, Nat.mul_add, List.flatten_append, List.flatten_cons, List.length_append,
    List.length_append]
  omega

lemma map_length_of_whole {cs : List (List UInt8)} (h : ∀ b ∈ cs, b.length = msgLen) :
    cs.map List.length = List.replicate cs.length msgLen := by
  rw [← List.map_const']
  exact List.map_congr_left h

lemma length_flatten_of_whole {cs : List (List UInt8)} (h : ∀ b ∈ cs, b.length = msgLen) :
    cs.flatten.length = msgLen * cs.length := by
  rw [List.length_flatten, map_length_of_whole h, List.sum_replicate, smul_eq_mul, Nat.mul_comm]

/-- Whole results are determined by the stream. -/
lemma eq_of_flatten_eq {cs fs : List (List UInt8)} (hcs : ∀ b ∈ cs, b.length = msgLen)
    (hfs : ∀ f ∈ fs, f.length = msgLen) (h : cs.flatten = fs.flatten) : cs = fs := by
  have hlen : msgLen * cs.length = msgLen * fs.length := by
    rw [← length_flatten_of_whole hcs, ← length_flatten_of_whole hfs, h]
  refine List.eq_iff_flatten_eq.mpr ⟨h, ?_⟩
  rw [map_length_of_whole hcs, map_length_of_whole hfs, Nat.eq_of_mul_eq_mul_left (by decide) hlen]

/-- **Frames that arrive in pieces.** For every sequence of frames that the node has to
answer, and every way to cut their bytes into results of 1 to 32 bytes, the loop sends the
same replies as for the whole frames exactly when every result has 32 bytes; and a result of
another length is dropped, wherever it comes. A message that is not empty is sent, whatever
`send` returns for it. -/
theorem chunking_independent_iff (hsend : ∀ m, m ≠ [] → 0 < send m) (c : ℕ)
    {fs cs : List (List UInt8)} (hfs : ∀ f ∈ fs, node.Answerable f)
    (hcs : ∀ b ∈ cs, 1 ≤ b.length ∧ b.length ≤ msgLen) (hstream : cs.flatten = fs.flatten) :
    ((node.receiveLoop send ⟨.receive, c⟩ (cs.map .bytes)).1 =
        (node.receiveLoop send ⟨.receive, c⟩ (fs.map .bytes)).1 ↔
      ∀ b ∈ cs, b.length = msgLen) ∧
    ∀ b rs, b.length ≠ msgLen → node.receiveLoop send ⟨.receive, c⟩ (.bytes b :: rs) =
      node.receiveLoop send ⟨.receive, c⟩ rs := by
  refine ⟨⟨?_, ?_⟩, fun b rs hb => receiveLoop_bytes_short hb rs⟩
  · intro heq b hb
    by_contra hcut
    -- fewer results are answered than there are frames
    have hle : fs.length ≤ wholeCount cs := by
      rw [← length_receiveLoop_frames (c := c) hsend hfs, ← heq]
      exact length_receiveLoop_le cs
    have hlt := wholeCount_lt hb (hcs b hb).1 hcut
    rw [hstream, length_flatten_of_whole fun f hf => (hfs f hf).1] at hlt
    exact absurd (Nat.mul_le_mul_left msgLen hle) (not_le.mpr hlt)
  · intro hwhole
    rw [eq_of_flatten_eq hwhole (fun f hf => (hfs f hf).1) hstream]

/-- The node 3, and the frame `005 2210 123456 1111111111111111 003` for it. -/
lemma answerable_003 : (⟨3, 5, false⟩ : Node).Answerable (frame 5 2210 firstTrace firstPan 3) :=
  ⟨by decide, by decide, 2210, by decide⟩

/-- Two frames that come whole are answered both. -/
theorem chunking_independent_two :
    ((⟨3, 5, false⟩ : Node).receiveLoop (fun m => m.length) ⟨.receive, 4⟩
        ([frame 5 2210 firstTrace firstPan 3, frame 5 2210 firstTrace firstPan 3].map .bytes)).1 =
      [frame 3 2220 firstTrace firstPan 5, frame 3 2220 firstTrace firstPan 5] := by
  have hfs : ∀ f ∈ [frame 5 2210 firstTrace firstPan 3, frame 5 2210 firstTrace firstPan 3],
      (⟨3, 5, false⟩ : Node).Answerable f := by
    intro f hf
    simp only [List.mem_cons, List.not_mem_nil, or_false, or_self] at hf
    exact hf ▸ answerable_003
  have hsend : ∀ m : List UInt8, m ≠ [] → (0 : ℤ) < m.length := fun m hm =>
    Int.natCast_pos.mpr (List.length_pos_iff.mpr hm)
  obtain ⟨hiff, -⟩ := chunking_independent_iff hsend 4 hfs
    (fun b hb => by rw [(hfs b hb).1]; decide) rfl
  exact (hiff.mpr fun b hb => (hfs b hb).1).trans (by decide)

/-- A frame that comes in two halves is not answered. -/
theorem halves_not_answered :
    ¬ ∀ (node : Node) (send : List UInt8 → ℤ) (c : ℕ) (fs cs : List (List UInt8)),
      (∀ m, m ≠ [] → 0 < send m) → (∀ f ∈ fs, node.Answerable f) →
      (∀ b ∈ cs, 1 ≤ b.length ∧ b.length ≤ msgLen) → cs.flatten = fs.flatten →
      (node.receiveLoop send ⟨.receive, c⟩ (cs.map .bytes)).1 =
        (node.receiveLoop send ⟨.receive, c⟩ (fs.map .bytes)).1 := by
  intro hall
  have hsend : ∀ m : List UInt8, m ≠ [] → (0 : ℤ) < m.length := fun m hm =>
    Int.natCast_pos.mpr (List.length_pos_iff.mpr hm)
  have heq := hall ⟨3, 5, false⟩ (fun m => m.length) 4 [frame 5 2210 firstTrace firstPan 3]
    [(frame 5 2210 firstTrace firstPan 3).take 16, (frame 5 2210 firstTrace firstPan 3).drop 16]
    hsend (by simpa using answerable_003) (by decide) (by decide)
  exact absurd heq (by decide)

/-! ### Frames for others -/

/-- A result is ignored: nothing is sent, the node stays in the loop on its connection, and
what follows is answered as without it. -/
def Ignored (node : Node) (send : List UInt8 → ℤ) (st : State) (bs : List UInt8) : Prop :=
  node.receiveLoop send st [.bytes bs] = ([], st) ∧
    ∀ rs, node.receiveLoop send st (.bytes bs :: rs) = node.receiveLoop send st rs

/-- **A frame that is not for the node is never ignored.** In every state of the receive
loop, and for every frame that `processMessage` answers with the empty string, nothing is
sent, three times, and the node leaves the loop for the next connection, whatever follows. -/
theorem misaddressed_not_ignored (hsend : send [] = 0) (hst : st.place = .receive)
    {bs : List UInt8} (hlen : bs.length = msgLen)
    (hbs : processMessage node.id bs bs.length = .ok []) :
    ¬ node.Ignored send st bs ∧
      ∀ rs, node.receiveLoop send st (.bytes bs :: rs) = ([], ⟨.connect, st.socket⟩) := by
  obtain ⟨place, c⟩ := st
  simp only at hst
  subst hst
  have hleft : ∀ rs, node.receiveLoop send ⟨.receive, c⟩ (.bytes bs :: rs) =
      ([], ⟨.connect, c⟩) := fun rs => by
    rw [receiveLoop_bytes_ok hlen hbs, if_neg (by rw [hsend]; exact lt_irrefl 0)]
  refine ⟨fun hign => ?_, hleft⟩
  have hstay := (hleft []).symm.trans hign.1
  cases hstay

/-- The node 3 receives a frame for the node 6. -/
theorem misaddressed_not_ignored_006 :
    ¬ (⟨3, 5, false⟩ : Node).Ignored (fun m => m.length) ⟨.receive, 4⟩
      (frame 5 2210 firstTrace firstPan 6) :=
  (misaddressed_not_ignored rfl rfl (by decide) (by decide)).1

/-- Not every frame that is not for the node is ignored: the one for the node 6 is not, and
the frame for the node 3 that follows it has no answer. -/
theorem misaddressed_leaves_loop :
    ¬ ∀ (node : Node) (send : List UInt8 → ℤ) (st : State) (bs : List UInt8), send [] = 0 →
      st.place = .receive → bs.length = msgLen →
      processMessage node.id bs bs.length = .ok [] → node.Ignored send st bs := by
  intro hall
  have hign := hall ⟨3, 5, false⟩ (fun m => m.length) ⟨.receive, 4⟩
    (frame 5 2210 firstTrace firstPan 6) rfl rfl (by decide) (by decide)
  exact absurd (congrArg Prod.fst (hign.2 [.bytes (frame 5 2210 firstTrace firstPan 3)]))
    (by decide)

end Node

end MessageRouting
