import MessageRouting.Node.Message

/-!
The answers of a node, to arbitrary messages and over a whole exchange.

`processMessage` reads two fields of the 32 bytes as numbers, first the
destination and then the MTI, and copies the other three.

* `checkDestination`, `respond`: the two halves of `processMessage`
  (`processMessage_eq`).
* `length_setw_newMti`: the MTI field is printed in four bytes, whatever four bytes
  it was read from.
* `exchange`: a message answered at its two ends in turn; `exchange_frame`: what
  it has become after `n` answers.
* `reply_law`: the shape of an answer, and the exchange between two nodes.
-/

namespace MessageRouting

open Decimal

namespace Node

/-! ### The two halves of `processMessage` -/

/-- What the test of the destination field comes to. -/
inductive DestinationCheck where
  | threw (e : StoiError)
  | rejected
  | passed
  deriving DecidableEq, Repr

/-- The part of `processMessage` that reads the destination field. -/
def checkDestination (currentNodeId : ℤ) (message : List UInt8) : DestinationCheck :=
  match stoi ((message.drop 29).take 3) with
  | .error e => .threw e
  | .ok msgDst => if msgDst ≠ currentNodeId then .rejected else .passed

/-- The MTI of an answer, with the remainder of C++. -/
def newMti (mti : ℤ) : ℤ := (mti + 10).tmod 10000

/-- The part of `processMessage` that builds the answer. -/
def respond (message : List UInt8) : Except StoiError (List UInt8) :=
  match stoi ((message.drop 3).take 4) with
  | .error e => .error e
  | .ok mti =>
      .ok ((message.drop 29).take 3 ++ setw 4 (newMti mti) ++ (message.drop 7).take 6 ++
        (message.drop 13).take 16 ++ message.take 3)

lemma processMessage_eq (k : ℤ) (m : List UInt8) :
    processMessage k m msgLen =
      match checkDestination k m with
      | .threw e => .error e
      | .rejected => .ok []
      | .passed => respond m := by
  have hstart : processMessage k m msgLen = (stoi ((m.drop 29).take 3)).bind fun msgDst =>
      if msgDst ≠ k then .ok [] else
        (stoi ((m.drop 3).take 4)).bind fun mti =>
          .ok ((m.drop 29).take 3 ++ setw 4 (newMti mti) ++ (m.drop 7).take 6 ++
            (m.drop 13).take 16 ++ m.take 3) := rfl
  rw [hstart, checkDestination]
  cases stoi ((m.drop 29).take 3) with
  | error e => rfl
  | ok msgDst =>
      show (if msgDst ≠ k then _ else _) = _
      by_cases hk : msgDst = k
      · rw [if_neg (not_not.mpr hk), respond]
        simp only [ne_eq, hk, not_true_eq_false, if_false]
        cases stoi ((m.drop 3).take 4) <;> rfl
      · rw [if_pos hk]
        simp only [ne_eq, hk, not_false_eq_true, if_true]

lemma checkDestination_eq_passed {k : ℤ} {m : List UInt8} :
    checkDestination k m = .passed ↔ stoi ((m.drop 29).take 3) = .ok k := by
  rw [checkDestination]
  split
  · simp_all
  · rename_i msgDst h
    rw [h, Except.ok.injEq]
    split_ifs with hk
    · simpa using hk
    · simpa using hk

/-! ### The answer to an arbitrary message -/

/-- A number of four bytes stays one when it is counted up. -/
lemma length_setw_newMti {s : List UInt8} {mti : ℤ} (hs : s.length = 4) (h : stoi s = .ok mti) :
    (setw 4 (newMti mti)).length = 4 := by
  obtain ⟨hlo, hhi⟩ := stoi_bounds h
  rw [hs] at hlo hhi
  norm_num at hlo hhi
  have hrange : -(10 : ℤ) ^ 3 < newMti mti ∧ newMti mti < 10 ^ (3 + 1) := by
    rw [newMti]
    rcases lt_or_ge (mti + 10) 0 with hneg | hpos
    · -- the remainder of a negative number is the number itself
      have htmod : (mti + 10).tmod 10000 = mti + 10 := by
        rw [← neg_neg (mti + 10), Int.neg_tmod, Int.tmod_eq_of_lt (by omega) (by omega)]
      omega
    · rw [Int.tmod_eq_emod_of_nonneg hpos]
      omega
  rw [length_setw, max_eq_left ((length_print_le_iff (by omega)).mpr hrange)]

/-- **The answer to an arbitrary message** has 32 bytes, with the ids exchanged and
the TRACE and the PAN as they were. -/
lemma processMessage_reply {k : ℤ} {m r : List UInt8} (hm : m.length = msgLen)
    (h : processMessage k m m.length = .ok r) (hr : r ≠ []) :
    r.length = msgLen ∧ r.take 3 = m.drop 29 ∧ r.drop 29 = m.take 3 ∧
      (r.drop 7).take 6 = (m.drop 7).take 6 ∧ (r.drop 13).take 16 = (m.drop 13).take 16 := by
  rw [msgLen] at hm
  have hlast : (m.drop 29).take 3 = m.drop 29 := List.take_of_length_le (by simp [hm])
  rw [show m.length = msgLen from hm, processMessage_eq] at h
  split at h
  · cases h
  · cases h
    exact absurd rfl hr
  · rw [respond] at h
    split at h
    · cases h
    · rename_i mti hmti
      cases h
      have hfour : ((m.drop 3).take 4).length = 4 := by simp [hm]
      have hset := length_setw_newMti hfour hmti
      obtain ⟨hdst, -, htrace, hpan, hsrc⟩ := @message_fields ((m.drop 29).take 3) _
        ((m.drop 7).take 6) ((m.drop 13).take 16) (m.take 3) (by simp [hm]) hset (by simp [hm])
        (by simp [hm])
      refine ⟨?_, hdst.trans hlast, hsrc, htrace, hpan⟩
      simp [hset, hm, msgLen]

/-! ### The exchange of two nodes -/

/-- The message after `n` answers, at `b`, `a`, `b` and so on. -/
def exchange (a b : ℤ) : ℕ → List UInt8 → Except StoiError (List UInt8)
  | 0, message => .ok message
  | n + 1, message => (processMessage b message message.length).bind (exchange b a n)

variable {a b v : ℕ} {trace pan : List UInt8}

/-- After `n` answers the MTI has grown by `10 * n`, modulo 10000, and the ids are
exchanged when `n` is odd. -/
lemma exchange_frame (ht : trace.length = 6) (hp : pan.length = 16) (ha : a < 1000) (hb : b < 1000)
    (hv : v < 10000) (n : ℕ) :
    exchange a b n (frame a v trace pan b) =
      .ok (if Odd n then frame b ((v + 10 * n) % 10000) trace pan a
        else frame a ((v + 10 * n) % 10000) trace pan b) := by
  induction n generalizing a b v with
  | zero => rw [exchange, if_neg (by simp), Nat.mul_zero, Nat.add_zero, Nat.mod_eq_of_lt hv]
  | succ n ih =>
      have hmti : ((v + 10) % 10000 + 10 * n) % 10000 = (v + 10 * (n + 1)) % 10000 := by omega
      rw [exchange, length_frame ht hp, processMessage_frame ht hp hv hb]
      show exchange b a n _ = _
      rw [ih hb ha (Nat.mod_lt _ (by omega)), hmti]
      by_cases hn : Odd n
      · rw [if_pos hn, if_neg (by rw [Nat.odd_add_one]; exact not_not.mpr hn)]
      · rw [if_neg hn, if_pos (Nat.odd_add_one.mpr hn)]

/-- **The reply law.** A nonempty answer to 32 arbitrary bytes has 32 bytes; it begins
with the last three and ends with the first three of them, and has their TRACE and
PAN. A frame between two nodes that is answered `n` times never fails to be
answered, has its MTI counted up by `10 * n` modulo 10000 and its ids exchanged
exactly when `n` is odd, so that it comes back after 1000 answers. -/
theorem reply_law :
    (∀ (k : ℤ) (m r : List UInt8), m.length = msgLen → processMessage k m m.length = .ok r →
      r ≠ [] → r.length = msgLen ∧ r.take 3 = m.drop 29 ∧ r.drop 29 = m.take 3 ∧
        (r.drop 7).take 6 = (m.drop 7).take 6 ∧ (r.drop 13).take 16 = (m.drop 13).take 16) ∧
    ∀ (a b v : ℕ) (trace pan : List UInt8), a ≤ 999 → b ≤ 999 → v ≤ 9999 → trace.length = 6 →
      pan.length = 16 →
      (∀ n, exchange a b n (frame a v trace pan b) =
        .ok (if Odd n then frame b ((v + 10 * n) % 10000) trace pan a
          else frame a ((v + 10 * n) % 10000) trace pan b)) ∧
      exchange a b 1000 (frame a v trace pan b) = .ok (frame a v trace pan b) := by
  refine ⟨fun k m r hm h hr => processMessage_reply hm h hr, ?_⟩
  intro a b v trace pan ha hb hv ht hp
  have hall := exchange_frame ht hp (show a < 1000 by omega) (show b < 1000 by omega)
    (show v < 10000 by omega)
  refine ⟨hall, ?_⟩
  have hback : (v + 10 * 1000) % 10000 = v := by omega
  rw [hall 1000, if_neg (by decide), hback]

/-- The message `005 2210 123456 1111111111111111 003` and its answer at node 3, and
the same message answered three times. -/
theorem reply_law_005 :
    (∃ r, processMessage 3 (frame 5 2210 firstTrace firstPan 3)
        (frame 5 2210 firstTrace firstPan 3).length = .ok r ∧ r ≠ [] ∧ r.length = msgLen) ∧
      exchange 5 3 3 (frame 5 2210 firstTrace firstPan 3) =
        .ok (frame 3 2240 firstTrace firstPan 5) := by
  refine ⟨⟨frame 3 2220 firstTrace firstPan 5, by decide, by decide, ?_⟩, ?_⟩
  · exact (reply_law.1 3 (frame 5 2210 firstTrace firstPan 3) _ (by decide) (by decide)
      (by decide)).1
  · exact (reply_law.2 5 3 2210 firstTrace firstPan (by decide) (by decide) (by decide) rfl rfl).1 3

end Node

end MessageRouting
