import MessageRouting.Lib.Decimal

/-!
The router's view of a message (`router/include/message.h`): the id message of
three bytes and the data message of 32 bytes, whose destination id stands in
the last three bytes.

Both parsers read a NUL-terminated C string out of the receive buffer, and
catch one of the two exceptions of `std::stoi`; the other one leaves the
function, which the models show as `Except.error`. `extractSrcId_terminated` and
`extractDstId_terminated` say what they read from a buffer whose message was
terminated in place: a value that depends on the message alone.
`extractSrcId_ok` and `extractDstId_ok` say that the messages of the router raise
no exception, since three bytes are never out of the range of `int`.
-/

namespace MessageRouting

open Decimal

/-- `ID_MESSAGE_SIZE`. -/
def idMessageSize : ℕ := 3

/-- `DATA_MESSAGE_SIZE`. -/
def dataMessageSize : ℕ := 32

/-- The C string that starts at the front of a buffer. -/
def cString (buf : List UInt8) : List UInt8 := buf.takeWhile (· != 0)

/-- The handler of `invalid_argument` around `std::stoi`: a string that is no
number gives `-1`, and `out_of_range` is not caught. -/
def stoiOrNone (s : List UInt8) : Except StoiError ℤ :=
  match stoi s with
  | .ok id => .ok id
  | .error .invalidArgument => .ok (-1)
  | .error .outOfRange => .error .outOfRange

/-- `Message::extract_src_id`. -/
def extractSrcId (msg : List UInt8) (msgLen : ℕ) : Except StoiError ℤ :=
  if msgLen < idMessageSize then .ok (-1) else stoiOrNone (cString msg)

/-- `Message::extract_dst_id`. -/
def extractDstId (msg : List UInt8) (msgLen : ℕ) : Except StoiError ℤ :=
  if msgLen < dataMessageSize then .ok (-1) else stoiOrNone (cString (msg.drop 29))

/-- The C string of a message with a NUL after it ends inside the message. -/
lemma cString_window (w rest : List UInt8) : cString (w ++ 0 :: rest) = cString w := by
  induction w with
  | nil => rfl
  | cons b w ih =>
      simp only [cString] at ih ⊢
      rw [List.cons_append, List.takeWhile_cons, List.takeWhile_cons, ih]

/-- A buffer whose message was terminated in place. -/
lemma set_length_append (w rest : List UInt8) :
    (w ++ rest).set w.length 0 = w ∨ ∃ rest', (w ++ rest).set w.length 0 = w ++ 0 :: rest' := by
  rw [List.set_append_right _ _ le_rfl, Nat.sub_self]
  cases rest with
  | nil => exact .inl (by simp)
  | cons b rest => exact .inr ⟨rest, rfl⟩

/-- The source id read from a buffer is the one of the message that was
terminated in it. -/
lemma extractSrcId_terminated (w rest : List UInt8) (n : ℕ) :
    extractSrcId ((w ++ rest).set w.length 0) n = extractSrcId w n := by
  obtain h | ⟨rest', h⟩ := set_length_append w rest
  · rw [h]
  · simp only [h, extractSrcId, cString_window]

/-- The destination id read from a buffer is the one of the message that was
terminated in it. -/
lemma extractDstId_terminated {w : List UInt8} (hw : 29 ≤ w.length) (rest : List UInt8) (n : ℕ) :
    extractDstId ((w ++ rest).set w.length 0) n = extractDstId w n := by
  obtain h | ⟨rest', h⟩ := set_length_append w rest
  · rw [h]
  · simp only [h, extractDstId, List.drop_append_of_le_length hw, cString_window]

lemma stoiOrNone_ok {s : List UInt8} (h : s.length ≤ 9) : ∃ id, stoiOrNone s = .ok id := by
  have hrange := stoi_ne_outOfRange h
  rw [stoiOrNone]
  split
  · exact ⟨_, rfl⟩
  · exact ⟨-1, rfl⟩
  · rename_i hs
    exact absurd hs hrange

lemma length_cString_le (w : List UInt8) : (cString w).length ≤ w.length :=
  (List.takeWhile_prefix _).length_le

/-- A NUL is no part of a number, so it makes no difference where it is read. -/
lemma stoi_cString (w : List UInt8) : stoi (cString w) = stoi w := by
  refine stoi_takeWhile (fun b hb => ?_) w
  obtain rfl : b = 0 := by simpa using hb
  exact ⟨by decide, by decide, by decide, by decide⟩

lemma stoiOrNone_cString (w : List UInt8) : stoiOrNone (cString w) = stoiOrNone w := by
  rw [stoiOrNone, stoiOrNone, stoi_cString]

/-- The source id of a message with a NUL after it. -/
lemma extractSrcId_stored (w rest : List UInt8) :
    extractSrcId (w ++ 0 :: rest) idMessageSize = stoiOrNone w := by
  rw [extractSrcId, if_neg (lt_irrefl _), cString_window, stoiOrNone_cString]

/-- The destination id of a message with a NUL after it. -/
lemma extractDstId_stored {m : List UInt8} (hm : 29 ≤ m.length) (rest : List UInt8) :
    extractDstId (m ++ 0 :: rest) dataMessageSize = stoiOrNone (m.drop 29) := by
  rw [extractDstId, if_neg (lt_irrefl _), List.drop_append_of_le_length hm, cString_window,
    stoiOrNone_cString]

lemma stoiOrNone_eq_ok {w : List UInt8} {k : ℤ} (hk : k ≠ -1) :
    stoiOrNone w = .ok k ↔ stoi w = .ok k := by
  rw [stoiOrNone]
  split
  · rename_i id h
    rw [h]
  · rename_i h
    simp only [h, Except.ok.injEq, reduceCtorEq, iff_false]
    exact fun h' => hk h'.symm
  · rename_i h
    simp [h]

lemma cString_digits {w : List UInt8} (h : ∀ d ∈ w, isDigit d = true) : cString w = w := by
  refine List.takeWhile_eq_self_iff.mpr fun d hd => ?_
  have := (isDigit_iff d).mp (h d hd)
  simp only [bne_iff_ne]
  rintro rfl
  simp at this

lemma stoiOrNone_digits {w : List UInt8} (hlen : w.length = idMessageSize)
    (h : ∀ d ∈ w, isDigit d = true) : stoiOrNone w = .ok (digitsVal w) := by
  have hlt : digitsVal w < 10 ^ 3 := by
    have := digitsVal_lt h
    rwa [hlen] at this
  have hne : w ≠ [] := List.ne_nil_of_length_pos (by rw [hlen]; decide)
  have hstoi : stoi (w ++ []) = .ok (digitsVal w : ℤ) := stoi_digits hne h (by simp) (by omega)
  rw [List.append_nil] at hstoi
  rw [stoiOrNone, hstoi]

/-- Three digits announce their value. -/
lemma extractSrcId_digits {w : List UInt8} (hlen : w.length = idMessageSize)
    (h : ∀ d ∈ w, isDigit d = true) : extractSrcId w idMessageSize = .ok (digitsVal w) := by
  rw [extractSrcId, if_neg (lt_irrefl _), cString_digits h, stoiOrNone_digits hlen h]

/-- No exception leaves `extract_src_id` on a short message. -/
lemma extractSrcId_ok {w : List UInt8} (h : w.length ≤ 9) (n : ℕ) :
    ∃ id, extractSrcId w n = .ok id := by
  rw [extractSrcId]
  split_ifs
  · exact ⟨-1, rfl⟩
  · exact stoiOrNone_ok ((length_cString_le w).trans h)

/-- No exception leaves `extract_dst_id` on a message whose destination field is
short. -/
lemma extractDstId_ok {w : List UInt8} (h : w.length ≤ 38) (n : ℕ) :
    ∃ id, extractDstId w n = .ok id := by
  rw [extractDstId]
  split_ifs
  · exact ⟨-1, rfl⟩
  · refine stoiOrNone_ok ((length_cString_le _).trans ?_)
    rw [List.length_drop]
    omega

end MessageRouting
