import Mathlib.Tactic

/-!
Reading from a client socket (`TcpServer::read_async` of
`router/src/tcpserver.cpp`).

A nonblocking socket is seen through what the OS has for the coming `recv`
calls, in order (`Arrival`): runs of bytes that are there at once, the moments
at which nothing is there, an orderly close and an error. A `recv` takes at
most the requested count from the run in front. Every sequence of `recv`
outcomes a client can cause arises in this way.

* `readAsync`: the accumulating loop of the source, on the receive buffer of
  the calling thread.
* `readBytes`: the same without the buffer, the bytes that one `read_async` call
  takes from the socket. `readAsync_of_some` and `readAsync_of_none` connect the
  two: the loop returns the count of these bytes and leaves them at the front
  of the buffer.
* `readBytes_whole`: a message that is not interrupted is read whole, and what
  follows it is left as it was.
-/

namespace MessageRouting

/-- `SOCKET_ERROR`. -/
def socketError : ℤ := -1

/-- What the OS has for the coming `recv` calls on a socket. -/
inductive Arrival where
  | data (b : UInt8) (bs : List UInt8)
  | wouldBlock
  | closed
  | error
  deriving DecidableEq, Repr

/-- The outcome of one `recv` call: a positive count with its bytes, `0`, or
`SOCKET_ERROR` with one of the two kinds of error code. -/
inductive Recv where
  | bytes (bs : List UInt8)
  | closed
  | wouldBlock
  | error
  deriving DecidableEq, Repr

/-- Bytes that stay in front of what comes after them. -/
def unread : List UInt8 → List Arrival → List Arrival
  | [], u => u
  | b :: bs, u => .data b bs :: u

/-- `recv(socket, buffer, n, 0)`. A request for no bytes returns `0`, as after a
close. -/
def recv (n : ℕ) : List Arrival → Recv × List Arrival
  | [] => (.wouldBlock, [])
  | .data b bs :: u =>
      if n = 0 then (.closed, .data b bs :: u)
      else (.bytes ((b :: bs).take n), unread ((b :: bs).drop n) u)
  | .wouldBlock :: u => (.wouldBlock, u)
  | .closed :: u => (.closed, .closed :: u)
  | .error :: u => (.error, u)

/-- The buffer after bytes were copied to an offset in it. -/
def writeAt (buffer : List UInt8) (offset : ℕ) (bs : List UInt8) : List UInt8 :=
  buffer.take offset ++ bs ++ buffer.drop (offset + bs.length)

/-- The loop of `TcpServer::read_async`, with a bound on its turns that it does
not reach. -/
def readAsyncLoop (bufferLen : ℕ) :
    ℕ → ℕ → List UInt8 → List Arrival → ℤ × List UInt8 × List Arrival
  | 0, totalRead, buffer, u => (totalRead, buffer, u)
  | fuel + 1, totalRead, buffer, u =>
      match recv (bufferLen - totalRead) u with
      | (.bytes bs, u') =>
          if totalRead + bs.length = bufferLen then
            ((totalRead + bs.length : ℕ), writeAt buffer totalRead bs, u')
          else readAsyncLoop bufferLen fuel (totalRead + bs.length) (writeAt buffer totalRead bs) u'
      | (.wouldBlock, u') => (totalRead, buffer, u')
      | (.error, u') => (socketError, buffer, u')
      | (.closed, u') => (socketError, buffer, u')

/-- `TcpServer::read_async`: the returned count or `SOCKET_ERROR`, the buffer
and the rest of what arrived. Every turn but the last reads a byte, so
`buffer_len + 1` turns are enough. -/
def readAsync (buffer : List UInt8) (bufferLen : ℕ) (u : List Arrival) :
    ℤ × List UInt8 × List Arrival :=
  readAsyncLoop bufferLen (bufferLen + 1) 0 buffer u

/-! ### The bytes of one call -/

/-- The bytes that a call which still wants `n` of them takes, `none` when it
ends with `SOCKET_ERROR`. -/
def readBytes (n : ℕ) : List Arrival → Option (List UInt8) × List Arrival
  | [] => (some [], [])
  | .wouldBlock :: u => (some [], u)
  | .closed :: u => (none, .closed :: u)
  | .error :: u => (none, u)
  | .data b bs :: u =>
      if n ≤ bs.length + 1 then (some ((b :: bs).take n), unread ((b :: bs).drop n) u)
      else
        match readBytes (n - (bs.length + 1)) u with
        | (none, u') => (none, u')
        | (some r, u') => (some (b :: bs ++ r), u')

/-- All bytes that are to come. -/
def bytesOf : List Arrival → List UInt8
  | [] => []
  | .data b bs :: u => b :: bs ++ bytesOf u
  | _ :: u => bytesOf u

@[simp] lemma bytesOf_unread (bs : List UInt8) (u : List Arrival) :
    bytesOf (unread bs u) = bs ++ bytesOf u := by
  cases bs <;> simp [unread, bytesOf]

lemma bytesOf_append (u v : List Arrival) : bytesOf (u ++ v) = bytesOf u ++ bytesOf v := by
  induction u with
  | nil => rfl
  | cons x u ih => cases x <;> simp [bytesOf, ih]

/-- A call that takes a whole run of bytes goes on with what follows it. -/
lemma readBytes_data_some {n : ℕ} {b : UInt8} {bs r : List UInt8} {u u' : List Arrival}
    (h : (match readBytes n u with
      | (none, u') => (none, u')
      | (some r, u') => (some (b :: bs ++ r), u')) = (some r, u')) :
    ∃ q, readBytes n u = (some q, u') ∧ b :: bs ++ q = r := by
  cases hr : readBytes n u with
  | mk o v =>
      rw [hr] at h
      cases o with
      | none => simp at h
      | some q =>
          simp only [Prod.mk.injEq, Option.some.injEq] at h
          obtain ⟨rfl, rfl⟩ := h
          exact ⟨q, rfl, rfl⟩

/-- A call takes a prefix of the bytes to come, at most as many as it wants. -/
lemma readBytes_some {n : ℕ} {u u' : List Arrival} {r : List UInt8}
    (h : readBytes n u = (some r, u')) : r.length ≤ n ∧ bytesOf u = r ++ bytesOf u' := by
  induction u generalizing n r with
  | nil =>
      simp only [readBytes, Prod.mk.injEq, Option.some.injEq] at h
      obtain ⟨rfl, rfl⟩ := h
      simp [bytesOf]
  | cons x u ih =>
      cases x with
      | wouldBlock =>
          simp only [readBytes, Prod.mk.injEq, Option.some.injEq] at h
          obtain ⟨rfl, rfl⟩ := h
          simp [bytesOf]
      | closed => simp [readBytes] at h
      | error => simp [readBytes] at h
      | data b bs =>
          simp only [readBytes] at h
          split_ifs at h with hn
          · simp only [Prod.mk.injEq, Option.some.injEq] at h
            obtain ⟨rfl, rfl⟩ := h
            rw [bytesOf_unread, ← List.append_assoc, List.take_append_drop, bytesOf]
            exact ⟨List.length_take_le _ _, rfl⟩
          · obtain ⟨q, hq, rfl⟩ := readBytes_data_some h
            obtain ⟨hlen, hbytes⟩ := ih hq
            simp only [bytesOf, hbytes, List.length_append, List.length_cons,
              List.cons_append, List.append_assoc]
            exact ⟨by omega, trivial⟩

/-- What is left never has more items than there were. -/
lemma length_unread_le (bs : List UInt8) (u : List Arrival) :
    (unread bs u).length ≤ u.length + 1 := by
  cases bs <;> simp [unread]

/-! ### The loop returns these bytes -/

lemma writeAt_nil (buffer : List UInt8) (offset : ℕ) : writeAt buffer offset [] = buffer := by
  simp [writeAt]

lemma writeAt_writeAt {buffer : List UInt8} {offset : ℕ} (h : offset ≤ buffer.length)
    (bs cs : List UInt8) :
    writeAt (writeAt buffer offset bs) (offset + bs.length) cs =
      writeAt buffer offset (bs ++ cs) := by
  have hlen : (buffer.take offset ++ bs).length = offset + bs.length := by
    rw [List.length_append, List.length_take, min_eq_left h]
  have hdrop : (writeAt buffer offset bs).drop (offset + bs.length + cs.length)
      = buffer.drop (offset + bs.length + cs.length) := by
    rw [writeAt, ← hlen, ← List.drop_drop, List.drop_left, List.drop_drop]
  have htake : (writeAt buffer offset bs).take (offset + bs.length) = buffer.take offset ++ bs := by
    rw [writeAt, ← hlen, List.take_left]
  rw [writeAt, htake, hdrop]
  simp [writeAt, Nat.add_assoc]

lemma le_length_writeAt {buffer : List UInt8} {offset : ℕ} (h : offset ≤ buffer.length)
    (bs : List UInt8) : offset + bs.length ≤ (writeAt buffer offset bs).length := by
  simp only [writeAt, List.length_append, List.length_take, min_eq_left h]
  omega

/-- The loop on a run of bytes that is shorter than what it still wants. -/
lemma readAsyncLoop_data {len fuel total : ℕ} {buffer : List UInt8} {b : UInt8} {bs : List UInt8}
    {u : List Arrival} (h : bs.length + 1 < len - total) :
    readAsyncLoop len (fuel + 1) total buffer (.data b bs :: u) =
      readAsyncLoop len fuel (total + (bs.length + 1)) (writeAt buffer total (b :: bs)) u := by
  have htake : (b :: bs).take (len - total) = b :: bs := List.take_of_length_le (by simp; omega)
  have hdrop : (b :: bs).drop (len - total) = [] := List.drop_of_length_le (by simp; omega)
  simp only [readAsyncLoop, recv]
  rw [if_neg (by omega)]
  simp only [htake, hdrop, unread, List.length_cons]
  rw [if_neg (by omega)]

/-- The loop on a run of bytes that is at least as long as what it still wants. -/
lemma readAsyncLoop_data_whole {len fuel total : ℕ} {buffer : List UInt8} {b : UInt8}
    {bs : List UInt8} {u : List Arrival} (ht : total < len) (h : len - total ≤ bs.length + 1) :
    readAsyncLoop len (fuel + 1) total buffer (.data b bs :: u) =
      (((total + ((b :: bs).take (len - total)).length : ℕ) : ℤ),
        writeAt buffer total ((b :: bs).take (len - total)),
        unread ((b :: bs).drop (len - total)) u) := by
  have hlen : ((b :: bs).take (len - total)).length = len - total := by
    rw [List.length_take]
    simp only [List.length_cons]
    omega
  simp only [readAsyncLoop, recv]
  rw [if_neg (by omega)]
  simp only [hlen]
  rw [if_pos (by omega)]

lemma readAsyncLoop_of_some {len fuel total : ℕ} {buffer r : List UInt8} {u u' : List Arrival}
    (ht : total < len) (hf : len - total ≤ fuel) (hb : total ≤ buffer.length)
    (h : readBytes (len - total) u = (some r, u')) :
    readAsyncLoop len fuel total buffer u =
      (((total + r.length : ℕ) : ℤ), writeAt buffer total r, u') := by
  induction u generalizing fuel total buffer r with
  | nil =>
      obtain ⟨fuel, rfl⟩ : ∃ k, fuel = k + 1 := ⟨fuel - 1, by omega⟩
      simp only [readBytes, Prod.mk.injEq, Option.some.injEq] at h
      obtain ⟨rfl, rfl⟩ := h
      simp [readAsyncLoop, recv, writeAt_nil]
  | cons x u ih =>
      obtain ⟨fuel, rfl⟩ : ∃ k, fuel = k + 1 := ⟨fuel - 1, by omega⟩
      cases x with
      | wouldBlock =>
          simp only [readBytes, Prod.mk.injEq, Option.some.injEq] at h
          obtain ⟨rfl, rfl⟩ := h
          simp [readAsyncLoop, recv, writeAt_nil]
      | closed => simp [readBytes] at h
      | error => simp [readBytes] at h
      | data b bs =>
          simp only [readBytes] at h
          split_ifs at h with hn
          · simp only [Prod.mk.injEq, Option.some.injEq] at h
            obtain ⟨rfl, rfl⟩ := h
            exact readAsyncLoop_data_whole ht hn
          · obtain ⟨q, hq, rfl⟩ := readBytes_data_some h
            rw [Nat.sub_sub] at hq
            have hb' : total + (bs.length + 1) ≤ (writeAt buffer total (b :: bs)).length :=
              le_length_writeAt hb (b :: bs)
            have hwrite : writeAt (writeAt buffer total (b :: bs)) (total + (bs.length + 1)) q
                = writeAt buffer total (b :: bs ++ q) := writeAt_writeAt hb (b :: bs) q
            rw [readAsyncLoop_data (by omega), ih (by omega) (by omega) hb' hq, hwrite,
              List.length_append, List.length_cons, Nat.add_assoc]

lemma readAsyncLoop_of_none {len fuel total : ℕ} {buffer : List UInt8} {u u' : List Arrival}
    (ht : total < len) (hf : len - total ≤ fuel) (h : readBytes (len - total) u = (none, u')) :
    ∃ buffer', readAsyncLoop len fuel total buffer u = (socketError, buffer', u') := by
  induction u generalizing fuel total buffer with
  | nil => simp [readBytes] at h
  | cons x u ih =>
      obtain ⟨fuel, rfl⟩ : ∃ k, fuel = k + 1 := ⟨fuel - 1, by omega⟩
      cases x with
      | wouldBlock => simp [readBytes] at h
      | closed =>
          simp only [readBytes, Prod.mk.injEq, true_and] at h
          exact ⟨buffer, by simp [readAsyncLoop, recv, h]⟩
      | error =>
          simp only [readBytes, Prod.mk.injEq, true_and] at h
          exact ⟨buffer, by simp [readAsyncLoop, recv, h]⟩
      | data b bs =>
          simp only [readBytes] at h
          split_ifs at h with hn
          · simp at h
          · have hq : readBytes (len - total - (bs.length + 1)) u = (none, u') := by
              cases hr : readBytes (len - total - (bs.length + 1)) u with
              | mk o v =>
                  rw [hr] at h
                  cases o with
                  | none => simpa using h
                  | some q => simp at h
            rw [Nat.sub_sub] at hq
            rw [readAsyncLoop_data (by omega)]
            exact ih (by omega) (by omega) hq

/-- A call that takes the bytes `r` returns their count, and has them at the
front of the buffer. -/
lemma readAsync_of_some {len : ℕ} {r : List UInt8} {u u' : List Arrival} (buffer : List UInt8)
    (hlen : 0 < len) (h : readBytes len u = (some r, u')) :
    readAsync buffer len u = ((r.length : ℤ), r ++ buffer.drop r.length, u') := by
  rw [readAsync, readAsyncLoop_of_some hlen (by omega) (Nat.zero_le _) h]
  simp [writeAt]

/-- A call that meets a close or an error returns `SOCKET_ERROR`. -/
lemma readAsync_of_none {len : ℕ} {u u' : List Arrival} (buffer : List UInt8) (hlen : 0 < len)
    (h : readBytes len u = (none, u')) :
    ∃ buffer', readAsync buffer len u = (socketError, buffer', u') :=
  readAsyncLoop_of_none hlen (by omega) h

/-! ### Uninterrupted messages -/

/-- Nothing but bytes and moments at which nothing is there. -/
def Flowing (u : List Arrival) : Prop := ∀ x ∈ u, x ≠ .closed ∧ x ≠ .error

/-- Where a run of bytes was cut, the moments that follow it are the old ones. -/
lemma wouldBlock_of_unread {b : UInt8} {bs : List UInt8} {u p q : List Arrival} (n : ℕ)
    (h : unread ((b :: bs).drop n) u = p ++ .wouldBlock :: q) :
    ∃ p₀, .data b bs :: u = p₀ ++ .wouldBlock :: q ∧
      bytesOf p₀ = (b :: bs).take n ++ bytesOf p := by
  cases hd : (b :: bs).drop n with
  | nil =>
      have htake : (b :: bs).take n = b :: bs :=
        List.take_of_length_le (List.drop_eq_nil_iff.mp hd)
      rw [hd, unread] at h
      exact ⟨.data b bs :: p, by rw [h]; rfl, by rw [htake]; rfl⟩
  | cons c cs =>
      rw [hd, unread] at h
      cases p with
      | nil => simp at h
      | cons x p =>
          simp only [List.cons_append, List.cons.injEq] at h
          obtain ⟨rfl, rfl⟩ := h
          refine ⟨.data b bs :: p, rfl, ?_⟩
          calc bytesOf (.data b bs :: p) = b :: bs ++ bytesOf p := rfl
            _ = (b :: bs).take n ++ (b :: bs).drop n ++ bytesOf p := by rw [List.take_append_drop]
            _ = (b :: bs).take n ++ bytesOf (.data c cs :: p) := by
                rw [hd, List.append_assoc, bytesOf]

lemma Flowing.of_cons {x : Arrival} {u : List Arrival} (h : Flowing (x :: u)) : Flowing u :=
  fun y hy => h y (List.mem_cons_of_mem x hy)

lemma Flowing.unread {u : List Arrival} (h : Flowing u) (bs : List UInt8) :
    Flowing (unread bs u) := by
  cases bs with
  | nil => exact h
  | cons b bs =>
      intro x hx
      rcases List.mem_cons.mp hx with rfl | hx
      · simp
      · exact h x hx

/-- A message of `n` bytes with no pause in it is read whole by one call, and
what follows it is left as it was. -/
lemma readBytes_whole {n : ℕ} {u : List Arrival} (hu : Flowing u) (hn : 0 < n)
    (hlen : n ≤ (bytesOf u).length)
    (hpause : ∀ p q, u = p ++ .wouldBlock :: q → n ≤ (bytesOf p).length) :
    ∃ u', readBytes n u = (some ((bytesOf u).take n), u') ∧ bytesOf u' = (bytesOf u).drop n ∧
      Flowing u' ∧ u'.length ≤ u.length ∧
      ∀ p q, u' = p ++ .wouldBlock :: q →
        ∃ p₀, u = p₀ ++ .wouldBlock :: q ∧ bytesOf p₀ = (bytesOf u).take n ++ bytesOf p := by
  induction u generalizing n with
  | nil => simp [bytesOf] at hlen; omega
  | cons x u ih =>
      cases x with
      | wouldBlock =>
          have := hpause [] u rfl
          simp [bytesOf] at this
          omega
      | closed => simpa using hu .closed (by simp)
      | error => simpa using hu .error (by simp)
      | data b bs =>
          have hbytes : bytesOf (.data b bs :: u) = b :: bs ++ bytesOf u := rfl
          by_cases hle : n ≤ bs.length + 1
          · -- the run in front holds the whole message
            have htake : (bytesOf (.data b bs :: u)).take n = (b :: bs).take n := by
              rw [hbytes, List.take_append_of_le_length (by simpa using hle)]
            refine ⟨unread ((b :: bs).drop n) u, ?_, ?_, hu.of_cons.unread _, ?_, ?_⟩
            · rw [readBytes, if_pos hle, htake]
            · rw [bytesOf_unread, hbytes, List.drop_append_of_le_length (by simpa using hle)]
            · exact length_unread_le _ _
            · intro p q hpq
              rw [htake]
              exact wouldBlock_of_unread n hpq
          · -- the run is taken whole and the call goes on
            have htail : ∀ p q, u = p ++ .wouldBlock :: q →
                n - (bs.length + 1) ≤ (bytesOf p).length := by
              intro p q hpq
              have := hpause (.data b bs :: p) q (by rw [hpq]; rfl)
              simp only [bytesOf, List.length_append, List.length_cons] at this
              omega
            rw [hbytes] at hlen
            simp only [List.length_append, List.length_cons] at hlen
            obtain ⟨u', hread, hrest, hflow, hle', hpauses⟩ :=
              ih hu.of_cons (by omega) (by omega) htail
            have htake : (bytesOf (.data b bs :: u)).take n
                = b :: bs ++ (bytesOf u).take (n - (bs.length + 1)) := by
              rw [hbytes, List.take_append, List.take_of_length_le (by simp; omega)]
              simp
            refine ⟨u', ?_, ?_, hflow, by simp; omega, ?_⟩
            · rw [readBytes, if_neg hle, hread, htake]
            · have hdrop : (b :: bs).drop n = [] := List.drop_of_length_le (by simp; omega)
              rw [hrest, hbytes, List.drop_append, hdrop]
              rfl
            · intro p q hpq
              obtain ⟨p₀, rfl, hp₀⟩ := hpauses p q hpq
              refine ⟨.data b bs :: p₀, rfl, ?_⟩
              rw [htake]
              simp only [bytesOf, hp₀, List.append_assoc, List.cons_append]

end MessageRouting
