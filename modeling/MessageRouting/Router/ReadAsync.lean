import MessageRouting.Router.TcpServer

/-!
The accounting of `TcpServer::read_async` (`router/src/tcpserver.cpp`).

Here the loop runs on a socket that answers `recv` in any way the OS can, with
the machine integers of the source: `buffer_len` is an `int`, `total_read` a
`size_t`, and the requested length is their difference as a `size_t`, handed to
`recv` as an `int`. It keeps a log of its `recv` calls.

* `readAsyncCalls`: the loop; `RecvCall`: an entry of its log; `Fits`: what the
  OS promises about `recv`.
* `readAsyncCalls_account`: the account of a loop that has some bytes already, by
  induction on the bytes it still wants.
* `readAsyncCalls_arrivals`: on a socket that is given by what is to arrive on it,
  the loop is `readAsync`.
* `readAsync_accounting`: the account of a whole call.
-/

namespace MessageRouting

/-! ### Machine integers -/

/-- Conversion to `size_t`. -/
def sizeT (n : ℤ) : ℕ := (n % 2 ^ 64).toNat

/-- Conversion of a `size_t` to `int`. -/
def toInt (n : ℕ) : ℤ := (n : ℤ).bmod (2 ^ 32)

lemma sizeT_natCast {n : ℕ} (h : n < 2 ^ 31) : sizeT n = n := by
  rw [sizeT, Int.emod_eq_of_lt (by omega) (by omega), Int.toNat_natCast]

lemma toInt_of_lt {n : ℕ} (h : n < 2 ^ 31) : toInt n = n :=
  Int.bmod_eq_of_le (by omega) (by omega)

/-- The length that the loop asks for: as long as it has not read too much, what
is left of the buffer. -/
lemma toInt_sizeT_sub {len total : ℕ} (hlen : len < 2 ^ 31) (ht : total ≤ len) :
    toInt (sizeT (len - total)) = (len - total : ℕ) := by
  have hsub : ((len : ℤ) - total) = ((len - total : ℕ) : ℤ) := by omega
  rw [hsub, sizeT_natCast (by omega), toInt_of_lt (by omega)]

lemma sizeT_add {total n : ℕ} (h : total + n < 2 ^ 31) : sizeT (total + (n : ℤ)) = total + n := by
  rw [← Nat.cast_add, sizeT_natCast h]

/-! ### The loop and its log -/

/-- What `recv` returns. -/
def Recv.bytesRead : Recv → ℤ
  | .bytes bs => bs.length
  | .closed => 0
  | .wouldBlock => socketError
  | .error => socketError

/-- The bytes that `recv` stores. -/
def Recv.stored : Recv → List UInt8
  | .bytes bs => bs
  | _ => []

/-- `TcpServer::no_more_data`, from the error code that `recv` leaves. -/
def noMoreData : Recv → Bool
  | .wouldBlock => true
  | _ => false

/-- A call of `recv`: the place in the buffer it was handed, the length it was
asked for, and what came of it. -/
structure RecvCall where
  offset : ℕ
  requested : ℤ
  outcome : Recv

/-- What a call of `read_async` did: its `recv` calls, what it returned, and the
buffer and the socket it left. -/
structure ReadResult (σ : Type) where
  calls : List RecvCall
  returned : ℤ
  buffer : List UInt8
  socket : σ

variable {σ : Type}

/-- The loop of `TcpServer::read_async`, with a bound on its turns: `none` when
they do not suffice. -/
def readAsyncCalls (osRecv : ℤ → σ → Recv × σ) (bufferLen : ℤ) :
    ℕ → ℕ → List UInt8 → σ → Option (ReadResult σ)
  | 0, _, _, _ => none
  | turns + 1, totalRead, buffer, socket =>
      let requested := toInt (sizeT (bufferLen - totalRead))
      let (outcome, socket) := osRecv requested socket
      let call : RecvCall := ⟨totalRead, requested, outcome⟩
      let buffer := writeAt buffer totalRead outcome.stored
      if 0 < outcome.bytesRead then
        let totalRead := sizeT (totalRead + outcome.bytesRead)
        if totalRead = sizeT bufferLen then some ⟨[call], toInt totalRead, buffer, socket⟩
        else
          (readAsyncCalls osRecv bufferLen turns totalRead buffer socket).map fun r =>
            { r with calls := call :: r.calls }
      else if outcome.bytesRead = socketError then
        if noMoreData outcome then some ⟨[call], toInt totalRead, buffer, socket⟩
        else some ⟨[call], socketError, buffer, socket⟩
      else if outcome.bytesRead = 0 then some ⟨[call], socketError, buffer, socket⟩
      else some ⟨[call], socketError, buffer, socket⟩

/-- What the OS promises: when `recv` answers a request with bytes, these are at least
one and at most as many as were asked for. -/
def Fits (osRecv : ℤ → σ → Recv × σ) : Prop :=
  ∀ n socket bs, 0 < n → (osRecv n socket).1 = .bytes bs → 0 < bs.length ∧ bs.length ≤ n

/-- The bytes that calls took from the socket. -/
def received (calls : List RecvCall) : List UInt8 := calls.flatMap fun c => c.outcome.stored

@[simp] lemma received_nil : received [] = [] := rfl

@[simp] lemma received_cons (c : RecvCall) (calls : List RecvCall) :
    received (c :: calls) = c.outcome.stored ++ received calls := rfl

/-- The socket gives these calls their outcomes, one after the other, and is left in
the last state. -/
def Answered (osRecv : ℤ → σ → Recv × σ) : σ → List RecvCall → σ → Prop
  | socket, [], socket' => socket = socket'
  | socket, c :: calls, socket' =>
      (osRecv c.requested socket).1 = c.outcome ∧
        Answered osRecv (osRecv c.requested socket).2 calls socket'

/-- How a loop ends with its last call: the buffer is full, nothing more is there, or
the connection is closed or broken. `n` bytes were read in all. -/
def Ends (len n : ℕ) (returned : ℤ) : Recv → Prop
  | .bytes _ => n = len ∧ returned = n
  | .wouldBlock => returned = n
  | .closed => returned = socketError
  | .error => returned = socketError

namespace Ends

variable {len n : ℕ} {returned : ℤ} {outcome : Recv}

/-- A close and an error are what `SOCKET_ERROR` tells. -/
lemma error_iff (h : Ends len n returned outcome) :
    returned = socketError ↔ outcome = .closed ∨ outcome = .error := by
  cases outcome with
  | closed => simpa [Ends] using h
  | error => simpa [Ends] using h
  | bytes bs =>
      obtain ⟨-, hn⟩ : n = len ∧ returned = n := h
      simp [hn, socketError]
  | wouldBlock =>
      have hn : returned = n := h
      simp [hn, socketError]

/-- Any other return is the number of bytes read. -/
lemma count (h : Ends len n returned outcome) (hne : returned ≠ socketError) : returned = n := by
  cases outcome with
  | bytes bs => exact h.2
  | wouldBlock => exact h
  | closed => exact absurd h hne
  | error => exact absurd h hne

/-- With room left in the buffer, nothing more was there. -/
lemma wouldBlock (h : Ends len n returned outcome) (hne : returned ≠ socketError)
    (hless : n < len) : outcome = .wouldBlock := by
  cases outcome with
  | bytes bs => exact absurd h.1 hless.ne
  | wouldBlock => rfl
  | closed => exact absurd h hne
  | error => exact absurd h hne

end Ends

/-- The account of a loop that has read `total` bytes into a buffer. -/
structure LoopAccount (osRecv : ℤ → σ → Recv × σ) (len total : ℕ) (buffer : List UInt8)
    (socket : σ) (r : ReadResult σ) : Prop where
  answered : Answered osRecv socket r.calls r.socket
  length_le : r.calls.length ≤ len - total
  asked : ∀ c ∈ r.calls, 0 < c.requested ∧ c.offset + c.requested = len
  read_le : total + (received r.calls).length ≤ len
  buffer_eq : r.buffer = writeAt buffer total (received r.calls)
  last : ∃ pre c, r.calls = pre ++ [c] ∧ total + (received pre).length < len ∧
    Ends len (total + (received r.calls).length) r.returned c.outcome

/-! ### What the loop does -/

variable {osRecv : ℤ → σ → Recv × σ} {len total : ℕ} {buffer : List UInt8}

/-- The account of a loop that makes one more call. -/
lemma loopAccount_last {outcome : Recv} {returned : ℤ} {socket socket' : σ} (ht : total < len)
    (hout : osRecv (len - total : ℕ) socket = (outcome, socket'))
    (hle : total + outcome.stored.length ≤ len)
    (hends : Ends len (total + outcome.stored.length) returned outcome) :
    LoopAccount osRecv len total buffer socket
      ⟨[⟨total, (len - total : ℕ), outcome⟩], returned, writeAt buffer total outcome.stored,
        socket'⟩ where
  answered := by simp [Answered, hout]
  length_le := by simp only [List.length_singleton]; omega
  asked := by simp only [List.mem_singleton, forall_eq]; omega
  read_le := by simpa using hle
  buffer_eq := by simp
  last := ⟨[], _, rfl, by simpa using ht, by simpa using hends⟩

/-- The account of a loop that goes on after a call. -/
lemma LoopAccount.cons {bs : List UInt8} {socket socket' : σ} {r : ReadResult σ}
    (hout : osRecv (len - total : ℕ) socket = (.bytes bs, socket')) (hbs : 0 < bs.length)
    (htb : total ≤ buffer.length) (hlt : total + bs.length < len)
    (h : LoopAccount osRecv len (total + bs.length) (writeAt buffer total bs) socket' r) :
    LoopAccount osRecv len total buffer socket
      { r with calls := ⟨total, (len - total : ℕ), .bytes bs⟩ :: r.calls } where
  answered := by simpa only [Answered, hout, true_and] using h.answered
  length_le := by
    have := h.length_le
    simp only [List.length_cons]
    omega
  asked := by
    intro c hc
    rcases List.mem_cons.mp hc with rfl | hc
    · dsimp only
      omega
    · exact h.asked c hc
  read_le := by
    have := h.read_le
    simp only [received_cons, Recv.stored, List.length_append]
    omega
  buffer_eq := by
    rw [h.buffer_eq, writeAt_writeAt htb]
    rfl
  last := by
    obtain ⟨pre, c, hcalls, hpre, hends⟩ := h.last
    refine ⟨⟨total, (len - total : ℕ), .bytes bs⟩ :: pre, c, by simp [hcalls], ?_, ?_⟩
    · simp only [received_cons, Recv.stored, List.length_append]
      omega
    · simpa only [received_cons, Recv.stored, List.length_append, Nat.add_assoc] using hends

/-- A call that does not fill the buffer makes the loop go on. -/
lemma readAsyncCalls_more {turns : ℕ} {socket socket' : σ} {bs : List UInt8}
    (hlen : len < 2 ^ 31) (hbs : 0 < bs.length) (hlt : total + bs.length < len)
    (h : osRecv (len - total : ℕ) socket = (.bytes bs, socket')) :
    readAsyncCalls osRecv len (turns + 1) total buffer socket =
      (readAsyncCalls osRecv len turns (total + bs.length) (writeAt buffer total bs) socket').map
        fun r => { r with calls := ⟨total, (len - total : ℕ), .bytes bs⟩ :: r.calls } := by
  have hpos : (0 : ℤ) < bs.length := by omega
  simp only [readAsyncCalls, toInt_sizeT_sub hlen (show total ≤ len by omega), h, Recv.bytesRead,
    Recv.stored]
  rw [if_pos hpos, sizeT_add (by omega), sizeT_natCast hlen, if_neg (by omega)]

/-- Any other outcome ends it. -/
lemma readAsyncCalls_last {socket socket' : σ} {outcome : Recv} (buffer : List UInt8)
    (hlen : len < 2 ^ 31) (ht : total < len)
    (hbs : ∀ bs, outcome = .bytes bs → 0 < bs.length ∧ total + bs.length = len)
    (h : osRecv (len - total : ℕ) socket = (outcome, socket')) :
    ∃ returned, Ends len (total + outcome.stored.length) returned outcome ∧
      ∀ turns, readAsyncCalls osRecv len (turns + 1) total buffer socket =
        some ⟨[⟨total, (len - total : ℕ), outcome⟩], returned,
          writeAt buffer total outcome.stored, socket'⟩ := by
  have hask := toInt_sizeT_sub hlen ht.le
  cases outcome with
  | bytes bs =>
      obtain ⟨hpos, hfull⟩ := hbs bs rfl
      have hread : (0 : ℤ) < bs.length := by omega
      have hsum : sizeT (total + (bs.length : ℤ)) = sizeT len := by
        rw [sizeT_add (by omega), sizeT_natCast hlen, hfull]
      refine ⟨len, ⟨hfull, by simp only [Recv.stored, hfull]⟩, fun turns => ?_⟩
      simp only [readAsyncCalls, hask, h, Recv.bytesRead, Recv.stored]
      rw [if_pos hread, if_pos hsum, hsum, sizeT_natCast hlen, toInt_of_lt hlen]
  | closed =>
      refine ⟨socketError, rfl, fun turns => ?_⟩
      simp only [readAsyncCalls, hask, h]
      rfl
  | wouldBlock =>
      refine ⟨total, by simp [Ends, Recv.stored], fun turns => ?_⟩
      simp only [readAsyncCalls, hask, h, toInt_of_lt (show total < 2 ^ 31 by omega)]
      rfl
  | error =>
      refine ⟨socketError, rfl, fun turns => ?_⟩
      simp only [readAsyncCalls, hask, h]
      rfl

/-- What the OS answers lets the loop go on, or fills the buffer, or stores nothing. -/
lemma Fits.cases {socket socket' : σ} {outcome : Recv} (hrecv : Fits osRecv) (ht : total < len)
    (h : osRecv (len - total : ℕ) socket = (outcome, socket')) :
    (∃ bs, outcome = .bytes bs ∧ 0 < bs.length ∧ total + bs.length < len) ∨
      total + outcome.stored.length ≤ len ∧
        ∀ bs, outcome = .bytes bs → 0 < bs.length ∧ total + bs.length = len := by
  cases outcome with
  | bytes bs =>
      obtain ⟨hpos, hle⟩ := hrecv (len - total : ℕ) socket bs (by omega) (by rw [h])
      rcases (show total + bs.length < len ∨ total + bs.length = len by omega) with hlt | heq
      · exact .inl ⟨bs, rfl, hpos, hlt⟩
      · exact .inr ⟨heq.le, fun bs' hbs => by cases hbs; exact ⟨hpos, heq⟩⟩
  | _ => exact .inr ⟨ht.le, fun _ hbs => by cases hbs⟩

/-- **A loop that wants more bytes returns**, after at most as many turns, and its account
holds. -/
lemma readAsyncCalls_account (hrecv : Fits osRecv) (hlen : len < 2 ^ 31) (ht : total < len)
    (hb : total ≤ buffer.length) (socket : σ) :
    ∃ r, (∀ turns, len - total ≤ turns →
        readAsyncCalls osRecv len turns total buffer socket = some r) ∧
      LoopAccount osRecv len total buffer socket r := by
  obtain ⟨k, hk⟩ : ∃ k, len - total = k := ⟨_, rfl⟩
  induction k using Nat.strong_induction_on generalizing total buffer socket with
  | _ k ih =>
      obtain ⟨outcome, socket', hout⟩ : ∃ outcome socket',
          osRecv (len - total : ℕ) socket = (outcome, socket') := ⟨_, _, rfl⟩
      rcases hrecv.cases ht hout with ⟨bs, rfl, hbs, hlt⟩ | ⟨hle, hlast⟩
      · -- the bytes that were read bring the loop nearer to its end
        obtain ⟨r, hr, hacc⟩ := ih (len - (total + bs.length)) (by omega) hlt
          (le_length_writeAt hb bs) socket' rfl
        refine ⟨_, fun turns hturns => ?_, hacc.cons hout hbs hb hlt⟩
        obtain ⟨turns, rfl⟩ : ∃ m, turns = m + 1 := ⟨turns - 1, by omega⟩
        rw [readAsyncCalls_more hlen hbs hlt hout, hr turns (by omega)]
        rfl
      · obtain ⟨returned, hends, hr⟩ := readAsyncCalls_last buffer hlen ht hlast hout
        refine ⟨_, fun turns hturns => ?_, loopAccount_last ht hout hle hends⟩
        obtain ⟨turns, rfl⟩ : ∃ m, turns = m + 1 := ⟨turns - 1, by omega⟩
        exact hr turns

/-! ### On a socket given by what arrives -/

/-- `recv` on a socket that is given by what is to arrive on it. -/
def recvArrivals (n : ℤ) (u : List Arrival) : Recv × List Arrival := recv n.toNat u

lemma fits_recvArrivals : Fits recvArrivals := by
  intro n u bs hn h
  cases u with
  | nil => simp [recvArrivals, recv] at h
  | cons x u =>
      cases x with
      | data b ds =>
          have hn0 : ¬ n.toNat = 0 := by omega
          simp only [recvArrivals, recv, if_neg hn0, Recv.bytes.injEq] at h
          rw [← h, List.length_take, List.length_cons]
          omega
      | _ => simp [recvArrivals, recv] at h

/-- There the loop is that of `readAsync`. -/
lemma readAsyncCalls_loop {turns : ℕ} {u : List Arrival} (hlen : len < 2 ^ 31) (ht : total < len)
    (hturns : len - total ≤ turns) :
    (readAsyncCalls recvArrivals len turns total buffer u).map
        (fun r => (r.returned, r.buffer, r.socket)) =
      some (readAsyncLoop len turns total buffer u) := by
  induction turns generalizing total buffer u with
  | zero => omega
  | succ turns ih =>
      obtain ⟨outcome, u', hout⟩ : ∃ outcome u', recv (len - total) u = (outcome, u') :=
        ⟨_, _, rfl⟩
      have hout' : recvArrivals (len - total : ℕ) u = (outcome, u') := by
        rw [recvArrivals, Int.toNat_natCast, hout]
      rw [readAsyncLoop, hout]
      rcases fits_recvArrivals.cases ht hout' with ⟨bs, rfl, hbs, hlt⟩ | ⟨-, hlast⟩
      · rw [readAsyncCalls_more hlen hbs hlt hout', Option.map_map]
        dsimp only
        rw [if_neg (by omega), ← ih hlt (by omega)]
        rfl
      · obtain ⟨returned, hends, hr⟩ := readAsyncCalls_last buffer hlen ht hlast hout'
        rw [hr, Option.map_some]
        cases outcome with
        | bytes bs =>
            dsimp only
            rw [if_pos (hlast bs rfl).2, hends.2]
            rfl
        | _ =>
            simp only [Ends] at hends
            simp [hends, Recv.stored, writeAt_nil]

/-- **The accounted loop is `readAsync`** on a socket that is given by what is to arrive
on it. -/
lemma readAsyncCalls_arrivals {u : List Arrival} (hlen : len < 2 ^ 31) (hpos : 0 < len) :
    (readAsyncCalls recvArrivals len (len + 1) 0 buffer u).map
        (fun r => (r.returned, r.buffer, r.socket)) =
      some (readAsync buffer len u) :=
  readAsyncCalls_loop hlen hpos (by omega)

/-! ### The account of a whole call -/

/-- **The account of `read_async`.** For every positive `buffer_len`, every buffer and every
way the socket answers `recv`, the call returns. It makes at most `buffer_len` calls of
`recv`; each asks for at least one byte and may store nothing behind the first
`buffer_len` places of the buffer. The bytes that were read stand at its front, in order,
and the rest is as it was. What is returned is `SOCKET_ERROR` exactly when the last call met
a close or an error, with less than `buffer_len` bytes read before, and else the number of
bytes read, which is less than `buffer_len` only when nothing more was there. -/
theorem readAsync_accounting (hrecv : Fits osRecv) {bufferLen : ℤ} (hpos : 0 < bufferLen)
    (hint : bufferLen < 2 ^ 31) (buffer : List UInt8) (socket : σ) :
    ∃ r : ReadResult σ,
      (∀ turns : ℕ, bufferLen ≤ turns →
        readAsyncCalls osRecv bufferLen turns 0 buffer socket = some r) ∧
      Answered osRecv socket r.calls r.socket ∧
      r.calls.length ≤ bufferLen ∧
      (∀ c ∈ r.calls, 0 < c.requested ∧ c.offset + c.requested ≤ bufferLen) ∧
      (received r.calls).length ≤ bufferLen ∧
      r.buffer = received r.calls ++ buffer.drop (received r.calls).length ∧
      (r.returned = socketError ↔ ∃ pre c, r.calls = pre ++ [c] ∧
        (received pre).length < bufferLen ∧ (c.outcome = .closed ∨ c.outcome = .error)) ∧
      (r.returned ≠ socketError → r.returned = (received r.calls).length) ∧
      (r.returned ≠ socketError → r.returned < bufferLen →
        ∃ c ∈ r.calls, c.outcome = .wouldBlock) := by
  lift bufferLen to ℕ using hpos.le
  have hlen : bufferLen < 2 ^ 31 := by omega
  obtain ⟨r, hr, hacc⟩ := readAsyncCalls_account hrecv hlen (show 0 < bufferLen by omega)
    (Nat.zero_le buffer.length) socket
  obtain ⟨pre, c, hcalls, hpre, hends⟩ := hacc.last
  rw [Nat.zero_add] at hpre hends
  refine ⟨r, fun turns hturns => hr turns (by omega), hacc.answered, ?_, ?_, ?_, ?_, ?_, ?_, ?_⟩
  · have := hacc.length_le
    omega
  · intro d hd
    have := hacc.asked d hd
    omega
  · have := hacc.read_le
    omega
  · rw [hacc.buffer_eq, writeAt]
    simp
  · -- the last call decides what is returned
    rw [hends.error_iff]
    constructor
    · exact fun h => ⟨pre, c, hcalls, by omega, h⟩
    · rintro ⟨pre', c', hcalls', -, h⟩
      rw [hcalls] at hcalls'
      obtain ⟨-, hcc⟩ := List.append_inj' hcalls' rfl
      cases hcc
      exact h
  · exact hends.count
  · intro hne hless
    have hcount := hends.count hne
    exact ⟨c, by simp [hcalls], hends.wouldBlock hne (by omega)⟩

/-- Two of three bytes are there. -/
theorem readAsync_accounting_two :
    ∃ r, readAsyncCalls recvArrivals 3 3 0 [120, 120, 120, 120]
        [.data 48 [49], .wouldBlock] = some r ∧
      r.buffer = [48, 49, 120, 120] ∧ r.returned = (received r.calls).length ∧
      ∃ c ∈ r.calls, c.outcome = .wouldBlock := by
  obtain ⟨r, hr, -, -, -, -, -, -, hcount, hblock⟩ := readAsync_accounting fits_recvArrivals
    (show (0 : ℤ) < 3 by decide) (by decide) [120, 120, 120, 120] [.data 48 [49], .wouldBlock]
  have hrun := hr 3 le_rfl
  have hval : (readAsyncCalls recvArrivals 3 3 0 [120, 120, 120, 120]
      [.data 48 [49], .wouldBlock]).map (fun r => (r.returned, r.buffer)) =
        some (2, [48, 49, 120, 120]) := by decide
  rw [hrun, Option.map_some, Option.some.injEq, Prod.mk.injEq] at hval
  have hne : r.returned ≠ socketError := by rw [hval.1]; decide
  exact ⟨r, hrun, hval.2, hcount hne, hblock hne (by rw [hval.1]; decide)⟩

end MessageRouting
