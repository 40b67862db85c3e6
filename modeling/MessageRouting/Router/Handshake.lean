import MessageRouting.Lib.Lts
import MessageRouting.Router.Chunking

/-!
The handshake over a client's whole stream.

`do_reads` hands bytes to `handle_handshake` as long as the session has no id, so
a handshake that leaves it without one (a short read, three bytes that are no
number, an id that `add_node` rejects) makes the next bytes of the stream an id
message again.

* `announcedOnly_iff`: whatever follows them, the first three bytes of a stream
  fix the id of the client exactly when no pause falls inside them and they
  announce an id other than `NONE` and below `MAX_CLIENTS_COUNT`.
* `registered_under_frame_bytes`: a client that announces 999 is registered under
  220, from the middle of its first frame.
-/

namespace MessageRouting

open Decimal

/-! ### The first bytes of a stream -/

/-- A stream up to its `n`-th byte, `n` not zero. -/
def opening (n : ℕ) : List Arrival → List Arrival
  | [] => []
  | .data b bs :: u =>
      if n ≤ bs.length + 1 then [.data b (bs.take (n - 1))]
      else .data b bs :: opening (n - (bs.length + 1)) u
  | x :: u => x :: opening n u

/-- What carries no bytes is passed over. -/
lemma opening_cons {x : Arrival} (hx : ∀ b bs, x ≠ .data b bs) (n : ℕ) (u : List Arrival) :
    opening n (x :: u) = x :: opening n u := by
  cases x with
  | data b bs => exact absurd rfl (hx b bs)
  | _ => rfl

/-- No pause falls behind the first byte. -/
def Unbroken (o : List Arrival) : Prop := ∀ p q, o = p ++ .wouldBlock :: q → bytesOf p = []

lemma bytesOf_opening {n : ℕ} (hn : 0 < n) (u : List Arrival) :
    bytesOf (opening n u) = (bytesOf u).take n := by
  induction u generalizing n with
  | nil => simp [opening, bytesOf]
  | cons x u ih =>
      cases x with
      | data b bs =>
          obtain ⟨n, rfl⟩ : ∃ k, n = k + 1 := ⟨n - 1, by omega⟩
          rw [opening]
          split_ifs with h
          · simp only [bytesOf, List.append_nil, Nat.add_sub_cancel, List.cons_append,
              List.take_succ_cons]
            rw [List.take_append_of_le_length (by omega)]
          · have hbs : bs.take n = bs := List.take_of_length_le (by omega)
            simp only [bytesOf, ih (show 0 < n - bs.length by omega), List.cons_append,
              List.take_succ_cons, List.take_append, hbs, Nat.add_sub_add_right]
      | wouldBlock => simp [opening, bytesOf, ih hn]
      | closed => simp [opening, bytesOf, ih hn]
      | error => simp [opening, bytesOf, ih hn]

/-- What comes after the `n`-th byte does not change the opening. -/
lemma opening_append {n : ℕ} (hn : 0 < n) {u : List Arrival}
    (hlen : (bytesOf (opening n u)).length = n) (z : List Arrival) :
    opening n (opening n u ++ z) = opening n u := by
  induction u generalizing n with
  | nil =>
      simp [opening, bytesOf] at hlen
      omega
  | cons x u ih =>
      have hpass (hx : ∀ b bs, x ≠ .data b bs) (hu : (bytesOf (opening n u)).length = n) :
          opening n (opening n (x :: u) ++ z) = opening n (x :: u) := by
        rw [opening_cons hx, List.cons_append, opening_cons hx, ih hn hu]
      cases x with
      | data b bs =>
          by_cases h : n ≤ bs.length + 1
          · rw [opening, if_pos h, List.singleton_append, opening]
            have hmin : (bs.take (n - 1)).length = n - 1 := by
              rw [List.length_take]
              omega
            rw [hmin, if_pos (by omega), List.take_take, min_self]
          · rw [opening, if_neg h] at hlen ⊢
            simp only [bytesOf, List.length_append, List.length_cons] at hlen
            rw [List.cons_append, opening, if_neg h, ih (by omega) (by omega)]
      | wouldBlock => exact hpass (by simp) hlen
      | closed => exact hpass (by simp) hlen
      | error => exact hpass (by simp) hlen

/-- An opening with no pause in it is read whole. -/
lemma readBytes_opening {n : ℕ} (hn : 0 < n) {u : List Arrival} (hflow : Flowing (opening n u))
    (hlen : (bytesOf (opening n u)).length = n) (hpause : .wouldBlock ∉ opening n u) :
    ∃ u', readBytes n u = (some (bytesOf (opening n u)), u') := by
  induction u generalizing n with
  | nil =>
      simp [opening, bytesOf] at hlen
      omega
  | cons x u ih =>
      cases x with
      | data b bs =>
          by_cases h : n ≤ bs.length + 1
          · obtain ⟨n, rfl⟩ : ∃ k, n = k + 1 := ⟨n - 1, by omega⟩
            rw [opening, if_pos h, readBytes, if_pos h]
            exact ⟨_, Prod.ext (by simp [bytesOf]) rfl⟩
          · rw [opening, if_neg h] at hlen hflow hpause ⊢
            simp only [bytesOf, List.length_append, List.length_cons] at hlen
            obtain ⟨u', hread⟩ := ih (n := n - (bs.length + 1)) (by omega) hflow.of_cons (by omega)
              fun hmem => hpause (List.mem_cons_of_mem _ hmem)
            exact ⟨u', by rw [readBytes, if_neg h, hread]; rfl⟩
      | wouldBlock => exact absurd (by simp [opening]) hpause
      | closed => simpa using hflow .closed (by simp [opening])
      | error => simpa using hflow .error (by simp [opening])

/-! ### A client that announces an acceptable id at once -/

/-- Three bytes that `add_node` turns into the id of the session. -/
def Acceptable (b : List UInt8) : Prop := announcedId b ≠ NONE ∧ announcedId b < maxClientsCount

/-- The next message of the stream is `b`, behind some pauses at most. -/
def Intact (b : List UInt8) (u : List Arrival) : Prop :=
  ∃ k u₁ u₂, u = List.replicate k .wouldBlock ++ u₁ ∧ readBytes idMessageSize u₁ = (some b, u₂)

/-- What an unbroken opening gives. -/
lemma intact_of_unbroken {u : List Arrival} (hflow : Flowing (opening idMessageSize u))
    (hlen : (bytesOf (opening idMessageSize u)).length = idMessageSize)
    (hunb : Unbroken (opening idMessageSize u)) : Intact (bytesOf (opening idMessageSize u)) u := by
  induction u with
  | nil => simp [opening, bytesOf, idMessageSize] at hlen
  | cons x u ih =>
      by_cases hx : x = .wouldBlock
      · subst hx
        have hop : opening idMessageSize (.wouldBlock :: u)
            = .wouldBlock :: opening idMessageSize u := rfl
        rw [hop] at hflow hlen hunb ⊢
        have hunb' : Unbroken (opening idMessageSize u) := fun p q hpq =>
          hunb (.wouldBlock :: p) q (by rw [hpq]; rfl)
        obtain ⟨k, u₁, u₂, hu, hread⟩ := ih hflow.of_cons hlen hunb'
        exact ⟨k + 1, u₁, u₂, by rw [hu, List.replicate_succ]; rfl, hread⟩
      · -- bytes stand in front, so no pause is left in the opening
        have hpause : .wouldBlock ∉ opening idMessageSize (x :: u) := by
          intro hmem
          obtain ⟨p, q, hpq⟩ := List.append_of_mem hmem
          have hp := hunb p q hpq
          cases x with
          | wouldBlock => exact hx rfl
          | closed => simpa using hflow .closed (by simp [opening])
          | error => simpa using hflow .error (by simp [opening])
          | data b bs =>
              cases p with
              | nil =>
                  rw [opening] at hpq
                  split_ifs at hpq <;> simp at hpq
              | cons y p =>
                  rw [opening] at hpq
                  split_ifs at hpq <;>
                    (simp only [List.cons_append, List.cons.injEq] at hpq
                     rw [← hpq.1] at hp
                     simp [bytesOf] at hp)
        obtain ⟨u', hread⟩ := readBytes_opening (by decide) hflow hlen hpause
        exact ⟨0, x :: u, u', rfl, hread⟩

/-- What the other threads may do to the session of a client: they leave its
object alone, and the socket keeps it or loses it. -/
def Outside (s : ℤ) (a : Addr) (others : Sessions → Sessions) : Prop :=
  ∀ S, (others S).heap[a]? = S.heap[a]? ∧
    ((others S).sessionsBySocket s = S.sessionsBySocket s ∨ (others S).sessionsBySocket s = none)

/-- The session of a client that announced `b` has that id, or has none and `b`
is still to be read. -/
def Faithful (s : ℤ) (a : Addr) (b : List UInt8) (v : View) : Prop :=
  (v.sessions.sessionsBySocket s = some (some a) ∨ v.sessions.sessionsBySocket s = none) ∧
  (v.sessions.heap[a]? = some ⟨s, announcedId b⟩ ∨
    v.sessions.heap[a]? = some ⟨s, NONE⟩ ∧
      (v.sessions.sessionsBySocket s = none ∨ Intact b v.arrivals))

namespace Faithful

variable {s : ℤ} {a : Addr} {b : List UInt8} {v v' : View} {n : ℤ}

lemma turn (hb : Acceptable b) (hlen : b.length = idMessageSize) (h : Faithful s a b v)
    (hreg : v.sessions.sessionsBySocket s = some (some a)) (ht : v.turn s (some a) = (n, v')) :
    Faithful s a b v' ∧ v'.sessions.sessionsBySocket s = some (some a) := by
  rcases h.2 with hx | ⟨hx, hnone | ⟨k, u₁, u₂, hu, hread⟩⟩
  · -- the client is registered, and frames leave the registry alone
    rw [View.turn, if_neg (by rw [Sessions.getId_of_heap hx]; exact hb.1)] at ht
    have hsame : v'.sessions = v.sessions := by
      obtain ⟨m, u, he⟩ | ⟨m, u, d, -, -, -, he⟩ := v.message_cases
      · rw [he] at ht
        cases ht
        rfl
      · rw [he] at ht
        cases ht
        rfl
    rw [Faithful, hsame]
    exact ⟨⟨.inl hreg, .inl hx⟩, hreg⟩
  · rw [hreg] at hnone
    cases hnone
  · rw [View.turn, if_pos (Sessions.getId_of_heap hx)] at ht
    cases k with
    | zero =>
        rw [List.replicate_zero, List.nil_append] at hu
        rw [View.handshake_of_whole (by rw [hu]; exact hread) hlen] at ht
        cases ht
        refine ⟨⟨.inl (by simpa using hreg), .inl ?_⟩, by simpa using hreg⟩
        show (v.sessions.addNode s (announcedId b)).heap[a]? = _
        rw [Sessions.addNode_heap hreg hb.2, if_pos rfl, hx]
        rfl
    | succ k =>
        rw [List.replicate_succ, List.cons_append] at hu
        rw [View.handshake_wouldBlock hu] at ht
        cases ht
        exact ⟨⟨.inl hreg, .inr ⟨hx, .inr ⟨k, u₁, u₂, rfl, hread⟩⟩⟩, hreg⟩

lemma turns (hb : Acceptable b) (hlen : b.length = idMessageSize) (h : Faithful s a b v)
    (hreg : v.sessions.sessionsBySocket s = some (some a)) (ht : Turns s (some a) v n v') :
    Faithful s a b v' ∧ v'.sessions.sessionsBySocket s = some (some a) := by
  induction ht with
  | last ht _ => exact h.turn hb hlen hreg ht
  | more ht _ _ ih =>
      obtain ⟨h', hreg'⟩ := h.turn hb hlen hreg ht
      exact ih h' hreg'

lemma others {others : Sessions → Sessions} (ho : Outside s a others) (h : Faithful s a b v) :
    Faithful s a b { v with sessions := others v.sessions } := by
  obtain ⟨hheap, hsock⟩ := ho v.sessions
  obtain ⟨hreg, hid⟩ := h
  refine ⟨?_, ?_⟩
  · rcases hsock with hsock | hsock
    · exact hreg.imp (hsock.trans ·) (hsock.trans ·)
    · exact .inr hsock
  · refine hid.imp (hheap.trans ·) fun ⟨hx, hrest⟩ => ⟨hheap.trans hx, ?_⟩
    rcases hsock with hsock | hsock
    · exact hrest.imp (hsock.trans ·) id
    · exact .inl hsock

lemma remove (h : Faithful s a b v) :
    Faithful s a b { v with sessions := v.sessions.removeSession s } := by
  refine ⟨.inr (by simp), ?_⟩
  rcases h.2 with hx | ⟨hx, -⟩
  · exact .inl (by simpa using hx)
  · exact .inr ⟨by simpa using hx, .inl (by simp)⟩

/-- The calls keep it. -/
lemma serve {calls : List Call} {st st' : ReadState} (hb : Acceptable b)
    (hlen : b.length = idMessageSize) (ho : ∀ c ∈ calls, Outside s a c.others)
    (h : Faithful s a b st.view) (hserve : MessageRouting.serve s calls st = .ok st') :
    Faithful s a b st'.view := by
  induction calls generalizing st with
  | nil =>
      cases hserve
      exact h
  | cons c calls ih =>
      set st₀ : ReadState := { st with sessions := c.others st.sessions, buffer := c.buffer }
        with hst₀
      have h₀ : Faithful s a b st₀.view := h.others (ho c (by simp))
      obtain ⟨st₁, hdo, hcall⟩ := doReads_spec s st₀
      have h₁ : Faithful s a b st₁.view := by
        obtain ⟨-, rfl⟩ | ⟨src, n, v', hfind, hturns, hview⟩ := hcall
        · exact h₀
        · have hreg : st₀.view.sessions.sessionsBySocket s = some (some src) :=
            Sessions.findSessionBySocket_eq_some.mp hfind
          obtain rfl : src = a := by
            rcases h₀.1 with ha | ha
            · rw [ha] at hreg
              cases hreg
              rfl
            · rw [ha] at hreg
              cases hreg
          have h' := (h₀.turns hb hlen hreg hturns).1
          rw [hview]
          split_ifs
          · exact h'.remove
          · exact h'
      rw [MessageRouting.serve, ← hst₀, hdo] at hserve
      exact ih (fun c hc => ho c (List.mem_cons_of_mem _ hc)) h₁ hserve

end Faithful

/-! ### A client whose opening is broken or not acceptable -/

/-- Calls in a row while nobody else touches the registry. -/
inductive Calls (s : ℤ) (a : Addr) : View → View → Prop where
  | nil {v : View} : Calls s a v v
  | cons {v v' v'' : View} : v.sessions.sessionsBySocket s = some (some a) →
      Turns s (some a) v 0 v' → Calls s a v' v'' → Calls s a v v''

/-- Such calls are calls of `do_reads`. -/
lemma Calls.serve {s : ℤ} {a : Addr} {v v' : View} (h : Calls s a v v') {st : ReadState}
    (hst : st.view = v) :
    ∃ n st', MessageRouting.serve s (List.replicate n ⟨id, []⟩) st = .ok st' ∧ st'.view = v' := by
  induction h generalizing st with
  | nil => exact ⟨0, st, rfl, hst⟩
  | cons hreg hturns _ ih =>
      subst hst
      have hfind : st.sessions.findSessionBySocket s = some a :=
        Sessions.findSessionBySocket_eq_some.mpr hreg
      obtain ⟨st₁, hdo, hview⟩ := doReads_of_turns { st with buffer := [] } hfind hturns
      rw [if_neg (by decide)] at hview
      obtain ⟨n, st', hserve, hv⟩ := ih hview
      refine ⟨n + 1, st', ?_, hv⟩
      rw [List.replicate_succ, MessageRouting.serve]
      simp only [id_eq, hdo]
      exact hserve

/-- What one `read_async` call takes of at most `n` bytes that a pause follows:
all of them, those in front of an earlier pause, or exactly `n`. -/
lemma readBytes_paused {n : ℕ} (hn : 0 < n) {x : List Arrival} (hflow : Flowing x)
    (hlen : (bytesOf x).length ≤ n) (r : List Arrival) :
    ((bytesOf x).length < n ∧ readBytes n (x ++ .wouldBlock :: r) = (some (bytesOf x), r)) ∨
    (∃ p y, x = p ++ .wouldBlock :: y ∧ (bytesOf p).length < n ∧
      readBytes n (x ++ .wouldBlock :: r) = (some (bytesOf p), y ++ .wouldBlock :: r)) ∨
    ((bytesOf x).length = n ∧ (∀ p q, x = p ++ .wouldBlock :: q → n ≤ (bytesOf p).length) ∧
      ∃ y, Flowing y ∧ bytesOf y = [] ∧ y.length < x.length ∧
        readBytes n (x ++ .wouldBlock :: r) = (some (bytesOf x), y ++ .wouldBlock :: r)) := by
  induction x generalizing n with
  | nil => exact .inl ⟨hn, rfl⟩
  | cons z x ih =>
      cases z with
      | wouldBlock => exact .inr (.inl ⟨[], x, rfl, hn, rfl⟩)
      | closed => simpa using hflow .closed (by simp)
      | error => simpa using hflow .error (by simp)
      | data b bs =>
          have hbytes : (bytesOf (.data b bs :: x)).length =
              bs.length + 1 + (bytesOf x).length := by
            simp only [bytesOf, List.length_append, List.length_cons]
          rw [hbytes] at hlen
          by_cases h : n ≤ bs.length + 1
          · -- the run in front is all that is wanted
            have hnil : bytesOf x = [] := List.eq_nil_of_length_eq_zero (by omega)
            refine .inr (.inr ⟨by omega, ?_, x, hflow.of_cons, hnil, by simp, ?_⟩)
            · intro p q hpq
              cases p with
              | nil => simp at hpq
              | cons y p =>
                  simp only [List.cons_append, List.cons.injEq] at hpq
                  rw [← hpq.1]
                  simp only [bytesOf, List.length_append, List.length_cons]
                  omega
            · rw [List.cons_append, readBytes, if_pos h,
                List.take_of_length_le (by simp; omega), List.drop_of_length_le (by simp; omega)]
              simp [bytesOf, hnil, unread]
          · have hread : ∀ w u,
                readBytes (n - (bs.length + 1)) (x ++ .wouldBlock :: r) = (some w, u) →
                readBytes n (.data b bs :: x ++ .wouldBlock :: r) = (some (b :: bs ++ w), u) := by
              intro w u hw
              rw [List.cons_append, readBytes, if_neg h, hw]
            obtain ⟨hlt, hr⟩ | ⟨p, y, rfl, hlt, hr⟩ | ⟨heq, hp, y, hy, hnil, hlen', hr⟩ :=
              ih (n := n - (bs.length + 1)) (by omega) hflow.of_cons (by omega)
            · exact .inl ⟨by omega, hread _ _ hr⟩
            · refine .inr (.inl ⟨.data b bs :: p, y, rfl, ?_, hread _ _ hr⟩)
              simp only [bytesOf, List.length_append, List.length_cons]
              omega
            · refine .inr (.inr ⟨by omega, ?_, y, hy, hnil, by simp; omega, hread _ _ hr⟩)
              intro p q hpq
              cases p with
              | nil => simp at hpq
              | cons z p =>
                  simp only [List.cons_append, List.cons.injEq] at hpq
                  have := hp p q hpq.2
                  rw [← hpq.1]
                  simp only [bytesOf, List.length_append, List.length_cons]
                  omega

/-- A pause strictly inside the bytes. -/
def Broken (x : List Arrival) : Prop :=
  ∃ p q, x = p ++ .wouldBlock :: q ∧ bytesOf p ≠ [] ∧ (bytesOf p).length < idMessageSize

/-- Calls in a row lead to a state in which the session has the id `k`. -/
def ComesToBe (s : ℤ) (a : Addr) (k : ℤ) (v : View) : Prop :=
  ∃ v₁ v', Turns s (some a) v 0 v₁ ∧ Calls s a v₁ v' ∧ v'.sessions.getId (some a) = k

section Misread

variable {s : ℤ} {a : Addr} {k : ℤ} {c : UInt8} {cs : List UInt8} {v v' : View}

lemma ComesToBe.of_turn {n : ℤ} (ht : v.turn s (some a) = (n, v')) (hn : 0 < n)
    (h : ComesToBe s a k v') : ComesToBe s a k v := by
  obtain ⟨v₁, v₂, hturns, hcalls, hk⟩ := h
  exact ⟨v₁, v₂, .more ht hn hturns, hcalls, hk⟩

lemma ComesToBe.of_pause (ht : v.turn s (some a) = (0, v'))
    (hreg : v'.sessions.sessionsBySocket s = some (some a)) (h : ComesToBe s a k v') :
    ComesToBe s a k v := by
  obtain ⟨v₁, v₂, hturns, hcalls, hk⟩ := h
  exact ⟨v', v₂, .last ht le_rfl, .cons hreg hturns hcalls, hk⟩

/-- An id message in front of a session without an id names it. -/
lemma comesToBe_of_idMessage (hlen : cs.length = 2) (hk : announcedId (c :: cs) = k)
    (hk₀ : k ≠ NONE) (hlt : k < maxClientsCount)
    (hreg : v.sessions.sessionsBySocket s = some (some a))
    (hx : v.sessions.heap[a]? = some ⟨s, NONE⟩) (hv : v.arrivals = [.data c cs]) :
    ComesToBe s a k v := by
  have hwhole : (c :: cs).length = idMessageSize := by rw [List.length_cons, hlen]; rfl
  have hread : readBytes idMessageSize v.arrivals = (some (c :: cs), []) := by
    rw [hv, readBytes, if_pos (by rw [hlen]; decide), List.take_of_length_le hwhole.le,
      List.drop_of_length_le hwhole.le]
    rfl
  have hx' : (v.sessions.addNode s k).heap[a]? = some ⟨s, k⟩ := by
    rw [Sessions.addNode_heap hreg hlt, if_pos rfl, hx]
    rfl
  have hid : (v.sessions.addNode s k).getId (some a) = k := Sessions.getId_of_heap hx'
  set v₁ : View := { v with arrivals := [], sessions := v.sessions.addNode s k } with hv₁
  have hturn : v.turn s (some a) = ((idMessageSize : ℤ), v₁) := by
    rw [View.turn, if_pos (Sessions.getId_of_heap hx), View.handshake_of_whole hread hwhole, hk]
  have hend : v₁.turn s (some a) = (0, v₁) := by
    rw [View.turn, if_neg (by rw [hv₁, hid]; exact hk₀)]
    exact View.message_nil rfl
  exact ⟨v₁, v₁, .more hturn (by decide) (.last hend le_rfl), .nil, hid⟩

/-- A pause in front stays no pause inside. -/
lemma Broken.of_cons {x : List Arrival} (h : Broken (.wouldBlock :: x)) : Broken x := by
  obtain ⟨p, q, hpq, hne, hlt⟩ := h
  cases p with
  | nil => exact absurd rfl hne
  | cons y p =>
      simp only [List.cons_append, List.cons.injEq] at hpq
      obtain ⟨rfl, rfl⟩ := hpq
      exact ⟨p, q, rfl, hne, hlt⟩

/-- An id that is not acceptable leaves the session without one. -/
lemma addNode_heap_of_not_acceptable {b : List UInt8} (hb : ¬ Acceptable b)
    (hreg : v.sessions.sessionsBySocket s = some (some a))
    (hx : v.sessions.heap[a]? = some ⟨s, NONE⟩) :
    (v.sessions.addNode s (announcedId b)).heap[a]? = some ⟨s, NONE⟩ := by
  by_cases hbig : maxClientsCount ≤ announcedId b
  · rw [Sessions.addNode_of_rejected (.inr hbig)]
    exact hx
  · have hnone : announcedId b = NONE := by
      by_contra hne
      exact hb ⟨hne, not_le.mp hbig⟩
    rw [Sessions.addNode_heap hreg (not_le.mp hbig), if_pos rfl, hx, hnone]
    rfl

/-- After an opening that is broken or not acceptable, a pause and an id message
name the session by the latter. -/
lemma comesToBe_of_misread (hlen : cs.length = 2) (hk : announcedId (c :: cs) = k)
    (hk₀ : k ≠ NONE) (hlt : k < maxClientsCount) (m : ℕ) {x : List Arrival} (hm : x.length ≤ m)
    (hflow : Flowing x) (hbytes : (bytesOf x).length ≤ idMessageSize)
    (hbad : (bytesOf x).length = idMessageSize → Broken x ∨ ¬ Acceptable (bytesOf x))
    (hreg : v.sessions.sessionsBySocket s = some (some a))
    (hx : v.sessions.heap[a]? = some ⟨s, NONE⟩)
    (hv : v.arrivals = x ++ .wouldBlock :: [.data c cs]) : ComesToBe s a k v := by
  induction m generalizing x v with
  | zero =>
      obtain rfl := List.eq_nil_of_length_eq_zero (Nat.le_zero.mp hm)
      have hturn : v.turn s (some a) = (0, { v with arrivals := [.data c cs] }) := by
        rw [View.turn, if_pos (Sessions.getId_of_heap hx)]
        exact View.handshake_wouldBlock hv
      exact .of_pause hturn hreg (comesToBe_of_idMessage hlen hk hk₀ hlt hreg hx rfl)
  | succ m ih =>
      -- a handshake that reads no id message goes on with the rest of the stream
      have hshort : ∀ w u, readBytes idMessageSize v.arrivals = (some w, u) →
          w.length < idMessageSize →
          v.turn s (some a) = ((w.length : ℤ), { v with arrivals := u }) := by
        intro w u hread hw
        rw [View.turn, if_pos (Sessions.getId_of_heap hx), View.handshake_of_short hread (by omega)]
      cases x with
      | nil => exact ih (by simp) hflow hbytes hbad hreg hx hv
      | cons z x =>
          rw [List.length_cons] at hm
          cases z with
          | closed => simpa using hflow .closed (by simp)
          | error => simpa using hflow .error (by simp)
          | wouldBlock =>
              have hturn : v.turn s (some a)
                  = (0, { v with arrivals := x ++ .wouldBlock :: [.data c cs] }) := by
                rw [View.turn, if_pos (Sessions.getId_of_heap hx)]
                exact View.handshake_wouldBlock hv
              exact .of_pause hturn hreg (ih (by omega) hflow.of_cons hbytes
                (fun heq => (hbad heq).imp Broken.of_cons id) hreg hx rfl)
          | data b bs =>
              have hpos : ∀ p, p <+: .data b bs :: x → p ≠ [] → 0 < (bytesOf p).length := by
                rintro (_ | ⟨y, p⟩) hp hne
                · exact absurd rfl hne
                · obtain rfl := (List.cons_prefix_cons.mp hp).1
                  simp [bytesOf]
              have hcases := readBytes_paused (by decide) hflow hbytes [.data c cs]
              rw [← hv] at hcases
              obtain ⟨hlt', hr⟩ | ⟨p, y, hp, hlt', hr⟩ | ⟨heq, hp, y, hy, hnil, hlen', hr⟩ := hcases
              · -- all bytes are dropped with the pause behind them
                refine .of_turn (hshort _ _ hr hlt') ?_
                  (comesToBe_of_idMessage hlen hk hk₀ hlt hreg hx rfl)
                exact_mod_cast hpos _ (List.prefix_refl _) (by simp)
              · -- the bytes in front of the pause are dropped
                have hppos : 0 < (bytesOf p).length := by
                  refine hpos p (hp ▸ List.prefix_append _ _) ?_
                  rintro rfl
                  simp at hp
                have hsum := congrArg (fun z => (bytesOf z).length) hp
                have hylen := congrArg List.length hp
                simp only [bytesOf_append, List.length_append, List.length_cons] at hsum hylen
                have hsum' : (bytesOf (.wouldBlock :: y)).length = (bytesOf y).length := rfl
                have hyflow : Flowing y := fun z hz => hflow z (by rw [hp]; simp [hz])
                exact .of_turn (hshort _ _ hr hlt') (by exact_mod_cast hppos)
                  (ih (by omega) hyflow (by omega) (fun h => by omega) hreg hx rfl)
              · -- an id message is read, but gives the session no id
                have hrej : ¬ Acceptable (bytesOf (.data b bs :: x)) := by
                  refine (hbad heq).resolve_left ?_
                  rintro ⟨p, q, hpq, -, hlt'⟩
                  have := hp p q hpq
                  omega
                have hx' := addNode_heap_of_not_acceptable hrej hreg hx
                have hturn : v.turn s (some a) = ((idMessageSize : ℤ), { v with
                    arrivals := y ++ .wouldBlock :: [.data c cs]
                    sessions :=
                      v.sessions.addNode s (announcedId (bytesOf (.data b bs :: x))) }) := by
                  rw [View.turn, if_pos (Sessions.getId_of_heap hx), View.handshake_of_whole hr heq]
                have hylen : y.length ≤ m := by
                  rw [List.length_cons] at hlen'
                  omega
                exact .of_turn hturn (by decide) (ih hylen hy (by rw [hnil]; simp)
                  (fun h => by rw [hnil] at h; cases h) (by simpa using hreg) hx' rfl)

end Misread

/-! ### The id a client is registered under -/

/-- Over every number of calls on a client's socket, whatever the other threads
do in between, the id of its session is the one that the first three bytes of
its stream announce. -/
def AnnouncedOnly (u : List Arrival) : Prop :=
  ∀ (s : ℤ) (a : Addr) (S : Sessions) (buffer : List UInt8) (tasks : List WriteTask)
    (calls : List Call) (st' : ReadState),
    S.sessionsBySocket s = some (some a) → S.heap[a]? = some ⟨s, NONE⟩ →
    (∀ c ∈ calls, Outside s a c.others) → serve s calls ⟨S, u, buffer, tasks⟩ = .ok st' →
    st'.sessions.getId (some a) ≠ NONE →
    extractSrcId ((bytesOf u).take idMessageSize) idMessageSize
      = .ok (st'.sessions.getId (some a))

/-- A pause of an opening stands before its last byte. -/
lemma length_bytesOf_lt_of_opening {n : ℕ} (hn : 0 < n) {u p q : List Arrival}
    (hlen : (bytesOf (opening n u)).length = n) (hpq : opening n u = p ++ .wouldBlock :: q) :
    (bytesOf p).length < n := by
  induction u generalizing n p with
  | nil => simp [opening] at hpq
  | cons x u ih =>
      cases p with
      | nil => simpa [bytesOf] using hn
      | cons y p =>
          -- a first item that carries no byte
          have hother : bytesOf (y :: p) = bytesOf p →
              bytesOf (x :: opening n u) = bytesOf (opening n u) →
              opening n (x :: u) = x :: opening n u → (bytesOf (y :: p)).length < n := by
            intro hy hx ho
            rw [ho] at hpq hlen
            rw [hx] at hlen
            rw [hy]
            exact ih hn hlen (List.cons.inj hpq).2
          cases x with
          | data b bs =>
              by_cases h : n ≤ bs.length + 1
              · rw [opening, if_pos h] at hpq
                simp at hpq
              · rw [opening, if_neg h] at hpq hlen
                simp only [List.cons_append, List.cons.injEq] at hpq
                simp only [bytesOf, List.length_append, List.length_cons] at hlen
                have := ih (n := n - (bs.length + 1)) (by omega) (by omega) hpq.2
                rw [← hpq.1]
                simp only [bytesOf, List.length_append, List.length_cons]
                omega
          | wouldBlock =>
              obtain rfl : .wouldBlock = y := (List.cons.inj hpq).1
              exact hother rfl rfl rfl
          | closed =>
              obtain rfl : .closed = y := (List.cons.inj hpq).1
              exact hother rfl rfl rfl
          | error =>
              obtain rfl : .error = y := (List.cons.inj hpq).1
              exact hother rfl rfl rfl

lemma extractSrcId_eq_announcedId {b : List UInt8} (h : b.length = idMessageSize) :
    extractSrcId b idMessageSize = .ok (announcedId b) := by
  obtain ⟨id, hid⟩ := extractSrcId_ok (by rw [h]; decide) idMessageSize
  rw [announcedId_eq hid, hid]

/-- An opening that is unbroken and acceptable fixes the id. -/
lemma announcedOnly_of_acceptable {u : List Arrival} (hflow : Flowing (opening idMessageSize u))
    (hlen : (bytesOf (opening idMessageSize u)).length = idMessageSize)
    (hunb : Unbroken (opening idMessageSize u))
    (hacc : Acceptable ((bytesOf u).take idMessageSize)) : AnnouncedOnly u := by
  intro s a S buffer tasks calls st' hreg hx ho hserve hne
  rw [bytesOf_opening (by decide)] at hlen
  have hint := intact_of_unbroken hflow (by rw [bytesOf_opening (by decide)]; exact hlen) hunb
  rw [bytesOf_opening (by decide)] at hint
  have h₀ : Faithful s a ((bytesOf u).take idMessageSize) (ReadState.mk S u buffer tasks).view :=
    ⟨.inl hreg, .inr ⟨hx, .inr hint⟩⟩
  rw [extractSrcId_eq_announcedId hlen]
  rcases (h₀.serve hacc hlen ho hserve).2 with hy | ⟨hy, -⟩
  · rw [show st'.sessions.getId (some a) = _ from Sessions.getId_of_heap hy]
  · exact absurd (Sessions.getId_of_heap hy) hne

/-- An opening that is broken or not acceptable is followed by an id message of
the client's choice. -/
lemma announcedId_of_misread {u : List Arrival} (hflow : Flowing (opening idMessageSize u))
    (hlen : (bytesOf (opening idMessageSize u)).length = idMessageSize)
    (hbad : Broken (opening idMessageSize u) ∨ ¬ Acceptable (bytesOf (opening idMessageSize u)))
    (hall : ∀ u', opening idMessageSize u' = opening idMessageSize u → AnnouncedOnly u')
    {c : UInt8} {cs : List UInt8} (hcs : cs.length = 2) (hk₀ : announcedId (c :: cs) ≠ NONE)
    (hlt : announcedId (c :: cs) < maxClientsCount) :
    announcedId (bytesOf (opening idMessageSize u)) = announcedId (c :: cs) := by
  set o := opening idMessageSize u with ho
  have honly := hall (o ++ .wouldBlock :: [.data c cs]) (opening_append (by decide) hlen _)
  have hreg : twoClients.sessionsBySocket 4 = some (some 0) := by decide
  have hx : twoClients.heap[0]? = some ⟨4, NONE⟩ := by decide
  have hcome : ComesToBe 4 0 (announcedId (c :: cs))
      ⟨twoClients, o ++ .wouldBlock :: [.data c cs], []⟩ :=
    comesToBe_of_misread hcs rfl hk₀ hlt o.length le_rfl hflow hlen.le (fun _ => hbad) hreg hx rfl
  obtain ⟨v₁, v', hturns, hcalls, hk⟩ := hcome
  have hcalls' : Calls 4 0 ⟨twoClients, o ++ .wouldBlock :: [.data c cs], []⟩ v' :=
    .cons hreg hturns hcalls
  obtain ⟨n, st', hserve, rfl⟩ := hcalls'.serve
    (show (ReadState.mk twoClients (o ++ .wouldBlock :: [.data c cs]) [] []).view = _ from rfl)
  have hsrc := honly 4 0 twoClients [] [] _ st' hreg hx
    (fun c hc => by rw [List.eq_of_mem_replicate hc]; exact fun S => ⟨rfl, .inl rfl⟩) hserve
    (by rw [show st'.sessions.getId (some 0) = _ from hk]; exact hk₀)
  rw [bytesOf_append, ← hlen, List.take_left, hlen, extractSrcId_eq_announcedId hlen] at hsrc
  exact (Except.ok.inj hsrc).trans hk

/-- **A client is registered under the id it announced**, whatever comes after
its first three bytes, if and only if no pause falls inside them and they
announce an id other than `NONE` and below `MAX_CLIENTS_COUNT`. Streams that end,
close or fail within these bytes are left out (`hlen`, `hflow`). -/
theorem announcedOnly_iff {u : List Arrival} (hflow : Flowing (opening idMessageSize u))
    (hlen : (bytesOf (opening idMessageSize u)).length = idMessageSize) :
    (∀ u', opening idMessageSize u' = opening idMessageSize u → AnnouncedOnly u') ↔
      Unbroken (opening idMessageSize u) ∧ Acceptable ((bytesOf u).take idMessageSize) := by
  constructor
  · intro hall
    rw [← bytesOf_opening (by decide)]
    by_contra hcond
    have hbad : Broken (opening idMessageSize u) ∨
        ¬ Acceptable (bytesOf (opening idMessageSize u)) := by
      rw [not_and_or] at hcond
      refine hcond.imp (fun hunb => ?_) id
      rw [Unbroken] at hunb
      push Not at hunb
      obtain ⟨p, q, hpq, hne⟩ := hunb
      exact ⟨p, q, hpq, hne, length_bytesOf_lt_of_opening (by decide) hlen hpq⟩
    -- two continuations would give the session two ids
    have h5 : _ = announcedId [48, 48, 53] :=
      announcedId_of_misread hflow hlen hbad hall rfl (by decide) (by decide)
    have h6 : _ = announcedId [48, 48, 54] :=
      announcedId_of_misread hflow hlen hbad hall rfl (by decide) (by decide)
    exact absurd (h5.symm.trans h6) (by decide)
  · rintro ⟨hunb, hacc⟩ u' hu'
    have htake : (bytesOf u').take idMessageSize = (bytesOf u).take idMessageSize := by
      rw [← bytesOf_opening (by decide), hu', bytesOf_opening (by decide)]
    exact announcedOnly_of_acceptable (hu' ▸ hflow) (hu' ▸ hlen) (hu' ▸ hunb) (htake ▸ hacc)

/-- A client that announces 005 in two pieces, the second of which runs into its
first frame. -/
theorem announcedOnly_iff_005 :
    (∀ u', opening idMessageSize u' = opening idMessageSize [.data 48 [48], .data 53 [48]] →
      AnnouncedOnly u') ↔
      Unbroken (opening idMessageSize [.data 48 [48], .data 53 [48]]) ∧
        Acceptable ((bytesOf [.data 48 [48], .data 53 [48]]).take idMessageSize) :=
  announcedOnly_iff (by simp [opening, Flowing, idMessageSize]) (by decide)

/-- A client that announces 999 and sends a frame from 999: `add_node` rejects
the id twice, and registers the client under the 220 of the frame's `2200`. -/
theorem registered_under_frame_bytes : ¬ ∀ u, AnnouncedOnly u := by
  intro hall
  set u : List Arrival := [.data 57 ([57, 57] ++
    [57, 57, 57, 50, 50, 48, 48, 49, 50, 51, 52, 53, 54] ++ List.replicate 16 49 ++
    [48, 48, 54])] with hu
  obtain ⟨st', hserve, hid⟩ : ∃ st', serve 4 [⟨id, []⟩] ⟨twoClients, u, [], []⟩ = .ok st' ∧
      st'.sessions.getId (some 0) = 220 := ⟨_, rfl, by decide⟩
  have hsrc := hall u 4 0 twoClients [] [] [⟨id, []⟩] st' (by decide) (by decide)
    (fun c hc => by rw [List.mem_singleton.mp hc]; exact fun S => ⟨rfl, .inl rfl⟩) hserve
    (by rw [hid]; decide)
  rw [hid] at hsrc
  exact absurd hsrc (by decide)

end MessageRouting
