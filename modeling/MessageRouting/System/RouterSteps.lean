import MessageRouting.System.Addressing

/-!
The steps of the router keep the invariant of the system.

* `recv_exact`: a `recv` of the router takes exactly one packet, the id message of
  the node behind the socket or one whole data message.
* `Linked.quiet`, `Linked.recv`, `Linked.forward`, `Linked.deliver`, `Linked.accept`:
  the invariant after a step that does nothing to a channel, a `recv`, a push, a
  `send` and an `accept`.
-/

namespace MessageRouting

open Node (buildIdMessage)

variable {N T : Type} {cfg : N → Node} {w w' : World N T} {c : ℕ} {x : Connection N} {s : ℤ}
variable {st st' : RouterState T} {i : T} {pc pc' : Pc} {e : Event T} {sh sh' : Shared T}

/-- A quiet step enters an id message into the registry, or leaves the sessions as
they are. -/
lemma Step.quiet_cases (h : Step i sh pc e pc' sh') (hq : e.Quiet) :
    (sh'.sessions.heap = sh.sessions.heap ∧ (∀ s a src m, pc ≠ .addNode s a src m) ∧
      ∀ s a src m, pc' ≠ .addNode s a src m) ∨
    ∃ s a src m, pc = .addNode s a src m ∧ pc' = .turn s a src ∧
      sh' = { sh with sessions := sh.sessions.addNode s (announcedId m) } := by
  cases h with
  | addNode => exact .inr ⟨_, _, _, _, rfl, rfl, rfl⟩
  | recv_id _ _ => exact hq.elim
  | removeSrc => exact .inl ⟨Sessions.removeSession_heap, by simp, by simp⟩
  | removeDst => exact .inl ⟨Sessions.removeSession_heap, by simp, by simp⟩
  | _ => exact .inl ⟨rfl, by simp, by simp⟩

/-- A quiet step pushes nothing. -/
lemma Step.mem_queue (h : Step i sh pc e pc' sh') (hq : e.Quiet) :
    ∀ t ∈ sh'.writeQueue, t ∈ sh.writeQueue := by
  cases h with
  | forward => exact hq.elim
  | popWrite hpop =>
      intro t ht
      rw [hpop]
      exact List.mem_cons_of_mem _ ht
  | _ => exact fun t ht => ht

lemma Greeted.congr (hheap : st'.shared.sessions.heap = st.shared.sessions.heap)
    (hloc : ∀ i s a src m, st'.loc i = .addNode s a src m ↔ st.loc i = .addNode s a src m) :
    Greeted st' s ↔ Greeted st s := by
  simp only [Greeted, hheap, hloc]

/-- What holds of a thread at its location is stable under the steps of others. -/
lemma Placed.stable (hst : Standing w.router.shared)
    (hk : Keeps i w.router.shared w'.router.shared) (how : ∀ s n, Owner w s n → Owner w' s n)
    (hl : Located w.router.shared i pc) (h : Placed cfg w pc) : Placed cfg w' pc := by
  cases pc with
  | recv s a src want got =>
      refine ⟨h.1, fun hwant => ?_⟩
      subst hwant
      rw [hk.getId hst hl]
      exact h.2 rfl
  | addNode s a src m =>
      obtain ⟨n, ho, hm⟩ := h
      exact ⟨n, how s n ho, hm⟩
  | forward s a src dst m =>
      obtain ⟨z, n, hz, ho, hd⟩ := h
      obtain ⟨y, hy, hyz, -⟩ := hk.heap dst z hz
      exact ⟨y, n, hy, how _ n (hyz ▸ ho), hd⟩
  | findSession t => exact Addressed.mono how h
  | lockDst t a => exact Addressed.mono how h
  | send t a => exact Addressed.mono how h
  | _ => trivial

/-- A quiet step puts its thread where it should be. -/
lemma Step.placed (hlinked : Linked cfg w) (hst : Standing w.router.shared)
    (h : Step i w.router.shared pc e pc' w'.router.shared) (hq : e.Quiet)
    (hdst : ∀ s a src m, pc = .findDst s a src m → destinationId m ≠ NONE)
    (how : ∀ s n, Owner w s n → Owner w' s n) (hp : Placed cfg w pc) : Placed cfg w' pc' := by
  generalize hsh : w'.router.shared = sh' at h
  cases h with
  | turn_id _ => exact ⟨rfl, by simp⟩
  | turn_data hne => exact ⟨rfl, fun _ => by rw [hsh]; exact hne⟩
  | recv_id _ _ => exact hq.elim
  | recv_data _ _ => exact hq.elim
  | recv_more _ _ => exact hq.elim
  | @findDst s a src dst m hfound =>
      -- the session found carries the id it was found under, which is the id of its node
      obtain ⟨b, z, hb, hz, hid, -⟩ :=
        hst.consistent.byId _ _ (hdst s a src m rfl) hfound
      cases hb
      obtain ⟨n, ho, hnone | hn⟩ := hlinked.sessions dst z hz
      · exact absurd (hid.symm.trans hnone) (hdst s a src m rfl)
      · exact ⟨z, n, by rw [hsh]; exact hz, how _ n ho, hid.symm.trans hn⟩
  | @popWrite t q hpop =>
      exact (hlinked.queued t (by rw [hpop]; exact List.mem_cons_self)).mono how
  | findSession _ => exact Addressed.mono how hp
  | lockDst _ => exact Addressed.mono how hp
  | _ => trivial

variable [DecidableEq T]

omit [DecidableEq T] in
/-- A reader that asks for a data message has had the id message. -/
lemma greeted_of_serving {a src : Addr} (hst : Standing st.shared)
    (hl : Serving st.shared i s a src) (hid : st.shared.sessions.getId (some src) ≠ NONE) :
    Greeted st s := by
  obtain ⟨z, hz, hzs⟩ := hl.sessionOf hst
  rw [hl.2.1, Sessions.getId_of_heap hz] at hid
  exact .inl ⟨a, z, hz, hzs, hid⟩

omit [DecidableEq T] in
/-- A reader that asks for an id message is the only one, and the first. -/
lemma not_greeted_of_serving {a src : Addr} (hst : Standing st.shared)
    (hloc : ∀ i, Located st.shared i (st.loc i)) (hl : Serving st.shared i s a src)
    (hid : st.shared.sessions.getId (some src) = NONE)
    (hpc : ∀ a src m, st.loc i ≠ .addNode s a src m) : ¬ Greeted st s := by
  rintro (⟨b, z, hz, hzs, hne⟩ | ⟨j, b, src', m, hj⟩)
  · obtain rfl := SessionOf.inj hst ⟨z, hz, hzs⟩ (hl.sessionOf hst)
    rw [hl.2.1, Sessions.getId_of_heap hz] at hid
    exact hne hid
  · have hlj := hloc j
    rw [hj] at hlj
    have hba := SessionOf.inj hst (hlj.1.sessionOf hst) (hl.sessionOf hst)
    have hji : some j = some i := by rw [← hlj.1.1, ← hl.1, hba]
    cases hji
    exact hpc b src' m hj

omit [DecidableEq T] in
lemma afterRecv_full {a src : Addr} {want : Wanted} {bs : List UInt8}
    (h : afterRecv s a src want [] (.bytes bs) = some pc') (hlen : bs.length = want.size) :
    (want = .idMessage ∧ pc' = .addNode s a src bs) ∨
      (want = .dataMessage ∧ pc' = .findDst s a src bs) := by
  simp only [afterRecv, List.length_nil, Nat.zero_add, List.nil_append] at h
  split_ifs at h with hbad
  cases want with
  | idMessage => exact .inl ⟨rfl, (Option.some.inj h).symm⟩
  | dataMessage => exact .inr ⟨rfl, (Option.some.inj h).symm⟩

omit [DecidableEq T] in
/-- **The router reads in step**: a `recv` on a socket takes the id message of the
node behind it, if this was not taken before, and else one whole data message. -/
lemma recv_exact (hr : Ranged cfg) (h : Linked cfg w) (hst : Standing w.router.shared)
    (hloc : ∀ i, Located w.router.shared i (w.router.loc i)) {a src : Addr} {want : Wanted}
    {got bs : List UInt8} {k : ℕ} (hpc : w.router.loc i = .recv s a src want got)
    (hx : w.conns[c]? = some x) (hs : x.socket = some s)
    (hprop : ∀ f, .data f ∈ x.toRouter → f.Proper)
    (hrecv : recvFrom (want.size - got.length) k x.toRouter = .bytes bs)
    (hafter : afterRecv s a src want got (.bytes bs) = some pc') :
    (∃ ps, ¬ Greeted w.router s ∧
      x.toRouter = .idMessage (buildIdMessage (cfg x.node).id) :: ps ∧ AllData ps ∧
      dropBytes bs.length x.toRouter = ps ∧
      pc' = .addNode s a src (buildIdMessage (cfg x.node).id)) ∨
    (∃ f ps, Greeted w.router s ∧ x.toRouter = .data f :: ps ∧ AllData ps ∧
      dropBytes bs.length x.toRouter = ps ∧ pc' = .findDst s a src f.bytes) := by
  have hp := h.placed i
  have hl := hloc i
  rw [hpc] at hp hl
  obtain ⟨rfl, hdata⟩ := hp
  rw [List.length_nil, Nat.sub_zero] at hrecv
  have hann : Announced w.router x ↔ Greeted w.router s := by
    simp only [Announced, hs, Option.some.injEq, exists_eq_left']
  cases want with
  | idMessage =>
      have hng : ¬ Greeted w.router s :=
        not_greeted_of_serving hst hloc hl.1 hl.2 (by simp [hpc])
      rcases (h.inOrder c x hx).greeting (fun h' => hng (hann.mp h')) with
        ⟨ps, hps, hall⟩ | ⟨hnil, -⟩
      · have hlen : (Packet.idMessage (buildIdMessage (cfg x.node).id)).bytes.length = 3 :=
          hr.length_idMessage x.node
        rw [hps] at hrecv
        obtain ⟨rfl, hdrop⟩ := recvFrom_cons hlen (by omega) hrecv
        rcases afterRecv_full hafter hlen with ⟨-, rfl⟩ | ⟨hw, -⟩
        · exact .inl ⟨ps, hng, hps, hall, by rw [hps]; exact hdrop, rfl⟩
        · cases hw
      · rw [hnil] at hrecv
        exact absurd hrecv recvFrom_nil
  | dataMessage =>
      have hg : Greeted w.router s := greeted_of_serving hst hl (hdata rfl)
      have hall := (h.inOrder c x hx).greeted (hann.mpr hg)
      cases hch : x.toRouter with
      | nil =>
          rw [hch] at hrecv
          exact absurd hrecv recvFrom_nil
      | cons p ps =>
          rw [hch] at hrecv hprop hall
          obtain ⟨f, rfl⟩ := hall p List.mem_cons_self
          have hlen : (Packet.data f).bytes.length = 32 := (hprop f List.mem_cons_self).length
          obtain ⟨rfl, hdrop⟩ := recvFrom_cons hlen (by omega) hrecv
          rcases afterRecv_full hafter hlen with ⟨hw, -⟩ | ⟨-, rfl⟩
          · cases hw
          · exact .inr ⟨f, ps, hg, rfl, fun q hq => hall q (List.mem_cons_of_mem _ hq), hdrop, rfl⟩

/-- A thread that moves from and to locations without an id message in its hands. -/
lemma update_addNode_iff {loc : T → Pc} (h : ∀ s a src m, loc i ≠ .addNode s a src m)
    (h' : ∀ s a src m, pc' ≠ .addNode s a src m) (j : T) (s : ℤ) (a src : Addr) (m : List UInt8) :
    Function.update loc i pc' j = .addNode s a src m ↔ loc j = .addNode s a src m := by
  by_cases hj : j = i
  · subst hj
    simp only [Function.update_self, h, h']
  · simp only [Function.update_of_ne hj]

/-- A reader that takes an id message completes the greeting of its socket. -/
lemma greeted_take {t : ℤ} {a src : Addr} {m : List UInt8}
    (hpc : ∀ s a src m, st.loc i ≠ .addNode s a src m) :
    Greeted ⟨st.shared, Function.update st.loc i (.addNode s a src m)⟩ t ↔
      Greeted st t ∨ t = s := by
  constructor
  · rintro (hheap | ⟨j, b, src', m', hj⟩)
    · exact .inl (.inl hheap)
    · by_cases hji : j = i
      · subst hji
        simp only [Function.update_self] at hj
        exact .inr (Pc.addNode.inj hj).1.symm
      · simp only [Function.update_of_ne hji] at hj
        exact .inl (.inr ⟨j, b, src', m', hj⟩)
  · rintro ((hheap | ⟨j, b, src', m', hj⟩) | rfl)
    · exact .inl hheap
    · have hji : j ≠ i := by
        rintro rfl
        exact hpc _ _ _ _ hj
      exact .inr ⟨j, b, src', m', by simpa only [Function.update_of_ne hji] using hj⟩
    · exact .inr ⟨i, a, src, m, by simp⟩

/-- Entering an acceptable id message leaves the greeting done. -/
lemma greeted_addNode {s₀ : ℤ} {a src : Addr} {m : List UInt8}
    (hpc : st.loc i = .addNode s₀ a src m) (hst : Standing st.shared)
    (hl : Serving st.shared i s₀ a src) (hne : announcedId m ≠ NONE)
    (hlt : announcedId m < maxClientsCount) (s : ℤ) :
    Greeted ⟨{ st.shared with sessions := st.shared.sessions.addNode s₀ (announcedId m) },
      Function.update st.loc i (.turn s₀ a src)⟩ s ↔ Greeted st s := by
  have hheap := Sessions.addNode_heap hl.2.2 hlt
  obtain ⟨z₀, hz₀, hs₀⟩ := hl.sessionOf hst
  constructor
  · rintro (⟨b, z, hz, hzs, hid⟩ | ⟨j, b, src', m', hj⟩)
    · rw [hheap b] at hz
      by_cases hb : b = a
      · subst hb
        rw [if_pos rfl, hz₀] at hz
        cases hz
        exact .inr ⟨i, b, src, m, by rw [hpc, ← hzs, ← hs₀]⟩
      · rw [if_neg hb] at hz
        exact .inl ⟨b, z, hz, hzs, hid⟩
    · have hji : j ≠ i := by
        rintro rfl
        simp at hj
      simp only [Function.update_of_ne hji] at hj
      exact .inr ⟨j, b, src', m', hj⟩
  · rintro (⟨b, z, hz, hzs, hid⟩ | ⟨j, b, src', m', hj⟩)
    · by_cases hb : b = a
      · refine .inl ⟨b, { z with id := announcedId m }, ?_, hzs, hne⟩
        rw [hheap b, if_pos hb, hz, Option.map_some]
      · exact .inl ⟨b, z, by rw [hheap b, if_neg hb, hz], hzs, hid⟩
    · by_cases hji : j = i
      · subst hji
        rw [hpc] at hj
        cases hj
        refine .inl ⟨a, { z₀ with id := announcedId m }, ?_, hs₀, hne⟩
        rw [hheap a, if_pos rfl, hz₀, Option.map_some]
      · refine .inr ⟨j, b, src', m', ?_⟩
        simp only [Function.update_of_ne hji]
        exact hj

/-- A quiet step of the router keeps the invariant. -/
lemma Linked.quiet (hr : Ranged cfg) (h : Linked cfg w) (hst : Standing w.router.shared)
    (hloc : ∀ i, Located w.router.shared i (w.router.loc i))
    (hstep : Step i w.router.shared (w.router.loc i) e pc' sh') (hq : e.Quiet)
    (hdst : ∀ s a src m, w.router.loc i = .findDst s a src m → destinationId m ≠ NONE) :
    Linked cfg { w with router := ⟨sh', Function.update w.router.loc i pc'⟩ } := by
  have hid : ∀ s a src m, w.router.loc i = .addNode s a src m → ∃ n, Owner w s n ∧
      announcedId m = (cfg n).id ∧ announcedId m ≠ NONE ∧ announcedId m < maxClientsCount := by
    intro s a src m hpc
    have hp := h.placed i
    rw [hpc] at hp
    obtain ⟨n, ho, rfl⟩ := hp
    obtain ⟨⟨h₀, h₁⟩, -⟩ := hr n
    rw [hr.announcedId n]
    exact ⟨n, ho, rfl, by simp only [NONE]; omega, by simp only [maxClientsCount]; omega⟩
  have hgreet : ∀ s, Greeted ⟨sh', Function.update w.router.loc i pc'⟩ s ↔ Greeted w.router s := by
    intro s
    rcases hstep.quiet_cases hq with ⟨hheap, h₁, h₂⟩ | ⟨s₀, a, src, m, hpc, rfl, rfl⟩
    · exact Greeted.congr hheap (update_addNode_iff h₁ h₂)
    · obtain ⟨n, -, -, hne, hlt⟩ := hid s₀ a src m hpc
      have hl := hloc i
      rw [hpc] at hl
      exact greeted_addNode hpc hst hl.1 hne hlt s
  refine ⟨?_, h.distinct, ?_, h.nodes, h.running, ?_, ?_, ?_⟩
  · intro n s hmem
    show s ∈ sh'.opened
    rw [hstep.opened]
    exact h.opened n s hmem
  · intro b z hz
    rcases hstep.quiet_cases hq with ⟨hheap, -, -⟩ | ⟨s₀, a, src, m, hpc, rfl, rfl⟩
    · rw [show ({ w with router := ⟨sh', Function.update w.router.loc i pc'⟩ } :
        World N T).router.shared.sessions.heap = w.router.shared.sessions.heap from hheap] at hz
      exact h.sessions b z hz
    · obtain ⟨n, ho, hn, -, hlt⟩ := hid s₀ a src m hpc
      have hl := hloc i
      rw [hpc] at hl
      obtain ⟨z₀, hz₀, hs₀⟩ := hl.1.sessionOf hst
      have hz' := (Sessions.addNode_heap hl.1.2.2 hlt b).symm.trans hz
      by_cases hb : b = a
      · rw [if_pos hb, hb, hz₀] at hz'
        cases hz'
        exact ⟨n, by rw [hs₀]; exact ho, .inr hn⟩
      · rw [if_neg hb] at hz'
        exact h.sessions b z hz'
  · intro c x hx
    refine (h.inOrder c x hx).congr ?_ fun n hn => ⟨hn, .refl _⟩
    simp only [Announced, hgreet]
  · intro j
    by_cases hj : j = i
    · subst hj
      show Placed cfg _ (Function.update w.router.loc j pc' j)
      rw [Function.update_self]
      exact Step.placed h hst hstep hq hdst (fun _ _ ho => ho) (h.placed j)
    · show Placed cfg _ (Function.update w.router.loc i pc' j)
      rw [Function.update_of_ne hj]
      exact (h.placed j).stable hst ((hstep.located hst (hloc i)).2.2 j hj) (fun _ _ ho => ho)
        (hloc j)
  · intro t ht
    exact h.queued t (hstep.mem_queue hq t ht)

/-- A `recv` of the router keeps the invariant. -/
lemma Linked.recv (hr : Ranged cfg) (h : Linked cfg w) (hst : Standing w.router.shared)
    (hloc : ∀ i, Located w.router.shared i (w.router.loc i)) {a src : Addr} {want : Wanted}
    {got bs : List UInt8} {k : ℕ} (hpc : w.router.loc i = .recv s a src want got)
    (hb : w.behind s = some c) (hx : w.conns[c]? = some x)
    (hprop : ∀ f, .data f ∈ x.toRouter → f.Proper)
    (hrecv : recvFrom (want.size - got.length) k x.toRouter = .bytes bs)
    (hafter : afterRecv s a src want got (.bytes bs) = some pc') :
    Linked cfg { w with
      router := ⟨w.router.shared, Function.update w.router.loc i pc'⟩
      conns := w.conns.modify c fun x => { x with toRouter := dropBytes bs.length x.toRouter }
      inHand := Function.update w.inHand i (answeredAtHead x.toRouter) } := by
  have hs : x.socket = some s := by
    obtain ⟨y, hy, hys⟩ := behind_eq_some hb
    rw [hx] at hy
    cases hy
    exact hys
  have hno : ∀ s a src m, w.router.loc i ≠ .addNode s a src m := by simp [hpc]
  have hexact := recv_exact hr h hst hloc hpc hx hs hprop hrecv hafter
  -- the greeting of this socket is complete now, that of the others is as before
  have hgreet : ∀ t, Greeted ⟨w.router.shared, Function.update w.router.loc i pc'⟩ t ↔
      Greeted w.router t ∨ t = s := by
    intro t
    rcases hexact with ⟨ps, -, -, -, -, rfl⟩ | ⟨f, ps, hg, -, -, -, rfl⟩
    · exact greeted_take hno
    · have hsame : Greeted ⟨w.router.shared, Function.update w.router.loc i
          (.findDst s a src f.bytes)⟩ t ↔ Greeted w.router t :=
        Greeted.congr rfl (update_addNode_iff hno (by simp))
      rw [hsame]
      constructor
      · exact .inl
      · rintro (ht | rfl)
        · exact ht
        · exact hg
  have hold := h.inOrder c x hx
  refine h.of_channels (wires_modify rfl fun _ => rfl) rfl ?_ (fun n hn => ⟨rfl, hn⟩) h.running ?_
  · intro j
    by_cases hj : j = i
    · subst hj
      show Placed cfg w (Function.update w.router.loc j pc' j)
      rw [Function.update_self]
      rcases hexact with ⟨ps, -, -, -, -, rfl⟩ | ⟨f, ps, -, -, -, -, rfl⟩
      · exact ⟨x.node, owner_of_getElem? hx hs, rfl⟩
      · trivial
    · show Placed cfg w (Function.update w.router.loc i pc' j)
      rw [Function.update_of_ne hj]
      exact h.placed j
  · refine inOrder_modify rfl ?_ ?_
    · intro y hy
      rw [hx] at hy
      cases hy
      have hne : x.toRouter ≠ [] := by
        rcases hexact with ⟨ps, -, hps, -⟩ | ⟨f, ps, -, hps, -⟩ <;> simp [hps]
      have hann : Announced ⟨w.router.shared, Function.update w.router.loc i pc'⟩
          { x with toRouter := dropBytes bs.length x.toRouter } :=
        ⟨s, hs, (hgreet s).mpr (.inr rfl)⟩
      refine ⟨fun _ => ?_, fun hnot => absurd hann hnot, fun n k hpl hsock => ?_, hold.toNode⟩
      · rcases hexact with ⟨ps, -, -, hall, hdrop, -⟩ | ⟨f, ps, -, -, hall, hdrop, -⟩
        · exact hdrop ▸ hall
        · exact hdrop ▸ hall
      · exact absurd (hold.fresh n k hpl hsock).2 hne
    · intro d y hd hy
      refine (h.inOrder d y hy).congr ?_ fun n hn => ⟨hn, .refl _⟩
      simp only [Announced, hgreet]
      refine exists_congr fun t => and_congr_right fun ht => or_iff_left ?_
      rintro rfl
      -- two connections never have one descriptor
      have hwd := wire_of_getElem? hy
      have hwc := wire_of_getElem? hx
      rw [Connection.wire, ht] at hwd
      rw [Connection.wire, hs] at hwc
      exact hd (h.distinct d c _ _ t hwd hwc)

/-- A push keeps the invariant. -/
lemma Linked.forward (h : Linked cfg w) (hst : Standing w.router.shared)
    (hloc : ∀ i, Located w.router.shared i (w.router.loc i)) {a src dst : Addr} {m : List UInt8}
    (hpc : w.router.loc i = .forward s a src dst m) :
    Linked cfg { w with
      router := ⟨w.router.shared.push (w.router.shared.task dst m),
        Function.update w.router.loc i (.turn s a src)⟩
      queued := Function.update w.queued w.router.shared.pushes (w.inHand i) } := by
  refine ⟨h.opened, h.distinct, h.sessions, h.nodes, h.running, ?_, ?_, ?_⟩
  · intro c x hx
    refine (h.inOrder c x hx).congr ?_ fun n hn => ⟨hn, .refl _⟩
    refine exists_congr fun t => and_congr_right fun _ => ?_
    exact Greeted.congr rfl (update_addNode_iff (by simp [hpc]) (by simp))
  · intro j
    by_cases hj : j = i
    · subst hj
      show Placed cfg _ (Function.update w.router.loc j (.turn s a src) j)
      rw [Function.update_self]
      trivial
    · show Placed cfg _ (Function.update w.router.loc i (.turn s a src) j)
      rw [Function.update_of_ne hj]
      exact (h.placed j).stable hst (.of_eq rfl rfl rfl) (fun _ _ ho => ho) (hloc j)
  · intro t ht
    rcases List.mem_append.mp ht with ht | ht
    · exact h.queued t ht
    · -- the new task goes to the session that was found for its destination
      rw [List.mem_singleton.mp ht]
      have hp := h.placed i
      rw [hpc] at hp
      obtain ⟨z, n, hz, ho, hd⟩ := hp
      refine ⟨n, ?_, hd⟩
      show Owner w (w.router.shared.sessions.getSocket (some dst)) n
      rw [Sessions.getSocket_of_heap hz]
      exact ho

omit [DecidableEq T] in
lemma InOrder.setToNode {ps : List Packet} (h : InOrder cfg w c x)
    (hps : ∀ p ∈ ps, ∃ f, p = .data f ∧ destinationId f.bytes = (cfg x.node).id) :
    InOrder cfg w c { x with toNode := ps } :=
  ⟨h.greeted, h.greeting, h.fresh, hps⟩

/-- A `send` of the router keeps the invariant: the message is for the node behind
the socket. -/
lemma Linked.deliver (h : Linked cfg w) {t : Task} {a : Addr} {k : ℕ}
    (hpc : w.router.loc i = .send t a) (hb : w.behind t.socket = some c) :
    Linked cfg { w with
      router := ⟨w.router.shared, Function.update w.router.loc i (.unlockDst t a)⟩
      conns := w.conns.modify c fun x => x.sendToNode (.data ⟨t.msg, k⟩) } := by
  have hp := h.placed i
  rw [hpc] at hp
  obtain ⟨n, ho, hd⟩ := hp
  have hann : ∀ y : Connection N, Announced ⟨w.router.shared,
      Function.update w.router.loc i (.unlockDst t a)⟩ y ↔ Announced w.router y := by
    intro y
    refine exists_congr fun s => and_congr_right fun _ => ?_
    exact Greeted.congr rfl (update_addNode_iff (by simp [hpc]) (by simp))
  have hcongr : ∀ (d : ℕ) y, w.conns[d]? = some y → InOrder cfg { w with
      router := ⟨w.router.shared, Function.update w.router.loc i (.unlockDst t a)⟩
      conns := w.conns.modify c fun x => x.sendToNode (.data ⟨t.msg, k⟩) } d y := fun d y hy =>
    (h.inOrder d y hy).congr (hann y) fun n hn => ⟨hn, .refl _⟩
  refine h.of_channels (wires_modify rfl fun y => ?_) rfl ?_ (fun n hn => ⟨rfl, hn⟩) h.running ?_
  · rw [Connection.sendToNode]
    split_ifs
    · rfl
    · rfl
  · intro j
    by_cases hj : j = i
    · subst hj
      show Placed cfg w (Function.update w.router.loc j (.unlockDst t a) j)
      rw [Function.update_self]
      trivial
    · show Placed cfg w (Function.update w.router.loc i (.unlockDst t a) j)
      rw [Function.update_of_ne hj]
      exact h.placed j
  · refine inOrder_modify rfl (fun y hy => ?_) fun d y _ hy => hcongr d y hy
    obtain ⟨z, hz, hs⟩ := behind_eq_some hb
    obtain rfl : z = y := Option.some.inj (hz.symm.trans hy)
    have hnode : z.node = n := h.node_eq hy hs ho
    rw [Connection.sendToNode]
    split_ifs with hup
    · refine (hcongr c z hy).setToNode fun p hp => ?_
      rcases List.mem_append.mp hp with hp | hp
      · exact (h.inOrder c z hy).toNode p hp
      · exact ⟨_, List.mem_singleton.mp hp, by rw [hnode]; exact hd⟩
    · exact hcongr c z hy

omit [DecidableEq T] in
lemma Linked.readable (h : Linked cfg w) {q : List ℤ} :
    Linked cfg { w with router := ⟨{ w.router.shared with readQueue := q }, w.router.loc⟩ } := by
  refine ⟨h.opened, h.distinct, h.sessions, h.nodes, h.running, fun c x hx => ?_, h.placed,
    h.queued⟩
  exact (h.inOrder c x hx).congr Iff.rfl fun n hn => ⟨hn, .refl _⟩

omit [DecidableEq T] in
/-- A new session has no id. -/
lemma greeted_accept {S : Sessions} {o : List ℤ} {t : ℤ}
    (hS : st.shared.sessions.acceptClient s = some S) :
    Greeted ⟨{ st.shared with sessions := S, opened := o }, st.loc⟩ t ↔ Greeted st t := by
  obtain ⟨-, -, -, -, hheap⟩ := Sessions.acceptClient_spec hS
  refine or_congr_left ⟨?_, ?_⟩
  · rintro ⟨a, z, hz, hzs, hid⟩
    have hz' : S.heap[a]? = some z := hz
    rw [hheap, List.getElem?_append] at hz'
    split_ifs at hz' with hlt
    · exact ⟨a, z, hz', hzs, hid⟩
    · rw [List.getElem?_singleton, Option.ite_none_right_eq_some] at hz'
      obtain ⟨-, hnew⟩ := hz'
      cases hnew
      exact absurd rfl hid
  · rintro ⟨a, z, hz, hzs, hid⟩
    exact ⟨a, z, Sessions.acceptClient_heap hS hz, hzs, hid⟩

omit [DecidableEq T] in
/-- Nobody has greeted on a descriptor that is not open. -/
lemma not_greeted_of_not_opened (hst : Standing st.shared)
    (hloc : ∀ i, Located st.shared i (st.loc i)) (hnew : s ∉ st.shared.opened) :
    ¬ Greeted st s := by
  rintro (⟨a, z, hz, rfl, -⟩ | ⟨j, a, src, m, hj⟩)
  · exact hnew (hst.opened a z hz)
  · have hl := hloc j
    rw [hj] at hl
    obtain ⟨z, hz, rfl⟩ := hl.1.sessionOf hst
    exact hnew (hst.opened a z hz)

omit [DecidableEq T] in
/-- An accepted connection keeps the invariant. -/
lemma Linked.accept (h : Linked cfg w) (hst : Standing w.router.shared)
    (hloc : ∀ i, Located w.router.shared i (w.router.loc i)) {S : Sessions}
    (hx : w.conns[c]? = some x) (hfree : x.socket = none) (hnew : s ∉ w.router.shared.opened)
    (hS : w.router.shared.sessions.acceptClient s = some S) :
    Linked cfg { w with
      router := ⟨{ w.router.shared with sessions := S, opened := s :: w.router.shared.opened },
        w.router.loc⟩
      conns := w.conns.modify c fun x => { x with socket := some s } } := by
  obtain ⟨-, -, -, -, hheap⟩ := Sessions.acceptClient_spec hS
  -- the entries are the old ones, and the one of the new descriptor
  have hwires : ∀ (d : ℕ) m t, ((w.conns.modify c fun x => { x with socket := some s }).map
      Connection.wire)[d]? = some (m, some t) ↔
      (d ≠ c ∧ w.wires[d]? = some (m, some t)) ∨ (d = c ∧ m = x.node ∧ t = s) := by
    intro d m t
    rw [List.getElem?_map, List.getElem?_modify]
    by_cases hcd : c = d
    · subst hcd
      simp [hx, Connection.wire, eq_comm]
    · simp [hcd, Ne.symm hcd, World.wires]
  have hc : w.wires[c]? = some (x.node, none) := by
    rw [wire_of_getElem? hx, Connection.wire, hfree]
  have how : ∀ t m, Owner w t m → (m, some t) ∈
      (w.conns.modify c fun x => { x with socket := some s }).map Connection.wire := by
    intro t m ho
    obtain ⟨d, hd⟩ := List.mem_iff_getElem?.mp ho
    have hdc : d ≠ c := by
      rintro rfl
      rw [hc] at hd
      cases hd
    exact List.mem_of_getElem? ((hwires d m t).mpr (.inl ⟨hdc, hd⟩))
  have hne : ∀ (d : ℕ) m t, w.wires[d]? = some (m, some t) → t ≠ s := by
    rintro d m t hd rfl
    exact hnew (h.opened m t (List.mem_of_getElem? hd))
  have hannounced : ∀ y : Connection N, Announced ⟨{ w.router.shared with
      sessions := S, opened := s :: w.router.shared.opened }, w.router.loc⟩ y ↔
      Announced w.router y :=
    fun y => exists_congr fun t => and_congr_right fun _ => greeted_accept hS
  refine ⟨?_, ?_, ?_, ?_, h.running, ?_, ?_, ?_⟩
  · intro m t hmem
    obtain ⟨d, hd⟩ := List.mem_iff_getElem?.mp hmem
    rcases (hwires d m t).mp hd with ⟨-, hold⟩ | ⟨-, -, rfl⟩
    · exact List.mem_cons_of_mem _ (h.opened m t (List.mem_of_getElem? hold))
    · exact List.mem_cons_self
  · intro d d' m m' t hd hd'
    rcases (hwires d m t).mp hd with ⟨-, hold⟩ | ⟨rfl, -, rfl⟩
    · rcases (hwires d' m' t).mp hd' with ⟨-, hold'⟩ | ⟨-, -, rfl⟩
      · exact h.distinct d d' m m' t hold hold'
      · exact absurd rfl (hne d m t hold)
    · rcases (hwires d' m' t).mp hd' with ⟨-, hold'⟩ | ⟨rfl, -, -⟩
      · exact absurd rfl (hne d' m' t hold')
      · rfl
  · intro a z hz
    have hz' : S.heap[a]? = some z := hz
    rw [hheap, List.getElem?_append] at hz'
    split_ifs at hz' with hlt
    · obtain ⟨m, ho, hid⟩ := h.sessions a z hz'
      exact ⟨m, how _ m ho, hid⟩
    · rw [List.getElem?_singleton, Option.ite_none_right_eq_some] at hz'
      obtain ⟨-, hz'⟩ := hz'
      cases hz'
      have hwire := (hwires c x.node s).mpr (.inr ⟨rfl, rfl, rfl⟩)
      exact ⟨x.node, List.mem_of_getElem? hwire, .inl rfl⟩
  · intro m hm
    obtain ⟨o, ho⟩ := h.nodes m hm
    show ∃ o, ((w.conns.modify c fun x => { x with socket := some s }).map
      Connection.wire)[(w.nodes m).socket]? = some (m, o)
    by_cases hcm : c = (w.nodes m).socket
    · rw [← hcm, hc] at ho
      cases ho
      exact ⟨some s, hcm ▸ (hwires c x.node s).mpr (.inr ⟨rfl, rfl, rfl⟩)⟩
    · refine ⟨o, ?_⟩
      rw [List.getElem?_map, List.getElem?_modify_ne _ _ hcm]
      rwa [World.wires, List.getElem?_map] at ho
  · refine inOrder_modify rfl (fun y hy => ?_) fun d y _ hy =>
      (h.inOrder d y hy).congr (hannounced y) fun m hm => ⟨hm, .refl _⟩
    obtain rfl : x = y := Option.some.inj (hx.symm.trans hy)
    have hold := h.inOrder c x hx
    have hbefore : ¬ Announced w.router x := by
      rintro ⟨t, ht, -⟩
      rw [hfree] at ht
      cases ht
    have hafter : ¬ Announced ⟨{ w.router.shared with
        sessions := S, opened := s :: w.router.shared.opened }, w.router.loc⟩
        { x with socket := some s } := by
      rintro ⟨t, ht, hg⟩
      cases ht
      exact not_greeted_of_not_opened hst hloc hnew ((greeted_accept hS).mp hg)
    exact ⟨fun ha => absurd ha hafter, fun _ => hold.greeting hbefore,
      fun m k hm hs => ⟨hafter, (hold.fresh m k hm hs).2⟩, hold.toNode⟩
  · intro j
    exact Placed.stable (w := w) hst (.accept hS) how (hloc j) (h.placed j)
  · exact fun t ht => Addressed.mono (w := w) how (h.queued t ht)

end MessageRouting
