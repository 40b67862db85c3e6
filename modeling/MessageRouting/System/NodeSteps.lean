import MessageRouting.System.RouterSteps

/-!
The steps of the nodes keep the invariant of the system, and so does the break of
a connection.

* `answer_exact`: a `recv` of a node takes exactly one data message, and the node
  has an answer to it.
* `Linked.slip`, `Linked.connect`, `Linked.send`, `Linked.answer`, `Linked.cut`: the
  invariant after a failed call, a new connection, a `send`, a `recv` and a break.
* `Linked.step`: every step of the system keeps the invariant, as long as the data
  messages under way are proper.
-/

namespace MessageRouting

open Node (msgLen buildIdMessage)

variable {N T : Type} {cfg : N → Node} {w w' : World N T} {c : ℕ} {x : Connection N} {s : ℤ}
  [DecidableEq N] {n : N}

omit [DecidableEq N] in
/-- The connection of a node is its own. -/
lemma Linked.node_of_socket (h : Linked cfg w) (hn : (w.nodes n).place.Connected)
    (hx : w.conns[(w.nodes n).socket]? = some x) : x.node = n := by
  obtain ⟨o, ho⟩ := h.nodes n hn
  rw [wire_of_getElem? hx] at ho
  exact (Prod.mk.inj (Option.some.inj ho)).1

/-- The nodes after one of them moved without a promise. -/
lemma follows_update {pl : Node.Place} (hf : (w.nodes n).place.Follows pl) (m : N) :
    (Function.update w.nodes n { w.nodes n with place := pl } m).socket = (w.nodes m).socket ∧
      (w.nodes m).place.Follows
        (Function.update w.nodes n { w.nodes n with place := pl } m).place := by
  by_cases hm : m = n
  · subst hm
    simp only [Function.update_self]
    exact ⟨trivial, hf⟩
  · simp only [Function.update_of_ne hm]
    exact ⟨trivial, .refl _⟩

/-- A node that slips keeps the invariant. -/
lemma Linked.slip (h : Linked cfg w) {pl : Node.Place} (hs : Node.Slip (w.nodes n).place pl) :
    Linked cfg { w with nodes := Function.update w.nodes n { w.nodes n with place := pl } } := by
  have hf := follows_update hs.follows
  refine h.of_channels rfl rfl h.placed (fun m hm => ⟨(hf m).1, (hf m).2.connected hm⟩)
    (fun m hm => h.running m ((hf m).2.running hm)) fun c x hx => ?_
  exact (h.inOrder c x hx).congr Iff.rfl fun m hm => ⟨(hf m).1 ▸ hm, (hf m).2⟩

/-- A new connection keeps the invariant. -/
lemma Linked.connect (h : Linked cfg w) :
    Linked cfg { w with
      conns := w.conns ++ [.new n]
      nodes := Function.update w.nodes n ⟨.send .subscribe 0, w.conns.length⟩ } := by
  have hwires : (w.conns ++ [Connection.new n]).map Connection.wire = w.wires ++ [(n, none)] := by
    rw [List.map_append]
    rfl
  have hlen : w.wires.length = w.conns.length := List.length_map _
  -- an entry with a descriptor is an old one
  have hold : ∀ (c : ℕ) m s, (w.wires ++ [(n, none)])[c]? = some (m, some s) →
      w.wires[c]? = some (m, some s) := by
    intro c m s hc
    rw [List.getElem?_append] at hc
    split_ifs at hc with hlt
    · exact hc
    · have hmem := List.mem_of_getElem? hc
      simp at hmem
  have hsocket : ∀ m, (w.nodes m).place.Connected → (w.nodes m).socket < w.conns.length := by
    intro m hm
    obtain ⟨o, ho⟩ := h.nodes m hm
    rw [← hlen]
    exact (List.getElem?_eq_some_iff.mp ho).1
  have how : ∀ s m, Owner w s m →
      (m, some s) ∈ (w.conns ++ [Connection.new n]).map Connection.wire := by
    intro s m ho
    rw [hwires]
    exact List.mem_append_left _ ho
  refine ⟨?_, ?_, ?_, ?_, ?_, ?_, ?_, ?_⟩
  · intro m s hmem
    obtain ⟨c, hc⟩ := List.mem_iff_getElem?.mp hmem
    exact h.opened m s (List.mem_of_getElem? (hold c m s (hwires ▸ hc)))
  · intro c d m m' s hc hd
    exact h.distinct c d m m' s (hold c m s (hwires ▸ hc)) (hold d m' s (hwires ▸ hd))
  · intro a z hz
    obtain ⟨m, ho, hid⟩ := h.sessions a z hz
    exact ⟨m, how _ m ho, hid⟩
  · intro m hm
    show ∃ o, ((w.conns ++ [Connection.new n]).map Connection.wire)[_]? = _
    rw [hwires]
    by_cases hmn : m = n
    · subst hmn
      exact ⟨none, by simp [← hlen]⟩
    · simp only [Function.update_of_ne hmn] at hm ⊢
      obtain ⟨o, ho⟩ := h.nodes m hm
      exact ⟨o, by rw [List.getElem?_append_left (hlen ▸ hsocket m hm)]; exact ho⟩
  · intro m
    by_cases hmn : m = n
    · subst hmn
      simp
    · simp only [Function.update_of_ne hmn]
      exact h.running m
  · intro d x hx
    have hx' : (w.conns ++ [Connection.new n])[d]? = some x := hx
    rw [List.getElem?_append] at hx'
    split_ifs at hx' with hlt
    · refine (h.inOrder d x hx').congr Iff.rfl fun m hm => ?_
      by_cases hmn : m = n
      · subst hmn
        simp only [Function.update_self] at hm
        omega
      · simp only [Function.update_of_ne hmn] at hm ⊢
        exact ⟨hm, .refl _⟩
    · rw [List.getElem?_singleton, Option.ite_none_right_eq_some] at hx'
      obtain ⟨hd, hnew⟩ := hx'
      cases hnew
      have hnot : ¬ Announced w.router (Connection.new n) := by
        rintro ⟨s, hs, -⟩
        cases hs
      refine ⟨fun ha => absurd ha hnot, fun _ => .inr ⟨rfl, fun _ m hm hsub => ?_⟩,
        fun _ _ _ _ => ⟨hnot, rfl⟩, by simp [Connection.new]⟩
      by_cases hmn : m = n
      · subst hmn
        simp only [Function.update_self] at hsub
        exact hsub
      · simp only [Function.update_of_ne hmn] at hm hsub
        have := hsocket m hsub.connected
        omega
  · exact fun i => Placed.mono (w := w) rfl how (h.placed i)
  · exact fun t ht => Addressed.mono (w := w) how (h.queued t ht)

omit [DecidableEq N] in
/-- Two nodes never share a connection. -/
lemma Linked.socket_ne {m : N} (h : Linked cfg w) (hm : (w.nodes m).place.Connected)
    (hn : (w.nodes n).place.Connected) (hmn : m ≠ n) : (w.nodes m).socket ≠ (w.nodes n).socket := by
  intro heq
  obtain ⟨o, ho⟩ := h.nodes m hm
  obtain ⟨o', ho'⟩ := h.nodes n hn
  rw [heq, ho'] at ho
  exact hmn (Prod.mk.inj (Option.some.inj ho)).1.symm

lemma Node.afterSent_subscribed (node : Node) (p : Node.Purpose) :
    (node.afterSent p).Subscribed := by
  cases p with
  | subscribe =>
      rw [Node.afterSent]
      split_ifs
      · trivial
      · trivial
  | _ => trivial

lemma AllData.append {ps : List Packet} (h : AllData ps) (f : Frame) :
    AllData (ps ++ [.data f]) := by
  intro p hp
  rcases List.mem_append.mp hp with hp | hp
  · exact h p hp
  · exact ⟨f, List.mem_singleton.mp hp⟩

omit [DecidableEq N] in
/-- What a node sends on a connection that is up goes behind its id message, which
is the first thing it sends. -/
lemma InOrder.sendToRouter (h : InOrder cfg w (w.nodes n).socket x) (hnode : x.node = n)
    (hup : x.up = true) {p : Node.Purpose} {k : ℕ} (hpl : (w.nodes n).place = .send p k) :
    (Announced w.router x → AllData (x.toRouter ++ [w.packet cfg n p])) ∧
    (¬ Announced w.router x → ∃ ps, x.toRouter ++ [w.packet cfg n p] =
      .idMessage (buildIdMessage (cfg x.node).id) :: ps ∧ AllData ps) := by
  by_cases hp : p = .subscribe
  · subst hp
    obtain ⟨hann, hnil⟩ := h.fresh n k hpl rfl
    refine ⟨fun ha => absurd ha hann, fun _ => ⟨[], ?_, by simp [AllData]⟩⟩
    rw [hnil, hnode]
    rfl
  · obtain ⟨f, hf⟩ : ∃ f, w.packet cfg n p = .data f := by
      cases p with
      | subscribe => exact absurd rfl hp
      | initiate => exact ⟨_, rfl⟩
      | reply m => exact ⟨_, rfl⟩
    have hsub : (w.nodes n).place.Subscribed := by
      rw [hpl]
      cases p with
      | subscribe => exact hp rfl
      | _ => trivial
    rw [hf]
    refine ⟨fun ha => (h.greeted ha).append f, fun ha => ?_⟩
    rcases h.greeting ha with ⟨ps, hps, hall⟩ | ⟨-, hnone⟩
    · exact ⟨ps ++ [.data f], by rw [hps]; rfl, hall.append f⟩
    · exact absurd hsub (hnone hup n rfl)

/-- A `send` of a node keeps the invariant. -/
lemma Linked.send (h : Linked cfg w) {p : Node.Purpose} {k j : ℕ}
    (hpl : (w.nodes n).place = .send p k) :
    Linked cfg { w with
      conns := w.conns.modify (w.nodes n).socket fun x => x.sendToRouter (w.packet cfg n p)
      initiated := j
      nodes := Function.update w.nodes n { w.nodes n with place := (cfg n).afterSent p } } := by
  have hcon : (w.nodes n).place.Connected := by
    rw [hpl]
    trivial
  have hafter := (cfg n).afterSent_subscribed p
  refine h.of_channels (wires_modify rfl fun y => ?_) rfl h.placed ?_ ?_ ?_
  · rw [Connection.sendToRouter]
    split_ifs
    · rfl
    · rfl
  · intro m hm
    by_cases hmn : m = n
    · subst hmn
      simp only [Function.update_self]
      exact ⟨trivial, hcon⟩
    · simp only [Function.update_of_ne hmn] at hm ⊢
      exact ⟨trivial, hm⟩
  · intro m
    by_cases hmn : m = n
    · subst hmn
      simp only [Function.update_self]
      intro hs
      rw [hs] at hafter
      exact hafter
    · simp only [Function.update_of_ne hmn]
      exact h.running m
  · refine inOrder_modify rfl (fun y hy => ?_) fun d y hd hy => ?_
    · have hnode := h.node_of_socket hcon hy
      have hold := h.inOrder _ y hy
      -- no node is about to announce itself on this connection any more
      have hfresh : ∀ m k, (Function.update w.nodes n
          { w.nodes n with place := (cfg n).afterSent p } m).place = .send .subscribe k →
          (Function.update w.nodes n { w.nodes n with place := (cfg n).afterSent p } m).socket ≠
            (w.nodes n).socket := by
        intro m k hm
        by_cases hmn : m = n
        · subst hmn
          simp only [Function.update_self] at hm
          rw [hm] at hafter
          exact hafter.elim
        · simp only [Function.update_of_ne hmn] at hm ⊢
          exact h.socket_ne (by rw [hm]; trivial) hcon hmn
      rw [Connection.sendToRouter]
      split_ifs with hup
      · obtain ⟨hdata, hid⟩ := hold.sendToRouter hnode hup hpl
        exact ⟨hdata, fun hann => .inl (hid hann), fun m k hm hs => absurd hs (hfresh m k hm),
          hold.toNode⟩
      · refine ⟨hold.greeted, fun hann => ?_, fun m k hm hs => absurd hs (hfresh m k hm),
          hold.toNode⟩
        rcases hold.greeting hann with hps | ⟨hnil, -⟩
        · exact .inl hps
        · exact .inr ⟨hnil, fun h' => absurd h' hup⟩
    · refine (h.inOrder d y hy).congr Iff.rfl fun m hm => ?_
      by_cases hmn : m = n
      · subst hmn
        simp only [Function.update_self] at hm
        exact absurd hm.symm hd
      · simp only [Function.update_of_ne hmn] at hm ⊢
        exact ⟨hm, .refl _⟩

omit [DecidableEq N] in
/-- **A node reads in step**: a `recv` takes one whole data message, which is for the
node, and the node has an answer to it. -/
lemma answer_exact (h : Linked cfg w) (hpl : (w.nodes n).place = .receive)
    (hx : w.conns[(w.nodes n).socket]? = some x) (hprop : ∀ f, .data f ∈ x.toNode → f.Proper)
    {k : ℕ} {bs : List UInt8} (hrecv : recvFrom msgLen k x.toNode = .bytes bs) :
    ∃ f ps reply, x.toNode = .data f :: ps ∧ dropBytes bs.length x.toNode = ps ∧
      Node.processMessage (destinationId f.bytes) f.bytes msgLen = .ok reply ∧
      (⟨reply, f.answered + 1⟩ : Frame).Proper ∧
      (cfg n).afterReceived (.bytes bs) = .send (.reply reply) 0 := by
  have hnode := h.node_of_socket (by rw [hpl]; trivial) hx
  cases hch : x.toNode with
  | nil =>
      rw [hch] at hrecv
      exact absurd hrecv recvFrom_nil
  | cons p ps =>
      have hto := (h.inOrder _ x hx).toNode
      rw [hch] at hrecv hprop hto
      obtain ⟨f, rfl, hd⟩ := hto p List.mem_cons_self
      have hf := hprop f List.mem_cons_self
      have hlen : (Packet.data f).bytes.length = msgLen := hf.length
      obtain ⟨rfl, hdrop⟩ := recvFrom_cons hlen (by simp [msgLen]) hrecv
      obtain ⟨reply, hreply, hproper⟩ := hf.answer
      refine ⟨f, ps, reply, rfl, hdrop, hreply, hproper, ?_⟩
      rw [hd, hnode] at hreply
      have hbs : f.bytes.length = msgLen := hlen
      simp only [Node.afterReceived, Packet.bytes, hbs, if_true, hreply]

/-- A `recv` of a node keeps the invariant. -/
lemma Linked.answer (h : Linked cfg w) (hpl : (w.nodes n).place = .receive)
    (hx : w.conns[(w.nodes n).socket]? = some x) (hprop : ∀ f, .data f ∈ x.toNode → f.Proper)
    {k : ℕ} {bs : List UInt8} (hrecv : recvFrom msgLen k x.toNode = .bytes bs) {j : N → ℕ} :
    Linked cfg { w with
      conns := w.conns.modify (w.nodes n).socket fun x =>
        { x with toNode := dropBytes bs.length x.toNode }
      reply := j
      nodes := Function.update w.nodes n
        { w.nodes n with place := (cfg n).afterReceived (.bytes bs) } } := by
  obtain ⟨f, ps, reply, hch, hdrop, -, -, hafter⟩ := answer_exact h hpl hx hprop hrecv
  have hf : (w.nodes n).place.Follows ((cfg n).afterReceived (.bytes bs)) := by
    rw [hafter, hpl]
    exact ⟨fun _ => trivial, by simp, fun _ => trivial, by simp⟩
  have hfollows := follows_update hf
  have hcongr : ∀ (d : ℕ) y, w.conns[d]? = some y → InOrder cfg { w with
      conns := w.conns.modify (w.nodes n).socket fun x =>
        { x with toNode := dropBytes bs.length x.toNode }
      reply := j
      nodes := Function.update w.nodes n
        { w.nodes n with place := (cfg n).afterReceived (.bytes bs) } } d y := fun d y hy =>
    (h.inOrder d y hy).congr Iff.rfl fun m hm => ⟨(hfollows m).1 ▸ hm, (hfollows m).2⟩
  refine h.of_channels (wires_modify rfl fun y => rfl) rfl h.placed
    (fun m hm => ⟨(hfollows m).1, (hfollows m).2.connected hm⟩)
    (fun m hm => h.running m ((hfollows m).2.running hm))
    (inOrder_modify rfl (fun y hy => ?_) fun d y _ hy => hcongr d y hy)
  obtain rfl : x = y := Option.some.inj (hx.symm.trans hy)
  refine (hcongr _ x hy).setToNode fun p hp => (h.inOrder _ x hy).toNode p ?_
  rw [hdrop] at hp
  rw [hch]
  exact List.mem_cons_of_mem _ hp

omit [DecidableEq N] in
/-- A broken connection keeps the invariant. -/
lemma Linked.cut (h : Linked cfg w) {k l : ℕ} :
    Linked cfg { w with conns := w.conns.modify c fun x => x.cut k l } := by
  refine h.of_channels (wires_modify rfl fun y => rfl) rfl h.placed (fun m hm => ⟨rfl, hm⟩)
    h.running
    (inOrder_modify rfl (fun y hy => ?_) fun d y _ hy =>
      (h.inOrder d y hy).congr Iff.rfl fun m hm => ⟨hm, .refl _⟩)
  have hold := h.inOrder c y hy
  refine ⟨fun ha p hp => hold.greeted ha p (List.mem_of_mem_take hp), fun ha => ?_,
    fun m k' hm hs => ?_, fun p hp => hold.toNode p (List.mem_of_mem_take hp)⟩
  · -- what can still be read begins with the id message, or is nothing
    have hdown : ∀ q : Prop, (y.cut k l).up = true → q := fun q hup => by cases hup
    rcases hold.greeting ha with ⟨ps, hps, hall⟩ | ⟨hnil, -⟩
    · cases k with
      | zero => exact .inr ⟨rfl, hdown _⟩
      | succ k =>
          refine .inl ⟨ps.take k, ?_, fun p hp => hall p (List.mem_of_mem_take hp)⟩
          show y.toRouter.take (k + 1) = _
          rw [hps]
          rfl
    · refine .inr ⟨?_, hdown _⟩
      show y.toRouter.take k = []
      rw [hnil]
      exact List.take_nil
  · obtain ⟨ha, hnil⟩ := hold.fresh m k' hm hs
    refine ⟨ha, ?_⟩
    show y.toRouter.take k = []
    rw [hnil]
    exact List.take_nil

omit [DecidableEq N] in
/-- At the start nothing is connected. -/
lemma linked_of_initial {w : World N T} (h : w.Initial) : Linked cfg w := by
  obtain ⟨⟨hS, hq, -, -, hloc⟩, hconns, hpl, -⟩ := h
  have hwires : w.wires = [] := by rw [World.wires, hconns, List.map_nil]
  refine ⟨?_, ?_, ?_, ?_, ?_, ?_, ?_, ?_⟩
  · simp [hwires]
  · simp [hwires]
  · simp [hS, Sessions.empty]
  · intro n hn
    rw [hpl n] at hn
    exact hn.elim
  · simp [hpl]
  · simp [hconns]
  · intro i
    rcases hloc i with hi | hi
    · rw [hi]
      trivial
    · rw [hi]
      trivial
  · simp [hq]

/-- **One step** of the system keeps the invariant, when the data messages in the
channels and in the hands of the readers are proper. -/
lemma Linked.step [DecidableEq T] (hr : Ranged cfg) (h : Linked cfg w)
    (hst : Standing w.router.shared) (hloc : ∀ i, Located w.router.shared i (w.router.loc i))
    (hchan : ∀ (c : ℕ) x, w.conns[c]? = some x → ∀ f,
      .data f ∈ x.toRouter ∨ .data f ∈ x.toNode → f.Proper)
    (hhand : ∀ i s a src m, w.router.loc i = .findDst s a src m → destinationId m ≠ NONE)
    (hm : Move cfg w w') : Linked cfg w' := by
  cases hm with
  | quiet hstep hq => exact h.quiet hr hst hloc hstep hq (hhand _)
  | recv hpc hb hx hrecv hafter =>
      exact h.recv hr hst hloc hpc hb hx (fun f hf => hchan _ _ hx f (.inl hf)) hrecv hafter
  | forward hpc => exact h.forward hst hloc hpc
  | deliver hpc hb => exact h.deliver hpc hb
  | accept hx hfree hnew hS => exact h.accept hst hloc hx hfree hnew hS
  | readable => exact h.readable
  | slip hs => exact h.slip hs
  | connect _ => exact h.connect
  | send hpl _ => exact h.send hpl
  | answer hpl hx hrecv =>
      exact h.answer hpl hx (fun f hf => hchan _ _ hx f (.inr hf)) hrecv
  | cut => exact h.cut

end MessageRouting
