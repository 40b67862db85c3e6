import MessageRouting.Lib.Population
import MessageRouting.System.NodeSteps

/-!
The data messages of the system as a population: a node creates one when it sends
its first message, the router and the network only move or lose them, and a node
turns one into its answer.

* `World.inFlight`: the data messages in the channels, in the write queue, in the
  hands of the router's threads and in those of the nodes.
* `pingPong`: what the system is for, in terms of the messages alone; `Move.change`:
  every step of the system is one of this population.
* `network_refines`: the system refines it, and keeps its own invariant.
* `ping_pong_safety`: in every interleaving, with connections that break and are
  made again at any time, the messages have their form, there are never more of
  them than first messages were sent, and each is on its way to the node it is
  for.
-/

namespace MessageRouting

open Node (msgLen buildIdMessage)

variable {N T : Type} {cfg : N → Node} {w w' : World N T} {c : ℕ} {x : Connection N} {s : ℤ}

/-! ### The messages in flight -/

/-- The data messages in the channels of a connection. -/
def Connection.frames (x : Connection N) : Multiset Frame :=
  x.toRouter.filterMap Packet.frame + x.toNode.filterMap Packet.frame

/-- The message of a task. -/
def World.taskFrame (w : World N T) (t : Task) : Frame := ⟨t.msg, w.queued t.seq⟩

/-- The data message in the hands of a thread. A reader's was answered `k` times,
that of a task is `g` of it. -/
def Pc.frames (k : ℕ) (g : Task → Frame) : Pc → Multiset Frame
  | .findDst _ _ _ m => {⟨m, k⟩}
  | .forward _ _ _ _ m => {⟨m, k⟩}
  | .findSession t => {g t}
  | .lockDst t _ => {g t}
  | .send t _ => {g t}
  | _ => 0

/-- The answer in the hands of a node, answered `k` times. -/
def Node.Place.frames (k : ℕ) : Node.Place → Multiset Frame
  | .send (.reply m) _ => {⟨m, k⟩}
  | _ => 0

namespace World

def inChannels (w : World N T) : Multiset Frame := (w.conns.map Connection.frames).sum

def inQueue (w : World N T) : Multiset Frame := w.router.shared.writeQueue.map w.taskFrame

def inThread (w : World N T) (i : T) : Multiset Frame :=
  (w.router.loc i).frames (w.inHand i) w.taskFrame

def inNode (w : World N T) (n : N) : Multiset Frame := (w.nodes n).place.frames (w.reply n)

/-- All data messages of the system. -/
def inFlight [Fintype N] [Fintype T] (w : World N T) : Multiset Frame :=
  w.inChannels + w.inQueue + ∑ i, w.inThread i + ∑ n, w.inNode n

end World

/-! ### What the system is for -/

/-- The first message of a node. -/
def First (cfg : N → Node) (f : Frame) : Prop := ∃ n, f = ⟨(cfg n).message .initiate, 0⟩

/-- The answer that the destination of a message gives. -/
def Answers (f g : Frame) : Prop :=
  g.answered = f.answered + 1 ∧
    Node.processMessage (destinationId f.bytes) f.bytes msgLen = .ok g.bytes

/-- Messages are created by the nodes, get lost, and are answered. -/
def pingPong (cfg : N → Node) : Lts (Population Frame) Unit :=
  Population.system (First cfg) Answers

/-- The messages of the system as a population. -/
def World.population [Fintype N] [Fintype T] (w : World N T) : Population Frame :=
  ⟨w.inFlight, w.initiated⟩

/-- A first message is proper. -/
lemma First.proper (hr : Ranged cfg) {f : Frame} (h : First cfg f) : f.Proper := by
  obtain ⟨n, rfl⟩ := h
  obtain ⟨⟨h₀, h₁⟩, h₂, h₃⟩ := hr n
  obtain ⟨a, ha⟩ := Int.eq_ofNat_of_zero_le h₀
  obtain ⟨b, hb⟩ := Int.eq_ofNat_of_zero_le h₂
  refine ⟨a, b, by omega, by omega, ?_⟩
  show Node.buildFirstMessage (cfg n).id (cfg n).dstId = _
  rw [ha, hb]
  exact Node.buildFirstMessage_eq (by omega) (by omega)

lemma Answers.proper {f g : Frame} (h : Answers f g) (hf : f.Proper) : g.Proper := by
  obtain ⟨reply, hreply, hp⟩ := hf.answer
  obtain ⟨hk, hg⟩ := h
  rw [hreply] at hg
  cases hg
  cases g
  cases hk
  exact hp

/-- In a refined state all messages are proper. -/
lemma proper_of_population [Fintype N] [Fintype T] (hr : Ranged cfg) {tr : List Unit}
    (h : (pingPong cfg).Reaches tr w.population) : ∀ f ∈ w.inFlight, f.Proper :=
  Population.all_of_reaches Frame.Proper (fun _ hf => hf.proper hr) (fun _ _ ha hf => ha.proper hf)
    h

/-! ### Every step is one of the population -/

lemma Connection.mem_frames {f : Frame} :
    f ∈ x.frames ↔ .data f ∈ x.toRouter ∨ .data f ∈ x.toNode := by
  have hmem : ∀ ps : List Packet, f ∈ ps.filterMap Packet.frame ↔ .data f ∈ ps := by
    intro ps
    rw [List.mem_filterMap]
    constructor
    · rintro ⟨p, hp, hf⟩
      cases p with
      | idMessage bs => cases hf
      | data g =>
          cases hf
          exact hp
    · exact fun hp => ⟨.data f, hp, rfl⟩
  rw [Connection.frames, Multiset.mem_add, Multiset.mem_coe, Multiset.mem_coe, hmem, hmem]

lemma Connection.frames_idMessage {bs : List UInt8} {ps : List Packet}
    (h : x.toRouter = .idMessage bs :: ps) : x.frames = { x with toRouter := ps }.frames := by
  rw [Connection.frames, h]
  rfl

lemma coe_filterMap_data (f : Frame) (ps : List Packet) :
    ((Packet.data f :: ps).filterMap Packet.frame : Multiset Frame) =
      {f} + (ps.filterMap Packet.frame : List Frame) := rfl

lemma Connection.frames_toRouter {f : Frame} {ps : List Packet} (h : x.toRouter = .data f :: ps) :
    x.frames = {f} + { x with toRouter := ps }.frames := by
  rw [Connection.frames, h, coe_filterMap_data, add_assoc]
  rfl

lemma Connection.frames_toNode {f : Frame} {ps : List Packet} (h : x.toNode = .data f :: ps) :
    x.frames = {f} + { x with toNode := ps }.frames := by
  rw [Connection.frames, h, coe_filterMap_data, add_left_comm]
  rfl

/-- A packet at the end of a channel adds its message. -/
lemma coe_filterMap_append (ps : List Packet) (p : Packet) :
    (((ps ++ [p]).filterMap Packet.frame : List Frame) : Multiset Frame) =
      (ps.filterMap Packet.frame : List Frame) + (p.frame.toList : Multiset Frame) := by
  rw [List.filterMap_append, ← Multiset.coe_add,
    show [p].filterMap Packet.frame = p.frame.toList by cases p <;> rfl]

lemma Connection.frames_sendToRouter_le (x : Connection N) (p : Packet) :
    (x.sendToRouter p).frames ≤ p.frame.toList + x.frames := by
  rw [Connection.sendToRouter]
  split_ifs with hup
  · refine le_of_eq ?_
    simp only [Connection.frames, coe_filterMap_append]
    abel
  · exact Multiset.le_add_left _ _

lemma Connection.frames_sendToNode_le (x : Connection N) (p : Packet) :
    (x.sendToNode p).frames ≤ p.frame.toList + x.frames := by
  rw [Connection.sendToNode]
  split_ifs with hup
  · refine le_of_eq ?_
    simp only [Connection.frames, coe_filterMap_append]
    abel
  · exact Multiset.le_add_left _ _

lemma Connection.frames_cut_le (x : Connection N) (k l : ℕ) : (x.cut k l).frames ≤ x.frames := by
  refine add_le_add ?_ ?_
  · exact Multiset.coe_le.mpr ((List.take_sublist _ _).filterMap _).subperm
  · exact Multiset.coe_le.mpr ((List.take_sublist _ _).filterMap _).subperm

/-- What a change of one connection does to the messages in the channels. -/
lemma inChannels_modify {f : Connection N → Connection N} {A A' : Multiset Frame}
    (hconns : w'.conns = w.conns.modify c f) (hx : w.conns[c]? = some x) (hA : x.frames = A)
    (hA' : (f x).frames = A') : w'.inChannels + A = w.inChannels + A' := by
  rw [World.inChannels, World.inChannels, hconns, ← hA, ← hA']
  exact List.sum_map_modify f Connection.frames hx

/-- A quiet step of the router moves messages or loses them. -/
lemma Step.frames_le {i : T} {sh sh' : Shared T} {pc pc' : Pc} {e : Event T}
    (h : Step i sh pc e pc' sh') (hq : e.Quiet) (k : ℕ) (g : Task → Frame) :
    ((sh'.writeQueue.map g : List Frame) : Multiset Frame) + pc'.frames k g ≤
      (sh.writeQueue.map g : List Frame) + pc.frames k g := by
  cases h with
  | recv_data _ _ => exact hq.elim
  | forward => exact hq.elim
  | popWrite hpop =>
      rw [hpop, List.map_cons, ← Multiset.cons_coe, ← Multiset.singleton_add, add_comm]
      exact le_add_right le_rfl
  | findDst_none _ => exact add_le_add_right (Multiset.zero_le _) _
  | findSession_none _ => exact add_le_add_right (Multiset.zero_le _) _
  | send => exact add_le_add_right (Multiset.zero_le _) _
  | send_failed => exact add_le_add_right (Multiset.zero_le _) _
  | _ => exact le_rfl

lemma Pc.frames_congr {pc : Pc} {k : ℕ} {g g' : Task → Frame} (h : ∀ t ∈ pc.tasks, g t = g' t) :
    pc.frames k g = pc.frames k g' := by
  cases pc with
  | findSession t => simp [Pc.frames, h t (by simp [Pc.tasks])]
  | lockDst t a => simp [Pc.frames, h t (by simp [Pc.tasks])]
  | send t a => simp [Pc.frames, h t (by simp [Pc.tasks])]
  | _ => rfl

/-- The message of a task in a writer's hands. -/
lemma Pc.mem_frames {pc : Pc} {k : ℕ} {g : Task → Frame} {t : Task} (ht : t ∈ pc.tasks) :
    g t ∈ pc.frames k g := by
  cases pc with
  | findSession u => simp_all [Pc.tasks, Pc.frames]
  | lockDst u a => simp_all [Pc.tasks, Pc.frames]
  | send u a => simp_all [Pc.tasks, Pc.frames]
  | _ => simp [Pc.tasks] at ht

lemma Placed.addressed {pc : Pc} {t : Task} (h : Placed cfg w pc) (ht : t ∈ pc.tasks) :
    Addressed cfg w t := by
  cases pc with
  | findSession u =>
      obtain rfl : t = u := by simpa [Pc.tasks] using ht
      exact h
  | lockDst u a =>
      obtain rfl : t = u := by simpa [Pc.tasks] using ht
      exact h
  | send u a =>
      obtain rfl : t = u := by simpa [Pc.tasks] using ht
      exact h
  | _ => simp [Pc.tasks] at ht

/-- A connection carries id messages of its node and data messages. -/
lemma InOrder.packets (h : InOrder cfg w c x) : ∀ p ∈ x.toRouter ++ x.toNode,
    p = .idMessage (buildIdMessage (cfg x.node).id) ∨ ∃ f, p = .data f := by
  intro p hp
  rcases List.mem_append.mp hp with hp | hp
  · by_cases ha : Announced w.router x
    · exact .inr (h.greeted ha p hp)
    · rcases h.greeting ha with ⟨ps, hps, hall⟩ | ⟨hnil, -⟩
      · rw [hps] at hp
        rcases List.mem_cons.mp hp with rfl | hp
        · exact .inl rfl
        · exact .inr (hall p hp)
      · rw [hnil] at hp
        cases hp
  · obtain ⟨f, hf, -⟩ := h.toNode p hp
    exact .inr ⟨f, hf⟩

variable [Fintype N] [Fintype T]

/-- What a step does to the messages, from what it does at each kind of place. -/
lemma inFlight_change {A A' Q Q' B B' C C' : Multiset Frame}
    (hA : w'.inChannels + A = w.inChannels + A') (hQ : w'.inQueue + Q = w.inQueue + Q')
    (hB : (∑ i, w'.inThread i) + B = (∑ i, w.inThread i) + B')
    (hC : (∑ n, w'.inNode n) + C = (∑ n, w.inNode n) + C') :
    w'.inFlight + (A + Q + B + C) = w.inFlight + (A' + Q' + B' + C') := by
  calc w'.inFlight + (A + Q + B + C)
      = (w'.inChannels + A) + (w'.inQueue + Q) + ((∑ i, w'.inThread i) + B) +
          ((∑ n, w'.inNode n) + C) := by rw [World.inFlight]; abel
    _ = (w.inChannels + A') + (w.inQueue + Q') + ((∑ i, w.inThread i) + B') +
          ((∑ n, w.inNode n) + C') := by rw [hA, hQ, hB, hC]
    _ = w.inFlight + (A' + Q' + B' + C') := by rw [World.inFlight]; abel

lemma mem_inFlight {f : Frame} (hx : w.conns[c]? = some x) (hf : f ∈ x.frames) :
    f ∈ w.inFlight := by
  have hle : x.frames ≤ w.inChannels :=
    List.single_le_sum (fun _ _ => Multiset.zero_le _) _
      (List.mem_map.mpr ⟨x, List.mem_of_getElem? hx, rfl⟩)
  rw [World.inFlight]
  simp only [Multiset.mem_add]
  exact .inl (.inl (.inl (Multiset.mem_of_le hle hf)))

lemma mem_inFlight_of_thread {f : Frame} {i : T} (hf : f ∈ w.inThread i) : f ∈ w.inFlight := by
  have hsum : f ∈ ∑ i, w.inThread i := Multiset.mem_sum.mpr ⟨i, Finset.mem_univ i, hf⟩
  rw [World.inFlight]
  simp only [Multiset.mem_add]
  exact .inl (.inr hsum)

lemma mem_inFlight_of_node {f : Frame} {n : N} (hf : f ∈ w.inNode n) : f ∈ w.inFlight := by
  have hsum : f ∈ ∑ n, w.inNode n := Multiset.mem_sum.mpr ⟨n, Finset.mem_univ n, hf⟩
  rw [World.inFlight]
  simp only [Multiset.mem_add]
  exact .inr hsum

lemma mem_inFlight_of_queue {t : Task} (ht : t ∈ w.router.shared.writeQueue) :
    w.taskFrame t ∈ w.inFlight := by
  have hmem : w.taskFrame t ∈ w.inQueue := List.mem_map_of_mem ht
  rw [World.inFlight]
  simp only [Multiset.mem_add]
  exact .inl (.inl (.inr hmem))

/-- Messages that are only moved or lost. -/
lemma change_of_le {L L' : Multiset Frame} (h : w'.inFlight + L = w.inFlight + L') (hle : L' ≤ L)
    (hi : w'.initiated = w.initiated) :
    Population.Change (First cfg) Answers w.population w'.population := by
  have hadd : w'.inFlight + L ≤ w.inFlight + L := by
    rw [h]
    exact add_le_add_right hle _
  rw [World.population, World.population, hi]
  exact .lose (le_of_add_le_add_right hadd)

variable [DecidableEq T]

omit [Fintype N] in
/-- What the step of one thread does to the messages in the hands of all. -/
lemma inThread_move {i : T} {pc' : Pc} {B B' : Multiset Frame}
    (hloc : w'.router.loc = Function.update w.router.loc i pc')
    (hhand : ∀ j, j ≠ i → w'.inHand j = w.inHand j)
    (htask : ∀ j, ∀ t ∈ (w.router.loc j).tasks, w'.taskFrame t = w.taskFrame t)
    (hB : w.inThread i = B) (hB' : pc'.frames (w'.inHand i) w'.taskFrame = B') :
    (∑ j, w'.inThread j) + B = (∑ j, w.inThread j) + B' := by
  have hi : w'.inThread i = B' := by rw [World.inThread, hloc, Function.update_self, hB']
  rw [← hi, ← hB]
  refine Program.sum_off i fun j hj => ?_
  rw [World.inThread, hloc, Function.update_of_ne hj, hhand j hj]
  exact Pc.frames_congr (htask j)

lemma change_of_quiet {i : T} {e : Event T} {pc' : Pc} {sh' : Shared T}
    (hstep : Step i w.router.shared (w.router.loc i) e pc' sh') (hq : e.Quiet) :
    Population.Change (First cfg) Answers w.population
      { w with router := ⟨sh', Function.update w.router.loc i pc'⟩ }.population := by
  refine change_of_le (inFlight_change (A := 0) (C := 0) rfl (add_comm _ _)
    (inThread_move rfl (fun _ _ => rfl) (fun _ _ _ => rfl) rfl rfl) rfl) ?_ rfl
  rw [zero_add, zero_add, add_zero, add_zero]
  exact hstep.frames_le hq _ _

/-- A `recv` of the router takes a message from the channel into a reader's hands. -/
lemma change_of_recv (hr : Ranged cfg) (h : Linked cfg w) (hst : Standing w.router.shared)
    (hloc : ∀ i, Located w.router.shared i (w.router.loc i)) {i : T} {a src : Addr} {want : Wanted}
    {got bs : List UInt8} {k : ℕ} {pc' : Pc} (hpc : w.router.loc i = .recv s a src want got)
    (hb : w.behind s = some c) (hx : w.conns[c]? = some x)
    (hprop : ∀ f, .data f ∈ x.toRouter → f.Proper)
    (hrecv : recvFrom (want.size - got.length) k x.toRouter = .bytes bs)
    (hafter : afterRecv s a src want got (.bytes bs) = some pc') :
    Population.Change (First cfg) Answers w.population { w with
      router := ⟨w.router.shared, Function.update w.router.loc i pc'⟩
      conns := w.conns.modify c fun x => { x with toRouter := dropBytes bs.length x.toRouter }
      inHand := Function.update w.inHand i (answeredAtHead x.toRouter) }.population := by
  obtain ⟨y, hy, hs⟩ := behind_eq_some hb
  obtain rfl : x = y := Option.some.inj (hx.symm.trans hy)
  have hB : w.inThread i = 0 := by
    rw [World.inThread, hpc]
    rfl
  have hhand : ∀ j, j ≠ i → Function.update w.inHand i (answeredAtHead x.toRouter) j = w.inHand j :=
    fun j hj => Function.update_of_ne hj _ _
  rcases recv_exact hr h hst hloc hpc hx hs hprop hrecv hafter with
    ⟨ps, -, hch, -, hdrop, rfl⟩ | ⟨f, ps, -, hch, -, hdrop, rfl⟩
  · refine change_of_le (inFlight_change (Q := 0) (C := 0)
      (inChannels_modify rfl hx (Connection.frames_idMessage hch) (by simp only [hdrop])) rfl
      (inThread_move rfl hhand (fun _ _ _ => rfl) hB rfl) rfl) le_rfl rfl
  · have hB' : (Pc.findDst s a src f.bytes).frames
        (Function.update w.inHand i (answeredAtHead x.toRouter) i) w.taskFrame = {f} := by
      rw [Function.update_self, hch]
      rfl
    refine change_of_le (inFlight_change (Q := 0) (C := 0)
      (inChannels_modify rfl hx (Connection.frames_toRouter hch) (by simp only [hdrop]; rfl)) rfl
      (inThread_move rfl hhand (fun _ _ _ => rfl) hB hB') rfl) (le_of_eq ?_) rfl
    abel

/-- A push takes a message from a reader's hands to the write queue. -/
lemma change_of_forward {i : T} {a src dst : Addr} {m : List UInt8}
    (hpc : w.router.loc i = .forward s a src dst m)
    (hqueue : ∀ t ∈ w.router.shared.writeQueue, t.seq < w.router.shared.pushes)
    (hheld : ∀ j, ∀ t ∈ (w.router.loc j).tasks, t.seq < w.router.shared.pushes) :
    Population.Change (First cfg) Answers w.population { w with
      router := ⟨w.router.shared.push (w.router.shared.task dst m),
        Function.update w.router.loc i (.turn s a src)⟩
      queued := Function.update w.queued w.router.shared.pushes (w.inHand i) }.population := by
  set w' : World N T := { w with
    router := ⟨w.router.shared.push (w.router.shared.task dst m),
      Function.update w.router.loc i (.turn s a src)⟩
    queued := Function.update w.queued w.router.shared.pushes (w.inHand i) } with hw'
  -- the tasks that were there before have other numbers
  have htask : ∀ t : Task, t.seq < w.router.shared.pushes → w'.taskFrame t = w.taskFrame t := by
    intro t ht
    show Frame.mk t.msg (Function.update w.queued _ _ t.seq) = _
    rw [Function.update_of_ne (Nat.ne_of_lt ht)]
    rfl
  have hQ : w'.inQueue + 0 = w.inQueue + {⟨m, w.inHand i⟩} := by
    have hnew : w'.taskFrame (w.router.shared.task dst m) = ⟨m, w.inHand i⟩ := by
      show Frame.mk m (Function.update w.queued _ _ w.router.shared.pushes) = _
      rw [Function.update_self]
    have hold : w.router.shared.writeQueue.map w'.taskFrame =
        w.router.shared.writeQueue.map w.taskFrame :=
      List.map_congr_left fun t ht => htask t (hqueue t ht)
    show ((w.router.shared.writeQueue ++ [w.router.shared.task dst m]).map w'.taskFrame :
      Multiset Frame) + 0 = _
    rw [List.map_append, hold, List.map_singleton, hnew, add_zero, ← Multiset.coe_add]
    rfl
  have hB : w.inThread i = {⟨m, w.inHand i⟩} := by
    rw [World.inThread, hpc]
    rfl
  refine change_of_le (inFlight_change (A := 0) (C := 0) rfl hQ
    (inThread_move rfl (fun _ _ => rfl) (fun j t ht => htask t (hheld j t ht)) hB rfl) rfl)
    (le_of_eq ?_) rfl
  show 0 + {⟨m, w.inHand i⟩} + (0 : Multiset Frame) + 0 = 0 + 0 + {⟨m, w.inHand i⟩} + 0
  abel

/-- A `send` of the router takes a message from a writer's hands to a channel. -/
lemma change_of_deliver {i : T} {t : Task} {a : Addr} (hpc : w.router.loc i = .send t a)
    (hx : w.conns[c]? = some x) :
    Population.Change (First cfg) Answers w.population { w with
      router := ⟨w.router.shared, Function.update w.router.loc i (.unlockDst t a)⟩
      conns := w.conns.modify c fun x =>
        x.sendToNode (.data ⟨t.msg, w.queued t.seq⟩) }.population := by
  have hB : w.inThread i = {⟨t.msg, w.queued t.seq⟩} := by
    rw [World.inThread, hpc]
    rfl
  refine change_of_le (inFlight_change (Q := 0) (C := 0) (inChannels_modify rfl hx rfl rfl) rfl
    (inThread_move rfl (fun _ _ => rfl) (fun _ _ _ => rfl) hB rfl) rfl) ?_ rfl
  have hle := x.frames_sendToNode_le (.data ⟨t.msg, w.queued t.seq⟩)
  calc (x.sendToNode (.data ⟨t.msg, w.queued t.seq⟩)).frames + 0 + 0 + 0
      = (x.sendToNode (.data ⟨t.msg, w.queued t.seq⟩)).frames := by simp only [add_zero]
    _ ≤ {⟨t.msg, w.queued t.seq⟩} + x.frames := hle
    _ = x.frames + 0 + {⟨t.msg, w.queued t.seq⟩} + 0 := by abel

variable [DecidableEq N] {n : N}

omit [Fintype T] [DecidableEq T] in
/-- What the step of one node does to the answers in the hands of all. -/
lemma inNode_move {st : Node.State} {C C' : Multiset Frame}
    (hnodes : w'.nodes = Function.update w.nodes n st)
    (hreply : ∀ m, m ≠ n → w'.reply m = w.reply m) (hC : w.inNode n = C)
    (hC' : st.place.frames (w'.reply n) = C') :
    (∑ m, w'.inNode m) + C = (∑ m, w.inNode m) + C' := by
  have hn : w'.inNode n = C' := by rw [World.inNode, hnodes, Function.update_self, hC']
  rw [← hn, ← hC]
  refine Program.sum_off n fun m hm => ?_
  rw [World.inNode, hnodes, Function.update_of_ne hm, hreply m hm]
  rfl

lemma Node.Slip.frames_le {pl pl' : Node.Place} (h : Node.Slip pl pl') (k : ℕ) :
    pl'.frames k ≤ pl.frames k := by
  cases h with
  | @retry p j => cases p <;> exact le_rfl
  | @failed p j => cases p <;> exact Multiset.zero_le _
  | _ => exact le_rfl

omit [DecidableEq T] in
/-- A failed call of a node loses at most its answer. -/
lemma change_of_slip {pl : Node.Place} (hs : Node.Slip (w.nodes n).place pl) :
    Population.Change (First cfg) Answers w.population
      { w with nodes := Function.update w.nodes n { w.nodes n with place := pl } }.population := by
  refine change_of_le (inFlight_change (A := 0) (Q := 0) (B := 0) rfl rfl rfl
    (inNode_move rfl (fun _ _ => rfl) rfl rfl)) ?_ rfl
  exact add_le_add_right (hs.frames_le _) _

omit [DecidableEq T] in
/-- A new connection is empty. -/
lemma change_of_connect (hpl : (w.nodes n).place = .connect) :
    Population.Change (First cfg) Answers w.population { w with
      conns := w.conns ++ [Connection.new n]
      nodes := Function.update w.nodes n ⟨.send .subscribe 0, w.conns.length⟩ }.population := by
  have hC : w.inNode n = 0 := by
    rw [World.inNode, hpl]
    rfl
  have hnew : (Connection.new n).frames = 0 := rfl
  have hA : ((w.conns ++ [Connection.new n]).map Connection.frames).sum + 0 = w.inChannels + 0 := by
    rw [List.map_append, List.sum_append, List.map_singleton, List.sum_singleton, hnew, add_zero]
    rfl
  exact change_of_le (inFlight_change (Q := 0) (B := 0) hA rfl rfl
    (inNode_move rfl (fun _ _ => rfl) hC rfl)) le_rfl rfl

omit [DecidableEq T] in
/-- A `send` of a node: its first message is created, an answer goes from its hands
to the channel. -/
lemma change_of_send {p : Node.Purpose} {k : ℕ} (hpl : (w.nodes n).place = .send p k)
    (hx : w.conns[(w.nodes n).socket]? = some x) :
    Population.Change (First cfg) Answers w.population ({ w with
      conns := w.conns.modify (w.nodes n).socket fun x => x.sendToRouter (w.packet cfg n p)
      initiated := if p = .initiate then w.initiated + 1 else w.initiated
      nodes := Function.update w.nodes n
        { w.nodes n with place := (cfg n).afterSent p } } : World N T).population := by
  set w' : World N T := { w with
    conns := w.conns.modify (w.nodes n).socket fun x => x.sendToRouter (w.packet cfg n p)
    initiated := if p = .initiate then w.initiated + 1 else w.initiated
    nodes := Function.update w.nodes n { w.nodes n with place := (cfg n).afterSent p } } with hw'
  have hC : w.inNode n = (Node.Place.send p k).frames (w.reply n) := by rw [World.inNode, hpl]
  have hC' : ((cfg n).afterSent p).frames (w.reply n) = 0 := by
    cases p with
    | subscribe =>
        rw [Node.afterSent]
        split_ifs
        · rfl
        · rfl
    | _ => rfl
  have hdiff : w'.inFlight + (x.frames + 0 + 0 + (Node.Place.send p k).frames (w.reply n)) =
      w.inFlight + ((x.sendToRouter (w.packet cfg n p)).frames + 0 + 0 + 0) :=
    inFlight_change (inChannels_modify rfl hx rfl rfl) rfl rfl
      (inNode_move rfl (fun _ _ => rfl) hC hC')
  simp only [add_zero] at hdiff
  have hle := x.frames_sendToRouter_le (w.packet cfg n p)
  cases p with
  | subscribe => exact change_of_le hdiff (hle.trans (le_of_eq (add_comm _ _))) rfl
  | initiate =>
      rw [show (Node.Place.send .initiate k).frames (w.reply n) = 0 from rfl, add_zero] at hdiff
      have hadd : w'.inFlight + x.frames ≤
          (⟨(cfg n).message .initiate, 0⟩ ::ₘ w.inFlight) + x.frames := by
        calc w'.inFlight + x.frames
            = w.inFlight + (x.sendToRouter (w.packet cfg n .initiate)).frames := hdiff
          _ ≤ w.inFlight + ({⟨(cfg n).message .initiate, 0⟩} + x.frames) := add_le_add_right hle _
          _ = _ := by rw [← Multiset.singleton_add]; abel
      exact .create ⟨n, rfl⟩ (le_of_add_le_add_right hadd)
  | reply m => exact change_of_le hdiff (hle.trans (le_of_eq (add_comm _ _))) rfl

omit [DecidableEq T] in
/-- A `recv` of a node turns a message into its answer. -/
lemma change_of_answer (h : Linked cfg w) (hpl : (w.nodes n).place = .receive)
    (hx : w.conns[(w.nodes n).socket]? = some x) (hprop : ∀ f, .data f ∈ x.toNode → f.Proper)
    {k : ℕ} {bs : List UInt8} (hrecv : recvFrom msgLen k x.toNode = .bytes bs) :
    Population.Change (First cfg) Answers w.population ({ w with
      conns := w.conns.modify (w.nodes n).socket fun x =>
        { x with toNode := dropBytes bs.length x.toNode }
      reply := Function.update w.reply n (answeredAtHead x.toNode + 1)
      nodes := Function.update w.nodes n
        { w.nodes n with
          place := (cfg n).afterReceived (.bytes bs) } } : World N T).population := by
  obtain ⟨f, ps, reply, hch, hdrop, hreply, -, hafter⟩ := answer_exact h hpl hx hprop hrecv
  set w' : World N T := { w with
    conns := w.conns.modify (w.nodes n).socket fun x =>
      { x with toNode := dropBytes bs.length x.toNode }
    reply := Function.update w.reply n (answeredAtHead x.toNode + 1)
    nodes := Function.update w.nodes n
      { w.nodes n with place := (cfg n).afterReceived (.bytes bs) } } with hw'
  have hC : w.inNode n = 0 := by
    rw [World.inNode, hpl]
    rfl
  have hC' : ((cfg n).afterReceived (.bytes bs)).frames
      (Function.update w.reply n (answeredAtHead x.toNode + 1) n) = {⟨reply, f.answered + 1⟩} := by
    rw [hafter, Function.update_self, hch]
    rfl
  have hA' : ({ x with toNode := dropBytes bs.length x.toNode } : Connection N).frames =
      { x with toNode := ps }.frames := by rw [hdrop]
  have hdiff : w'.inFlight + ({f} + { x with toNode := ps }.frames + 0 + 0 + 0) =
      w.inFlight + ({ x with toNode := ps }.frames + 0 + 0 + {⟨reply, f.answered + 1⟩}) :=
    inFlight_change (inChannels_modify rfl hx (Connection.frames_toNode hch) hA') rfl rfl
      (inNode_move rfl (fun m hm => Function.update_of_ne hm _ _) hC hC')
  have hmem : f ∈ w.inFlight := by
    refine mem_inFlight hx ?_
    rw [Connection.frames_toNode hch]
    exact Multiset.mem_add.mpr (.inl (Multiset.mem_singleton_self f))
  have hcancel : w'.inFlight + ({f} + { x with toNode := ps }.frames) =
      (⟨reply, f.answered + 1⟩ ::ₘ w.inFlight.erase f) +
        ({f} + { x with toNode := ps }.frames) := by
    simp only [add_zero] at hdiff
    rw [hdiff, ← Multiset.singleton_add]
    nth_rewrite 1 [← Multiset.cons_erase hmem]
    rw [← Multiset.singleton_add]
    abel
  exact .turn ⟨rfl, hreply⟩ (Multiset.cons_erase hmem).symm (le_of_eq (add_right_cancel hcancel))

omit [DecidableEq T] [DecidableEq N] in
/-- A broken connection loses messages. -/
lemma change_of_cut {k l : ℕ} :
    Population.Change (First cfg) Answers w.population
      ({ w with conns := w.conns.modify c fun x => x.cut k l } : World N T).population := by
  cases hx : w.conns[c]? with
  | none =>
      rw [List.modify_eq_self (List.getElem?_eq_none_iff.mp hx)]
      exact .lose le_rfl
  | some x =>
      refine change_of_le (inFlight_change (Q := 0) (B := 0) (C := 0)
        (inChannels_modify rfl hx rfl rfl) rfl rfl rfl) ?_ rfl
      simp only [add_zero]
      exact x.frames_cut_le k l

/-! ### The refinement -/

omit [DecidableEq N] [Fintype N] in
/-- The tasks under way have the numbers of earlier pushes. -/
lemma seq_lt {tr : List (Event T)} {st : RouterState T} (h : (workers T).Reaches tr st) :
    (∀ t ∈ st.shared.writeQueue, t.seq < st.shared.pushes) ∧
      ∀ i, ∀ t ∈ (st.loc i).tasks, t.seq < st.shared.pushes := by
  have hb := balanced_of_reaches h
  have hpushed : ∀ t ∈ tasksOf Event.pushedTask tr, t.seq < st.shared.pushes := by
    intro t ht
    have hmem := List.mem_map_of_mem (f := Task.seq) ht
    rw [hb.numbers] at hmem
    exact List.mem_range.mp hmem
  refine ⟨fun t ht => hpushed t ?_, fun i t ht => hpushed t ?_⟩
  · rw [tasks_fifo h]
    exact List.mem_append_right _ ht
  · have hpop : t ∈ (tasksOf Event.poppedTask tr : Multiset Task) := by
      rw [hb.popped]
      exact Multiset.mem_add.mpr (.inl (Multiset.mem_sum.mpr ⟨i, Finset.mem_univ i, ht⟩))
    exact pushed_of_popped h (Multiset.mem_coe.mp hpop)

/-- **Every step** of the system is a step of the population. -/
lemma Move.change (hr : Ranged cfg) (h : Linked cfg w) {tr : List (Event T)}
    (hrouter : (workers T).Reaches tr w.router) (hproper : ∀ f ∈ w.inFlight, f.Proper)
    (hm : Move cfg w w') : Population.Change (First cfg) Answers w.population w'.population := by
  obtain ⟨hst, hloc⟩ := standing_of_reaches hrouter
  obtain ⟨hqueue, hheld⟩ := seq_lt hrouter
  cases hm with
  | quiet hstep hq => exact change_of_quiet hstep hq
  | recv hpc hb hx hrecv hafter =>
      refine change_of_recv hr h hst hloc hpc hb hx (fun f hf => hproper f ?_) hrecv hafter
      exact mem_inFlight hx (Connection.mem_frames.mpr (.inl hf))
  | forward hpc => exact change_of_forward hpc hqueue hheld
  | deliver hpc hb =>
      obtain ⟨x, hx, -⟩ := behind_eq_some hb
      exact change_of_deliver hpc hx
  | accept hx _ _ _ =>
      exact change_of_le (inFlight_change (Q := 0) (B := 0) (C := 0)
        (inChannels_modify rfl hx rfl rfl) rfl rfl rfl) le_rfl rfl
  | readable => exact .lose le_rfl
  | slip hs => exact change_of_slip hs
  | connect hpl => exact change_of_connect hpl
  | @send n p k hpl _ =>
      obtain ⟨o, ho⟩ := h.nodes n (by rw [hpl]; trivial)
      rw [World.wires, List.getElem?_map] at ho
      obtain ⟨x, hx, -⟩ := Option.map_eq_some_iff.mp ho
      exact change_of_send hpl hx
  | answer hpl hx hrecv =>
      refine change_of_answer h hpl hx (fun f hf => hproper f ?_) hrecv
      exact mem_inFlight hx (Connection.mem_frames.mpr (.inr hf))
  | cut => exact change_of_cut

omit [DecidableEq N] [DecidableEq T] in
/-- At the start there is no message. -/
lemma population_of_initial (h : w.Initial) : w.population = ⟨0, 0⟩ := by
  obtain ⟨⟨-, hq, -, -, hloc⟩, hconns, hpl, hinit⟩ := h
  have hB : ∀ i, w.inThread i = 0 := by
    intro i
    rcases hloc i with hi | hi
    · rw [World.inThread, hi]
      rfl
    · rw [World.inThread, hi]
      rfl
  have hC : ∀ n, w.inNode n = 0 := by
    intro n
    rw [World.inNode, hpl n]
    rfl
  rw [World.population, hinit, World.inFlight, World.inChannels, World.inQueue, hconns, hq]
  simp [hB, hC]

/-- **The system refines the population**, and keeps its own invariant. -/
theorem network_refines (hr : Ranged cfg) {tr : List (WorldEvent N T)}
    (h : (network T cfg).Reaches tr w) :
    Linked cfg w ∧ ∃ tr', (pingPong cfg).Reaches tr' w.population := by
  have key : (network T cfg).Reaches tr w ∧ Linked cfg w ∧
      ∃ tr', (pingPong cfg).Reaches tr' w.population := by
    refine h.induct (fun tr w => (network T cfg).Reaches tr w ∧ Linked cfg w ∧
      ∃ tr', (pingPong cfg).Reaches tr' w.population) ?_ ?_
    · intro w hw
      exact ⟨⟨w, hw, .nil⟩, linked_of_initial hw, [], _, population_of_initial hw, .nil⟩
    · rintro tr w e w' ⟨hreach, hlinked, tr', hpop⟩ hs
      have hmove := move_of_step hs
      have hrouter := router_reaches hreach
      obtain ⟨hst, hloc⟩ := standing_of_reaches hrouter
      have hproper := proper_of_population hr hpop
      refine ⟨hreach.append (.single hs), hlinked.step hr hst hloc ?_ ?_ hmove, tr' ++ [()], ?_⟩
      · intro c x hx f hf
        exact hproper f (mem_inFlight hx (Connection.mem_frames.mpr hf))
      · intro i s a src m hpc
        have hheld : (⟨m, w.inHand i⟩ : Frame) ∈ w.inThread i := by
          rw [World.inThread, hpc]
          exact Multiset.mem_singleton_self _
        obtain ⟨b, hb⟩ := (hproper _ (mem_inFlight_of_thread hheld)).destinationId
        rw [hb, NONE]
        omega
      · exact hpop.append (.single (hmove.change hr hlinked hrouter hproper))
  exact key.2

/-- **Ping-pong safety.** In every interleaving of any number of nodes, readers and
writers, with connections that break and are made again at any time:
every data message in a channel, in the write queue or in somebody's hands has
the form of a first message after as many answers as it got, and the other
packets are id messages; there are at most as many data messages as first
messages were sent; every message that is queued, in a writer's hands or in a
channel to a node is for the node it is on the way to, so that no node fails on
a message or has nothing to answer. -/
theorem ping_pong_safety (hr : Ranged cfg) {tr : List (WorldEvent N T)}
    (h : (network T cfg).Reaches tr w) :
    (∀ f ∈ w.inFlight, f.Proper) ∧
    (∀ x ∈ w.conns, ∀ p ∈ x.toRouter ++ x.toNode,
      p = .idMessage (buildIdMessage (cfg x.node).id) ∨ ∃ f ∈ w.inFlight, p = .data f) ∧
    w.inFlight.card ≤ w.initiated ∧
    (∀ t, (t ∈ w.router.shared.writeQueue ∨ ∃ i, t ∈ (w.router.loc i).tasks) →
      w.taskFrame t ∈ w.inFlight ∧ Addressed cfg w t) ∧
    (∀ x ∈ w.conns, ∀ f, .data f ∈ x.toNode → destinationId f.bytes = (cfg x.node).id) ∧
    ∀ n, (w.nodes n).place ≠ .stopped ∧ ∀ m k, (w.nodes n).place = .send (.reply m) k → m ≠ [] := by
  obtain ⟨hlinked, tr', hpop⟩ := network_refines hr h
  have hproper := proper_of_population hr hpop
  refine ⟨hproper, ?_, Population.card_le_of_reaches hpop, ?_, ?_, ?_⟩
  · intro x hx p hp
    obtain ⟨c, hc⟩ := List.mem_iff_getElem?.mp hx
    rcases (hlinked.inOrder c x hc).packets p hp with hid | ⟨f, rfl⟩
    · exact .inl hid
    · exact .inr ⟨f, mem_inFlight hc (Connection.mem_frames.mpr (List.mem_append.mp hp)), rfl⟩
  · rintro t (ht | ⟨i, ht⟩)
    · exact ⟨mem_inFlight_of_queue ht, hlinked.queued t ht⟩
    · exact ⟨mem_inFlight_of_thread (Pc.mem_frames ht), (hlinked.placed i).addressed ht⟩
  · intro x hx f hf
    obtain ⟨c, hc⟩ := List.mem_iff_getElem?.mp hx
    obtain ⟨g, hg, hd⟩ := (hlinked.inOrder c x hc).toNode _ hf
    cases hg
    exact hd
  · intro n
    refine ⟨hlinked.running n, fun m k hpl => ?_⟩
    have hheld : (⟨m, w.reply n⟩ : Frame) ∈ w.inNode n := by
      rw [World.inNode, hpl]
      exact Multiset.mem_singleton_self _
    exact (hproper _ (mem_inFlight_of_node hheld)).ne_nil

/-! ### A run with two nodes -/

/-- Node 5 begins a conversation with node 6. -/
def twoNodes : Fin 2 → Node := fun n => if n = 0 then ⟨5, 6, true⟩ else ⟨6, 5, false⟩

/-- The two nodes, one reader and one writer at the start. -/
def twoNodesStart : World (Fin 2) (Fin 2) :=
  ⟨⟨⟨Sessions.empty, [], [], fun _ => none, [], 0⟩, fun i => if i = 0 then .popRead else .popWrite⟩,
    [], fun _ => ⟨.connect, 0⟩, fun _ => 0, fun _ => 0, fun _ => 0, 0⟩

lemma initial_twoNodesStart : twoNodesStart.Initial := by
  refine ⟨⟨rfl, rfl, fun _ => rfl, rfl, fun i => ?_⟩, rfl, fun _ => rfl, rfl⟩
  by_cases hi : i = 0
  · exact .inl (if_pos hi)
  · exact .inr (if_neg hi)

lemma ranged_twoNodes : Ranged twoNodes := by
  intro n
  fin_cases n <;> simp [twoNodes]

/-- Both nodes connect and announce themselves; node 5 sends its first message,
which the router forwards to node 6, and node 6 answers it. -/
def oneAnswer : List (WorldAct (Fin 2) (Fin 2)) :=
  let reader (os : List Outcome) : List (WorldAct (Fin 2) (Fin 2)) := os.map (.thread 0)
  let writer (os : List Outcome) : List (WorldAct (Fin 2) (Fin 2)) := os.map (.thread 1)
  [.node 1 .connected, .node 1 (.sent true), .accept 7 0, .readable 7] ++
    reader [.go, .go, .go, .go, .go, .arrived 1, .go, .go, .arrived 0, .go] ++
    [.node 0 .connected, .node 0 (.sent true), .node 0 (.sent true), .accept 4 1, .readable 4] ++
    reader [.go, .go, .go, .go, .go, .arrived 2, .go, .go, .arrived 1, .go, .go] ++
    writer [.go, .go, .go, .sent true, .go] ++
    [.node 1 (.arrived 1), .node 1 (.sent true)]

/-- In this run the answer, with the MTI 2210, is on its way back to the router. -/
theorem ping_pong_safety_answered :
    ∃ tr, ∃ w : World (Fin 2) (Fin 2), (network (Fin 2) twoNodes).Reaches tr w ∧
      w.conns.map Connection.toRouter =
        [[.data ⟨Node.frame 6 2210 Node.firstTrace Node.firstPan 5, 1⟩], []] ∧
      (∀ f ∈ w.inFlight, f.Proper) ∧
      (∀ x ∈ w.conns, ∀ p ∈ x.toRouter ++ x.toNode,
        p = .idMessage (buildIdMessage (twoNodes x.node).id) ∨ ∃ f ∈ w.inFlight, p = .data f) ∧
      w.inFlight.card ≤ w.initiated ∧
      (∀ t, (t ∈ w.router.shared.writeQueue ∨ ∃ i, t ∈ (w.router.loc i).tasks) →
        w.taskFrame t ∈ w.inFlight ∧ Addressed twoNodes w t) ∧
      (∀ x ∈ w.conns, ∀ f, .data f ∈ x.toNode → destinationId f.bytes = (twoNodes x.node).id) ∧
      ∀ n, (w.nodes n).place ≠ .stopped ∧
        ∀ m k, (w.nodes n).place = .send (.reply m) k → m ≠ [] := by
  obtain ⟨tr, w, hreach, hanswered⟩ : ∃ tr, ∃ w : World (Fin 2) (Fin 2),
      (network (Fin 2) twoNodes).Reaches tr w ∧ w.conns.map Connection.toRouter =
        [[.data ⟨Node.frame 6 2210 Node.firstTrace Node.firstPan 5, 1⟩], []] :=
    Lts.reaches_of_execute twoNodesStart oneAnswer initial_twoNodesStart (by decide +kernel)
  have hr : Ranged twoNodes := by
    intro n
    fin_cases n <;> simp [twoNodes]
  exact ⟨tr, w, hreach, hanswered, ping_pong_safety hr hreach⟩

end MessageRouting
