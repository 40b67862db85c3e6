import MessageRouting.Node.Conversation
import MessageRouting.Router.Progress
import MessageRouting.System.PingPong

/-!
The account of the data messages of the system, over runs in which no call fails and no
connection breaks.

Then the router removes no session and a node keeps its connection, so a message can get
lost at one place only: in `Router::process_message`, where no session has the id of its
destination, which has not announced itself yet.

* `WorldEvent.faultless`, `WorldEvent.unrouted`: the steps without a failure, and those
  that drop a message.
* `World.count`: the number of messages in flight (`card_inFlight`), place by place.
* `Live`: every connection is up and is the one its node uses, and no thread is about to
  remove a session.
* `count_of_thread`, `count_of_node`, `count_of_loop`: what a step does to the number.
* `account_of_reaches`: the account over a whole run.
* `messages_conserved`: in flight and dropped messages are the first messages that were
  sent.
-/

namespace MessageRouting

open Node (msgLen)

variable {N T : Type} {cfg : N → Node} {w w' : World N T} {c : ℕ} {x : Connection N}
  {e : WorldEvent N T}

/-! ### Steps without a failure -/

/-- No call fails in this step, and no connection breaks. -/
def WorldEvent.faultless : WorldEvent N T → Bool
  | .router (.received _ _ .closed) => false
  | .router (.received _ _ .error) => false
  | .router (.sent _ _ _ _ ok) => ok
  | .node _ (.sent _ k) => 0 < k
  | .node _ (.received (.bytes _)) => true
  | .node _ (.received _) => false
  | .broken _ => false
  | _ => true

/-- The router finds no session for the destination of a message, and drops it. -/
def WorldEvent.unrouted : WorldEvent N T → Bool
  | .router (.routed _ _ _ none) => true
  | _ => false

/-! ### The number of messages in flight -/

/-- The number of data messages in the hands of a thread. -/
def Pc.messages : Pc → ℕ
  | .findDst .. => 1
  | .forward .. => 1
  | .findSession _ => 1
  | .lockDst .. => 1
  | .send .. => 1
  | _ => 0

/-- The number of answers in the hands of a node. -/
def Node.Place.messages : Node.Place → ℕ
  | .send (.reply _) _ => 1
  | _ => 0

lemma Pc.card_frames (pc : Pc) (k : ℕ) (g : Task → Frame) : (pc.frames k g).card = pc.messages := by
  cases pc <;> rfl

lemma Node.Place.card_frames (pl : Node.Place) (k : ℕ) : (pl.frames k).card = pl.messages := by
  cases pl with
  | send p retry => cases p <;> rfl
  | _ => rfl

/-- A node that has sent something has no answer in its hands. -/
lemma Node.messages_afterSent (node : Node) (p : Node.Purpose) :
    (node.afterSent p).messages = 0 := by
  cases p with
  | subscribe =>
      rw [afterSent]
      split_ifs
      · rfl
      · rfl
  | _ => rfl

/-- A change of one entry that a function does not see. -/
lemma map_modify_of_eq {α β : Type} {l : List α} {k : ℕ} {f : α → α} {g : α → β}
    (h : ∀ a, g (f a) = g a) : (l.modify k f).map g = l.map g := by
  refine List.ext_getElem? fun d => ?_
  rw [List.getElem?_map, List.getElem?_map, List.getElem?_modify]
  cases l[d]? with
  | none => rfl
  | some a =>
      by_cases hk : k = d
      · simp [hk, h]
      · simp [hk]

/-- The number of data messages in the channels of some connections. -/
def carried (conns : List (Connection N)) : ℕ := (conns.map fun x => x.frames.card).sum

section Count

variable [Fintype N] [Fintype T]

/-- The number of data messages, place by place. -/
def World.count (w : World N T) : ℕ :=
  carried w.conns + w.router.shared.writeQueue.length + ∑ i, (w.router.loc i).messages +
    ∑ n, (w.nodes n).place.messages

lemma card_inFlight (w : World N T) : w.inFlight.card = w.count := by
  have hchannels : w.inChannels.card = carried w.conns := by
    refine (map_list_sum Multiset.cardHom _).trans ?_
    rw [List.map_map]
    rfl
  have hqueue : w.inQueue.card = w.router.shared.writeQueue.length := by
    rw [World.inQueue, Multiset.coe_card, List.length_map]
  have hthreads : (∑ i, w.inThread i).card = ∑ i, (w.router.loc i).messages := by
    rw [Multiset.card_sum]
    exact Finset.sum_congr rfl fun i _ => Pc.card_frames _ _ _
  have hnodes : (∑ n, w.inNode n).card = ∑ n, (w.nodes n).place.messages := by
    rw [Multiset.card_sum]
    exact Finset.sum_congr rfl fun n _ => Node.Place.card_frames _ _
  simp only [World.inFlight, World.count, Multiset.card_add, hchannels, hqueue, hthreads, hnodes]

end Count

lemma carried_append (conns : List (Connection N)) (n : N) :
    carried (conns ++ [.new n]) = carried conns := by
  have hnew : (Connection.new n).frames.card = 0 := rfl
  rw [carried, List.map_append, List.sum_append, List.map_singleton, List.sum_singleton, hnew,
    Nat.add_zero, carried]

lemma carried_modify {conns : List (Connection N)} {f : Connection N → Connection N}
    (hx : conns[c]? = some x) :
    carried (conns.modify c f) + x.frames.card = carried conns + (f x).frames.card :=
  List.sum_map_modify f (fun x => x.frames.card) hx

/-- What is sent on a connection that is up is in its channel. -/
lemma card_sendToRouter (hup : x.up = true) (p : Packet) :
    (x.sendToRouter p).frames.card = x.frames.card + p.frame.toList.length := by
  rw [Connection.sendToRouter, if_pos hup]
  simp only [Connection.frames, coe_filterMap_append, Multiset.card_add, Multiset.coe_card]
  omega

lemma card_sendToNode (hup : x.up = true) (f : Frame) :
    (x.sendToNode (.data f)).frames.card = x.frames.card + 1 := by
  rw [Connection.sendToNode, if_pos hup]
  simp only [Connection.frames, coe_filterMap_append, Multiset.card_add, Multiset.coe_card]
  show _ + (_ + 1) = _
  omega

/-! ### Connections that stay in use -/

/-- The ends of the connections: whose it is, and whether it is up. -/
def World.ends (w : World N T) : List (N × Bool) := w.conns.map fun x => (x.node, x.up)

/-- Every connection is up and is the one its node uses, and no session is removed. -/
structure Live (w : World N T) : Prop where
  up : ∀ p ∈ w.ends, p.2 = true
  inUse : ∀ (c : ℕ) n u, w.ends[c]? = some (n, u) →
    (w.nodes n).socket = c ∧ ¬ Node.GivenUp (w.nodes n).place
  kept : ∀ i, ¬ (w.router.loc i).Removing

lemma ends_getElem? (hx : w.conns[c]? = some x) : w.ends[c]? = some (x.node, x.up) := by
  rw [World.ends, List.getElem?_map, hx, Option.map_some]

lemma Live.up_of (h : Live w) (hx : w.conns[c]? = some x) : x.up = true :=
  h.up _ (List.mem_of_getElem? (ends_getElem? hx))

/-- A change of one connection that leaves its ends alone. -/
lemma ends_modify {f : Connection N → Connection N} (hconns : w'.conns = w.conns.modify c f)
    (hf : ∀ x, (f x).node = x.node ∧ (f x).up = x.up) : w'.ends = w.ends := by
  rw [World.ends, World.ends, hconns]
  exact map_modify_of_eq fun x => Prod.ext (hf x).1 (hf x).2

variable [DecidableEq N] [DecidableEq T]

/-! ### The steps of the threads -/

/-- A step of a thread, with what it does to the connections. -/
lemma thread_step {i : T} {o : Outcome} (h : w.step cfg (.thread i o) = some (e, w')) :
    ∃ inp e' pc' sh', w.input i o = some inp ∧
      next w.router.shared i (w.router.loc i) inp = some (e', pc', sh') ∧ e = .router e' ∧
      w' = { w.observe e' with router := ⟨sh', Function.update w.router.loc i pc'⟩ } := by
  simp only [World.step, Program.step, Option.bind_eq_some_iff, Option.map_eq_some_iff,
    Prod.mk.injEq, Prod.exists] at h
  obtain ⟨inp, hin, _, _, ⟨e', pc', sh', hn, rfl, rfl⟩, rfl, rfl⟩ := h
  exact ⟨inp, e', pc', sh', hin, hn, rfl, rfl⟩

omit [DecidableEq N] in
/-- The channels are all that a step of the router changes of the connections and nodes. -/
lemma observe_ends (w : World N T) (e : Event T) :
    (w.observe e).ends = w.ends ∧ (w.observe e).nodes = w.nodes ∧
      (w.observe e).initiated = w.initiated := by
  cases e with
  | received i s r =>
      cases r with
      | bytes bs =>
          cases hb : w.behind s with
          | none => simp [World.observe, hb]
          | some c =>
              simp only [World.observe, hb, and_self, and_true]
              exact ends_modify rfl fun x => ⟨rfl, rfl⟩
      | _ => exact ⟨rfl, rfl, rfl⟩
  | sent i k s m ok =>
      cases ok with
      | false => exact ⟨rfl, rfl, rfl⟩
      | true =>
          cases hb : w.behind s with
          | none => simp [World.observe, hb]
          | some c =>
              simp only [World.observe, hb, and_self, and_true]
              refine ends_modify rfl fun x => ?_
              rw [Connection.sendToNode]
              split_ifs
              · exact ⟨rfl, rfl⟩
              · exact ⟨rfl, rfl⟩
  | _ => exact ⟨rfl, rfl, rfl⟩

omit [DecidableEq N] [DecidableEq T] in
/-- Only a failed call leads to a removal. -/
lemma Step.removes {i : T} {sh sh' : Shared T} {pc pc' : Pc} {e : Event T}
    (h : Step i sh pc e pc' sh') (hf : (WorldEvent.router e : WorldEvent N T).faultless = true) :
    ¬ pc'.Removing := by
  cases h with
  | recv_failed hr => rcases hr with rfl | rfl <;> cases hf
  | send_failed => cases hf
  | _ => exact id

lemma Live.thread (h : Live w) {i : T} {o : Outcome}
    (hs : w.step cfg (.thread i o) = some (e, w')) (hf : e.faultless = true) : Live w' := by
  obtain ⟨inp, e', pc', sh', -, hn, rfl, rfl⟩ := thread_step hs
  obtain ⟨hends, hnodes, -⟩ := observe_ends w e'
  have hends' : ({ w.observe e' with router := ⟨sh', Function.update w.router.loc i pc'⟩ } :
      World N T).ends = w.ends := hends
  refine ⟨by rw [hends']; exact h.up, ?_, fun j => ?_⟩
  · rw [hends']
    show ∀ (c : ℕ) n u, w.ends[c]? = some (n, u) → ((w.observe e').nodes n).socket = c ∧
      ¬ Node.GivenUp ((w.observe e').nodes n).place
    rw [hnodes]
    exact h.inUse
  · show ¬ (Function.update w.router.loc i pc' j).Removing
    by_cases hj : j = i
    · rw [hj, Function.update_self]
      exact (step_of_next hn).removes hf
    · rw [Function.update_of_ne hj]
      exact h.kept j

/-- A message leaves the hands of a thread without having come into the queue. -/
def Event.lets : Event T → ℕ
  | .routed _ _ _ none => 1
  | .dropped .. => 1
  | .sent .. => 1
  | _ => 0

omit [DecidableEq T] in
/-- What a step does to the messages in the queue and in the hands of its thread. -/
lemma Step.messages {i : T} {sh sh' : Shared T} {pc pc' : Pc} {e : Event T}
    (h : Step i sh pc e pc' sh') (he : ∀ s bs, e ≠ .received i s (.bytes bs)) :
    sh'.writeQueue.length + pc'.messages + e.lets = sh.writeQueue.length + pc.messages := by
  cases h with
  | recv_id _ _ => exact absurd rfl (he _ _)
  | recv_data _ _ => exact absurd rfl (he _ _)
  | recv_more _ _ => exact absurd rfl (he _ _)
  | recv_failed hr => rcases hr with rfl | rfl <;> rfl
  | popWrite hq => simp [Pc.messages, Event.lets, hq]
  | forward => simp [Pc.messages, Event.lets, Shared.push, SignalingQueue.push]
  | _ => rfl

omit [DecidableEq N] [DecidableEq T] in
/-- There is a connection behind the descriptor of a node. -/
lemma behind_of_owner {s : ℤ} {n : N} (h : Owner w s n) : ∃ c, w.behind s = some c := by
  obtain ⟨x, hx, hwire⟩ := List.mem_map.mp h
  have hs : x.socket = some s := congrArg Prod.snd hwire
  rw [← Option.isSome_iff_exists, World.behind, List.findIdx?_isSome]
  exact List.any_eq_true.mpr ⟨x, hx, by simp [hs]⟩

omit [DecidableEq N] in
/-- A step that neither takes bytes nor delivers a message leaves the channels alone. -/
lemma observe_conns {e : Event T} (hrecv : ∀ i s bs, e ≠ .received i s (.bytes bs))
    (hsent : ∀ i k s m, e ≠ .sent i k s m true) : (w.observe e).conns = w.conns := by
  cases e with
  | received i s r =>
      cases r with
      | bytes bs => exact absurd rfl (hrecv i s bs)
      | _ => rfl
  | sent i k s m ok =>
      cases ok with
      | false => rfl
      | true => exact absurd rfl (hsent i k s m)
  | _ => rfl

variable [Fintype N] [Fintype T]

omit [DecidableEq N] in
/-- The number of messages after a step of a thread, from what the step does to the channels,
the queue and the hands of the thread. -/
lemma count_thread {e : Event T} {i : T} {pc' : Pc} {sh' : Shared T} {a b : ℕ}
    (hconns : carried (w.observe e).conns + sh'.writeQueue.length + pc'.messages + a =
      carried w.conns + w.router.shared.writeQueue.length + (w.router.loc i).messages + b) :
    ({ w.observe e with router := ⟨sh', Function.update w.router.loc i pc'⟩ } :
      World N T).count + a = w.count + b := by
  have hthreads := Program.sum_update Pc.messages w.router.loc i pc'
  have hnodes := (observe_ends w e).2.1
  simp only [World.count, hnodes]
  omega

omit [DecidableEq N] [DecidableEq T] [Fintype N] [Fintype T] in
/-- A `recv` of a reader takes an id message, or a data message into its hands. -/
lemma count_of_recv (hr : Ranged cfg) (h : Linked cfg w) (hst : Standing w.router.shared)
    (hloc : ∀ i, Located w.router.shared i (w.router.loc i)) {i : T} {a src : Addr} {want : Wanted}
    {s : ℤ} {got bs : List UInt8} {k : ℕ} {pc' : Pc} (hpc : w.router.loc i = .recv s a src want got)
    (hb : w.behind s = some c) (hx : w.conns[c]? = some x)
    (hprop : ∀ f, .data f ∈ x.toRouter → f.Proper)
    (hrecv : recvFrom (want.size - got.length) k x.toRouter = .bytes bs)
    (hafter : afterRecv s a src want got (.bytes bs) = some pc') :
    carried (w.conns.modify c fun x => { x with toRouter := dropBytes bs.length x.toRouter }) +
      pc'.messages = carried w.conns + (w.router.loc i).messages := by
  obtain ⟨y, hy, hs⟩ := behind_eq_some hb
  obtain rfl : x = y := Option.some.inj (hx.symm.trans hy)
  have hmod := carried_modify
    (f := fun x : Connection N => { x with toRouter := dropBytes bs.length x.toRouter }) hx
  rw [hpc]
  rcases recv_exact hr h hst hloc hpc hx hs hprop hrecv hafter with
    ⟨ps, -, hch, -, hdrop, rfl⟩ | ⟨f, ps, -, hch, -, hdrop, rfl⟩
  · rw [hdrop, Connection.frames_idMessage hch] at hmod
    simp only [Pc.messages]
    omega
  · rw [hdrop, Connection.frames_toRouter hch, Multiset.card_add, Multiset.card_singleton] at hmod
    simp only [Pc.messages]
    omega

/-- **A step of a thread** keeps every message, unless it finds no session for it. -/
lemma count_of_thread (hr : Ranged cfg) (h : Linked cfg w) (hst : Standing w.router.shared)
    (hloc : ∀ i, Located w.router.shared i (w.router.loc i)) (hlive : Live w)
    (hproper : ∀ f ∈ w.inFlight, f.Proper) {i : T} {o : Outcome}
    (hs : w.step cfg (.thread i o) = some (e, w')) (hf : e.faultless = true)
    (hd : ∀ j t, e ≠ .router (.dropped j t)) :
    w'.count + e.unrouted.toNat = w.count := by
  obtain ⟨inp, e', pc', sh', hin, hn, rfl, rfl⟩ := thread_step hs
  have hstep := step_of_next hn
  refine count_thread (b := 0) ?_
  by_cases hrecv : ∃ j s bs, e' = .received j s (.bytes bs)
  · obtain ⟨j, s, bs, rfl⟩ := hrecv
    obtain ⟨a, src, want, got, hpc, rfl, rfl, rfl, hafter⟩ := next_received hn
    obtain ⟨c, x, k, hb, hx, hfrom⟩ := input_bytes hin hpc
    have hcount := count_of_recv hr h hst hloc hpc hb hx
      (fun f hf => hproper f (mem_inFlight hx (Connection.mem_frames.mpr (.inl hf)))) hfrom hafter
    simp only [World.observe, hb, WorldEvent.unrouted, Bool.toNat_false]
    omega
  · by_cases hsent : ∃ j k s m, e' = .sent j k s m true
    · obtain ⟨j, k, s, m, rfl⟩ := hsent
      generalize hpc : w.router.loc i = pc at hstep
      cases hstep with
      | @send t a =>
          have hp := h.placed i
          rw [hpc] at hp
          obtain ⟨n, howner, -⟩ := hp
          obtain ⟨c, hb⟩ := behind_of_owner howner
          obtain ⟨x, hx, -⟩ := behind_eq_some hb
          have hmod := carried_modify
            (f := fun x => x.sendToNode (.data ⟨t.msg, w.queued t.seq⟩)) hx
          rw [card_sendToNode (hlive.up_of hx)] at hmod
          simp only [World.observe, hb, WorldEvent.unrouted, Bool.toNat_false, Pc.messages]
          omega
    · have hconns : (w.observe e').conns = w.conns :=
        observe_conns (fun j s bs he => hrecv ⟨j, s, bs, he⟩)
          fun j k s m he => hsent ⟨j, k, s, m, he⟩
      have hmsg := hstep.messages fun s bs he => hrecv ⟨i, s, bs, he⟩
      have hlets : e'.lets = (WorldEvent.router e' : WorldEvent N T).unrouted.toNat := by
        cases e' with
        | routed j s m dst => cases dst <;> rfl
        | dropped j t => exact absurd rfl (hd j t)
        | sent j k s m ok =>
            cases ok with
            | false => cases hf
            | true => exact absurd ⟨j, k, s, m, rfl⟩ hsent
        | _ => rfl
      rw [hconns, ← hlets]
      omega

/-! ### The steps of the nodes -/

omit [DecidableEq T] [Fintype N] [Fintype T] in
/-- A node that keeps its connection, and does not give it up. -/
lemma Live.node (h : Live w) {w₁ : World N T} {n : N} {st : Node.State}
    (hrouter : w₁.router = w.router) (hends : w₁.ends = w.ends)
    (hsocket : st.socket = (w.nodes n).socket)
    (hup : Node.GivenUp st.place → Node.GivenUp (w.nodes n).place) :
    Live { w₁ with nodes := Function.update w.nodes n st } := by
  have hends' : ({ w₁ with nodes := Function.update w.nodes n st } : World N T).ends = w.ends :=
    hends
  refine ⟨by rw [hends']; exact h.up, fun c m u hm => ?_, ?_⟩
  · rw [hends'] at hm
    obtain ⟨hc, hkept⟩ := h.inUse c m u hm
    show (Function.update w.nodes n st m).socket = c ∧
      ¬ Node.GivenUp (Function.update w.nodes n st m).place
    by_cases hmn : m = n
    · subst hmn
      rw [Function.update_self]
      exact ⟨hsocket.trans hc, fun hg => hkept (hup hg)⟩
    · rw [Function.update_of_ne hmn]
      exact ⟨hc, hkept⟩
  · show ∀ i, ¬ (w₁.router.loc i).Removing
    rw [hrouter]
    exact h.kept

omit [DecidableEq T] [Fintype N] [Fintype T] in
/-- A node that has no connection makes one. -/
lemma Live.connect (h : Live w) {n : N} (hpl : (w.nodes n).place = .connect) :
    Live { w with
      conns := w.conns ++ [.new n]
      nodes := Function.update w.nodes n ⟨.send .subscribe 0, w.conns.length⟩ } := by
  set w' : World N T := { w with
    conns := w.conns ++ [.new n]
    nodes := Function.update w.nodes n ⟨.send .subscribe 0, w.conns.length⟩ } with hw'
  have hends : w'.ends = w.ends ++ [(n, true)] := by
    rw [World.ends, List.map_append]
    rfl
  have hlen : w.ends.length = w.conns.length := List.length_map _
  refine ⟨fun p hp => ?_, fun c m u hm => ?_, h.kept⟩
  · rw [hends] at hp
    rcases List.mem_append.mp hp with hp | hp
    · exact h.up p hp
    · rw [List.mem_singleton.mp hp]
  · rw [hends] at hm
    show (Function.update w.nodes n _ m).socket = c ∧
      ¬ Node.GivenUp (Function.update w.nodes n _ m).place
    by_cases hc : c < w.ends.length
    · -- an old connection is not one of this node
      rw [List.getElem?_append_left hc] at hm
      obtain ⟨hsocket, hkept⟩ := h.inUse c m u hm
      have hmn : m ≠ n := by
        rintro rfl
        rw [hpl] at hkept
        exact hkept trivial
      rw [Function.update_of_ne hmn]
      exact ⟨hsocket, hkept⟩
    · rw [List.getElem?_append_right (not_lt.mp hc), List.getElem?_singleton,
        Option.ite_none_right_eq_some] at hm
      obtain ⟨hzero, heq⟩ := hm
      obtain ⟨rfl, -⟩ := Prod.mk.inj (Option.some.inj heq)
      rw [Function.update_self]
      refine ⟨?_, id⟩
      show w.conns.length = c
      omega

omit [DecidableEq T] in
/-- The number of messages after a step of a node. -/
lemma count_node {w₁ : World N T} {n : N} {st : Node.State} {a b : ℕ}
    (hrouter : w₁.router = w.router)
    (hconns : carried w₁.conns + st.place.messages + a =
      carried w.conns + (w.nodes n).place.messages + b) :
    ({ w₁ with nodes := Function.update w.nodes n st } : World N T).count + a = w.count + b := by
  have hnodes := Program.sum_update (fun st : Node.State => st.place.messages) w.nodes n st
  simp only [World.count, hrouter]
  omega

omit [DecidableEq N] [DecidableEq T] [Fintype N] [Fintype T] in
/-- A node that uses a connection has one, and it is up. -/
lemma Live.connection (hlive : Live w) (h : Linked cfg w) {n : N}
    (hn : (w.nodes n).place.Connected) :
    ∃ x, w.conns[(w.nodes n).socket]? = some x ∧ x.up = true := by
  obtain ⟨o, ho⟩ := h.nodes n hn
  rw [World.wires, List.getElem?_map] at ho
  obtain ⟨x, hx, -⟩ := Option.map_eq_some_iff.mp ho
  exact ⟨x, hx, hlive.up_of hx⟩

omit [DecidableEq T] in
/-- A `send` of a node: a first message is new, an answer goes from its hands to the channel. -/
lemma node_sent (h : Linked cfg w) (hlive : Live w) {n : N} {p : Node.Purpose} {retry : ℕ}
    (hpl : (w.nodes n).place = .send p retry) {k : ℤ} (hk : 0 < k) :
    let w' : World N T := { w.observeNode cfg n (.sent p k) with
      nodes := Function.update w.nodes n { w.nodes n with place := (cfg n).afterSend p retry k } }
    w'.count + w.initiated = w.count + w'.initiated ∧ Live w' := by
  have hafter : (cfg n).afterSend p retry k = (cfg n).afterSent p := by
    rw [Node.afterSend, if_pos hk]
  obtain ⟨x, hx, hup⟩ := hlive.connection h (n := n) (by rw [hpl]; trivial)
  have hmod := carried_modify (f := fun x => x.sendToRouter (w.packet cfg n p)) hx
  rw [card_sendToRouter hup] at hmod
  have hkept : ¬ Node.GivenUp ((cfg n).afterSent p) := by
    cases p with
    | subscribe =>
        rw [Node.afterSent]
        split_ifs
        · exact id
        · exact id
    | _ => exact id
  rw [hafter]
  refine ⟨count_node (observeNode_router n _) ?_,
    hlive.node (observeNode_router n _) ?_ rfl fun hg => absurd hg hkept⟩
  · rw [(cfg n).messages_afterSent, hpl]
    simp only [World.observeNode, if_pos hk]
    cases p with
    | subscribe =>
        simp only [World.packet, Packet.frame, Option.toList_none, List.length_nil] at hmod ⊢
        simp only [Node.Place.messages, reduceCtorEq, if_false]
        omega
    | initiate =>
        simp only [World.packet, Packet.frame, Option.toList_some, List.length_singleton] at hmod ⊢
        simp only [Node.Place.messages, if_true]
        omega
    | reply m =>
        simp only [World.packet, Packet.frame, Option.toList_some, List.length_singleton] at hmod ⊢
        simp only [Node.Place.messages, reduceCtorEq, if_false]
        omega
  · simp only [World.observeNode, if_pos hk]
    refine ends_modify rfl fun x => ?_
    rw [Connection.sendToRouter]
    split_ifs
    · exact ⟨rfl, rfl⟩
    · exact ⟨rfl, rfl⟩

omit [DecidableEq T] in
/-- A `recv` of a node takes a data message from the channel, and its answer is in its hands. -/
lemma node_received (h : Linked cfg w) (hlive : Live w) (hproper : ∀ f ∈ w.inFlight, f.Proper)
    {n : N} (hpl : (w.nodes n).place = .receive) (hx : w.conns[(w.nodes n).socket]? = some x)
    {bs : List UInt8} {k : ℕ} (hrecv : recvFrom msgLen k x.toNode = .bytes bs) :
    let w' : World N T := { w.observeNode cfg n (.received (.bytes bs)) with
      nodes := Function.update w.nodes n
        { w.nodes n with place := (cfg n).afterReceived (.bytes bs) } }
    w'.count + w.initiated = w.count + w'.initiated ∧ Live w' := by
  obtain ⟨f, ps, reply, hch, hdrop, -, -, hafter⟩ := answer_exact h hpl hx
    (fun f hf => hproper f (mem_inFlight hx (Connection.mem_frames.mpr (.inr hf)))) hrecv
  have hmod := carried_modify
    (f := fun x : Connection N => { x with toNode := dropBytes bs.length x.toNode }) hx
  rw [hdrop, Connection.frames_toNode hch, Multiset.card_add, Multiset.card_singleton] at hmod
  rw [hafter]
  refine ⟨count_node rfl ?_, hlive.node rfl (ends_modify rfl fun x => ⟨rfl, rfl⟩) rfl fun hg => ?_⟩
  · rw [hpl]
    simp only [World.observeNode, Node.Place.messages]
    omega
  · exact absurd hg id

/-- **A step of a node** keeps every message, and creates one when the first message is sent. -/
lemma count_of_node (h : Linked cfg w) (hlive : Live w) (hproper : ∀ f ∈ w.inFlight, f.Proper)
    {n : N} {o : NodeOutcome} (hs : w.step cfg (.node n o) = some (e, w'))
    (hf : e.faultless = true) : w'.count + w.initiated = w.count + w'.initiated ∧ Live w' := by
  simp only [World.step, Option.bind_eq_some_iff, Option.map_eq_some_iff, Prod.mk.injEq,
    Prod.exists] at hs
  obtain ⟨inp, hin, e', st, hn, rfl, rfl⟩ := hs
  cases inp with
  | connected c =>
      obtain ⟨hpl, rfl, rfl⟩ := Node.next_connected.mp hn
      obtain rfl : c = w.conns.length := by
        cases o with
        | connected => simpa [World.nodeInput, eq_comm] using hin
        | sent ok => cases hp : (w.nodes n).place <;> simp [World.nodeInput, hp] at hin
        | arrived k =>
            simp only [World.nodeInput] at hin
            split at hin
            · cases hin
            · split at hin <;> cases hin
        | _ => simp [World.nodeInput] at hin
      refine ⟨count_node rfl ?_, hlive.connect hpl⟩
      simp only [World.observeNode, carried_append, hpl, Node.Place.messages]
  | refused =>
      obtain ⟨hpl, rfl, rfl⟩ := Node.next_refused.mp hn
      exact ⟨count_node rfl rfl, hlive.node rfl rfl rfl id⟩
  | sent k =>
      obtain ⟨p, retry, hpl, rfl, rfl⟩ := Node.next_sent.mp hn
      exact node_sent h hlive hpl (of_decide_eq_true hf)
  | recv r =>
      obtain ⟨hpl, rfl, rfl⟩ := Node.next_recv.mp hn
      cases r with
      | bytes bs =>
          cases o with
          | arrived k =>
              simp only [World.nodeInput] at hin
              split at hin
              · cases hin
              · rename_i x hx
                split at hin
                · rename_i hrecv
                  cases hin
                  exact node_received h hlive hproper hpl hx hrecv
                · cases hin
          | sent ok => cases hp : (w.nodes n).place <;> simp [World.nodeInput, hp] at hin
          | _ => simp [World.nodeInput] at hin
      | _ => cases hf
  | go =>
      obtain ⟨hpl, rfl, rfl⟩ := Node.next_go.mp hn
      refine ⟨count_node rfl ?_, hlive.node rfl rfl rfl fun _ => by rw [hpl]; trivial⟩
      rw [hpl]
      rfl

/-! ### The account -/

omit [DecidableEq N] [DecidableEq T] in
/-- The event loop touches no message and no end of a connection. -/
lemma count_of_loop (hlive : Live w) {S : Shared T} {f : Connection N → Connection N}
    (hqueue : S.writeQueue = w.router.shared.writeQueue)
    (hf : ∀ x, (f x).frames = x.frames ∧ (f x).node = x.node ∧ (f x).up = x.up) :
    let w' : World N T := { w with router := ⟨S, w.router.loc⟩, conns := w.conns.modify c f }
    w'.count = w.count ∧ Live w' := by
  intro w'
  have hends : w'.ends = w.ends := ends_modify rfl fun x => (hf x).2
  refine ⟨?_, by rw [hends]; exact hlive.up, by rw [hends]; exact hlive.inUse, hlive.kept⟩
  have hcarried : carried (w.conns.modify c f) = carried w.conns :=
    congrArg List.sum (map_modify_of_eq fun x => congrArg Multiset.card (hf x).1)
  simp only [w', World.count, hcarried, hqueue]

omit [Fintype N] [Fintype T] in
/-- No session is removed. -/
lemma Live.not_removed (hlive : Live w) (hs : (network T cfg).step w e w') (i : T) (s : ℤ) :
    e ≠ .router (.removed i s) := by
  rintro rfl
  obtain ⟨act, hs⟩ := hs
  cases act with
  | thread j o =>
      obtain ⟨inp, e', pc', sh', -, hn, he, -⟩ := thread_step hs
      cases he
      have hstep := step_of_next hn
      have hkept := hlive.kept j
      generalize w.router.loc j = pc at hstep hkept
      cases hstep with
      | removeSrc => exact hkept trivial
      | removeDst => exact hkept trivial
  | accept t c =>
      simp only [World.step, Program.step, Option.ite_none_right_eq_some, Option.map_eq_some_iff,
        Prod.mk.injEq, Prod.exists] at hs
      obtain ⟨-, _, _, ⟨e', sh', hn, rfl, rfl⟩, he, -⟩ := hs
      cases he
      have hn' : loopStep w.router.shared (.accept t) = some (.removed i s, sh') := hn
      simp [loopStep] at hn'
  | readable t =>
      simp only [World.step, Program.step, Option.map_eq_some_iff, Prod.mk.injEq, Prod.exists] at hs
      obtain ⟨_, _, ⟨e', sh', hn, rfl, rfl⟩, he, -⟩ := hs
      cases he
      cases hn
  | node n o =>
      simp [World.step, Option.bind_eq_some_iff] at hs
  | cut c k l => cases hs

omit [Fintype N] [DecidableEq N] in
/-- A task is dropped only after its socket was removed. -/
lemma not_dropped {tr : List (Event T)} {st : RouterState T} (h : (workers T).Reaches tr st)
    (hkept : ∀ i s, .removed i s ∉ tr) (j : T) (t : Task) : .dropped j t ∉ tr := by
  intro hmem
  have hdropped : t ∈ (tasksOf Event.droppedTask tr : Multiset Task) :=
    Multiset.mem_coe.mpr (List.mem_filterMap.mpr ⟨_, hmem, rfl⟩)
  have hpopped : t ∈ (tasksOf Event.poppedTask tr : Multiset Task) := by
    rw [(balanced_of_reaches h).popped]
    exact Multiset.mem_add.mpr (.inr (Multiset.mem_add.mpr (.inr hdropped)))
  have hpushed := pushed_of_popped h (Multiset.mem_coe.mp hpopped)
  rcases registered_or_removed h (accepted_of_pushed h hpushed) with hreg | ⟨i, hi⟩
  · exact hreg (dropped_retired h hmem).2
  · exact hkept i t.socket hi

/-- **Every step** without a failure keeps the account and the connections. -/
lemma count_of_step (hr : Ranged cfg) {tr : List (WorldEvent N T)}
    (h : (network T cfg).Reaches tr w) (hlive : Live w) (hs : (network T cfg).step w e w')
    (hf : e.faultless = true) (hkept : ∀ i s, .router (.removed i s) ∉ tr ++ [e]) :
    w'.count + w.initiated + e.unrouted.toNat = w.count + w'.initiated ∧ Live w' := by
  obtain ⟨hlinked, tr', hpop⟩ := network_refines hr h
  obtain ⟨hst, hloc⟩ := standing_of_reaches (router_reaches h)
  have hproper := proper_of_population hr hpop
  have hd : ∀ j t, e ≠ .router (.dropped j t) := by
    rintro j t rfl
    have hreach := router_reaches (h.append (.single hs))
    refine not_dropped hreach (fun i s hmem => ?_) j t ?_
    · obtain ⟨e', he', hrouter⟩ := List.mem_filterMap.mp hmem
      cases e' with
      | router e₀ =>
          cases hrouter
          exact hkept i s he'
      | _ => cases hrouter
    · exact List.mem_filterMap.mpr ⟨_, List.mem_append_right tr (List.mem_singleton_self _), rfl⟩
  obtain ⟨act, hs⟩ := hs
  cases act with
  | thread i o =>
      have hcount := count_of_thread hr hlinked hst hloc hlive hproper hs hf hd
      have hinit : w'.initiated = w.initiated := by
        obtain ⟨inp, e', pc', sh', -, -, -, rfl⟩ := thread_step hs
        exact (observe_ends w e').2.2
      exact ⟨by omega, hlive.thread hs hf⟩
  | accept s c =>
      simp only [World.step, Program.step, Option.ite_none_right_eq_some, Option.map_eq_some_iff,
        Prod.mk.injEq, Prod.exists] at hs
      obtain ⟨-, _, _, ⟨e', sh', hn, rfl, rfl⟩, rfl, rfl⟩ := hs
      have hn' : loopStep w.router.shared (.accept s) = some (e', sh') := hn
      simp only [loopStep, Option.ite_none_left_eq_some, Option.map_eq_some_iff,
        Prod.mk.injEq] at hn'
      obtain ⟨-, S, -, rfl, rfl⟩ := hn'
      obtain ⟨hcount, hlive'⟩ := count_of_loop (c := c) hlive
        (S := { w.router.shared with sessions := S, opened := s :: w.router.shared.opened })
        (f := fun x => { x with socket := some s }) rfl fun x => ⟨rfl, rfl, rfl⟩
      exact ⟨by rw [hcount]; rfl, hlive'⟩
  | readable s =>
      simp only [World.step, Program.step, Option.map_eq_some_iff, Prod.mk.injEq, Prod.exists] at hs
      obtain ⟨_, _, ⟨e', sh', hn, rfl, rfl⟩, rfl, rfl⟩ := hs
      cases hn
      exact ⟨rfl, hlive.up, hlive.inUse, hlive.kept⟩
  | node n o =>
      obtain ⟨hcount, hlive'⟩ := count_of_node hlinked hlive hproper hs hf
      have hrouted : e.unrouted = false := by
        simp only [World.step, Option.bind_eq_some_iff, Option.map_eq_some_iff, Prod.mk.injEq] at hs
        obtain ⟨inp, -, r, -, rfl, -⟩ := hs
        rfl
      exact ⟨by rw [hrouted]; exact hcount, hlive'⟩
  | cut c k l =>
      cases hs
      cases hf

/-- Over a whole run without a failure the account is even, and the connections are in use. -/
lemma account_of_reaches (hr : Ranged cfg) {tr : List (WorldEvent N T)}
    (h : ((network T cfg).restrict fun _ e => e.faultless = true).Reaches tr w) :
    w.count + tr.countP WorldEvent.unrouted = w.initiated ∧ Live w := by
  have key : w.count + tr.countP WorldEvent.unrouted = w.initiated ∧ Live w ∧
      ∀ i s, .router (.removed i s) ∉ tr := by
    refine h.induct_reached (fun tr w => w.count + tr.countP WorldEvent.unrouted = w.initiated ∧
      Live w ∧ ∀ i s, .router (.removed i s) ∉ tr) ?_ ?_
    · intro w hw
      have hpop := population_of_initial hw
      refine ⟨?_, ⟨?_, ?_, fun i => ?_⟩, fun i s => List.not_mem_nil⟩
      · rw [← card_inFlight, (Population.mk.inj hpop).1, (Population.mk.inj hpop).2]
        rfl
      · simp [World.ends, hw.2.1]
      · simp [World.ends, hw.2.1]
      · rcases hw.1.2.2.2.2 i with hi | hi
        · rw [hi]
          exact id
        · rw [hi]
          exact id
    · rintro tr w e w' hreach ⟨hcount, hlive, hkept⟩ ⟨hs, hf⟩
      have hkept' : ∀ i s, .router (.removed i s) ∉ tr ++ [e] := by
        intro i s hmem
        rcases List.mem_append.mp hmem with hmem | hmem
        · exact hkept i s hmem
        · exact hlive.not_removed hs i s (List.mem_singleton.mp hmem).symm
      obtain ⟨hstep, hlive'⟩ := count_of_step hr hreach.of_restrict hlive hs hf hkept'
      refine ⟨?_, hlive', hkept'⟩
      have htail : [e].countP WorldEvent.unrouted = e.unrouted.toNat := by
        cases hu : e.unrouted <;> simp [hu]
      rw [List.countP_append, htail]
      omega
  exact ⟨key.1, key.2.1⟩

/-- **No message gets lost** without a failure. In every interleaving of any number of nodes,
readers and writers in which no call fails and no connection breaks, the data messages in
flight and those for which `process_message` found no session are exactly the first messages
that were sent; every connection is up and is the one its node is using, so a message in a
channel still has its reader. The nodes have ids up to 998 and destinations up to 999
(`Ranged`), and a `recv` takes whole packets (`recvFrom`): a frame that is cut by a would-block
would be dropped without a failure. -/
theorem messages_conserved (hr : Ranged cfg) {tr : List (WorldEvent N T)}
    (h : ((network T cfg).restrict fun _ e => e.faultless = true).Reaches tr w) :
    w.inFlight.card + tr.countP WorldEvent.unrouted = w.initiated ∧
      ∀ (c : ℕ) x, w.conns[c]? = some x →
        x.up = true ∧ (w.nodes x.node).socket = c ∧ ¬ Node.GivenUp (w.nodes x.node).place := by
  obtain ⟨hcount, hlive⟩ := account_of_reaches hr h
  refine ⟨by rw [card_inFlight]; exact hcount, fun c x hx => ?_⟩
  exact ⟨hlive.up_of hx, hlive.inUse c _ _ (ends_getElem? hx)⟩

/-- A node sends its first message before the other one is there. -/
def tooEarly {N T : Type} (n : N) (i : T) : List (WorldAct N T) :=
  [.node n .connected, .node n (.sent true), .node n (.sent true), .accept 4 0, .readable 4] ++
    [Outcome.go, .go, .go, .go, .go, .arrived 2, .go, .go, .arrived 1, .go].map (.thread i)

/-- The message is dropped, and it is the only one. -/
theorem messages_conserved_tooEarly :
    ∃ tr, ∃ w : World (Fin 2) (Fin 2), ((network (Fin 2) twoNodes).restrict
        fun _ e => e.faultless = true).Reaches tr w ∧
      w.initiated = 1 ∧ tr.countP WorldEvent.unrouted = 1 ∧ w.inFlight.card = 0 := by
  obtain ⟨tr, w, hreach, hinit, hdrop⟩ : ∃ tr, ∃ w : World (Fin 2) (Fin 2),
      (Lts.ofFn World.Initial (Lts.guarded (World.step twoNodes)
        fun _ e => e.faultless = true)).Reaches tr w ∧
      w.initiated = 1 ∧ tr.countP WorldEvent.unrouted = 1 :=
    Lts.reaches_of_execute twoNodesStart (tooEarly 0 0) initial_twoNodesStart (by decide +kernel)
  have hreach' := hreach.of_guarded
  have hcount := (messages_conserved ranged_twoNodes hreach').1
  exact ⟨tr, w, hreach', hinit, hdrop, by omega⟩

end MessageRouting
