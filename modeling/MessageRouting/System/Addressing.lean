import MessageRouting.System.Network

/-!
Who stands behind a descriptor of the router, and what is under way to whom.

Every connection begins with the id message of its node, so the router reads the
channel of a connection in step: an id message while the session has no id,
whole data messages afterwards. A session therefore carries the id of the node
behind its socket, and a message that is queued for a socket is for this node.

* `Owner`, `Greeted`: the node behind a descriptor, and whether its id message was
  taken from the channel.
* `InOrder`: what a connection carries; `Placed`: what holds of a thread of the
  router at its location; `Linked`: the invariant of the system.
* `InOrder.congr`, `Linked.of_channels`: what is kept when only some connections
  change.
-/

namespace MessageRouting

open Node (frame firstTrace firstPan msgLen buildIdMessage)

variable {N T : Type}

/-- A data message in its proper form: two ids of three digits, and the MTI that
belongs to the number of its answers. -/
def Frame.Proper (f : Frame) : Prop :=
  ∃ a b, a < 1000 ∧ b < 1000 ∧
    f.bytes = frame a ((2200 + 10 * f.answered) % 10000) firstTrace firstPan b

/-- The nodes have ids below 999 and destinations below 1000. -/
def Ranged (cfg : N → Node) : Prop :=
  ∀ n, (0 ≤ (cfg n).id ∧ (cfg n).id ≤ 998) ∧ 0 ≤ (cfg n).dstId ∧ (cfg n).dstId ≤ 999

/-! ### The invariant -/

/-- The fixed part of a connection. -/
def Connection.wire (x : Connection N) : N × Option ℤ := (x.node, x.socket)

/-- The fixed parts of the connections. -/
def World.wires (w : World N T) : List (N × Option ℤ) := w.conns.map Connection.wire

/-- The node behind a descriptor of the router. -/
def Owner (w : World N T) (s : ℤ) (n : N) : Prop := (n, some s) ∈ w.wires

/-- The message of a task is for the node behind its socket. -/
def Addressed (cfg : N → Node) (w : World N T) (t : Task) : Prop :=
  ∃ n, Owner w t.socket n ∧ destinationId t.msg = (cfg n).id

/-- The id message was taken from the channel behind the descriptor: a reader has it
in its hands, or the session has its id. -/
def Greeted (st : RouterState T) (s : ℤ) : Prop :=
  (∃ (a : Addr) (z : Session), st.shared.sessions.heap[a]? = some z ∧ z.socket = s ∧ z.id ≠ NONE) ∨
    ∃ i a src m, st.loc i = .addNode s a src m

/-- The same for a connection, which may not be accepted yet. -/
def Announced (st : RouterState T) (x : Connection N) : Prop :=
  ∃ s, x.socket = some s ∧ Greeted st s

/-- The node is connected, and has sent its id message. -/
def Node.Place.Subscribed : Node.Place → Prop
  | .send .subscribe _ => False
  | .send _ _ => True
  | .receive => True
  | _ => False

/-- The node uses its connection. -/
def Node.Place.Connected : Node.Place → Prop
  | .connect => False
  | .stopped => False
  | _ => True

/-- A place that promises nothing new about the connection. -/
structure Node.Place.Follows (pl pl' : Node.Place) : Prop where
  connected : pl'.Connected → pl.Connected
  running : pl' = .stopped → pl = .stopped
  subscribed : pl'.Subscribed → pl.Subscribed
  fresh : ∀ k, pl' = .send .subscribe k → ∃ k', pl = .send .subscribe k'

/-- Only data messages. -/
def AllData (ps : List Packet) : Prop := ∀ p ∈ ps, ∃ f, p = .data f

/-- What a connection carries. Until the id message is taken it stands in front of
the data messages, or there is nothing in the channel and nothing more comes;
towards the node there are only messages for it. -/
structure InOrder (cfg : N → Node) (w : World N T) (c : ℕ) (x : Connection N) : Prop where
  greeted : Announced w.router x → AllData x.toRouter
  greeting : ¬ Announced w.router x →
    (∃ ps, x.toRouter = .idMessage (buildIdMessage (cfg x.node).id) :: ps ∧ AllData ps) ∨
    x.toRouter = [] ∧ (x.up = true → ∀ n, (w.nodes n).socket = c → ¬ (w.nodes n).place.Subscribed)
  fresh : ∀ n k, (w.nodes n).place = .send .subscribe k → (w.nodes n).socket = c →
    ¬ Announced w.router x ∧ x.toRouter = []
  toNode : ∀ p ∈ x.toNode, ∃ f, p = .data f ∧ destinationId f.bytes = (cfg x.node).id

/-- What holds of a thread of the router at its location. -/
def Placed (cfg : N → Node) (w : World N T) : Pc → Prop
  | .recv _ _ src want got =>
      got = [] ∧ (want = .dataMessage → w.router.shared.sessions.getId (some src) ≠ NONE)
  | .addNode s _ _ m => ∃ n, Owner w s n ∧ m = buildIdMessage (cfg n).id
  | .forward _ _ _ dst m => ∃ z n, w.router.shared.sessions.heap[dst]? = some z ∧
      Owner w z.socket n ∧ destinationId m = (cfg n).id
  | .findSession t => Addressed cfg w t
  | .lockDst t _ => Addressed cfg w t
  | .send t _ => Addressed cfg w t
  | _ => True

/-- The invariant of the system. -/
structure Linked (cfg : N → Node) (w : World N T) : Prop where
  opened : ∀ n s, (n, some s) ∈ w.wires → s ∈ w.router.shared.opened
  distinct : ∀ (c d : ℕ) n m s, w.wires[c]? = some (n, some s) →
    w.wires[d]? = some (m, some s) → c = d
  sessions : ∀ (a : Addr) z, w.router.shared.sessions.heap[a]? = some z →
    ∃ n, Owner w z.socket n ∧ (z.id = NONE ∨ z.id = (cfg n).id)
  nodes : ∀ n, (w.nodes n).place.Connected → ∃ o, w.wires[(w.nodes n).socket]? = some (n, o)
  running : ∀ n, (w.nodes n).place ≠ .stopped
  inOrder : ∀ (c : ℕ) x, w.conns[c]? = some x → InOrder cfg w c x
  placed : ∀ i, Placed cfg w (w.router.loc i)
  queued : ∀ t ∈ w.router.shared.writeQueue, Addressed cfg w t

/-! ### Frames and ids -/

lemma Frame.Proper.length {f : Frame} (h : f.Proper) : f.bytes.length = msgLen := by
  obtain ⟨a, b, -, -, hf⟩ := h
  rw [hf]
  exact Node.length_frame rfl rfl

lemma Frame.Proper.destinationId {f : Frame} (h : f.Proper) :
    ∃ b : ℕ, MessageRouting.destinationId f.bytes = b := by
  obtain ⟨a, b, -, hb, hf⟩ := h
  rw [hf]
  exact ⟨b, destinationId_eq (Node.extractDstId_frame rfl rfl hb)⟩

/-- The answer of the destination to a proper message is proper again: one more
answer is 10 more in the MTI, modulo 10000. -/
lemma Frame.Proper.answer {f : Frame} (h : f.Proper) :
    ∃ reply, Node.processMessage (MessageRouting.destinationId f.bytes) f.bytes msgLen = .ok reply ∧
      (⟨reply, f.answered + 1⟩ : Frame).Proper := by
  obtain ⟨a, b, ha, hb, hf⟩ := h
  have hdst : MessageRouting.destinationId f.bytes = b := by
    rw [hf]
    exact destinationId_eq (Node.extractDstId_frame rfl rfl hb)
  have hmti : ((2200 + 10 * f.answered) % 10000 + 10) % 10000 =
      (2200 + 10 * (f.answered + 1)) % 10000 := by omega
  refine ⟨frame b ((2200 + 10 * (f.answered + 1)) % 10000) firstTrace firstPan a, ?_,
    b, a, hb, ha, rfl⟩
  rw [hdst, hf, ← hmti]
  exact Node.processMessage_frame rfl rfl (Nat.mod_lt _ (by omega)) hb

lemma Frame.Proper.ne_nil {f : Frame} (h : f.Proper) : f.bytes ≠ [] := by
  intro hnil
  have hlen := h.length
  rw [hnil] at hlen
  cases hlen

variable {cfg : N → Node}

lemma Ranged.exists_id (h : Ranged cfg) (n : N) : ∃ k : ℕ, (cfg n).id = k ∧ k < 999 := by
  obtain ⟨⟨h₀, h₁⟩, -⟩ := h n
  obtain ⟨k, hk⟩ := Int.eq_ofNat_of_zero_le h₀
  exact ⟨k, hk, by omega⟩

lemma Ranged.length_idMessage (h : Ranged cfg) (n : N) :
    (buildIdMessage (cfg n).id).length = idMessageSize := by
  obtain ⟨k, hk, hlt⟩ := h.exists_id n
  rw [hk]
  exact Node.length_buildIdMessage (by omega)

/-- The router reads the id of a node out of its id message. -/
lemma Ranged.announcedId (h : Ranged cfg) (n : N) :
    announcedId (buildIdMessage (cfg n).id) = (cfg n).id := by
  obtain ⟨k, hk, hlt⟩ := h.exists_id n
  rw [hk]
  exact announcedId_eq (Node.extractSrcId_buildIdMessage (by omega))

variable {w w' : World N T} {c : ℕ} {x : Connection N} {s : ℤ}

lemma behind_eq_some (h : w.behind s = some c) :
    ∃ x, w.conns[c]? = some x ∧ x.socket = some s := by
  obtain ⟨hc, hx, -⟩ := List.findIdx?_eq_some_iff_getElem.mp h
  exact ⟨w.conns[c], List.getElem?_eq_getElem hc, by simpa using hx⟩

/-- A change of one connection that keeps its fixed part. -/
lemma wires_modify {f : Connection N → Connection N} (hconns : w'.conns = w.conns.modify c f)
    (hf : ∀ x, (f x).wire = x.wire) : w'.wires = w.wires := by
  refine List.ext_getElem? fun d => ?_
  rw [World.wires, World.wires, hconns, List.getElem?_map, List.getElem?_map, List.getElem?_modify]
  cases w.conns[d]? with
  | none => rfl
  | some x =>
      by_cases hcd : c = d
      · simp [hcd, hf]
      · simp [hcd]

lemma wire_of_getElem? (h : w.conns[c]? = some x) : w.wires[c]? = some x.wire := by
  rw [World.wires, List.getElem?_map, h, Option.map_some]

lemma owner_of_getElem? (h : w.conns[c]? = some x) (hs : x.socket = some s) : Owner w s x.node := by
  have hmem : x.wire ∈ w.wires := List.mem_of_getElem? (wire_of_getElem? h)
  rwa [Connection.wire, hs] at hmem

/-- The connection behind a descriptor belongs to its owner. -/
lemma Linked.node_eq {n : N} (h : Linked cfg w) (hx : w.conns[c]? = some x)
    (hs : x.socket = some s) (ho : Owner w s n) : x.node = n := by
  obtain ⟨d, hd⟩ := List.mem_iff_getElem?.mp ho
  have hc := wire_of_getElem? hx
  rw [Connection.wire, hs] at hc
  obtain rfl := h.distinct c d _ _ s hc hd
  rw [hd] at hc
  exact ((Prod.mk.inj (Option.some.inj hc)).1).symm

lemma Addressed.mono {t : Task} (how : ∀ s n, Owner w s n → Owner w' s n)
    (h : Addressed cfg w t) : Addressed cfg w' t := by
  obtain ⟨n, ho, hd⟩ := h
  exact ⟨n, how _ n ho, hd⟩

/-! ### Channels under a change -/

lemma Node.Place.Subscribed.connected {pl : Node.Place} (h : pl.Subscribed) : pl.Connected := by
  cases pl with
  | connect => exact h
  | stopped => exact h
  | _ => trivial

lemma Node.Place.Follows.refl (pl : Node.Place) : pl.Follows pl :=
  ⟨fun h => h, fun h => h, fun h => h, fun k hk => ⟨k, hk⟩⟩

lemma Node.Slip.follows {pl pl' : Node.Place} (h : Node.Slip pl pl') : pl.Follows pl' := by
  cases h with
  | refused => exact .refl _
  | @retry p k =>
      refine ⟨fun _ => trivial, by simp, fun hs => ?_, fun k' hk => ?_⟩
      · cases p <;> exact hs
      · cases hk
        exact ⟨k, rfl⟩
  | @failed p k =>
      refine ⟨fun _ => trivial, fun hs => ?_, fun hs => ?_, fun k' hk => ?_⟩
      · cases p <;> cases hs
      · cases p <;> exact hs.elim
      · cases p <;> cases hk
  | broken => exact ⟨fun _ => trivial, by simp, fun hs => hs.elim, by simp⟩
  | closed => exact ⟨fun _ => trivial, by simp, fun hs => hs.elim, by simp⟩

/-- A connection stays in order when its greeting and the nodes that use it stay as
they are. -/
lemma InOrder.congr (h : InOrder cfg w c x)
    (ha : Announced w'.router x ↔ Announced w.router x)
    (hn : ∀ n, (w'.nodes n).socket = c →
      (w.nodes n).socket = c ∧ (w.nodes n).place.Follows (w'.nodes n).place) :
    InOrder cfg w' c x := by
  refine ⟨fun hann => h.greeted (ha.mp hann), fun hann => ?_, fun n k hpl hsock => ?_, h.toNode⟩
  · rcases h.greeting (fun h' => hann (ha.mpr h')) with hps | ⟨hnil, hup⟩
    · exact .inl hps
    · refine .inr ⟨hnil, fun hx n hsock hpl => ?_⟩
      obtain ⟨hsock', hf⟩ := hn n hsock
      exact hup hx n hsock' (hf.subscribed hpl)
  · obtain ⟨hsock', hf⟩ := hn n hsock
    obtain ⟨k', hpl'⟩ := hf.fresh k hpl
    obtain ⟨hann, hnil⟩ := h.fresh n k' hpl' hsock'
    exact ⟨fun h' => hann (ha.mp h'), hnil⟩

/-- The connections after one of them changed. -/
lemma inOrder_modify {f : Connection N → Connection N} (hconns : w'.conns = w.conns.modify c f)
    (hself : ∀ x, w.conns[c]? = some x → InOrder cfg w' c (f x))
    (hother : ∀ (d : ℕ) y, d ≠ c → w.conns[d]? = some y → InOrder cfg w' d y) :
    ∀ (d : ℕ) y, w'.conns[d]? = some y → InOrder cfg w' d y := by
  intro d y hy
  rw [hconns, List.getElem?_modify] at hy
  obtain ⟨z, hz, rfl⟩ := Option.map_eq_some_iff.mp hy
  by_cases hcd : c = d
  · subst hcd
    simp only [if_true]
    exact hself z hz
  · simp only [hcd, if_false]
    exact hother d z (Ne.symm hcd) hz

/-- What holds of a thread stays when only connections change. -/
lemma Placed.mono {pc : Pc} (hsh : w'.router.shared = w.router.shared)
    (how : ∀ s n, Owner w s n → Owner w' s n) (h : Placed cfg w pc) : Placed cfg w' pc := by
  cases pc with
  | recv s a src want got => exact ⟨h.1, by rw [hsh]; exact h.2⟩
  | addNode s a src m =>
      obtain ⟨n, ho, hm⟩ := h
      exact ⟨n, how _ n ho, hm⟩
  | forward s a src dst m =>
      obtain ⟨z, n, hz, ho, hd⟩ := h
      exact ⟨z, n, by rw [hsh]; exact hz, how _ n ho, hd⟩
  | findSession t => exact Addressed.mono how h
  | lockDst t a => exact Addressed.mono how h
  | send t a => exact Addressed.mono how h
  | _ => trivial

/-- The invariant after a step that leaves the shared state of the router and the
fixed parts of the connections alone. -/
lemma Linked.of_channels (h : Linked cfg w) (hw : w'.wires = w.wires)
    (hsh : w'.router.shared = w.router.shared) (hloc : ∀ i, Placed cfg w (w'.router.loc i))
    (hnodes : ∀ n, (w'.nodes n).place.Connected →
      (w'.nodes n).socket = (w.nodes n).socket ∧ (w.nodes n).place.Connected)
    (hrun : ∀ n, (w'.nodes n).place ≠ .stopped)
    (hin : ∀ (c : ℕ) x, w'.conns[c]? = some x → InOrder cfg w' c x) : Linked cfg w' := by
  have hown : ∀ s n, Owner w s n → Owner w' s n := by
    intro s n ho
    rw [Owner, hw]
    exact ho
  refine ⟨?_, ?_, ?_, ?_, hrun, hin, ?_, ?_⟩
  · rw [hw, hsh]
    exact h.opened
  · rw [hw]
    exact h.distinct
  · intro a z hz
    rw [hsh] at hz
    obtain ⟨n, ho, hid⟩ := h.sessions a z hz
    exact ⟨n, hown _ n ho, hid⟩
  · intro n hn
    obtain ⟨hsock, hcon⟩ := hnodes n hn
    rw [hw, hsock]
    exact h.nodes n hcon
  · exact fun i => (hloc i).mono hsh hown
  · rw [hsh]
    exact fun t ht => (h.queued t ht).mono hown

end MessageRouting
