import MessageRouting.System.Effort

/-!
Nothing is dropped any more once everybody is registered.

A data message names two ids, its source and its destination, and its answer names the same
two. So all messages of the system go between ids of nodes and the destinations of their first
messages, and when the router knows these it finds a session for every message. A router that
removes no session never forgets an id, even if another client announces it again.

* `Frame.Between`: the ids of a message; `between_of_reaches`: they are those of the nodes.
* `Known`: the router finds these ids; `Known.step`, `Known.run`: it goes on finding them.
* `nothing_dropped`: from there on the messages in flight are only added to.
-/

namespace MessageRouting

open Node (frame firstTrace firstPan msgLen)

variable {N T : Type} {cfg : N → Node} {w w' : World N T} {e : WorldEvent N T}
  {tr : List (WorldEvent N T)}

/-! ### The ids of the messages -/

/-- A message whose source and destination are among some ids. -/
def Frame.Between (ids : Set ℤ) (f : Frame) : Prop :=
  ∃ a b mti : ℕ, a < 1000 ∧ b < 1000 ∧ mti < 10000 ∧
    f.bytes = frame a mti firstTrace firstPan b ∧ (a : ℤ) ∈ ids ∧ (b : ℤ) ∈ ids

lemma Frame.Between.destinationId {ids : Set ℤ} {f : Frame} (h : f.Between ids) :
    MessageRouting.destinationId f.bytes ∈ ids := by
  obtain ⟨a, b, mti, -, hb, -, hf, -, hmem⟩ := h
  rw [hf, destinationId_eq (Node.extractDstId_frame rfl rfl hb)]
  exact hmem

/-- An answer goes between the same ids. -/
lemma Answers.between {ids : Set ℤ} {f g : Frame} (h : Answers f g) (hf : f.Between ids) :
    g.Between ids := by
  obtain ⟨a, b, mti, ha, hb, hm, hbytes, hsrc, hdst⟩ := hf
  obtain ⟨-, hg⟩ := h
  rw [hbytes, destinationId_eq (Node.extractDstId_frame rfl rfl hb),
    Node.processMessage_frame rfl rfl hm hb] at hg
  exact ⟨b, a, (mti + 10) % 10000, hb, ha, Nat.mod_lt _ (by omega), (Except.ok.inj hg).symm, hdst,
    hsrc⟩

/-- The ids of the nodes and of those to which they send their first messages. -/
def nodeIds (cfg : N → Node) : Set ℤ := {k | ∃ n, k = (cfg n).id ∨ k = (cfg n).dstId}

lemma First.between (hr : Ranged cfg) {f : Frame} (h : First cfg f) : f.Between (nodeIds cfg) := by
  obtain ⟨n, rfl⟩ := h
  obtain ⟨⟨h₀, h₁⟩, h₂, h₃⟩ := hr n
  obtain ⟨a, ha⟩ := Int.eq_ofNat_of_zero_le h₀
  obtain ⟨b, hb⟩ := Int.eq_ofNat_of_zero_le h₂
  refine ⟨a, b, 2200, by omega, by omega, by omega, ?_, ⟨n, .inl ha.symm⟩, n, .inr hb.symm⟩
  show Node.buildFirstMessage (cfg n).id (cfg n).dstId = _
  rw [ha, hb]
  exact Node.buildFirstMessage_eq (by omega) (by omega)

/-- **All messages** of the system go between ids of the nodes. -/
lemma between_of_reaches [Fintype N] [DecidableEq N] [Fintype T] [DecidableEq T] (hr : Ranged cfg)
    (h : (network T cfg).Reaches tr w) : ∀ f ∈ w.inFlight, f.Between (nodeIds cfg) := by
  obtain ⟨-, tr', hpop⟩ := network_refines hr h
  exact Population.all_of_reaches (Frame.Between (nodeIds cfg)) (fun _ hf => hf.between hr)
    (fun _ _ ha hf => ha.between hf) hpop

/-! ### The ids that the router knows -/

/-- The router finds a session for every id of the nodes. -/
def Known (cfg : N → Node) (S : Sessions) : Prop := ∀ k ∈ nodeIds cfg, S.findSessionById k ≠ none

/-- An id that is found is found after another one was announced, or the same one again. -/
lemma Sessions.findSessionById_addNode {S : Sessions} {s j k : ℤ} {a : Addr}
    (hs : S.sessionsBySocket s = some (some a)) (hk : S.findSessionById k ≠ none) :
    (S.addNode s j).findSessionById k ≠ none := by
  by_cases hj : j < maxClientsCount
  · rw [findSessionById, addNode_sessionsById hs hj]
    by_cases hkj : k = j
    · rw [hkj, Function.update_self]
      exact Option.some_ne_none a
    · rw [Function.update_of_ne hkj]
      exact hk
  · rw [addNode, hs]
    simp only [if_pos (not_lt.mp hj)]
    exact hk

/-- A thread that removes no session leaves every id to be found. -/
lemma Step.known {i : T} {sh sh' : Shared T} {pc pc' : Pc} {e : Event T}
    (h : Step i sh pc e pc' sh') (hl : Located sh i pc) (hpc : ¬ pc.Removing)
    (hk : Known cfg sh.sessions) : Known cfg sh'.sessions := by
  cases h with
  | addNode => exact fun k hmem => Sessions.findSessionById_addNode hl.1.2.2 (hk k hmem)
  | removeSrc => exact absurd trivial hpc
  | removeDst => exact absurd trivial hpc
  | _ => exact hk

variable [DecidableEq N] [DecidableEq T]

/-- **Without a failure** the router forgets no id. -/
lemma Known.step (h : (network T cfg).Reaches tr w) (hlive : Live w)
    (hs : (faultlessNetwork T cfg).step w e w') (hk : Known cfg w.router.shared.sessions) :
    Known cfg w'.router.shared.sessions := by
  obtain ⟨-, hloc⟩ := standing_of_reaches (router_reaches h)
  rcases faultless_cases hs with ⟨i, o, inp, e', pc', sh', -, hn, -, rfl⟩ |
    ⟨s, S, c, x, -, -, hS, -, rfl⟩ | ⟨s, -, rfl⟩ | ⟨n, o, inp, e', st, -, -, -, rfl⟩
  · exact (step_of_next hn).known (hloc i) (hlive.kept i) hk
  · intro k hmem
    show S.findSessionById k ≠ none
    rw [Sessions.findSessionById, (Sessions.acceptClient_spec hS).2.2.1]
    exact hk k hmem
  · exact hk
  · show Known cfg (w.observeNode cfg n e').router.shared.sessions
    rw [observeNode_router]
    exact hk

variable [Fintype N] [Fintype T]

/-- The router finds a session for every message, as its destination is known. -/
lemma Known.not_unrouted (hr : Ranged cfg) (h : (network T cfg).Reaches tr w)
    (hk : Known cfg w.router.shared.sessions) (hs : (faultlessNetwork T cfg).step w e w') :
    e.unrouted = false := by
  rcases faultless_cases hs with ⟨i, o, inp, e', pc', sh', -, hn, rfl, -⟩ |
    ⟨s, S, c, x, -, -, -, rfl, -⟩ | ⟨s, rfl, -⟩ | ⟨n, o, inp, e', st, -, -, rfl, -⟩
  · have hstep := step_of_next hn
    cases e' with
    | routed j s m dst =>
        generalize hpc : w.router.loc i = pc at hstep
        cases hstep with
        | findDst_none hnone =>
            have hmem : (⟨m, w.inHand i⟩ : Frame) ∈ w.inThread i := by
              rw [World.inThread, hpc]
              exact Multiset.mem_singleton_self _
            have hbetween := between_of_reaches hr h _ (mem_inFlight_of_thread hmem)
            exact absurd hnone (hk _ hbetween.destinationId)
        | findDst _ => rfl
    | _ => rfl
  · rfl
  · rfl
  · rfl

lemma Known.run (hr : Ranged cfg) (h : (faultlessNetwork T cfg).Reaches tr w)
    (hk : Known cfg w.router.shared.sessions) {tr' : List (WorldEvent N T)}
    (hrun : (faultlessNetwork T cfg).Run w tr' w') :
    Known cfg w'.router.shared.sessions ∧ tr'.countP WorldEvent.unrouted = 0 := by
  induction hrun with
  | nil => exact ⟨hk, rfl⟩
  | @snoc tr' u v e hrun hs ih =>
      have hreach := h.append hrun
      obtain ⟨hknown, hnone⟩ := ih
      obtain ⟨-, hlive⟩ := account_of_reaches hr hreach
      have hlast : [e].countP WorldEvent.unrouted = 0 := by
        simp [hknown.not_unrouted hr hreach.of_restrict hs]
      refine ⟨hknown.step hreach.of_restrict hlive hs, ?_⟩
      rw [List.countP_append, hnone, hlast]

/-- **Nothing is dropped** once everybody is registered. From every state that is reached
without a failure, in whatever interleaving, and in which the router finds sessions for the ids
of all nodes and of their destinations: as long as no call fails and no connection breaks it
finds them, it drops no message, and the messages in flight are those there were and the first
messages that were sent since. The nodes have ids up to 998 and destinations up to 999
(`Ranged`), and a `recv` takes whole packets (`recvFrom`). -/
theorem nothing_dropped (hr : Ranged cfg) (h : (faultlessNetwork T cfg).Reaches tr w)
    (hk : Known cfg w.router.shared.sessions) {tr' : List (WorldEvent N T)}
    (hrun : (faultlessNetwork T cfg).Run w tr' w') :
    Known cfg w'.router.shared.sessions ∧ (∀ e ∈ tr', e.unrouted = false) ∧
      w'.inFlight.card + w.initiated = w.inFlight.card + w'.initiated := by
  obtain ⟨hknown, hnone⟩ := hk.run hr h hrun
  have hcount := (account_of_reaches hr h).1
  have hcount' := (account_of_reaches hr (h.append hrun)).1
  rw [List.countP_append, hnone] at hcount'
  refine ⟨hknown, fun e he => ?_, ?_⟩
  · exact Bool.eq_false_iff.mpr (List.countP_eq_zero.mp hnone e he)
  · rw [card_inFlight, card_inFlight]
    omega

/-- The two nodes know each other after the first answer. -/
lemma exists_known_twoNodes :
    ∃ tr, ∃ w : World (Fin 2) (Fin 2), (faultlessNetwork (Fin 2) twoNodes).Reaches tr w ∧
      Manned w.router ∧ Known twoNodes w.router.shared.sessions ∧
      w.inFlight.card = 1 ∧ w.initiated = 1 := by
  obtain ⟨tr, w, hreach, hinit, hdrop, hfive, hsix, hread, hwrite⟩ :
      ∃ tr, ∃ w : World (Fin 2) (Fin 2),
      (Lts.ofFn World.Initial (Lts.guarded (World.step twoNodes)
        fun _ e => e.faultless = true)).Reaches tr w ∧
      w.initiated = 1 ∧ tr.countP WorldEvent.unrouted = 0 ∧
        w.router.shared.sessions.findSessionById 5 ≠ none ∧
        w.router.shared.sessions.findSessionById 6 ≠ none ∧
        (w.router.loc 0).handler = .workerThreadRead ∧
        (w.router.loc 1).handler = .workerThreadWrite :=
    Lts.reaches_of_execute twoNodesStart oneAnswer initial_twoNodesStart (by decide +kernel)
  have hreach' : (faultlessNetwork (Fin 2) twoNodes).Reaches tr w := hreach.of_guarded
  have hcount := (account_of_reaches ranged_twoNodes hreach').1
  refine ⟨tr, w, hreach', ⟨⟨0, hread⟩, 1, hwrite⟩, ?_, ?_, hinit⟩
  · rintro k ⟨n, hn⟩
    fin_cases n
    · rcases hn with rfl | rfl
      · exact hfive
      · exact hsix
    · rcases hn with rfl | rfl
      · exact hsix
      · exact hfive
  · rw [card_inFlight]
    omega

/-- The router comes to rest after the first answer. -/
theorem nothing_dropped_two :
    ∃ tr tr', ∃ w w' : World (Fin 2) (Fin 2), (faultlessNetwork (Fin 2) twoNodes).Reaches tr w ∧
      (faultlessNetwork (Fin 2) twoNodes).Run w tr' w' ∧ AtRest w'.router ∧
      (∀ e ∈ tr', e.unrouted = false) ∧ w'.inFlight.card = w'.initiated := by
  obtain ⟨tr, w, hreach, -, hknown, hcard, hinit⟩ := exists_known_twoNodes
  obtain ⟨tr', w', hrun, hrest, -⟩ := exists_calm_run ranged_twoNodes hreach.of_restrict 3
  have hrun' := hrun.of_restrict
  obtain ⟨-, hnone, hcount⟩ := nothing_dropped ranged_twoNodes hreach hknown hrun'
  exact ⟨tr, tr', w, w', hreach, hrun', hrest, hnone, by omega⟩

end MessageRouting
