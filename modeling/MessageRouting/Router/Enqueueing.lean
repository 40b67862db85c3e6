import MessageRouting.Router.Workers

/-!
The readers enqueue every message once and in order.

What happened on a socket is read off the labels of a run: the bytes `recv`
took from it (`consumed`), the messages whose destination was found (`routed`)
and the messages that were pushed (`enqueued`).

* `Segments`: messages that stand in a stream one after the other, with anything
  between them.
* `Accounted`, `Tracked`: the assertions, for the sockets nobody serves and for a
  thread at its location. A thread that serves a socket owns what happened on it,
  since it holds the mutex of its only session.
* `tasks_fifo`: what was pushed and not popped yet is in the write queue.
* `enqueued_exactly_once`: the guarantee for every interleaving.
-/

namespace MessageRouting

variable {T : Type}

variable {sh sh' : Shared T} {i j : T} {pc pc' m : Pc} {e : Event T} {tr : List (Event T)}
  {s : ℤ} {a : Addr}

/-! ### What happened on a socket -/

/-- The bytes that a step takes from a socket. -/
def Event.bytes (s : ℤ) : Event T → List UInt8
  | .received _ t (.bytes bs) => if t = s then bs else []
  | _ => []

/-- The message from a socket for which a step finds the destination. -/
def Event.routedFrom (s : ℤ) : Event T → Option (List UInt8)
  | .routed _ t m (some _) => if t = s then some m else none
  | _ => none

/-- The message from a socket that a step pushes. -/
def Event.pushedFrom (s : ℤ) : Event T → Option (List UInt8)
  | .pushed _ t task => if t = s then some task.msg else none
  | _ => none

/-- The stream of a socket, as far as it was read. -/
def consumed (s : ℤ) (tr : List (Event T)) : List UInt8 := tr.flatMap (Event.bytes s)

/-- The messages of a socket whose destination was found. -/
def routed (s : ℤ) (tr : List (Event T)) : List (List UInt8) := tr.filterMap (Event.routedFrom s)

/-- The messages of a socket that were enqueued. -/
def enqueued (s : ℤ) (tr : List (Event T)) : List (List UInt8) :=
  tr.filterMap (Event.pushedFrom s)

/-- Messages of 32 bytes that stand in a stream, in this order and disjoint. -/
inductive Segments : List (List UInt8) → List UInt8 → Prop where
  | nil (gap : List UInt8) : Segments [] gap
  | snoc {ms : List (List UInt8)} {c m : List UInt8} (gap : List UInt8) : Segments ms c →
      m.length = dataMessageSize → Segments (ms ++ [m]) (c ++ m ++ gap)

lemma Segments.append {ms : List (List UInt8)} {c : List UInt8} (h : Segments ms c)
    (gap : List UInt8) : Segments ms (c ++ gap) := by
  cases h with
  | nil g => exact .nil _
  | snoc g hms hm =>
      rw [List.append_assoc _ g gap]
      exact .snoc (g ++ gap) hms hm

/-- The step shows nothing of the socket. -/
def Silent (s : ℤ) (e : Event T) : Prop :=
  e.bytes s = [] ∧ e.routedFrom s = none ∧ e.pushedFrom s = none

lemma consumed_append (s : ℤ) (tr : List (Event T)) (e : Event T) :
    consumed s (tr ++ [e]) = consumed s tr ++ e.bytes s := by
  simp [consumed]

lemma routed_append (s : ℤ) (tr : List (Event T)) (e : Event T) :
    routed s (tr ++ [e]) = routed s tr ++ (e.routedFrom s).toList := by
  rw [routed, List.filterMap_append]
  cases h : e.routedFrom s <;> simp [routed, h]

lemma enqueued_append (s : ℤ) (tr : List (Event T)) (e : Event T) :
    enqueued s (tr ++ [e]) = enqueued s tr ++ (e.pushedFrom s).toList := by
  rw [enqueued, List.filterMap_append]
  cases h : e.pushedFrom s <;> simp [enqueued, h]

/-- What a silent step adds to the socket's record. -/
lemma record_silent (h : Silent s e) (tr : List (Event T)) :
    consumed s (tr ++ [e]) = consumed s tr ∧ routed s (tr ++ [e]) = routed s tr ∧
      enqueued s (tr ++ [e]) = enqueued s tr := by
  obtain ⟨hb, hr, hp⟩ := h
  simp [consumed_append, routed_append, enqueued_append, hb, hr, hp]

lemma record_received (i : T) (s : ℤ) (bs : List UInt8) (tr : List (Event T)) :
    consumed s (tr ++ [.received i s (.bytes bs)]) = consumed s tr ++ bs ∧
      routed s (tr ++ [.received i s (.bytes bs)]) = routed s tr ∧
      enqueued s (tr ++ [.received i s (.bytes bs)]) = enqueued s tr := by
  simp [consumed_append, routed_append, enqueued_append, Event.bytes, Event.routedFrom,
    Event.pushedFrom]

lemma record_routed (i : T) (s : ℤ) (m : List UInt8) (dst : Addr) (tr : List (Event T)) :
    consumed s (tr ++ [.routed i s m (some dst)]) = consumed s tr ∧
      routed s (tr ++ [.routed i s m (some dst)]) = routed s tr ++ [m] ∧
      enqueued s (tr ++ [.routed i s m (some dst)]) = enqueued s tr := by
  simp [consumed_append, routed_append, enqueued_append, Event.bytes, Event.routedFrom,
    Event.pushedFrom]

lemma record_pushed (i : T) (s : ℤ) (t : Task) (tr : List (Event T)) :
    consumed s (tr ++ [.pushed i s t]) = consumed s tr ∧
      routed s (tr ++ [.pushed i s t]) = routed s tr ∧
      enqueued s (tr ++ [.pushed i s t]) = enqueued s tr ++ [t.msg] := by
  simp [consumed_append, routed_append, enqueued_append, Event.bytes, Event.routedFrom,
    Event.pushedFrom]

/-! ### The assertions -/

/-- Every message of the socket whose destination was found is enqueued. -/
def Settled (s : ℤ) (tr : List (Event T)) : Prop := enqueued s tr = routed s tr

/-- The bytes `r` were the last to be read, and stand behind all the messages. -/
def Pending (s : ℤ) (tr : List (Event T)) (r : List UInt8) : Prop :=
  ∃ c, consumed s tr = c ++ r ∧ Segments (routed s tr) c

lemma Settled.silent (hs : Silent s e) (h : Settled s tr) : Settled s (tr ++ [e]) := by
  obtain ⟨-, hr, he⟩ := record_silent hs tr
  rw [Settled, hr, he]
  exact h

lemma Pending.silent {r : List UInt8} (hs : Silent s e) (h : Pending s tr r) :
    Pending s (tr ++ [e]) r := by
  obtain ⟨hc, hr, -⟩ := record_silent hs tr
  rw [Pending, hc, hr]
  exact h

/-- What holds of the sockets: each stream holds its messages as segments, and
those of a socket none of whose sessions is locked are all enqueued. -/
structure Accounted (tr : List (Event T)) (sh : Shared T) : Prop where
  standing : Standing sh
  found : ∀ s, Segments (routed s tr) (consumed s tr)
  pushed : ∀ s, Segments (enqueued s tr) (consumed s tr)
  settled : ∀ s, (∀ a, SessionOf sh s a → sh.holder a = none) → Settled s tr

/-- What a thread at its location knows of the socket whose session it has
locked. -/
def Tracked (tr : List (Event T)) : Pc → Prop
  | .refindSrc s _ => Settled s tr
  | .turn s _ _ => Settled s tr
  | .recv s _ _ _ got => Settled s tr ∧ Pending s tr got
  | .addNode s _ _ _ => Settled s tr
  | .findDst s _ _ m => Settled s tr ∧ Pending s tr m
  | .forward s _ _ _ m => enqueued s tr ++ [m] = routed s tr
  | .removeSrc s _ _ => Settled s tr
  | .unlockSrc s _ => Settled s tr
  | .send t _ => Settled t.socket tr
  | .removeDst t _ => Settled t.socket tr
  | .unlockDst t _ => Settled t.socket tr
  | _ => True

lemma Tracked.silent (hs : ∀ s a, pc.held = some (s, a) → Silent s e) (h : Tracked tr pc) :
    Tracked (tr ++ [e]) pc := by
  cases pc with
  | refindSrc s a => exact Settled.silent (hs s a rfl) h
  | turn s a src => exact Settled.silent (hs s a rfl) h
  | recv s a src w got => exact ⟨h.1.silent (hs s a rfl), h.2.silent (hs s a rfl)⟩
  | addNode s a src w => exact Settled.silent (hs s a rfl) h
  | findDst s a src m => exact ⟨h.1.silent (hs s a rfl), h.2.silent (hs s a rfl)⟩
  | forward s a src dst m =>
      obtain ⟨-, hr, he⟩ := record_silent (hs s a rfl) tr
      rw [Tracked, hr, he]
      exact h
  | removeSrc s a src => exact Settled.silent (hs s a rfl) h
  | unlockSrc s a => exact Settled.silent (hs s a rfl) h
  | send t a => exact Settled.silent (hs t.socket a rfl) h
  | removeDst t a => exact Settled.silent (hs t.socket a rfl) h
  | unlockDst t a => exact Settled.silent (hs t.socket a rfl) h
  | popRead => trivial
  | findSrc s => trivial
  | lockSrc s a => trivial
  | popWrite => trivial
  | findSession t => trivial
  | lockDst t a => trivial

/-- A step shows nothing of a socket other than the one whose session the thread
has locked. -/
lemma Step.silent (h : Step i sh pc e pc' sh') (hs : ∀ a, pc.held ≠ some (s, a)) : Silent s e := by
  have hne : ∀ {t : ℤ} {b : Addr}, pc.held = some (t, b) → t ≠ s := by
    rintro t b ht rfl
    exact hs b ht
  cases h with
  | recv_id _ _ => exact ⟨if_neg (hne rfl), rfl, rfl⟩
  | recv_data _ _ => exact ⟨if_neg (hne rfl), rfl, rfl⟩
  | recv_more _ _ => exact ⟨if_neg (hne rfl), rfl, rfl⟩
  | recv_failed hr => rcases hr with rfl | rfl <;> exact ⟨rfl, rfl, rfl⟩
  | findDst _ => exact ⟨rfl, if_neg (hne rfl), rfl⟩
  | forward => exact ⟨rfl, rfl, if_neg (hne rfl)⟩
  | _ => exact ⟨rfl, rfl, rfl⟩

/-- What a step does to the mutexes: nothing, a free one is taken, or the held one
is released. -/
lemma Step.holder_cases (h : Step i sh pc e pc' sh') (tr : List (Event T)) :
    sh'.holder = sh.holder ∨
    (∃ a, sh.holder a = none ∧ sh'.holder = Function.update sh.holder a (some i)) ∨
    (∃ s a, pc.held = some (s, a) ∧ e = .unlocked i a ∧ (Tracked tr pc → Settled s tr) ∧
      sh'.holder = Function.update sh.holder a none) := by
  cases h with
  | lockSrc ha => exact .inr (.inl ⟨_, ha, rfl⟩)
  | lockDst ha => exact .inr (.inl ⟨_, ha, rfl⟩)
  | unlockSrc => exact .inr (.inr ⟨_, _, rfl, rfl, id, rfl⟩)
  | unlockDst => exact .inr (.inr ⟨_, _, rfl, rfl, id, rfl⟩)
  | _ => exact .inl rfl

lemma Step.sessionOf (hl : Located sh i pc) (h : Step i sh pc e pc' sh')
    {b : Addr} (hs : SessionOf sh s b) : SessionOf sh' s b := by
  cases h with
  | addNode =>
      obtain ⟨x, hx, rfl⟩ := hs
      rcases addNode_heap_cases hl.1.2.2 b with hsame | ⟨-, hnamed⟩
      · exact ⟨x, hsame.trans hx, rfl⟩
      · rw [hx] at hnamed
        exact ⟨_, hnamed, rfl⟩
  | removeSrc =>
      obtain ⟨x, hx, rfl⟩ := hs
      exact ⟨x, by simpa using hx, rfl⟩
  | removeDst =>
      obtain ⟨x, hx, rfl⟩ := hs
      exact ⟨x, by simpa using hx, rfl⟩
  | _ => exact hs

/-- The sockets none of whose sessions is locked stay settled. -/
lemma Accounted.settled_step (hacc : Accounted tr sh) (hl : Located sh i pc) (ht : Tracked tr pc)
    (h : Step i sh pc e pc' sh') (hfree : ∀ a, SessionOf sh' s a → sh'.holder a = none) :
    Settled s (tr ++ [e]) := by
  by_cases hheld : ∃ a, pc.held = some (s, a)
  · -- the thread had a session of the socket locked, so it has just released it
    obtain ⟨a, ha⟩ := hheld
    obtain ⟨hsess, hhold⟩ := hl.held hacc.standing ha
    have hnone := hfree a (h.sessionOf hl hsess)
    rcases h.holder_cases tr with hh | ⟨b, hb, hh⟩ | ⟨s', b, hb, rfl, hset, -⟩
    · rw [hh, hhold] at hnone
      cases hnone
    · have hab : a ≠ b := by
        rintro rfl
        rw [hhold] at hb
        cases hb
      rw [hh, Function.update_of_ne hab, hhold] at hnone
      cases hnone
    · rw [ha] at hb
      cases hb
      exact (hset ht).silent ⟨rfl, rfl, rfl⟩
  · push Not at hheld
    refine Settled.silent (h.silent hheld) (hacc.settled s fun a hsess => ?_)
    have hnone := hfree a (h.sessionOf hl hsess)
    rcases h.holder_cases tr with hh | ⟨b, hb, hh⟩ | ⟨s', b, hb, -, -, hh⟩
    · rw [← hh]
      exact hnone
    · by_cases hab : a = b
      · rw [hab]
        exact hb
      · rwa [hh, Function.update_of_ne hab] at hnone
    · have hab : a ≠ b := by
        rintro rfl
        obtain ⟨x, hx, rfl⟩ := hsess
        obtain ⟨⟨y, hy, hys⟩, -⟩ := hl.held hacc.standing hb
        rw [hx] at hy
        cases hy
        exact hheld a (hys ▸ hb)
      rwa [hh, Function.update_of_ne hab] at hnone

/-- What a step makes of the messages on each socket. -/
lemma Accounted.segments_step (hacc : Accounted tr sh) (hl : Located sh i pc) (ht : Tracked tr pc)
    (h : Step i sh pc e pc' sh') (s : ℤ) :
    Segments (routed s (tr ++ [e])) (consumed s (tr ++ [e])) ∧
      Segments (enqueued s (tr ++ [e])) (consumed s (tr ++ [e])) := by
  by_cases hsil : Silent s e
  · obtain ⟨hc, hr, he⟩ := record_silent hsil tr
    rw [hc, hr, he]
    exact ⟨hacc.found s, hacc.pushed s⟩
  · -- the bytes, the message found or the message pushed are those of the socket
    have hread : e.routedFrom s = none → e.pushedFrom s = none →
        Segments (routed s (tr ++ [e])) (consumed s (tr ++ [e])) ∧
          Segments (enqueued s (tr ++ [e])) (consumed s (tr ++ [e])) := by
      intro hr hp
      rw [consumed_append, routed_append, enqueued_append, hr, hp, Option.toList_none,
        List.append_nil, List.append_nil]
      exact ⟨(hacc.found s).append _, (hacc.pushed s).append _⟩
    cases h with
    | recv_id _ _ => exact hread rfl rfl
    | recv_data _ _ => exact hread rfl rfl
    | recv_more _ _ => exact hread rfl rfl
    | recv_failed _ => exact hread rfl rfl
    | @findDst t b src dst m _ =>
        have hts : t = s := by
          by_contra hne
          exact hsil ⟨rfl, if_neg hne, rfl⟩
        subst hts
        obtain ⟨-, c, hc, hseg⟩ := ht
        obtain ⟨hc', hr', he'⟩ := record_routed i t m dst tr
        rw [hc', hr', he']
        refine ⟨?_, hacc.pushed t⟩
        rw [hc, ← List.append_nil (c ++ m)]
        exact .snoc [] hseg hl.2
    | @forward t b src dst m =>
        have hts : t = s := by
          by_contra hne
          exact hsil ⟨rfl, rfl, if_neg hne⟩
        subst hts
        obtain ⟨hc', hr', he'⟩ := record_pushed i t (sh.task dst m) tr
        have henq : enqueued t tr ++ [(sh.task dst m).msg] = routed t tr := ht
        rw [hc', hr', he', henq]
        exact ⟨hacc.found t, hacc.found t⟩
    | _ => exact absurd ⟨rfl, rfl, rfl⟩ hsil

/-- More bytes of the stream stay pending. -/
lemma Pending.received {got bs : List UInt8} (h : Pending s tr got) :
    Pending s (tr ++ [.received i s (.bytes bs)]) (got ++ bs) := by
  obtain ⟨c, hc, hseg⟩ := h
  obtain ⟨hc', hr', -⟩ := record_received i s bs tr
  exact ⟨c, by rw [hc', hc, List.append_assoc], by rw [hr']; exact hseg⟩

/-- A new message begins with nothing pending. -/
lemma Accounted.pending_nil (h : Accounted tr sh) (hs : Silent s e) : Pending s (tr ++ [e]) [] := by
  obtain ⟨hc, hr, -⟩ := record_silent hs tr
  exact ⟨consumed s tr, by rw [hc, List.append_nil], by rw [hr]; exact h.found s⟩

lemma Settled.received {r : Recv} (h : Settled s tr) : Settled s (tr ++ [.received i s r]) := by
  have hr : routed s (tr ++ [.received i s r]) = routed s tr := by
    rw [routed_append]
    exact List.append_nil _
  have he : enqueued s (tr ++ [.received i s r]) = enqueued s tr := by
    rw [enqueued_append]
    exact List.append_nil _
  rw [Settled, hr, he]
  exact h

/-- What a thread knows after its own step. -/
lemma Accounted.tracked_step (hacc : Accounted tr sh) (hl : Located sh i pc) (ht : Tracked tr pc)
    (h : Step i sh pc e pc' sh') : Tracked (tr ++ [e]) pc' := by
  -- the mutex of a session is free only when its socket is settled
  have hlock : ∀ {t : ℤ} {b : Addr}, SessionOf sh t b → sh.holder b = none → Settled t tr := by
    intro t b hsess hb
    refine hacc.settled t fun c hc => ?_
    rw [hc.inj hacc.standing hsess]
    exact hb
  cases h with
  | lockSrc ha => exact Settled.silent ⟨rfl, rfl, rfl⟩ (hlock hl ha)
  | lockDst ha => exact Settled.silent ⟨rfl, rfl, rfl⟩ (hlock hl ha)
  | refindSrc_none _ => exact Settled.silent ⟨rfl, rfl, rfl⟩ ht
  | refindSrc _ => exact Settled.silent ⟨rfl, rfl, rfl⟩ ht
  | turn_id _ => exact ⟨Settled.silent ⟨rfl, rfl, rfl⟩ ht, hacc.pending_nil ⟨rfl, rfl, rfl⟩⟩
  | turn_data _ => exact ⟨Settled.silent ⟨rfl, rfl, rfl⟩ ht, hacc.pending_nil ⟨rfl, rfl, rfl⟩⟩
  | recv_id _ _ => exact ht.1.received
  | recv_data _ _ => exact ⟨ht.1.received, ht.2.received⟩
  | recv_more _ _ => exact ⟨ht.1.received, ht.2.received⟩
  | recv_nothing => exact ht.1.received
  | recv_short _ => exact ht.1.received
  | recv_failed _ => exact ht.1.received
  | addNode => exact Settled.silent ⟨rfl, rfl, rfl⟩ ht
  | findDst_none _ => exact Settled.silent ⟨rfl, rfl, rfl⟩ ht.1
  | @findDst t b src dst m _ =>
      obtain ⟨-, hr, he⟩ := record_routed i t m dst tr
      rw [Tracked, hr, he, ← show _ = _ from ht.1]
  | @forward t b src dst m =>
      obtain ⟨-, hr, he⟩ := record_pushed i t (sh.task dst m) tr
      rw [Tracked, Settled, hr, he]
      exact ht
  | removeSrc => exact Settled.silent ⟨rfl, rfl, rfl⟩ ht
  | send => exact Settled.silent ⟨rfl, rfl, rfl⟩ ht
  | send_failed => exact Settled.silent ⟨rfl, rfl, rfl⟩ ht
  | removeDst => exact Settled.silent ⟨rfl, rfl, rfl⟩ ht
  | _ => trivial

/-- Both assertions hold in every interleaving. -/
lemma accounted_of_reaches [DecidableEq T] {st : RouterState T} (h : (workers T).Reaches tr st) :
    Accounted tr st.shared ∧ ∀ i, Located st.shared i (st.loc i) ∧ Tracked tr (st.loc i) := by
  refine Program.interference_free Accounted (fun tr sh i pc => Located sh i pc ∧ Tracked tr pc)
    ?_ ?_ ?_ ?_ h
  · intro st hst
    obtain ⟨hstand, hloc⟩ := standing_of_reaches ⟨st, hst, .nil⟩
    refine ⟨⟨hstand, fun s => .nil _, fun s => .nil _, fun s _ => rfl⟩, fun i => ⟨hloc i, ?_⟩⟩
    rcases hst.2.2.2.2 i with hi | hi
    · rw [hi]; trivial
    · rw [hi]; trivial
  · rintro tr sh i l inp e l' sh' hacc ⟨hl, ht⟩ hn
    have hstep := step_of_next hn
    obtain ⟨hst', hl', -⟩ := hstep.located hacc.standing hl
    refine ⟨⟨hst', fun s => (hacc.segments_step hl ht hstep s).1,
      fun s => (hacc.segments_step hl ht hstep s).2,
      fun s hfree => hacc.settled_step hl ht hstep hfree⟩, hl', hacc.tracked_step hl ht hstep⟩
  · rintro tr sh i l inp e l' sh' j m hj hacc ⟨hl, ht⟩ ⟨hlj, htj⟩ hn
    have hstep := step_of_next hn
    refine ⟨hlj.stable hacc.standing ((hstep.located hacc.standing hl).2.2 j hj),
      htj.silent fun s b hb => hstep.silent fun a ha => ?_⟩
    -- two threads do not hold the mutex of one socket's session
    obtain ⟨hsb, hjb⟩ := hlj.held hacc.standing hb
    obtain ⟨hsa, hia⟩ := hl.held hacc.standing ha
    rw [hsb.inj hacc.standing hsa, hia] at hjb
    exact hj (Option.some.inj hjb).symm
  · intro tr sh act e sh' hacc hn
    have hsil : ∀ s, Silent s e := by
      intro s
      rcases loopStep_cases hn with ⟨t, S, rfl, -⟩ | ⟨t, rfl, -⟩
      · exact ⟨rfl, rfl, rfl⟩
      · exact ⟨rfl, rfl, rfl⟩
    obtain ⟨hst', hh, hsess, hk⟩ : Standing sh' ∧ sh'.holder = sh.holder ∧
        (∀ s a, SessionOf sh s a → SessionOf sh' s a) ∧ ∀ j, Keeps j sh sh' := by
      rcases loopStep_cases hn with ⟨t, S, -, hnew, hS, rfl⟩ | ⟨t, -, rfl⟩
      · refine ⟨hacc.standing.accept hnew hS, rfl, ?_, fun j => .accept hS⟩
        rintro s a ⟨x, hx, rfl⟩
        exact ⟨x, Sessions.acceptClient_heap hS hx, rfl⟩
      · exact ⟨hacc.standing.of_eq rfl rfl hacc.standing.queued, rfl, fun s a h => h,
          fun j => .of_eq rfl rfl rfl⟩
    refine ⟨⟨hst', fun s => ?_, fun s => ?_, fun s hfree => ?_⟩, fun j m hm => ?_⟩
    · obtain ⟨hc, hr, -⟩ := record_silent (hsil s) tr
      rw [hc, hr]
      exact hacc.found s
    · obtain ⟨hc, -, he⟩ := record_silent (hsil s) tr
      rw [hc, he]
      exact hacc.pushed s
    · refine Settled.silent (hsil s) (hacc.settled s fun a ha => ?_)
      rw [← hh]
      exact hfree a (hsess s a ha)
    · exact ⟨hm.1.stable hacc.standing (hk j), hm.2.silent fun s _ _ => hsil s⟩

/-! ### The queue of write tasks -/

def Event.pushedTask : Event T → Option Task
  | .pushed _ _ t => some t
  | _ => none

def Event.poppedTask : Event T → Option Task
  | .poppedWrite _ t => some t
  | _ => none

/-- The tasks that a run shows of one kind, in order. -/
def tasksOf (kind : Event T → Option Task) (tr : List (Event T)) : List Task := tr.filterMap kind

lemma tasksOf_append (kind : Event T → Option Task) (tr : List (Event T)) (e : Event T) :
    tasksOf kind (tr ++ [e]) = tasksOf kind tr ++ (kind e).toList := by
  rw [tasksOf, List.filterMap_append]
  cases h : kind e <;> simp [tasksOf, h]

lemma tasksOf_silent {kind : Event T → Option Task} (h : kind e = none) :
    tasksOf kind (tr ++ [e]) = tasksOf kind tr := by
  rw [tasksOf_append, h, Option.toList_none, List.append_nil]

/-- The queue of write tasks is first in, first out. -/
lemma Step.queue (h : Step i sh pc e pc' sh') :
    sh.writeQueue ++ e.pushedTask.toList = e.poppedTask.toList ++ sh'.writeQueue := by
  cases h with
  | popWrite hq => simp [Event.pushedTask, Event.poppedTask, hq]
  | forward => simp [Event.pushedTask, Event.poppedTask, Shared.push]
  | _ => simp [Event.pushedTask, Event.poppedTask, Shared.setHolder]

/-- The pushed tasks are the popped ones and behind them those in the queue. -/
lemma tasks_fifo [DecidableEq T] {st : RouterState T} (h : (workers T).Reaches tr st) :
    tasksOf Event.pushedTask tr = tasksOf Event.poppedTask tr ++ st.shared.writeQueue := by
  refine h.induct (fun tr st => tasksOf Event.pushedTask tr =
    tasksOf Event.poppedTask tr ++ st.shared.writeQueue) ?_ ?_
  · rintro st ⟨-, hq, -⟩
    rw [hq]
    rfl
  · intro tr st e st' ih hs
    rcases workers_step_cases hs with ⟨i, pc', sh', hstep, rfl⟩ | ⟨u, S, rfl, -, -, rfl⟩ |
      ⟨u, rfl, rfl⟩
    · rw [tasksOf_append, tasksOf_append, ih, List.append_assoc, hstep.queue, List.append_assoc]
    · rw [tasksOf_silent rfl, tasksOf_silent rfl, ih]
    · rw [tasksOf_silent rfl, tasksOf_silent rfl, ih]

/-- A popped task was pushed. -/
lemma pushed_of_popped [DecidableEq T] {st : RouterState T} {t : Task}
    (h : (workers T).Reaches tr st) (ht : t ∈ tasksOf Event.poppedTask tr) :
    t ∈ tasksOf Event.pushedTask tr := by
  rw [tasks_fifo h]
  exact List.mem_append_left _ ht

/-! ### The guarantee -/

/-- Only a thread inside `read_async` on the socket receives from it. -/
lemma Step.of_received {r : Recv} (h : Step i sh pc (.received j s r) pc' sh') :
    ∃ a src w got, pc = .recv s a src w got := by
  cases h with
  | recv_id => exact ⟨_, _, _, _, rfl⟩
  | recv_data => exact ⟨_, _, _, _, rfl⟩
  | recv_more => exact ⟨_, _, _, _, rfl⟩
  | recv_nothing => exact ⟨_, _, _, _, rfl⟩
  | recv_short => exact ⟨_, _, _, _, rfl⟩
  | recv_failed => exact ⟨_, _, _, _, rfl⟩

lemma Step.of_routed {msg : List UInt8} {dst : SessionPtr}
    (h : Step i sh pc (.routed j s msg dst) pc' sh') : ∃ a src, pc = .findDst s a src msg := by
  cases h with
  | findDst_none => exact ⟨_, _, rfl⟩
  | findDst => exact ⟨_, _, rfl⟩

/-- A step that receives from a socket is made by a thread that serves it. -/
lemma received_cases [DecidableEq T] {st st' : RouterState T} {r : Recv}
    (h : (workers T).step st (.received j s r) st') :
    ∃ i a src w got, st.loc i = .recv s a src w got := by
  rcases workers_step_cases h with ⟨i, pc', sh', hstep, -⟩ | ⟨t, S, he, -⟩ | ⟨t, he, -⟩
  · obtain ⟨a, src, w, got, hpc⟩ := hstep.of_received
    exact ⟨i, a, src, w, got, hpc⟩
  · cases he
  · cases he

lemma Located.serving_of_recv {src : Addr} {w : Wanted} {got : List UInt8}
    (h : Located sh i (.recv s a src w got)) : Serving sh i s a src := by
  cases w with
  | idMessage => exact h.1
  | dataMessage => exact h

/-- **Exactly once, in order.** In every interleaving, and for every socket: the
messages enqueued from it are disjoint segments of 32 bytes of its stream, in
the order of the stream; every message for which a destination is looked up
is such a segment, the last that was read, behind all those found before;
whenever a `recv` is made on the socket, the messages whose destination was
found so far have been enqueued, each once and in order; after the removal
of the socket nothing is received from it; and what was enqueued stands in the
write queue until it is popped, in the order in which it was enqueued. -/
theorem enqueued_exactly_once [DecidableEq T] {st : RouterState T}
    (h : (workers T).Reaches tr st) (s : ℤ) :
    Segments (enqueued s tr) (consumed s tr) ∧
    (∀ pre post i m dst, tr = pre ++ .routed i s m dst :: post →
      m.length = dataMessageSize ∧ ∃ c, consumed s pre = c ++ m ∧ Segments (routed s pre) c) ∧
    (∀ pre post i r, tr = pre ++ .received i s r :: post → enqueued s pre = routed s pre) ∧
    (∀ pre post j, tr = pre ++ .removed j s :: post → ∀ i r, .received i s r ∉ post) ∧
    tasksOf Event.pushedTask tr = tasksOf Event.poppedTask tr ++ st.shared.writeQueue := by
  refine ⟨(accounted_of_reaches h).1.pushed s, ?_, ?_, ?_, tasks_fifo h⟩
  · rintro pre post j m dst rfl
    obtain ⟨st₁, st₂, h₁, hs, -, -⟩ := h.at_label
    obtain ⟨-, htrack⟩ := accounted_of_reaches h₁
    rcases workers_step_cases hs with ⟨i, pc', sh', hstep, -⟩ | ⟨t, S, he, -⟩ | ⟨t, he, -⟩
    · obtain ⟨a, src, hpc⟩ := hstep.of_routed
      obtain ⟨hl, ht⟩ := htrack i
      rw [hpc] at hl ht
      exact ⟨hl.2, ht.2⟩
    · cases he
    · cases he
  · rintro pre post j r rfl
    obtain ⟨st₁, st₂, h₁, hs, -, -⟩ := h.at_label
    obtain ⟨-, htrack⟩ := accounted_of_reaches h₁
    obtain ⟨i, a, src, w, got, hpc⟩ := received_cases hs
    obtain ⟨-, ht⟩ := htrack i
    rw [hpc] at ht
    exact ht.1
  · rintro pre post j rfl i r hmem
    obtain ⟨st₁, st₂, h₁, hs, h₂, hrun⟩ := h.at_label
    have hret := removed_retired h₁ hs
    -- up to the receipt the socket stays unregistered
    obtain ⟨p, q, rfl⟩ := List.append_of_mem hmem
    obtain ⟨st₃, hrun₃, hrest⟩ := hrun.split
    obtain ⟨st₄, hs₃, -⟩ := hrest.uncons
    obtain ⟨k, a, src, w, got, hpc⟩ := received_cases hs₃
    have hl := (standing_of_reaches (h₂.append hrun₃)).2 k
    rw [hpc] at hl
    have hreg := hl.serving_of_recv.2.2
    rw [(hret.run hrun₃).2] at hreg
    cases hreg

/-! ### A run with one reader and two writers -/

/-- One reader and two writers at the start. -/
def threeThreads : RouterState (Fin 3) :=
  ⟨⟨Sessions.empty, [], [], fun _ => none, [], 0⟩, fun i => if i = 0 then .popRead else .popWrite⟩

lemma started_threeThreads : Started threeThreads := by
  refine ⟨rfl, rfl, fun _ => rfl, rfl, fun i => ?_⟩
  by_cases hi : i = 0
  · exact .inl (if_pos hi)
  · exact .inr (if_neg hi)

/-- Steps of one thread. -/
def run (i : Fin 3) (inps : List Input) : List (Program.Act (Fin 3) Input LoopAct) :=
  inps.map fun inp => .thread i inp

/-- The reader accepts and enters a client, which announces an id. -/
def connect (s : ℤ) (idMsg : List UInt8) : List (Program.Act (Fin 3) Input LoopAct) :=
  [.env (.accept s), .env (.readable s)] ++
    run 0 [.go, .go, .go, .go, .go, .recv (.bytes idMsg), .go]

/-- The reader finds nothing more and leaves. -/
def leave : List (Program.Act (Fin 3) Input LoopAct) := run 0 [.go, .recv .wouldBlock, .go]

/-- The reader receives a message and forwards it. -/
def transfer (m : List UInt8) : List (Program.Act (Fin 3) Input LoopAct) :=
  run 0 [.go, .recv (.bytes m), .go, .go]

/-- A message for the node 6. -/
def messageTo006 (c : UInt8) : List UInt8 := List.replicate 29 c ++ [48, 48, 54]

/-- The client on socket 7 announces 6, the one on socket 4 announces 5 and sends
two messages to it. -/
def twoMessages : List (Program.Act (Fin 3) Input LoopAct) :=
  connect 7 [48, 48, 54] ++ leave ++ connect 4 [48, 48, 53] ++
    transfer (messageTo006 49) ++ transfer (messageTo006 50)

/-- In this run both messages are enqueued, and the guarantee applies. -/
theorem enqueued_exactly_once_two :
    ∃ tr st, (workers (Fin 3)).Reaches tr st ∧
      enqueued 4 tr = [messageTo006 49, messageTo006 50] ∧
      Segments (enqueued 4 tr) (consumed 4 tr) ∧
      (∀ pre post i m dst, tr = pre ++ .routed i 4 m dst :: post →
        m.length = dataMessageSize ∧ ∃ c, consumed 4 pre = c ++ m ∧ Segments (routed 4 pre) c) ∧
      (∀ pre post i r, tr = pre ++ .received i 4 r :: post → enqueued 4 pre = routed 4 pre) ∧
      (∀ pre post j, tr = pre ++ .removed j 4 :: post → ∀ i r, .received i 4 r ∉ post) ∧
      tasksOf Event.pushedTask tr = tasksOf Event.poppedTask tr ++ st.shared.writeQueue := by
  obtain ⟨tr, st, hreach, htwo⟩ : ∃ tr st, (workers (Fin 3)).Reaches tr st ∧
      enqueued 4 tr = [messageTo006 49, messageTo006 50] :=
    Lts.reaches_of_execute threeThreads twoMessages started_threeThreads (by decide)
  exact ⟨tr, st, hreach, htwo, enqueued_exactly_once hreach 4⟩

end MessageRouting
