import MessageRouting.Node.Reply
import MessageRouting.Node.Start
import MessageRouting.Router.Routable

/-!
What the router and a node read out of the same bytes.

The two programs share no definition of the message format. A node prints its ids
with `setw(3)` and reads a field as a `std::string` of three bytes; the router
reads a C string out of its buffer, and catches one of the two exceptions of
`std::stoi`.

* `announcedId_buildIdMessage`: the ids that survive the way from a node into the
  registry; `id_encoding_range`: the exact range, for the id message and for the
  first message.
* `destination_agreement`: the router sends a frame to the id whose node takes it,
  for all 32 bytes.
* `node_survives_iff`: the frames that do not end the node they are routed to.
  The router looks at no other field than the destination, and the node throws
  on an MTI that is not a number.
-/

namespace MessageRouting

open Decimal Node

/-! ### The ids that survive their encoding -/

/-- The router's handler of `stoi` on a message of three bytes. -/
lemma announcedId_eq_stoi {w : List UInt8} (hw : w.length = idMessageSize) :
    stoi w = .ok (announcedId w) ∨ stoi w = .error .invalidArgument ∧ announcedId w = -1 := by
  have hsrc : extractSrcId w idMessageSize = stoiOrNone (cString w) := by
    rw [extractSrcId, if_neg (lt_irrefl _)]
  have hrange : stoi w ≠ .error .outOfRange := stoi_ne_outOfRange (by rw [hw]; decide)
  rw [stoiOrNone, stoi_cString] at hsrc
  cases hs : stoi w with
  | ok v =>
      rw [hs] at hsrc
      rw [announcedId_eq hsrc]
      exact .inl rfl
  | error e =>
      cases e with
      | invalidArgument =>
          rw [hs] at hsrc
          exact .inr ⟨rfl, announcedId_eq hsrc⟩
      | outOfRange => exact absurd hs hrange

/-- A field of three bytes that holds a number holds it for the reader, unless the
fill stands before its minus sign. -/
lemma stoi_setw_three {z : ℤ} (hlo : -99 ≤ z) (hhi : z ≤ 999) :
    stoi (setw 3 z) = .ok (if -9 ≤ z ∧ z < 0 then 0 else z) := by
  have hfit : (print z).length ≤ 2 + 1 := (length_print_le_iff (by omega)).mpr (by omega)
  have hshort : (print z).length ≤ 1 + 1 ↔ -10 < z ∧ z < 100 := length_print_le_iff (by omega)
  rw [stoi_setw hfit (by omega)]
  congr 1
  refine if_congr ?_ rfl rfl
  omega

lemma length_setw_three {z : ℤ} : (setw 3 z).length = 3 ↔ -99 ≤ z ∧ z ≤ 999 := by
  have hfit : (print z).length ≤ 2 + 1 ↔ -100 < z ∧ z < 1000 := length_print_le_iff (by omega)
  rw [length_setw]
  omega

/-- **The ids that survive**: an id is announced as itself exactly when it fits the
three bytes with its sign in front. -/
lemma announcedId_buildIdMessage (id : ℤ) :
    announcedId ((buildIdMessage id).take idMessageSize) = id ↔
      (-99 ≤ id ∧ id ≤ -10) ∨ (0 ≤ id ∧ id ≤ 999) := by
  have hlen : ((buildIdMessage id).take idMessageSize).length = idMessageSize := by
    rw [List.length_take, buildIdMessage, length_setw, idMessageSize]
    omega
  by_cases hfit : -99 ≤ id ∧ id ≤ 999
  · have hwhole : (buildIdMessage id).take idMessageSize = setw 3 id :=
      List.take_of_length_le (length_setw_three.mpr hfit).le
    rcases announcedId_eq_stoi hlen with hok | ⟨herr, -⟩
    · rw [hwhole] at hok ⊢
      rw [stoi_setw_three hfit.1 hfit.2, Except.ok.injEq] at hok
      rw [← hok]
      split_ifs <;> omega
    · rw [hwhole, stoi_setw_three hfit.1 hfit.2] at herr
      cases herr
  · -- three bytes hold no number outside -99..999
    have hne : announcedId ((buildIdMessage id).take idMessageSize) ≠ id := by
      intro heq
      rcases announcedId_eq_stoi hlen with hok | ⟨-, hnone⟩
      · rw [heq] at hok
        have hbounds := stoi_bounds hok
        rw [hlen, idMessageSize] at hbounds
        norm_num at hbounds
        omega
      · omega
    exact iff_of_false hne (by omega)

/-- A call of `read_async` that returns a full count, and the bytes it took. -/
lemma readBytes_of_readAsync {buffer buffer' : List UInt8} {len : ℕ} {u u' : List Arrival}
    (hlen : 0 < len) (h : readAsync buffer len u = ((len : ℤ), buffer', u')) :
    ∃ w, readBytes len u = (some w, u') ∧ w.length = len ∧ buffer'.take len = w := by
  cases hread : readBytes len u with
  | mk o v =>
      cases o with
      | none =>
          obtain ⟨b, hb⟩ := readAsync_of_none buffer hlen hread
          rw [h, Prod.mk.injEq, socketError] at hb
          omega
      | some w =>
          have hw := readAsync_of_some buffer hlen hread
          rw [h, Prod.mk.injEq, Prod.mk.injEq] at hw
          obtain ⟨hcount, rfl, rfl⟩ := hw
          have hwlen : w.length = len := by omega
          exact ⟨w, rfl, hwlen, by rw [← hwlen]; exact List.take_left⟩

/-- A session that was just accepted is registered under the id that it announces,
if this is below `MAX_CLIENTS_COUNT`, and under none otherwise. -/
lemma fresh_addNode {S S' : Sessions} {s k : ℤ} (h : S.acceptClient s = some S') :
    S'.findSessionBySocket s = some S.heap.length ∧
    (k < maxClientsCount → (S'.addNode s k).getId (some S.heap.length) = k ∧
      (S'.addNode s k).findSessionById k = some S.heap.length) ∧
    (maxClientsCount ≤ k → (S'.addNode s k).getId (some S.heap.length) = NONE) := by
  obtain ⟨-, hbs, -, -, hheap⟩ := Sessions.acceptClient_spec h
  have hreg : S'.sessionsBySocket s = some (some S.heap.length) := by
    rw [hbs, Function.update_self]
  have hnew : S'.heap[S.heap.length]? = some (Session.new s) := by simp [hheap]
  refine ⟨Sessions.findSessionBySocket_eq_some.mpr hreg, fun hk => ⟨?_, ?_⟩, fun hk => ?_⟩
  · have hx : (S'.addNode s k).heap[S.heap.length]? = some ⟨s, k⟩ := by
      rw [Sessions.addNode_heap hreg hk, if_pos rfl, hnew]
      rfl
    exact Sessions.getId_of_heap hx
  · rw [Sessions.findSessionById_eq_some, Sessions.addNode_sessionsById hreg hk,
      Function.update_self]
  · rw [Sessions.addNode_of_rejected (.inr hk)]
    exact Sessions.getId_of_heap hnew

/-- The session is registered under the id whose message it announced exactly for the
ids that survive, without 999. -/
lemma fresh_addNode_iff {S S' : Sessions} {s id k : ℤ} (h : S.acceptClient s = some S')
    (hk : announcedId ((buildIdMessage id).take idMessageSize) = k) :
    ((S'.addNode s k).getId (some S.heap.length) = id ∧
      (S'.addNode s k).findSessionById id = some S.heap.length) ↔
    (-99 ≤ id ∧ id ≤ -10) ∨ (0 ≤ id ∧ id ≤ 998) := by
  have hid : k = id ↔ (-99 ≤ id ∧ id ≤ -10) ∨ (0 ≤ id ∧ id ≤ 999) := by
    rw [← hk]
    exact announcedId_buildIdMessage id
  obtain ⟨-, hnamed, hrejected⟩ := fresh_addNode (k := k) h
  rcases lt_or_ge k maxClientsCount with hlt | hge
  · obtain ⟨hgot, hfind⟩ := hnamed hlt
    rw [maxClientsCount] at hlt
    constructor
    · rintro ⟨hget, -⟩
      have hrange := hid.mp (hgot.symm.trans hget)
      omega
    · intro hrange
      have heq : k = id := hid.mpr (by omega)
      rw [heq] at hgot hfind ⊢
      exact ⟨hgot, hfind⟩
  · -- the id 999 is refused, and the session keeps none
    have hnone := hrejected hge
    rw [maxClientsCount] at hge
    refine iff_of_false (fun hboth => ?_) (fun hrange => ?_)
    · have hminus : id = -1 := hboth.1.symm.trans hnone
      subst hminus
      have hzero : k = 0 := by
        rw [← hk]
        decide
      omega
    · have heq := hid.mpr (by omega)
      omega

lemma length_buildFirstMessage_iff (s d : ℤ) :
    (buildFirstMessage s d).length = dataMessageSize ↔
      (-99 ≤ s ∧ s ≤ 999) ∧ (-99 ≤ d ∧ d ≤ 999) := by
  have hlen : (buildFirstMessage s d).length = (setw 3 s).length + 26 + (setw 3 d).length := by
    rw [buildFirstMessage]
    simp only [List.length_append, firstMti, firstTrace, firstPan, List.length_replicate,
      List.length_cons, List.length_nil]
  have hs3 : 3 ≤ (setw 3 s).length := by rw [length_setw]; omega
  have hd3 : 3 ≤ (setw 3 d).length := by rw [length_setw]; omega
  rw [← length_setw_three, ← length_setw_three, hlen, dataMessageSize]
  omega

/-- What the router reads as the destination of a first message. -/
lemma extractDstId_buildFirstMessage {s d : ℤ} (rest : List UInt8)
    (h : (-99 ≤ s ∧ s ≤ 999) ∧ (-99 ≤ d ∧ d ≤ 999)) :
    extractDstId (buildFirstMessage s d ++ 0 :: rest) dataMessageSize =
      .ok (if -9 ≤ d ∧ d < 0 then 0 else d) := by
  have hlen : 29 ≤ (buildFirstMessage s d).length := by
    rw [(length_buildFirstMessage_iff s d).mpr h]
    decide
  have hfield : (buildFirstMessage s d).drop 29 = setw 3 d :=
    (message_fields (length_setw_three.mpr h.1) rfl rfl rfl).2.2.2.2
  rw [extractDstId_stored hlen, hfield, stoiOrNone, stoi_setw_three h.2.1 h.2.2]

/-- **The exact range of the id encoding.** The first handshake of a session, on the
first three bytes of the id message of a node, registers it under the id of the
node exactly for the ids -99 to -10 and 0 to 998. A first message has 32 bytes
and the destination that it was built with exactly for sources from -99 to 999
and destinations from -99 to -10 and from 0 to 999. -/
theorem id_encoding_range :
    (∀ (id s : ℤ) (S S' : Sessions) (buffer buffer' : List UInt8) (u u' : List Arrival)
        (tasks : List WriteTask), S.acceptClient s = some S' →
      readAsync buffer idMessageSize u = ((idMessageSize : ℤ), buffer', u') →
      buffer'.take idMessageSize = (buildIdMessage id).take idMessageSize →
      ∃ a n st', S'.findSessionBySocket s = some a ∧
        handleHandshake s ⟨S', u, buffer, tasks⟩ = .ok (n, st') ∧
        ((st'.sessions.getId (some a) = id ∧ st'.sessions.findSessionById id = some a) ↔
          (-99 ≤ id ∧ id ≤ -10) ∨ (0 ≤ id ∧ id ≤ 998))) ∧
    ∀ (s d : ℤ) (rest : List UInt8),
      ((buildFirstMessage s d).length = dataMessageSize ∧
        extractDstId (buildFirstMessage s d ++ 0 :: rest) dataMessageSize = .ok d) ↔
      (-99 ≤ s ∧ s ≤ 999) ∧ ((-99 ≤ d ∧ d ≤ -10) ∨ (0 ≤ d ∧ d ≤ 999)) := by
  refine ⟨?_, ?_⟩
  · intro id s S S' buffer buffer' u u' tasks haccept hread hbytes
    obtain ⟨w, hw, hlen, htake⟩ := readBytes_of_readAsync (by decide) hread
    obtain ⟨hreg, -, -⟩ := fresh_addNode (k := announcedId w) haccept
    obtain ⟨st', hst', hview⟩ := handleHandshake_spec s ⟨S', u, buffer, tasks⟩
    have hsessions : st'.sessions = S'.addNode s (announcedId w) := by
      rw [show st'.sessions = st'.view.sessions from rfl, hview, View.handshake_of_whole hw hlen]
      rfl
    refine ⟨_, _, st', hreg, hst', ?_⟩
    rw [hsessions]
    exact fresh_addNode_iff haccept (by rw [← hbytes, htake])
  · intro s d rest
    by_cases hin : (-99 ≤ s ∧ s ≤ 999) ∧ (-99 ≤ d ∧ d ≤ 999)
    · rw [extractDstId_buildFirstMessage rest hin, Except.ok.injEq, length_buildFirstMessage_iff]
      refine ⟨fun ⟨_, heq⟩ => ⟨hin.1, ?_⟩, fun ⟨_, hrange⟩ => ⟨hin, ?_⟩⟩
      · split_ifs at heq <;> omega
      · split_ifs <;> omega
    · rw [length_buildFirstMessage_iff]
      exact iff_of_false (fun hboth => hin hboth.1) (fun hboth => hin (by omega))

/-- Node 5 announces itself on a fresh session, and a first message for node 6. -/
theorem id_encoding_range_005 :
    (∃ st', handleHandshake 4 ⟨(Sessions.empty.acceptClient 4).getD Sessions.empty,
        [.data 48 [48, 53]], [], []⟩ = .ok (3, st') ∧
      st'.sessions.getId (some 0) = 5 ∧ st'.sessions.findSessionById 5 = some 0) ∧
    extractDstId (buildFirstMessage 5 6 ++ [0]) dataMessageSize = .ok 6 := by
  refine ⟨?_, ((id_encoding_range.2 5 6 []).mpr (by decide)).2⟩
  obtain ⟨a, n, st', hreg, hst', hiff⟩ := id_encoding_range.1 5 4 Sessions.empty
    ((Sessions.empty.acceptClient 4).getD Sessions.empty) [] [48, 48, 53] [.data 48 [48, 53]] [] []
    rfl (by decide) (by decide)
  obtain rfl : a = 0 := by
    have hzero : ((Sessions.empty.acceptClient 4).getD Sessions.empty).findSessionBySocket 4 =
        some 0 := rfl
    exact Option.some.inj (hreg.symm.trans hzero)
  obtain rfl : n = 3 := by
    obtain ⟨st₂, hst₂, -⟩ := handleHandshake_spec 4
      ⟨(Sessions.empty.acceptClient 4).getD Sessions.empty, [.data 48 [48, 53]], [], []⟩
    rw [hst'] at hst₂
    exact (Prod.mk.inj (Except.ok.inj hst₂)).1
  exact ⟨st', hst', hiff.mpr (by decide)⟩

/-! ### The destination of a frame -/

/-- **The router and the node agree on the destination**: whatever 32 bytes stand in
the buffer, the router parses them without an exception, and it finds the id `k`
exactly when the node `k` gets past the test of its destination field. No id
message of three bytes raises an exception either. -/
theorem destination_agreement :
    (∀ f rest : List UInt8, f.length = dataMessageSize →
      ∃ d, extractDstId (f ++ 0 :: rest) dataMessageSize = .ok d ∧
        ∀ k : ℤ, k ≠ -1 → (d = k ↔ checkDestination k f = .passed) ∧
          Node.processMessage k f f.length =
            match checkDestination k f with
            | .threw e => .error e
            | .rejected => .ok []
            | .passed => respond f) ∧
    ∀ w rest : List UInt8, w.length = idMessageSize →
      ∃ id, extractSrcId (w ++ 0 :: rest) idMessageSize = .ok id := by
  refine ⟨fun f rest hf => ?_, fun w rest hw => ?_⟩
  · have hlast : (f.drop 29).take 3 = f.drop 29 :=
      List.take_of_length_le (by simp [hf, dataMessageSize])
    have hstored := extractDstId_stored (m := f) (by rw [hf]; decide) rest
    obtain ⟨d, hd⟩ : ∃ d, stoiOrNone (f.drop 29) = .ok d :=
      stoiOrNone_ok (by simp [hf, dataMessageSize])
    refine ⟨d, hstored.trans hd, fun k hk => ⟨?_, ?_⟩⟩
    · rw [checkDestination_eq_passed, hlast, ← stoiOrNone_eq_ok hk, hd, Except.ok.injEq]
    · rw [show f.length = msgLen from hf]
      exact processMessage_eq k f
  · obtain ⟨id, hid⟩ : ∃ id, stoiOrNone w = .ok id := stoiOrNone_ok (by rw [hw]; decide)
    exact ⟨id, (extractSrcId_stored w rest).trans hid⟩

/-- The destination field `6`, NUL, `x`: node 6 for both. -/
theorem destination_agreement_nul :
    extractDstId (frame 5 2200 firstTrace firstPan 0 |>.take 29 |>.append [54, 0, 120, 0, 55])
        dataMessageSize = .ok 6 ∧
      checkDestination 6 (frame 5 2200 firstTrace firstPan 0 |>.take 29 |>.append [54, 0, 120]) =
        .passed := by
  obtain ⟨d, hd, hall⟩ := destination_agreement.1
    (frame 5 2200 firstTrace firstPan 0 |>.take 29 |>.append [54, 0, 120]) [55] (by decide)
  have hsix : extractDstId (frame 5 2200 firstTrace firstPan 0 |>.take 29 |>.append
      [54, 0, 120, 0, 55]) dataMessageSize = .ok 6 := by decide
  have hd6 : d = 6 := Except.ok.inj (hd.symm.trans hsix)
  exact ⟨hsix, ((hall 6 (by decide)).1).mp hd6⟩

/-! ### Frames that end a node -/

/-- **Which routed frames a node survives.** A frame that the router forwards to the
node of its destination is answered, and leaves the node in its loop, exactly
when its MTI field has a number in front: white space, at most one sign and a
digit. On any other MTI an exception leaves `Node::start`. -/
theorem node_survives_iff {node : Node} {f rest : List UInt8} (hid : 0 ≤ node.id ∧ node.id ≤ 998)
    (hf : f.length = dataMessageSize)
    (hd : extractDstId (f ++ 0 :: rest) dataMessageSize = .ok node.id) :
    ((∃ reply, Node.processMessage node.id f f.length = .ok reply) ∧
      node.afterReceived (.bytes f) ≠ .stopped) ↔ Numeric ((f.drop 3).take 4) := by
  have hlen : f.length = msgLen := hf
  have hlast : (f.drop 29).take 3 = f.drop 29 :=
    List.take_of_length_le (by simp [hf, dataMessageSize])
  have hpassed : checkDestination node.id f = .passed := by
    rw [extractDstId_stored (by rw [hf]; decide), stoiOrNone_eq_ok (by omega)] at hd
    rw [checkDestination_eq_passed, hlast]
    exact hd
  have hprocess : Node.processMessage node.id f f.length = respond f := by
    rw [hlen, processMessage_eq, hpassed]
  have hafter : node.afterReceived (.bytes f) ≠ .stopped ↔ ∃ reply, respond f = .ok reply := by
    cases hr : respond f with
    | ok reply =>
        rw [afterReceived, if_pos hlen, hprocess, hr]
        simp
    | error e =>
        rw [afterReceived, if_pos hlen, hprocess, hr]
        simp
  rw [hprocess, hafter, and_self_iff, ← stoi_ok_iff (by simp), respond]
  cases stoi ((f.drop 3).take 4) with
  | ok mti => simp
  | error e => simp

/-- The message `005 +7xy 123456 1111111111111111 006`, which node 6 answers. -/
theorem node_survives_iff_signed :
    (∃ reply, Node.processMessage 6 (pad 3 5 ++ [43, 55, 120, 121] ++ firstTrace ++ firstPan ++
        pad 3 6) dataMessageSize = .ok reply) ∧
      (⟨6, 5, false⟩ : Node).afterReceived (.bytes (pad 3 5 ++ [43, 55, 120, 121] ++ firstTrace ++
        firstPan ++ pad 3 6)) ≠ .stopped := by
  refine (@node_survives_iff ⟨6, 5, false⟩ _ [] (by decide) (by decide) (by decide)).mpr ?_
  exact ⟨[], [43], 55, [120, 121], rfl, by simp, .inr (.inl rfl), by decide⟩

/-- The message `005 abcd 123456 1111111111111111 006`. -/
def frameWithoutMti : List UInt8 :=
  pad 3 5 ++ [97, 98, 99, 100] ++ firstTrace ++ firstPan ++ pad 3 6

/-- A client sends this message, the router enqueues it for node 6, and node 6 does
not survive it. -/
theorem routed_frame_stops_node :
    ¬ ∀ (tr : List Served.Event) (st : Served), reading.Reaches tr st →
      ∀ t ∈ st.tasks, ∀ k : ℤ, 0 ≤ k → k ≤ 998 → extractDstId t.2 dataMessageSize = .ok k →
        ∃ reply, Node.processMessage k t.2 t.2.length = .ok reply := by
  intro hall
  obtain ⟨tr, st, hreach, htasks⟩ : ∃ tr st, reading.Reaches tr st ∧
      st.tasks = [(7, frameWithoutMti)] :=
    Lts.reaches_of_execute ⟨Sessions.empty, fun _ => [], []⟩ [.acceptClient 7,
      .arrive 7 (.data 48 [48, 54]), .doReads 7 [], .acceptClient 4, .arrive 4 (.data 48 [48, 53]),
      .arrive 4 (.data 48 (frameWithoutMti.drop 1)), .doReads 4 []] ⟨rfl, rfl⟩ (by decide)
  obtain ⟨reply, hreply⟩ := hall tr st hreach (7, frameWithoutMti)
    (by rw [htasks]; exact List.mem_singleton_self _) 6 (by decide) (by decide) (by decide)
  have hthrow : Node.processMessage 6 frameWithoutMti frameWithoutMti.length =
      .error .invalidArgument := by decide
  rw [hthrow] at hreply
  cases hreply

end MessageRouting
