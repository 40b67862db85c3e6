import Mathlib.Data.Int.DivMod
import MessageRouting.Router.Message

/-!
The node's view of a message (`node/include/message.h`): it builds the id message
and the first message, and answers a message of 32 bytes that is for it.

A data message consists of the source id (3 bytes), the MTI (4), the TRACE (6),
the PAN (16) and the destination id (3). `processMessage` swaps the ids and adds
10 to the MTI; both exceptions of `std::stoi` leave it.

* `frame`: the messages whose three numbers are in decimal digits.
* `processMessage_frame`: the answer to a frame at its destination, with the MTI
  modulo 10000.
* `extractDstId_frame`, `extractSrcId_buildIdMessage`: what the router reads out of
  the messages that a node builds.
-/

namespace MessageRouting

open Decimal

namespace Node

/-- `MSG_LEN`. -/
def msgLen : ℕ := 32

/-- `Message::processMessage`. -/
def processMessage (currentNodeId : ℤ) (message : List UInt8) (messageLen : ℕ) :
    Except StoiError (List UInt8) := do
  if messageLen ≠ msgLen then return []
  let srcId := message.take 3
  let mti := (message.drop 3).take 4
  let trace := (message.drop 7).take 6
  let pan := (message.drop 13).take 16
  let dstId := (message.drop 29).take 3
  let msgDst ← stoi dstId
  if msgDst ≠ currentNodeId then return []
  let newMti := (← stoi mti) + 10
  -- the remainder of C++ has the sign of the dividend
  let newMti := newMti.tmod 10000
  return dstId ++ setw 4 newMti ++ trace ++ pan ++ srcId

/-- The MTI `2200` of a first message. -/
def firstMti : List UInt8 := [50, 50, 48, 48]

/-- The TRACE `123456` of a first message. -/
def firstTrace : List UInt8 := [49, 50, 51, 52, 53, 54]

/-- The PAN of a first message, sixteen times `1`. -/
def firstPan : List UInt8 := List.replicate 16 49

/-- `Message::buildFirstMessage`. -/
def buildFirstMessage (srcNodeId dstNodeId : ℤ) : List UInt8 :=
  setw 3 srcNodeId ++ firstMti ++ firstTrace ++ firstPan ++ setw 3 dstNodeId

/-- `Message::buildIdMessage`. -/
def buildIdMessage (currentNodeId : ℤ) : List UInt8 := setw 3 currentNodeId

/-! ### Frames -/

/-- The data message with these fields, its numbers in decimal digits. -/
def frame (src mti : ℕ) (trace pan : List UInt8) (dst : ℕ) : List UInt8 :=
  pad 3 src ++ pad 4 mti ++ trace ++ pan ++ pad 3 dst

variable {src mti dst : ℕ} {trace pan : List UInt8}

lemma length_frame (ht : trace.length = 6) (hp : pan.length = 16) :
    (frame src mti trace pan dst).length = msgLen := by
  simp [frame, ht, hp, msgLen]

/-- A field of a string, behind what stands before it. -/
lemma take_drop_field {a b c : List UInt8} {m n : ℕ} (ha : a.length = m) (hb : b.length = n) :
    ((a ++ (b ++ c)).drop m).take n = b := by
  rw [List.drop_left' ha]
  exact List.take_left' hb

/-- The five fields of a message, by their lengths. -/
lemma message_fields {f₁ f₂ f₃ f₄ f₅ : List UInt8} (h₁ : f₁.length = 3) (h₂ : f₂.length = 4)
    (h₃ : f₃.length = 6) (h₄ : f₄.length = 16) :
    (f₁ ++ f₂ ++ f₃ ++ f₄ ++ f₅).take 3 = f₁ ∧
    ((f₁ ++ f₂ ++ f₃ ++ f₄ ++ f₅).drop 3).take 4 = f₂ ∧
    ((f₁ ++ f₂ ++ f₃ ++ f₄ ++ f₅).drop 7).take 6 = f₃ ∧
    ((f₁ ++ f₂ ++ f₃ ++ f₄ ++ f₅).drop 13).take 16 = f₄ ∧
    (f₁ ++ f₂ ++ f₃ ++ f₄ ++ f₅).drop 29 = f₅ := by
  refine ⟨?_, ?_, ?_, ?_, ?_⟩
  · simp only [List.append_assoc]
    exact List.take_left' h₁
  · simp only [List.append_assoc]
    exact take_drop_field h₁ h₂
  · rw [List.append_assoc, List.append_assoc]
    exact take_drop_field (by simp [h₁, h₂]) h₃
  · rw [List.append_assoc]
    exact take_drop_field (by simp [h₁, h₂, h₃]) h₄
  · exact List.drop_left' (by simp [h₁, h₂, h₃, h₄])

/-- The five fields of a frame. -/
lemma frame_fields (src mti dst : ℕ) (ht : trace.length = 6) (hp : pan.length = 16) :
    (frame src mti trace pan dst).take 3 = pad 3 src ∧
    ((frame src mti trace pan dst).drop 3).take 4 = pad 4 mti ∧
    ((frame src mti trace pan dst).drop 7).take 6 = trace ∧
    ((frame src mti trace pan dst).drop 13).take 16 = pan ∧
    (frame src mti trace pan dst).drop 29 = pad 3 dst :=
  message_fields (length_pad 3 src) (length_pad 4 mti) ht hp

lemma stoi_pad_three {n : ℕ} (h : n < 1000) : stoi (pad 3 n) = .ok (n : ℤ) :=
  stoi_pad (by omega) (by omega) (by omega)

/-- **The answer to a frame at its destination**: the ids are swapped and the MTI
grows by 10, modulo 10000. -/
lemma processMessage_frame (ht : trace.length = 6) (hp : pan.length = 16) (hm : mti < 10000)
    (hd : dst < 1000) :
    processMessage dst (frame src mti trace pan dst) msgLen =
      .ok (frame dst ((mti + 10) % 10000) trace pan src) := by
  obtain ⟨h₁, h₂, h₃, h₄, h₅⟩ := frame_fields src mti dst ht hp
  have hdst : (pad 3 dst).take 3 = pad 3 dst := List.take_of_length_le (by simp)
  have hmti : stoi (pad 4 mti) = .ok (mti : ℤ) := stoi_pad (by omega) (by omega) (by omega)
  have hmod : ((mti : ℤ) + 10).tmod 10000 = ((mti + 10) % 10000 : ℕ) := by
    rw [Int.tmod_eq_emod_of_nonneg (by omega)]
    omega
  have hlt : (mti + 10) % 10000 < 10 ^ 4 := Nat.mod_lt _ (by omega)
  simp only [processMessage, h₁, h₂, h₃, h₄, h₅, hdst, stoi_pad_three hd, hmti]
  simp only [ne_eq, not_true_eq_false, if_false, bind, Except.bind, pure, Except.pure]
  rw [hmod, setw_eq_pad (by omega) hlt, frame]

/-- The first message of a node is a frame. -/
lemma buildFirstMessage_eq (hs : src < 1000) (hd : dst < 1000) :
    buildFirstMessage src dst = frame src 2200 firstTrace firstPan dst := by
  rw [buildFirstMessage, frame, setw_eq_pad (by omega) (by omega),
    setw_eq_pad (by omega) (by omega)]
  rfl

/-! ### What the router reads -/

lemma stoiOrNone_pad {n : ℕ} (h : n < 1000) : stoiOrNone (pad 3 n) = .ok (n : ℤ) := by
  rw [stoiOrNone, stoi_pad_three h]

/-- The destination that the router reads out of a frame. -/
lemma extractDstId_frame (ht : trace.length = 6) (hp : pan.length = 16) (hd : dst < 1000) :
    extractDstId (frame src mti trace pan dst) dataMessageSize = .ok (dst : ℤ) := by
  obtain ⟨-, -, -, -, h₅⟩ := frame_fields src mti dst ht hp
  rw [extractDstId, if_neg (lt_irrefl _), h₅, cString_digits isDigit_of_mem_pad, stoiOrNone_pad hd]

/-- The id that the router reads out of the id message of a node. -/
lemma extractSrcId_buildIdMessage {id : ℕ} (h : id < 1000) :
    extractSrcId (buildIdMessage id) idMessageSize = .ok (id : ℤ) := by
  rw [extractSrcId, if_neg (lt_irrefl _), buildIdMessage, setw_eq_pad (by omega) (by omega),
    cString_digits isDigit_of_mem_pad, stoiOrNone_pad h]

lemma length_buildIdMessage {id : ℕ} (h : id < 1000) :
    (buildIdMessage id).length = idMessageSize := by
  rw [buildIdMessage, setw_eq_pad (by omega) (by omega), length_pad, idMessageSize]

end Node

end MessageRouting
