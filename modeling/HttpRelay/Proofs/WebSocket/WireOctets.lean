import HttpRelay.Proofs.Bytes.CursorReads
import HttpRelay.Proofs.WebSocket.FrameGrammar
import HttpRelay.Proofs.WebSocket.MessageCodec
import HttpRelay.WebSocket.Endpoint

/-!
# Frames octet by octet

What is on the wire of a frame, said without the functions that write and read it: its header bit
by bit, and behind it the payload, on the way to a server with every octet changed by the octet of
the key whose turn it is, and on the way to a client as it is.

* `SpellsPayload`, `Frame.IsSpelled`: the octets of a payload and of a frame;
* `Frame.Regular.isSpelled_encode`: what is written of a frame;
* `Decodes.spelled`: what is read as frames.
-/

namespace HttpRelay.WebSocket

open Bytes (IsSequence)

/-- The octets of a payload: as they are, or each changed by one of the four octets of a key, which
take turns. -/
inductive SpellsPayload : Option MaskKey → (payload octets : Bytes) → Prop
  | plain (payload : Bytes) : SpellsPayload none payload payload
  | masked {k₀ k₁ k₂ k₃ : UInt8} {payload octets : Bytes}
      (h : ∀ i, octets[i]? = payload[i]?.map (· ^^^ [k₀, k₁, k₂, k₃].getD (i % 4) 0)) :
      SpellsPayload (some ⟨k₀, k₁, k₂, k₃⟩) payload octets

/-- The octets of a frame on its way to an end in a role: a header that such an end may be sent,
with the key in it if the end is a server, and the payload of which it tells. -/
def Frame.IsSpelled (role : Role) (frame : Frame) (octets : Bytes) : Prop :=
  ∃ head body, octets = head ++ body ∧ frame.header.IsLegal role head ∧
    frame.header.length = frame.payload.length ∧
    SpellsPayload frame.header.mask frame.payload body

section Payloads

theorem MaskKey.octet_eq (key : MaskKey) (i : Nat) :
    key.octet i = [key.k₀, key.k₁, key.k₂, key.k₃].getD (i % 4) 0 := by
  have hlt := Nat.mod_lt i (show 0 < 4 by decide)
  rw [octet]
  obtain h | h | h | h : i % 4 = 0 ∨ i % 4 = 1 ∨ i % 4 = 2 ∨ i % 4 = 3 := by omega
  all_goals rw [h]; rfl

theorem spellsPayload_applyMask (mask : Option MaskKey) (payload : Bytes) :
    SpellsPayload mask payload (applyMask mask payload) := by
  cases mask with
  | none => exact .plain payload
  | some key =>
    refine .masked fun i => ?_
    rw [applyMask, MaskKey.mask, List.getElem?_mapIdx, Nat.zero_add, key.octet_eq]

/-- What is masked and what it comes from change into each other. -/
theorem applyMask_spellsPayload (mask : Option MaskKey) (octets : Bytes) :
    SpellsPayload mask (applyMask mask octets) octets := by
  have h := spellsPayload_applyMask mask (applyMask mask octets)
  rwa [Frame.applyMask_applyMask] at h

end Payloads

/-- A frame that tells how long it is, in as many bits as there are for that. -/
structure Frame.Regular (frame : Frame) : Prop where
  length : frame.header.length = frame.payload.length
  length_lt : frame.payload.length < UInt64.size / 2
  proper : frame.header.Proper

namespace Frame

variable {role : Role} {limit : Nat} {frame : Frame} {octets : Bytes}

/-- What is written of a frame are its octets, if it is masked as the end expects that it goes
to. -/
theorem Regular.isSpelled_encode (h : frame.Regular)
    (hmask : frame.header.mask.isSome = decide (role = .server)) :
    frame.IsSpelled role frame.encode := by
  have hdecode : Feed.run (.complete (frame.header.encode ++ [])) (Header.decode role) =
      (.ok frame.header, .complete []) :=
    Header.decode_encode [] true (h.length ▸ h.length_lt) hmask h.proper
  obtain ⟨head, hhead, hlegal⟩ := (Header.parses_decode role _ _ _).mp hdecode
  -- the decoder leaves nothing, so that the header is all that was written of it
  rw [Feed.complete, List.append_nil, List.append_nil] at hhead
  subst hhead
  exact ⟨_, _, rfl, hlegal, h.length, spellsPayload_applyMask _ _⟩

/-- What an end sends as a frame of its own. -/
theorem regular_outgoing (role : Role) (key : MaskKey) {opcode : Opcode} {fin : Bool}
    {payload : Bytes} (hlength : payload.length < UInt64.size / 2)
    (hcontrol : opcode.isControl = true →
      fin = true ∧ payload.length ≤ Close.maxControlPayload) :
    (outgoing role key opcode fin payload).Regular where
  length := rfl
  length_lt := hlength
  proper := hcontrol

theorem isSome_mask_outgoing (role : Role) (key : MaskKey) (opcode : Opcode) (fin : Bool)
    (payload : Bytes) :
    (outgoing role key opcode fin payload).header.mask.isSome =
      decide (role.peer = .server) := by
  cases role <;> rfl

theorem IsLegal.regular (h : frame.IsLegal role limit octets) : frame.Regular := by
  obtain ⟨front, body, -, hlegal, -, hlength, hframe, -⟩ := h
  have hpayload : frame.header.length = frame.payload.length := by
    rw [hframe, ofWire, length_applyMask, hlength]
  obtain ⟨first, second, extension, key, hlaid, -⟩ := hlegal
  exact ⟨hpayload, hpayload ▸ hlaid.length.lt, hlaid.control⟩

theorem IsLegal.isSpelled (h : frame.IsLegal role limit octets) : frame.IsSpelled role octets := by
  have hregular := h.regular
  obtain ⟨front, body, rfl, hlegal, -, -, hframe, -⟩ := h
  refine ⟨front, body, rfl, hlegal, hregular.length, ?_⟩
  rw [hframe]
  exact applyMask_spellsPayload _ _

end Frame

/-- What is written of frames one after the other. -/
theorem isSequence_encode {role : Role} {frames : List Frame}
    (h : ∀ frame ∈ frames, frame.Regular ∧
      frame.header.mask.isSome = decide (role = .server)) :
    IsSequence (Frame.IsSpelled role) frames (frames.flatMap Frame.encode) := by
  induction frames with
  | nil => exact .nil
  | cons frame frames ih =>
    obtain ⟨⟨hregular, hmask⟩, hothers⟩ := List.forall_mem_cons.mp h
    rw [List.flatMap_cons]
    exact .cons (hregular.isSpelled_encode hmask) (ih hothers)

namespace Decodes

variable {role : Role} {limit : Nat} {bytes rest : Bytes} {frames : List Frame}

/-- The frames that are read off some bytes are spelled by the first of these. -/
theorem spelled (h : Decodes role limit bytes frames rest) :
    ∃ octets, bytes = octets ++ rest ∧ IsSequence (Frame.IsSpelled role) frames octets ∧
      ∀ frame ∈ frames, frame.Regular := by
  induction h with
  | nil bytes => exact ⟨[], rfl, .nil, List.forall_mem_nil _⟩
  | cons hframe _ ih =>
    obtain ⟨front, hfront, hlegal⟩ := (Frame.parses_decode role limit _ _ _).mp hframe
    obtain ⟨back, rfl, hback, hothers⟩ := ih
    refine ⟨front ++ back, ?_, .cons hlegal.isSpelled hback, ?_⟩
    · rw [List.append_assoc]
      exact hfront
    · exact List.forall_mem_cons.mpr ⟨hlegal.regular, hothers⟩

end Decodes

end HttpRelay.WebSocket
