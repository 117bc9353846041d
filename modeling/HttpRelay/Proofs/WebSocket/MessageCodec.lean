import HttpRelay.Proofs.Text.Utf8
import HttpRelay.Proofs.WebSocket.FrameCodec
import HttpRelay.WebSocket.Connection

/-!
# Messages as frames

A message that is sent travels in one frame. What arrives is the message itself, but for a close
reason that is too long for its frame and a close code that stands for none.

* `Message.delivered`: what arrives of a message;
* `Close.isCut_cutReason`: what arrives of the reason of a close;
* `Message.ofPayload_payload`: the contents of a close are read back;
* `Message.Deliverable.acceptable`: the frame of a message is accepted by the other end.
-/

namespace HttpRelay.WebSocket

/-- The other end of a connection. -/
def Role.peer : Role → Role
  | client => server
  | server => client

@[simp] theorem Role.peer_peer (role : Role) : role.peer.peer = role := by
  cases role <;> rfl

theorem Role.peer_ne (role : Role) : role.peer ≠ role := by
  cases role <;> decide

/-- Of two different ends, each is the peer of the other. -/
theorem Role.eq_peer_of_ne {role other : Role} (h : other ≠ role) : other = role.peer := by
  cases role <;> cases other <;> first | rfl | exact absurd rfl h

/-- What holds of an end and of the other one holds of both. -/
theorem Role.forall_of_peer {P : Role → Prop} (role : Role) (h : P role) (hpeer : P role.peer)
    (other : Role) : P other := by
  by_cases hother : other = role
  · exact hother ▸ h
  · exact Role.eq_peer_of_ne hother ▸ hpeer

/-- A code that may be sent has a number of its own. -/
theorem CloseCode.ofCode_toCode {code : CloseCode} (h : code.isSendable = true) :
    CloseCode.ofCode code.toCode = code := by
  cases code with
  | other n =>
    simp only [isSendable, Bool.or_eq_true, Bool.and_eq_true, decide_eq_true_eq] at h
    -- None of the numbers in use without a name is that of a code with a name.
    rw [show toCode (other n) = n from rfl, ofCode]
    split
    all_goals first | rfl | omega
  | _ => rfl

namespace Close

theorem lt_of_le_maxControlPayload {n : Nat} (h : n ≤ maxControlPayload) :
    n < UInt64.size / 2 :=
  Nat.lt_of_le_of_lt h (by decide)

/-- What fits into some bytes takes no more. -/
theorem length_fitting_le (budget : Nat) (cs : List Char) :
    ((fitting budget cs).flatMap String.utf8EncodeChar).length ≤ budget := by
  induction cs generalizing budget with
  | nil => simp [fitting]
  | cons c cs ih =>
    rw [fitting]
    split
    next hfits =>
      have hrest := ih (budget - c.utf8Size)
      rw [List.flatMap_cons, List.length_append, String.length_utf8EncodeChar]
      omega
    next => simp

theorem length_cutReason_le (reason : String) :
    (Bytes.ofText (cutReason reason)).length ≤ maxReason := by
  rw [Bytes.ofText, cutReason, String.toList_ofList]
  exact length_fitting_le _ _

theorem fitting_prefix (budget : Nat) (cs : List Char) : fitting budget cs <+: cs := by
  induction cs generalizing budget with
  | nil => exact List.prefix_rfl
  | cons c cs ih =>
    rw [fitting]
    split
    · exact List.cons_prefix_cons.mpr ⟨rfl, ih _⟩
    · exact List.nil_prefix

/-- Whatever fits into some bytes off the front is among what is found to fit. -/
theorem prefix_fitting {budget : Nat} {front cs : List Char} (hfront : front <+: cs)
    (hfits : (front.flatMap String.utf8EncodeChar).length ≤ budget) :
    front <+: fitting budget cs := by
  induction cs generalizing budget front with
  | nil => exact hfront
  | cons c cs ih =>
    cases front with
    | nil => exact List.nil_prefix
    | cons c' front =>
      obtain ⟨rfl, hmore⟩ := List.cons_prefix_cons.mp hfront
      rw [List.flatMap_cons, List.length_append, String.length_utf8EncodeChar] at hfits
      rw [fitting, if_pos (by omega)]
      exact List.cons_prefix_cons.mpr ⟨rfl, ih hmore (by omega)⟩

/-- A text is the longest beginning of a reason that a close frame can carry. -/
structure IsCut (reason cut : String) : Prop where
  isPrefix : cut.toList <+: reason.toList
  length_le : (Bytes.ofText cut).length ≤ maxReason
  longest : ∀ front : String, front.toList <+: reason.toList →
    (Bytes.ofText front).length ≤ maxReason → front.toList <+: cut.toList

theorem isCut_cutReason (reason : String) : IsCut reason (cutReason reason) where
  isPrefix := by
    rw [cutReason, String.toList_ofList]
    exact fitting_prefix _ _
  length_le := length_cutReason_le reason
  longest front hfront hfits := by
    rw [cutReason, String.toList_ofList]
    exact prefix_fitting hfront hfits

/-- The octets that carry a code and a reason. -/
def octets (status : Close) : Bytes :=
  Word.be 2 status.code.toCode.toNat ++ Bytes.ofText status.reason

theorem length_octets_cutReason_le (code : CloseCode) (reason : String) :
    (octets ⟨code, cutReason reason⟩).length ≤ maxControlPayload := by
  have hreason : (Bytes.ofText (cutReason reason)).length ≤ maxControlPayload - 2 :=
    length_cutReason_le reason
  have hroom : 2 ≤ maxControlPayload := by decide
  rw [octets, List.length_append, Word.length_be]
  dsimp only
  omega

/-- A close fits its frame, whatever its code and its reason are. -/
theorem length_payload_le {code : CloseCode} {reason : String} {data : Bytes}
    (h : payload code reason = .ok data) : data.length ≤ maxControlPayload := by
  rw [payload] at h
  split at h
  · obtain rfl := Except.ok.inj h
    exact Nat.zero_le _
  · split at h
    · obtain rfl := Except.ok.inj h
      exact length_octets_cutReason_le code reason
    · cases h

/-- A code and a reason are read back. -/
theorem ofPayload_octets {status : Close} (h : status.code.isSendable = true) :
    ofPayload status.octets = .ok (some status) := by
  obtain ⟨code, reason⟩ := status
  have hvalue : Word.ofBe (Word.be 2 code.toCode.toNat) = code.toCode.toNat := by
    rw [Word.ofBe_be]
    exact Nat.mod_eq_of_lt code.toCode.toNat_lt
  have hcode :
      CloseCode.ofCode (UInt16.ofNat (Word.ofBe (Word.be 2 code.toCode.toNat))) = code := by
    rw [hvalue, UInt16.ofNat_toNat, CloseCode.ofCode_toCode h]
  -- The payload is matched on its first two octets.
  obtain ⟨hi, lo, htwo⟩ : ∃ hi lo, Word.be 2 code.toCode.toNat = [hi, lo] := ⟨_, _, rfl⟩
  rw [htwo] at hcode
  rw [octets, htwo, List.cons_append, List.cons_append, List.nil_append, ofPayload]
  simp only [hcode]
  rw [if_pos h, Text.Utf8.decode?_ofText]

end Close

namespace Message

/-- The opcode of the frame of a message. -/
def opcode : Message → Opcode
  | text _ => .text
  | binary _ => .binary
  | ping _ => .ping
  | pong _ => .pong
  | close _ => .close

/-- The payload of the frame of a message. -/
def payload : Message → Bytes
  | text content => Bytes.ofText content
  | binary data => data
  | ping data => data
  | pong data => data
  | close none => []
  | close (some status) => status.octets

/-- What arrives of a message. The reason of a close is cut to fit its frame, and the code for "no
code" leaves nothing of it. -/
def delivered : Message → Message
  | close (some status) =>
    if status.code = .none then close none
    else close (some { status with reason := Close.cutReason status.reason })
  | message => message

/-- The frame that carries a message. -/
def frame (message : Message) (role : Role) (key : MaskKey) : Frame :=
  Frame.outgoing role key message.opcode true message.payload

/-- What can be delivered to an end with a limit. -/
structure Deliverable (message : Message) (limit : Nat) : Prop where
  length_lt : message.payload.length < UInt64.size / 2
  length_le : message.payload.length ≤ limit
  control : message.opcode.isControl = true →
    message.payload.length ≤ Close.maxControlPayload
  code : ∀ status, message = close (some status) → status.code.isSendable = true

/-- The payload of a close that can be delivered is read back. -/
theorem ofPayload_payload {message : Message} {limit : Nat} (h : message.Deliverable limit)
    {status : Option Close} (hclose : message = close status) :
    Close.ofPayload message.payload = .ok status := by
  subst hclose
  cases status with
  | none => rfl
  | some status => exact Close.ofPayload_octets (h.code status rfl)

@[simp] theorem opcode_delivered (message : Message) :
    message.delivered.opcode = message.opcode := by
  cases message with
  | close status =>
    cases status with
    | none => rfl
    | some status =>
      rw [delivered]
      split <;> rfl
  | _ => rfl

/-- What arrives of a message can be delivered, if a data message fits the limit, and a control
message is short. -/
theorem deliverable_delivered {message : Message} {limit : Nat}
    (hlimit : Close.maxControlPayload ≤ limit)
    (hdata : message.opcode.isControl = false →
      message.payload.length ≤ limit ∧ message.payload.length < UInt64.size / 2)
    (hcontrol : message.opcode.isControl = true →
      message.delivered.payload.length ≤ Close.maxControlPayload)
    (hcode : ∀ status, message.delivered = close (some status) → status.code.isSendable = true) :
    message.delivered.Deliverable limit := by
  -- Only a close is changed on its way, and it is short anyhow.
  have hlength : message.delivered.payload.length ≤ limit ∧
      message.delivered.payload.length < UInt64.size / 2 := by
    by_cases h : message.opcode.isControl = true
    · have hshort := hcontrol h
      exact ⟨Nat.le_trans hshort hlimit, Close.lt_of_le_maxControlPayload hshort⟩
    · have hsame : message.delivered = message := by
        cases message with
        | close status => exact absurd rfl h
        | _ => rfl
      rw [hsame]
      exact hdata (Bool.eq_false_iff.mpr h)
  exact ⟨hlength.2, hlength.1, fun h => hcontrol (opcode_delivered message ▸ h), hcode⟩

/-- The frame of a message is accepted by the other end. -/
theorem Deliverable.acceptable {message : Message} {limit : Nat} (h : message.Deliverable limit)
    (role : Role) (key : MaskKey) : (message.frame role key).Acceptable role.peer limit where
  length := rfl
  length_lt := h.length_lt
  length_le := h.length_le
  mask := by cases role <;> rfl
  control hcontrol := ⟨rfl, h.control hcontrol⟩
  close hclose := by
    cases message with
    | close status => exact ⟨status, ofPayload_payload h rfl⟩
    | _ => cases hclose

end Message

end HttpRelay.WebSocket
