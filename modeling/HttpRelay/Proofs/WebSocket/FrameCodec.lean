import HttpRelay.Proofs.Transport.Incremental
import HttpRelay.WebSocket.Frame

/-!
# Frames across a connection

A frame that one end encodes is decoded by the other end, whatever follows it, and a part of it is
not decoded at all.

* `Header.decode_encode`: a header is read back in front of any bytes;
* `Frame.decode_encode`: so is a frame that the receiving end accepts;
* `Frame.exact_decode`: decoding is built of exact reads, and so does not depend on how the bytes
  arrive.
-/

namespace HttpRelay.WebSocket

open Outcome

namespace Header

variable (rest : Bytes) (closed : Bool)

/-- Bytes in front of others are read. -/
theorem bytes_run (taken : Bytes) :
    (bytes taken.length).run.run { arrived := taken ++ rest, closed } =
      (.ok taken, { arrived := rest, closed }) := by
  have hexact : Feed.run { arrived := taken ++ rest, closed } (Feed.readExact taken.length) =
      (.ok taken, { arrived := rest, closed }) := by
    change (if taken.length ≤ (taken ++ rest).length then _ else _) = _
    rw [if_pos (by rw [List.length_append]; omega)]
    simp
  have horFail := Feed.run_orFail (Feed.readExact taken.length) Error.io
    { arrived := taken ++ rest, closed }
  rw [hexact] at horFail
  exact horFail

theorem bytes_run_of_length {n : Nat} {taken : Bytes} (h : taken.length = n) :
    (bytes n).run.run { arrived := taken ++ rest, closed } =
      (.ok taken, { arrived := rest, closed }) := by
  rw [← h]
  exact bytes_run rest closed taken

/-- The seven bits of a length leave room for the mask bit. -/
theorem lengthField_lt (length : Nat) : (lengthField length).1 < 128 := by
  unfold lengthField
  split
  · omega
  · split <;> simp

/-- A length is read back from its seven bits and the octets behind them. -/
theorem decodeLength_run {length : Nat} (h : length < UInt64.size / 2) :
    (decodeLength (lengthField length).1).run.run
        { arrived := (lengthField length).2 ++ rest, closed } =
      (.ok length, { arrived := rest, closed }) := by
  have hsize : UInt64.size = 18446744073709551616 := rfl
  unfold lengthField
  split
  -- The length is in the seven bits themselves, or in two or eight octets behind them.
  next hshort =>
    have hmedium : length ≠ 126 := by omega
    have hlong : length ≠ 127 := by omega
    simp only [decodeLength, List.nil_append, run_pure]
  · split
    next hmedium =>
      have hvalue : Word.ofBe (Word.be 2 length) = length := by
        rw [Word.ofBe_be]
        exact Nat.mod_eq_of_lt (by omega)
      have hread := bytes_run_of_length rest closed (Word.length_be 2 length)
      simp only [decodeLength]
      rw [run_bind_ok hread, hvalue, run_pure]
    next hlong =>
      have hvalue : Word.ofBe (Word.be 8 length) = length := by
        rw [Word.ofBe_be]
        exact Nat.mod_eq_of_lt (by omega)
      have hread := bytes_run_of_length rest closed (Word.length_be 8 length)
      simp only [decodeLength]
      rw [run_bind_ok hread, hvalue, if_neg (by omega), run_pure]

/-- The numbers of opcodes fit four bits, and are told apart. -/
theorem opcode_toNat (opcode : Opcode) :
    opcode.toNat < 16 ∧ Opcode.ofNat? opcode.toNat = some opcode := by
  cases opcode <;> decide

/-- What the first octet of a header says. -/
theorem first_octet (fin : Bool) (opcode : Opcode) :
    let first := (UInt8.ofNat ((if fin then 128 else 0) + opcode.toNat)).toNat
    first / 16 % 8 = 0 ∧ decide (128 ≤ first) = fin ∧ first % 16 = opcode.toNat := by
  have hopcode := (opcode_toNat opcode).1
  cases fin <;> simp <;> omega

/-- What the second octet of a header says. -/
theorem second_octet (masked : Bool) {short : Nat} (h : short < 128) :
    let second := (UInt8.ofNat ((if masked then 128 else 0) + short)).toNat
    decide (128 ≤ second) = masked ∧ second % 128 = short := by
  cases masked <;> simp <;> omega

/-- Frames are masked as the receiving end expects. -/
theorem checkMask_run {role : Role} {masked : Bool} (h : masked = decide (role = .server))
    (feed : Feed) : (checkMask role masked).run.run feed = (.ok (), feed) := by
  subst h
  cases role <;> rfl

/-- Control frames that stand alone and are short pass. -/
theorem checkControl_run {opcode : Opcode} {fin : Bool} {length : Nat}
    (h : opcode.isControl = true → fin = true ∧ length ≤ Close.maxControlPayload) (feed : Feed) :
    (checkControl opcode fin length).run.run feed = (.ok (), feed) := by
  unfold checkControl
  split
  next hcontrol =>
    obtain ⟨rfl, hlength⟩ := h hcontrol
    rw [if_neg (by simp), if_neg (Nat.not_lt_of_le hlength), run_pure]
  next => rw [run_pure]

/-- The octets of a header are those of its two first fields, the length and the mask. -/
theorem encode_eq (h : Header) :
    h.encode =
      [UInt8.ofNat ((if h.fin then 128 else 0) + h.opcode.toNat),
        UInt8.ofNat ((if h.mask.isSome then 128 else 0) + (lengthField h.length).1)] ++
      ((lengthField h.length).2 ++ (h.mask.map MaskKey.toBytes).getD []) := rfl

/-- A header is read back in front of any bytes, by an end that may accept it. -/
theorem decode_encode {role : Role} {h : Header} (hlength : h.length < UInt64.size / 2)
    (hmask : h.mask.isSome = decide (role = .server))
    (hcontrol : h.opcode.isControl = true → h.fin = true ∧ h.length ≤ Close.maxControlPayload) :
    (decode role).run.run { arrived := h.encode ++ rest, closed } =
      (.ok h, { arrived := rest, closed }) := by
  obtain ⟨hreserved, hfin, hopcode⟩ := first_octet h.fin h.opcode
  obtain ⟨hmasked, hshort⟩ := second_octet h.mask.isSome (lengthField_lt h.length)
  rw [encode_eq, List.append_assoc, List.append_assoc]
  have hstart := bytes_run_of_length
    ((lengthField h.length).2 ++ ((h.mask.map MaskKey.toBytes).getD [] ++ rest)) closed
    (show [UInt8.ofNat ((if h.fin then 128 else 0) + h.opcode.toNat),
        UInt8.ofNat ((if h.mask.isSome then 128 else 0) + (lengthField h.length).1)].length = 2
      from rfl)
  have hlengthRun := decodeLength_run ((h.mask.map MaskKey.toBytes).getD [] ++ rest) closed hlength
  rw [decode, run_bind_ok hstart]
  simp only [List.getD_cons_zero, List.getD_cons_succ]
  rw [if_neg (by simpa using hreserved)]
  simp only [hopcode, (opcode_toNat h.opcode).2, hshort, hfin, hmasked]
  rw [run_bind_ok hlengthRun, run_bind_ok (checkMask_run hmask _),
    run_bind_ok (checkControl_run hcontrol _)]
  -- The mask is read if the mask bit is set, and written if there is a mask.
  have hbit : (128 ≤ (UInt8.ofNat
      ((if h.mask.isSome then 128 else 0) + (lengthField h.length).1)).toNat) =
        (h.mask.isSome = true) :=
    propext (decide_eq_true_iff.symm.trans (by rw [hmasked]))
  simp only [hbit]
  obtain ⟨fin, opcode, mask, length⟩ := h
  cases mask with
  | none => rfl
  | some key =>
    have hkey := bytes_run_of_length rest closed (show key.toBytes.length = 4 from rfl)
    simp only [Option.isSome_some, if_true, Option.map_some, Option.getD_some]
    rw [run_bind_ok hkey]
    rfl

theorem exact_bytes (n : Nat) : Feed.Exact (bytes n) := .bytes n Error.io

theorem exact_decodeLength (short : Nat) : Feed.Exact (decodeLength short) := by
  unfold decodeLength
  split
  · exact (exact_bytes 2).bind fun _ => .pure _
  · refine (exact_bytes 8).bind fun _ => ?_
    dsimp only
    split
    · exact .fail _
    · exact .pure _
  · exact .pure _

/-- The checks of a header take nothing. -/
theorem exact_checks (role : Role) (masked : Bool) (opcode : Opcode) (fin : Bool) (length : Nat) :
    Feed.Exact (checkMask role masked) ∧ Feed.Exact (checkControl opcode fin length) := by
  constructor
  · unfold checkMask
    split
    · exact .fail _
    · exact .fail _
    · exact .pure _
  · unfold checkControl
    split
    · split
      · exact .fail _
      · split
        · exact .fail _
        · exact .pure _
    · exact .pure _

theorem exact_decode (role : Role) : Feed.Exact (decode role) := by
  unfold decode
  refine (exact_bytes 2).bind fun start => ?_
  dsimp only
  split
  · exact .fail_bind _ _
  · split
    next opcode _ =>
      refine (exact_decodeLength _).bind fun length => ?_
      refine (exact_checks role _ opcode false length).1.bind fun _ => ?_
      refine (exact_checks role true opcode _ length).2.bind fun _ => ?_
      split
      · exact (exact_bytes 4).bind fun _ => .pure _
      · exact .pure _
    next => exact .fail _

end Header

namespace Frame

theorem length_applyMask (key : Option MaskKey) (payload : Bytes) :
    (applyMask key payload).length = payload.length := by
  cases key <;> simp [applyMask, MaskKey.mask]

theorem applyMask_applyMask (key : Option MaskKey) (payload : Bytes) :
    applyMask key (applyMask key payload) = payload := by
  cases key with
  | none => rfl
  | some key => exact MaskKey.mask_mask key 0 payload

theorem exact_decode (role : Role) (limit : Nat) : Feed.Exact (decode role limit) := by
  unfold decode
  refine (Header.exact_decode role).bind fun header => ?_
  dsimp only
  split
  · exact .fail_bind _ _
  · refine (Header.exact_bytes header.length).bind fun payload => ?_
    split
    · split
      · exact .fail_bind _ _
      · exact .pure _
    · exact .pure _

/-- What an end in a role accepts, up to some payload length. -/
structure Acceptable (frame : Frame) (role : Role) (limit : Nat) : Prop where
  length : frame.header.length = frame.payload.length
  length_lt : frame.payload.length < UInt64.size / 2
  length_le : frame.payload.length ≤ limit
  /-- Frames from clients are masked, frames from servers are not. -/
  mask : frame.header.mask.isSome = decide (role = .server)
  control : frame.header.opcode.isControl = true →
    frame.header.fin = true ∧ frame.payload.length ≤ Close.maxControlPayload
  close : frame.header.opcode = .close → ∃ status, Close.ofPayload frame.payload = .ok status

variable {frame : Frame} {role : Role} {limit : Nat} (h : frame.Acceptable role limit)

include h

/-- A frame is read back in front of any bytes, by an end that accepts it. -/
theorem decode_encode (rest : Bytes) (closed : Bool) :
    (decode role limit).run.run { arrived := frame.encode ++ rest, closed } =
      (.ok frame, { arrived := rest, closed }) := by
  have hheader := Header.decode_encode (applyMask frame.header.mask frame.payload ++ rest) closed
    (h.length ▸ h.length_lt) h.mask (h.length ▸ h.control)
  have hpayload := Header.bytes_run_of_length rest closed
    ((length_applyMask frame.header.mask frame.payload).trans h.length.symm)
  have hlimit : ¬ limit < frame.header.length := by
    rw [h.length]
    exact Nat.not_lt_of_le h.length_le
  rw [encode, List.append_assoc, decode, run_bind_ok hheader, if_neg hlimit, run_bind_ok hpayload]
  simp only [applyMask_applyMask]
  by_cases hclose : frame.header.opcode = .close
  · obtain ⟨status, hstatus⟩ := h.close hclose
    rw [if_pos hclose, hstatus]
    rfl
  · rw [if_neg hclose]
    rfl

/-- A part of a frame is not enough to read it. -/
theorem decode_prefix {arrived missing : Bytes} (hsplit : arrived ++ missing = frame.encode)
    (hmissing : missing ≠ []) :
    ((decode role limit).run.run { arrived }).1 = .error .starved := by
  -- The whole frame is read, so a part of it has a read that waits for more.
  have hwhole := decode_encode h [] false
  rw [List.append_nil, ← hsplit] at hwhole
  exact (exact_decode role limit).incremental.starved_of_part hwhole hmissing

end Frame

end HttpRelay.WebSocket
