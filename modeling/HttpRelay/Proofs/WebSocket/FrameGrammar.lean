import HttpRelay.Proofs.WebSocket.HeaderGrammar

/-!
# The grammar of frames

A frame is a legal header and as many bytes of payload as the header announces. An end reads the
frames that fit its limit; one that announces more is refused on account of its header alone.

* `Frame.parses_decode`: decoding accepts the frames that fit, and reads them as they are laid out;
* `Frame.ensures_decode_length`, `Frame.ensures_decode_close`: what is known of a frame that was
  read;
* `Frame.decode_oversized`: what is done with a frame that does not fit.
-/

namespace HttpRelay.WebSocket

open Outcome
open Feed (Parses Ensures)

namespace Frame

/-- The frame with a header and the payload behind it, as it is on the wire. -/
def ofWire (header : Header) (octets : Bytes) : Frame where
  header
  payload := applyMask header.mask octets

/-- The contents of a frame make sense if it is a close. -/
def MakesSense (frame : Frame) : Prop :=
  frame.header.opcode = .close → ∃ status, Close.ofPayload frame.payload = .ok status

/-- The octets of a frame that an end in a role can read: a legal header that announces no more
than the limit, and the payload behind it. -/
def IsLegal (role : Role) (limit : Nat) (frame : Frame) (octets : Bytes) : Prop :=
  ∃ front payload, octets = front ++ payload ∧ frame.header.IsLegal role front ∧
    frame.header.length ≤ limit ∧ payload.length = frame.header.length ∧
    frame = ofWire frame.header payload ∧ frame.MakesSense

/-- What is done with the payload of a frame. -/
def checked (frame : Frame) : Header.Read Frame := do
  if frame.header.opcode = .close then
    if let .error error := Close.ofPayload frame.payload then Feed.fail error
  return frame

theorem parses_checked (frame : Frame) :
    Parses frame.checked fun value octets => value = frame ∧ frame.MakesSense ∧ octets = [] := by
  rw [checked]
  split
  next hclose =>
    split
    next error herror =>
      refine (Feed.parses_fail error).congr fun value octets => ⟨False.elim, ?_⟩
      rintro ⟨-, hsense, -⟩
      obtain ⟨status, hstatus⟩ := hsense hclose
      rw [herror] at hstatus
      cases hstatus
    next hok =>
      have hsense : frame.MakesSense := by
        intro _
        cases hstatus : Close.ofPayload frame.payload with
        | error error => exact absurd hstatus (hok error)
        | ok status => exact ⟨status, rfl⟩
      exact (Feed.parses_pure frame).congr fun value octets => by simp [hsense]
  next hopcode =>
    have hsense : frame.MakesSense := fun hclose => absurd hclose hopcode
    exact (Feed.parses_pure frame).congr fun value octets => by simp [hsense]

/-- Decoding accepts the legal frames, whatever is behind them, and reads them as they are laid
out. -/
theorem parses_decode (role : Role) (limit : Nat) :
    Parses (decode role limit) (IsLegal role limit) := by
  have hdecode : decode role limit = (do
      let header ← Header.decode role
      if limit < header.length then
        Feed.fail (.violation .messageTooBig s!"frame of {header.length} bytes exceeds limit")
      else do checked (ofWire header (← Header.bytes header.length))) := rfl
  rw [hdecode]
  refine ((Header.parses_decode role).bind (Header.exact_decode role) fun header =>
    ((Header.parses_bytes header.length).bind (Header.exact_bytes header.length) fun taken =>
      parses_checked (ofWire header taken)).guard _).congr fun frame octets => ?_
  constructor
  · rintro ⟨header, front, payload, rfl, hlegal, hfits, taken, _, _, rfl, ⟨rfl, hlength⟩, rfl,
      hsense, rfl⟩
    rw [List.append_nil]
    exact ⟨front, _, rfl, hlegal, Nat.le_of_not_lt hfits, hlength, rfl, hsense⟩
  · rintro ⟨front, payload, rfl, hlegal, hfits, hlength, hframe, hsense⟩
    exact ⟨frame.header, front, payload, rfl, hlegal, Nat.not_lt_of_le hfits, payload, payload, [],
      (List.append_nil _).symm, ⟨rfl, hlength⟩, hframe, hframe ▸ hsense, rfl⟩

/-- A frame takes the two octets that every header begins with, at least. -/
theorem IsLegal.length_pos {role : Role} {limit : Nat} {frame : Frame} {octets : Bytes}
    (h : frame.IsLegal role limit octets) : 0 < octets.length := by
  obtain ⟨front, payload, rfl, ⟨first, second, extension, key, -, rfl⟩, -⟩ := h
  exact Nat.succ_pos _

/-- The contents of a close were looked at when it was read. -/
theorem ensures_decode_close (role : Role) (limit : Nat) :
    Ensures (decode role limit) MakesSense := by
  intro feed frame feed' hrun
  obtain ⟨-, -, -, -, -, -, -, -, hsense⟩ :=
    (parses_decode role limit).ensures (exact_decode role limit) feed frame feed' hrun
  exact hsense

/-- No frame is read that is longer than the limit. -/
theorem ensures_decode_length (role : Role) (limit : Nat) :
    Ensures (decode role limit) fun frame => frame.payload.length ≤ limit := by
  intro feed frame feed' hrun
  obtain ⟨-, -, payload, -, -, hfits, hlength, hframe, -⟩ :=
    (parses_decode role limit).ensures (exact_decode role limit) feed frame feed' hrun
  rw [hframe, ofWire, length_applyMask, hlength]
  exact hfits

/-- A frame that announces more than the limit is refused, and its payload stays where it is. -/
theorem decode_oversized {role : Role} {limit : Nat} {header : Header} {feed : Feed}
    {octets behind : Bytes} (harrived : feed.arrived = octets ++ behind)
    (hlegal : header.IsLegal role octets) (hlong : limit < header.length) :
    Feed.run feed (decode role limit) =
      (.error (.failed (.violation .messageTooBig
        s!"frame of {header.length} bytes exceeds limit")), { feed with arrived := behind }) := by
  have hheader := (Header.parses_decode role feed header behind).mpr ⟨octets, harrived, hlegal⟩
  rw [Feed.run] at hheader ⊢
  rw [decode, run_bind_ok hheader]
  dsimp only
  rw [if_pos hlong]
  rfl

end Frame

end HttpRelay.WebSocket
