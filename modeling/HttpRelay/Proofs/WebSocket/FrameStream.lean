import HttpRelay.Proofs.WebSocket.FrameCodec

/-!
# Streams of frames

The bytes of a peer as a sequence of frames: what an end reads off them one frame after the other,
however the bytes arrive.

* `Decodes`: the frames that some bytes begin with;
* `Decodes.read_cases`: what a read finds when a part of the bytes arrived;
* `Frame.ensures_decode`: control frames that are read are final and short.
-/

namespace HttpRelay.WebSocket

open Feed (Ensures)

/-- Control frames stand alone and are short. -/
def Header.Proper (header : Header) : Prop :=
  header.opcode.isControl = true → header.fin = true ∧ header.length ≤ Close.maxControlPayload

theorem Header.ensures_checkControl (opcode : Opcode) (fin : Bool) (length : Nat) :
    Ensures (checkControl opcode fin length) fun _ =>
      opcode.isControl = true → fin = true ∧ length ≤ Close.maxControlPayload := by
  unfold checkControl
  split
  · split
    · exact Feed.ensures_fail _ _
    · split
      · exact Feed.ensures_fail _ _
      next hfin hlength => exact Feed.ensures_pure fun _ => ⟨by simpa using hfin, by omega⟩
  next hdata => exact Feed.ensures_pure fun hcontrol => absurd hcontrol hdata

/-- Only proper headers are read. -/
theorem Header.ensures_decode (role : Role) : Ensures (decode role) Header.Proper := by
  unfold decode
  refine (Feed.ensures_true _).bind fun start _ => ?_
  dsimp only
  split
  · exact (Feed.ensures_fail _ fun _ => False).bind fun _ hfalse => hfalse.elim
  · split
    · refine (Feed.ensures_true _).bind fun length _ => ?_
      refine (Feed.ensures_true _).bind fun _ _ => ?_
      refine (ensures_checkControl _ _ _).bind fun _ hproper => ?_
      split
      · exact (Feed.ensures_true _).bind fun _ _ => Feed.ensures_pure hproper
      · exact Feed.ensures_pure hproper
    · exact Feed.ensures_fail _ _

theorem Header.ensures_bytes (n : Nat) : Ensures (bytes n) fun taken => taken.length = n := by
  intro feed taken feed' hrun
  obtain ⟨hle, rfl, -⟩ := Feed.bytes_ok hrun
  rw [List.length_take]
  exact Nat.min_eq_left hle

/-- A control frame that is read may be sent on. -/
theorem Frame.ensures_decode (role : Role) (limit : Nat) :
    Ensures (decode role limit) fun frame => frame.header.opcode.isControl = true →
      frame.header.fin = true ∧ frame.payload.length ≤ Close.maxControlPayload := by
  unfold decode
  refine (Header.ensures_decode role).bind fun header hproper => ?_
  dsimp only
  split
  · exact (Feed.ensures_fail _ fun _ => False).bind fun _ hfalse => hfalse.elim
  · refine (Header.ensures_bytes header.length).bind fun payload hlength => ?_
    have hframe : header.opcode.isControl = true → header.fin = true ∧
        (applyMask header.mask payload).length ≤ Close.maxControlPayload := by
      rw [length_applyMask, hlength]
      exact hproper
    split
    · split
      · exact (Feed.ensures_fail _ fun _ => False).bind fun _ hfalse => hfalse.elim
      · exact Feed.ensures_pure hframe
    · exact Feed.ensures_pure hframe

/-- Some bytes begin with some frames, as an end in a role reads them. The rest is behind them. -/
inductive Decodes (role : Role) (limit : Nat) : Bytes → List Frame → (rest : Bytes) → Prop
  | nil (bytes : Bytes) : Decodes role limit bytes [] bytes
  | cons {bytes middle rest : Bytes} {frame : Frame} {frames : List Frame} :
      Feed.run { arrived := bytes } (Frame.decode role limit) =
        (.ok frame, { arrived := middle }) →
      Decodes role limit middle frames rest → Decodes role limit bytes (frame :: frames) rest

namespace Decodes

variable {role : Role} {limit : Nat} {bytes rest : Bytes} {frames : List Frame}

theorem append {more : List Frame} {rest' : Bytes} (h : Decodes role limit bytes frames rest)
    (hmore : Decodes role limit rest more rest') :
    Decodes role limit bytes (frames ++ more) rest' := by
  induction h with
  | nil => exact hmore
  | cons hframe _ ih => exact .cons hframe (ih hmore)

/-- The frames that an end accepts are read back, in front of any bytes. -/
theorem of_encode (hframes : ∀ frame ∈ frames, frame.Acceptable role limit) (rest : Bytes) :
    Decodes role limit (frames.flatMap Frame.encode ++ rest) frames rest := by
  induction frames with
  | nil => exact .nil rest
  | cons frame frames ih =>
    rw [List.flatMap_cons, List.append_assoc]
    exact .cons (Frame.decode_encode (hframes frame List.mem_cons_self) _ false)
      (ih fun other hother => hframes other (List.mem_cons_of_mem _ hother))

/-- What comes first of the frames of some bytes. -/
theorem of_prefix {past : List Frame} (h : Decodes role limit bytes frames rest)
    (hpast : past <+: frames) : ∃ left, Decodes role limit bytes past left := by
  induction h generalizing past with
  | nil bytes =>
    rw [List.prefix_nil.mp hpast]
    exact ⟨bytes, .nil bytes⟩
  | @cons bytes _ _ frame _ hframe _ ih =>
    rcases List.prefix_cons_iff.mp hpast with rfl | ⟨more, rfl, hmore⟩
    · exact ⟨bytes, .nil bytes⟩
    · obtain ⟨left, hleft⟩ := ih hmore
      exact ⟨left, .cons hframe hleft⟩

/-- Of two readings of the same bytes, one that cannot go on has all frames of the other. -/
theorem prefix_of_stuck {last : Bytes} {all : List Frame}
    (h : Decodes role limit bytes frames rest) (hall : Decodes role limit bytes all last)
    (hstuck : ∀ frame feed,
      Feed.run { arrived := last } (Frame.decode role limit) ≠ (.ok frame, feed)) :
    frames <+: all := by
  induction h generalizing all with
  | nil => exact List.nil_prefix
  | @cons bytes middle rest frame frames hframe _ ih =>
    cases hall with
    | nil => exact absurd hframe (hstuck _ _)
    | cons hsame hmore =>
      obtain ⟨hfirst, hleft⟩ := Prod.mk.inj (hframe.symm.trans hsame)
      obtain rfl := Except.ok.inj hfirst
      obtain rfl := congrArg Feed.arrived hleft
      exact (List.prefix_cons_inj _).mpr (ih hmore)

/-- A frame that is read off what arrived is the next one of all the bytes. -/
theorem of_read {feed feed' : Feed} {frame : Frame}
    (h : Feed.run feed (Frame.decode role limit) = (.ok frame, feed')) (flight : Bytes) :
    Decodes role limit (feed.arrived ++ flight) [frame] (feed'.arrived ++ flight) := by
  obtain ⟨-, hmore⟩ := (Frame.exact_decode role limit).steady _ _ _ _ h
  exact .cons (hmore flight false) (.nil _)

/-- A read finds the next frame, or waits for the bytes that did not arrive yet. When the input has
ended, or the bytes are all there, it finds the frame. -/
theorem read_cases {arrived flight : Bytes} {closed : Bool} {frame : Frame}
    (h : Decodes role limit (arrived ++ flight) (frame :: frames) rest)
    (hclosed : closed = true → flight = []) :
    (flight ≠ [] ∧
        (Feed.run { arrived, closed } (Frame.decode role limit)).1 = .error .starved) ∨
      ∃ left, Feed.run { arrived, closed } (Frame.decode role limit) =
          (.ok frame, { arrived := left, closed }) ∧
        Decodes role limit (left ++ flight) frames rest := by
  cases h with
  | @cons _ middle _ _ _ hframe hframes =>
    by_cases hflight : flight = []
    · subst hflight
      rw [List.append_nil] at hframe
      obtain ⟨-, hmore⟩ := (Frame.exact_decode role limit).steady _ _ _ _ hframe
      have hread := hmore [] closed
      rw [List.append_nil, List.append_nil] at hread
      exact .inr ⟨middle, hread, by rwa [List.append_nil]⟩
    · obtain rfl : closed = false := Bool.eq_false_iff.mpr fun hend => hflight (hclosed hend)
      rcases hread : Feed.run { arrived } (Frame.decode role limit) with ⟨answer, feed⟩
      by_cases hstarved : answer = .error .starved
      · exact .inl ⟨hflight, hstarved⟩
      · -- A read that does not wait comes to the same on all the bytes.
        obtain ⟨hopen, hmore⟩ :=
          (Frame.exact_decode role limit).incremental arrived flight _ _ hread hstarved
        rw [hframe] at hmore
        obtain ⟨hanswer, hleft⟩ := Prod.mk.inj hmore
        obtain ⟨left, _⟩ := feed
        obtain rfl := hopen
        obtain rfl : middle = left ++ flight := congrArg Feed.arrived hleft
        exact .inr ⟨left, by rw [← hanswer], hframes⟩

end Decodes

end HttpRelay.WebSocket
