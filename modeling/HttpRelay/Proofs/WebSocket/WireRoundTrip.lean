import HttpRelay.Proofs.WebSocket.Exchange

/-!
# Frames across the wire

Whatever frames one end sends, the other end reads: the same opcodes, final bits and payloads, in
the same order, and not a byte more than was sent.

* `Endpoint.writeFrame_ok`: what a frame that was accepted puts on the wire;
* `Endpoint.writeFrames_ok`: what a sequence of frames puts there, a close being the last;
* `Endpoint.readFrames_run`: a sequence of frames is read, whatever is behind it;
* `Endpoint.readFrames_writeFrames`: what one end writes, the other end reads.
-/

namespace HttpRelay.WebSocket

open Outcome

/-- What a caller has sent in one frame, and what a reader gets of it. -/
structure Content where
  opcode : Opcode
  fin : Bool
  payload : Bytes
  deriving DecidableEq, Repr

/-- What a frame carries. -/
def Frame.content (frame : Frame) : Content where
  opcode := frame.header.opcode
  fin := frame.header.fin
  payload := frame.payload

/-- A payload that a reader with a limit takes. No slice in memory has half of the 64-bit range or
more bytes. -/
structure Content.Fits (content : Content) (limit : Nat) : Prop where
  length_lt : content.payload.length < UInt64.size / 2
  length_le : content.payload.length ≤ limit
  close : content.opcode = .close → ∃ status, Close.ofPayload content.payload = .ok status

/-- Control frames stand alone and are short. -/
def Content.Proper (content : Content) : Prop :=
  content.opcode.isControl = true →
    content.fin = true ∧ content.payload.length ≤ Close.maxControlPayload

/-- The frame in which an end in a role sends a content. -/
def Content.frame (content : Content) (role : Role) (key : MaskKey) : Frame :=
  Frame.outgoing role key content.opcode content.fin content.payload

@[simp] theorem Content.content_frame (content : Content) (role : Role) (key : MaskKey) :
    (content.frame role key).content = content := rfl

/-- Frames are masked by clients, and by nobody else. -/
theorem Content.isSome_mask_frame (content : Content) (role : Role) (key : MaskKey) :
    (content.frame role key).header.mask.isSome = true ↔ role = .client := by
  cases role with
  | client => exact iff_of_true rfl rfl
  | server => exact iff_of_false Bool.false_ne_true (by decide)

/-- What one end sends for a content that fits, the other end accepts. -/
theorem Content.Fits.acceptable {content : Content} {limit : Nat} (h : content.Fits limit)
    (hproper : content.Proper) (role : Role) (key : MaskKey) :
    (content.frame role key).Acceptable role.peer limit where
  length := rfl
  length_lt := h.length_lt
  length_le := h.length_le
  mask := by cases role <;> rfl
  control := hproper
  close := h.close

namespace Endpoint

/-- Send frames, one after the other. -/
def writeFrames : List Content → Op Unit
  | [] => pure ()
  | content :: contents => do
    writeFrame content.opcode content.fin content.payload
    writeFrames contents

/-- Read that many frames. -/
def readFrames : Nat → Op (List Frame)
  | 0 => pure []
  | count + 1 => do
    let frame ← readFrame
    let frames ← readFrames count
    return frame :: frames

section Writing

variable {e e' : Endpoint}

/-- The frame in which an end sends a content next. -/
def nextFrame (e : Endpoint) (content : Content) : Frame :=
  content.frame e.role (e.drawKey e.sent.length)

/-- A frame that is accepted is proper, may be sent in the state of the end, and is put on the
wire. -/
theorem writeFrame_ok {content : Content}
    (h : (writeFrame content.opcode content.fin content.payload).run.run e = (.ok (), e')) :
    content.Proper ∧ ∃ state, stateSent e.state content.opcode = some state ∧
      e' = { e with state, sent := e.sent ++ [e.nextFrame content] } := by
  rw [writeFrame_eq] at h
  rcases prepare_cases (e := e) content.opcode content.fin content.payload with
    ⟨error, hprepare⟩ | ⟨state, hstate, hproper, hprepare⟩
  · rw [run_bind_error hprepare] at h
    cases h
  · refine ⟨hproper, state, hstate, ?_⟩
    rw [run_bind_ok hprepare] at h
    -- the wire took the frame, as a send that finds nobody fails
    rcases put_cases (e := { e with state }) (e.nextFrame content) with ⟨-, hput⟩ | hput
    · exact (Prod.mk.inj (h.symm.trans hput)).2
    · cases h.symm.trans hput

/-- The first of some frames that are accepted, and the others behind it. -/
theorem writeFrames_cons_ok {content : Content} {contents : List Content}
    (h : (writeFrames (content :: contents)).run.run e = (.ok (), e')) :
    content.Proper ∧ ∃ state, stateSent e.state content.opcode = some state ∧
      (writeFrames contents).run.run { e with state, sent := e.sent ++ [e.nextFrame content] } =
        (.ok (), e') := by
  rw [writeFrames, run_bind] at h
  rcases hfirst : (writeFrame content.opcode content.fin content.payload).run.run e with
    ⟨error | ⟨⟩, e₁⟩
  · rw [hfirst] at h
    cases h
  · rw [hfirst] at h
    obtain ⟨hproper, state, hstate, rfl⟩ := writeFrame_ok hfirst
    exact ⟨hproper, state, hstate, h⟩

/-- Behind a close of its own an end sends nothing. -/
theorem stateSent_of_close {state state' : State} (h : stateSent state .close = some state')
    (opcode : Opcode) : stateSent state' opcode = none := by
  cases state <;> cases h <;> cases opcode <;> rfl

/-- What a sequence of frames that is accepted puts on the wire: a frame for each of them and
nothing else, and no frame behind a close. -/
theorem writeFrames_ok {contents : List Content}
    (h : (writeFrames contents).run.run e = (.ok (), e')) :
    ∃ frames, e'.sent = e.sent ++ frames ∧ frames.map Frame.content = contents ∧
      (∀ frame ∈ frames, ∃ content ∈ contents, content.Proper ∧
        ∃ key, frame = content.frame e.role key) ∧
      frames.Pairwise fun frame _ => frame.header.opcode ≠ .close := by
  induction contents generalizing e with
  | nil =>
    obtain rfl := (Prod.mk.inj h).2
    exact ⟨[], (List.append_nil _).symm, rfl, by simp, .nil⟩
  | cons content contents ih =>
    obtain ⟨hproper, state, hstate, hothers⟩ := writeFrames_cons_ok h
    obtain ⟨frames, hsent, hcontents, hframes, hlast⟩ := ih hothers
    refine ⟨e.nextFrame content :: frames, ?_, ?_, ?_, ?_⟩
    · rw [hsent, List.append_assoc]
      rfl
    · rw [List.map_cons, hcontents]
      rfl
    · rintro frame (_ | ⟨_, hframe⟩)
      · exact ⟨content, List.mem_cons_self, hproper, _, rfl⟩
      · obtain ⟨other, hother, hsame⟩ := hframes frame hframe
        exact ⟨other, List.mem_cons_of_mem _ hother, hsame⟩
    · refine List.pairwise_cons.mpr ⟨fun frame hframe hclose => ?_, hlast⟩
      change content.opcode = .close at hclose
      -- had the first one been a close, the next one would have been refused
      cases contents with
      | nil => simp [List.map_eq_nil_iff.mp hcontents] at hframe
      | cons next contents =>
        obtain ⟨-, _, hnext, -⟩ := writeFrames_cons_ok hothers
        rw [hclose] at hstate
        cases (stateSent_of_close hstate next.opcode).symm.trans hnext

end Writing

section Reading

variable {e : Endpoint} {rest : Bytes} {closed : Bool}

/-- An end that may receive knows a state behind every frame. Only a close ends what it may
receive. -/
theorem exists_stateReceived (h : e.state.canReceive = true) (opcode : Opcode) :
    ∃ state, stateReceived e.state opcode = some state ∧
      (opcode ≠ .close → state.canReceive = true) := by
  by_cases hclose : opcode = .close
  · rw [stateReceived, if_pos hclose]
    cases hstate : e.state with
    | «open» => exact ⟨_, rfl, fun hne => absurd hclose hne⟩
    | closeSent => exact ⟨_, rfl, fun hne => absurd hclose hne⟩
    | _ => rw [hstate] at h; cases h
  · exact ⟨e.state, if_neg hclose, fun _ => h⟩

/-- Frames that arrived are read in order, whatever is behind them, if a close is the last. -/
theorem readFrames_run {frames : List Frame}
    (hframes : ∀ frame ∈ frames, frame.Acceptable e.role e.limit)
    (hlast : frames.Pairwise fun frame _ => frame.header.opcode ≠ .close)
    (hreceive : frames ≠ [] → e.state.canReceive = true)
    (hincoming : e.incoming = { arrived := frames.flatMap Frame.encode ++ rest, closed }) :
    ∃ state, (readFrames frames.length).run.run e =
      (.ok frames, { e with incoming := { arrived := rest, closed }, state }) := by
  induction frames generalizing e with
  | nil =>
    refine ⟨e.state, ?_⟩
    rw [List.flatMap_nil, List.nil_append] at hincoming
    rw [← hincoming]
    rfl
  | cons frame frames ih =>
    obtain ⟨hfirst, hlast⟩ := List.pairwise_cons.mp hlast
    obtain ⟨state, hstate, hmore⟩ :=
      exists_stateReceived (hreceive (List.cons_ne_nil _ _)) frame.header.opcode
    rw [List.flatMap_cons, List.append_assoc] at hincoming
    have hread := readFrame_run (hreceive (List.cons_ne_nil _ _))
      (hframes frame List.mem_cons_self) hincoming hstate
    -- a frame with others behind it is no close, so that the end may go on to receive
    have hopen (hne : frames ≠ []) : state.canReceive = true := by
      obtain ⟨next, hnext⟩ := List.exists_mem_of_ne_nil _ hne
      exact hmore (hfirst next hnext)
    obtain ⟨behind, hothers⟩ := ih
      (e := { e with
        incoming := { arrived := frames.flatMap Frame.encode ++ rest, closed }, state })
      (fun other hother => hframes other (List.mem_cons_of_mem _ hother)) hlast hopen rfl
    refine ⟨behind, ?_⟩
    rw [List.length_cons, readFrames, run_bind_ok hread, run_bind_ok hothers, run_pure]

end Reading

/-- What one end writes, the other end reads: for every sequence of frames that the one end
accepts, whatever keys it draws and whatever bytes are behind them. -/
theorem readFrames_writeFrames {writer writer' reader : Endpoint} {contents : List Content}
    {bytes rest : Bytes} {closed : Bool}
    (hwrite : writer.run (writeFrames contents) = (.ok (), writer'))
    (hbytes : writer'.wire = writer.wire ++ bytes)
    (hfits : ∀ content ∈ contents, content.Fits reader.limit)
    (hrole : reader.role = writer.role.peer) (hreceive : reader.state.canReceive = true)
    (hincoming : reader.incoming = { arrived := bytes ++ rest, closed }) :
    ∃ frames reader', reader.run (readFrames contents.length) = (.ok frames, reader') ∧
      frames.map Frame.content = contents ∧
      (∀ frame ∈ frames, frame.header.mask.isSome = true ↔ writer.role = .client) ∧
      reader'.incoming = { arrived := rest, closed } := by
  obtain ⟨frames, hsent, hcontents, hframes, hlast⟩ := writeFrames_ok hwrite
  -- what is new on the wire is the octets of the frames
  have hwire : bytes = frames.flatMap Frame.encode := by
    rw [wire_eq, wire_eq, hsent, List.flatMap_append] at hbytes
    exact (List.append_cancel_left hbytes).symm
  have hacceptable (frame : Frame) (hframe : frame ∈ frames) :
      frame.Acceptable reader.role reader.limit := by
    obtain ⟨content, hcontent, hproper, key, rfl⟩ := hframes frame hframe
    rw [hrole]
    exact (hfits content hcontent).acceptable hproper writer.role key
  obtain ⟨state, hread⟩ := readFrames_run hacceptable hlast (fun _ => hreceive) (hwire ▸ hincoming)
  refine ⟨frames, { reader with incoming := { arrived := rest, closed }, state }, ?_, hcontents,
    ?_, rfl⟩
  · rw [← hcontents, List.length_map]
    exact hread
  · intro frame hframe
    obtain ⟨content, -, -, key, rfl⟩ := hframes frame hframe
    exact content.isSome_mask_frame writer.role key

/-- A client sends a text in two fragments with a ping between them, and a close; the server reads
them and leaves the byte behind them. -/
theorem readFrames_writeFrames_close :
    let contents : List Content :=
      [⟨.text, false, [72, 105]⟩, ⟨.ping, true, [1]⟩, ⟨.continuation, true, [33]⟩,
        ⟨.close, true, [3, 232]⟩]
    let writer : Endpoint := { role := .client, drawKey := fun n => ⟨.ofNat n, 250, 1, 77⟩ }
    let bytes : Bytes :=
      [0x01, 0x82, 0, 250, 1, 77, 72, 147, 0x89, 0x81, 1, 250, 1, 77, 0, 0x80, 0x81, 2, 250, 1, 77,
        35, 0x88, 0x82, 3, 250, 1, 77, 0, 18]
    let writer' := (writer.run (writeFrames contents)).2
    let reader : Endpoint :=
      { role := .server, limit := 4, incoming := { arrived := bytes ++ [255] } }
    (writer.run (writeFrames contents)).1 = .ok () ∧ writer'.wire = writer.wire ++ bytes ∧
      ∃ frames reader', reader.run (readFrames contents.length) = (.ok frames, reader') ∧
        frames.map Frame.content = contents ∧
        (∀ frame ∈ frames, frame.header.mask.isSome = true ↔ writer.role = .client) ∧
        reader'.incoming = { arrived := [255], closed := false } := by
  intro contents writer bytes writer' reader
  have hwrite : writer.run (writeFrames contents) = (.ok (), writer') := rfl
  have hbytes : writer'.wire = writer.wire ++ bytes := by decide
  have hlength : ∀ content ∈ contents, content.payload.length < UInt64.size / 2 ∧
      content.payload.length ≤ reader.limit := by decide
  have hclose : ∀ content ∈ contents, content.opcode = .close → content.payload = [3, 232] := by
    decide
  have hnormal : CloseCode.normal.isSendable = true := rfl
  have hstatus : Close.ofPayload [3, 232] = .ok (some ⟨.normal, ""⟩) :=
    @Close.ofPayload_octets ⟨.normal, ""⟩ hnormal
  have hfits (content : Content) (h : content ∈ contents) : content.Fits reader.limit :=
    ⟨(hlength content h).1, (hlength content h).2,
      fun hopcode => ⟨_, hclose content h hopcode ▸ hstatus⟩⟩
  exact ⟨rfl, hbytes, readFrames_writeFrames hwrite hbytes hfits rfl rfl rfl⟩

end Endpoint

end HttpRelay.WebSocket
