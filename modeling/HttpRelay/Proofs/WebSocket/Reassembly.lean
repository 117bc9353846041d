import HttpRelay.Proofs.WebSocket.Parties

/-!
# Fragments put together

A data message may arrive in fragments, each in a frame of its own, with pings and pongs between
them. The reads of a connection return the pings and pongs as they come, answer the pings, and
then return the whole message.

* `fragmentFrames`: the frames of a message in fragments;
* `Connection.Reads.of_fragment`, `Connection.Reads.of_complete`: what a frame of a fragment does
  to a read;
* `Connection.readsAll_fragments`: what the fragments of a message do to the reads;
* `Connection.receives_fragments`: the reads of a connection that has all of them.
-/

namespace HttpRelay.WebSocket

open Outcome

/-- A ping or a pong that an end with a limit accepts between two fragments. -/
structure Message.Aside (message : Message) (limit : Nat) : Prop where
  opcode : message.opcode = .ping ∨ message.opcode = .pong
  length_le : message.payload.length ≤ Close.maxControlPayload
  within : message.payload.length ≤ limit

theorem Message.Aside.deliverable {message : Message} {limit : Nat} (h : message.Aside limit) :
    message.Deliverable limit where
  length_lt := Close.lt_of_le_maxControlPayload h.length_le
  length_le := h.within
  control _ := h.length_le
  code status hclose := by
    subst hclose
    rcases h.opcode with hopcode | hopcode <;> cases hopcode

/-- A part of a data message, with the pings and pongs in front of it. -/
structure Fragment where
  /-- What comes in front of the fragment, with the keys of the frames. -/
  asides : List (Message × MaskKey) := []
  payload : Bytes
  key : MaskKey := .zero

/-- The frames of a message in fragments. Only the first of them says what the message is, and
only the last one is final. -/
def fragmentFrames (role : Role) : (opcode : Opcode) → List Fragment → List Frame
  | _, [] => []
  | opcode, fragment :: more =>
    fragment.asides.map (fun aside => aside.1.frame role aside.2) ++
      Frame.outgoing role fragment.key opcode more.isEmpty fragment.payload ::
        fragmentFrames role .continuation more

/-- The pings and pongs between the fragments of a message. -/
def asidesOf (fragments : List Fragment) : List Message :=
  fragments.flatMap fun fragment => fragment.asides.map Prod.fst

/-- The pongs that answer the pings among some messages. -/
def pongsFor (messages : List Message) : List Message :=
  messages.filterMap (Message.reply? .open)

theorem asidesOf_cons (fragment : Fragment) (more : List Fragment) :
    asidesOf (fragment :: more) = fragment.asides.map Prod.fst ++ asidesOf more :=
  List.flatMap_cons

theorem pongsFor_append (first second : List Message) :
    pongsFor (first ++ second) = pongsFor first ++ pongsFor second :=
  List.filterMap_append

theorem framesOf_append (role : Role) (keys : Nat → MaskKey) (first second : List Message) :
    framesOf role keys (first ++ second) =
      framesOf role keys first ++ framesOf role (fun i => keys (first.length + i)) second := by
  simp [framesOf, List.mapIdx_append, Nat.add_comm]

/-- The frame of a fragment is accepted by the other end. -/
theorem Frame.acceptable_fragment {role : Role} {limit : Nat} {opcode : Opcode} {fin : Bool}
    {payload : Bytes} (key : MaskKey) (hopcode : opcode.isControl = false)
    (hlt : payload.length < UInt64.size / 2) (hle : payload.length ≤ limit) :
    (Frame.outgoing role.peer key opcode fin payload).Acceptable role limit where
  length := rfl
  length_lt := hlt
  length_le := hle
  mask := by cases role <;> rfl
  control hcontrol := Bool.noConfusion (hopcode.symm.trans hcontrol)
  close hclose := by
    have hopcode : opcode = .close := hclose
    subst hopcode
    cases hopcode

namespace Connection

variable {c c' : Connection}

/-- Read some messages one after the other. -/
def receives : Nat → Connection → List (Except (Halt Error) Message) × Connection
  | 0, c => ([], c)
  | n + 1, c =>
    let (answer, behind) := c.run receive
    let (answers, last) := receives n behind
    (answer :: answers, last)

/-- The connection behind the reads that left some bytes, sent some replies, and hold a message
under construction. -/
def behind (c : Connection) (rest : Bytes) (replies : List Message)
    (fragments : Option (Header × Bytes)) : Connection where
  endpoint :=
    { c.endpoint with
      incoming := { c.endpoint.incoming with arrived := rest }
      sent := c.endpoint.sent ++ framesOf c.endpoint.role
        (fun i => c.endpoint.drawKey (c.endpoint.sent.length + i)) replies }
  fragments

theorem behind_behind (rest rest' : Bytes) (replies replies' : List Message)
    (fragments fragments' : Option (Header × Bytes)) :
    (c.behind rest replies fragments).behind rest' replies' fragments' =
      c.behind rest' (replies ++ replies') fragments' := by
  rw [behind, behind, behind, framesOf_append]
  simp [framesOf, Nat.add_assoc]

/-- A read that sends no reply changes what is left to read, and the message under construction. -/
theorem behind_nil (c : Connection) (rest : Bytes) (fragments : Option (Header × Bytes)) :
    c.behind rest [] fragments =
      { endpoint :=
          { c.endpoint with incoming := { c.endpoint.incoming with arrived := rest } }
        fragments } := by
  rw [behind, framesOf, List.mapIdx_nil, List.append_nil]

/-- A connection that can take the frames of a data message: it is open, and its peer is there. -/
structure Listening (c : Connection) : Prop where
  connected : c.endpoint.Connected
  state : c.endpoint.state = .open

theorem Listening.later (h : c.Listening) (rest : Bytes) (replies : List Message)
    (fragments : Option (Header × Bytes)) : (c.behind rest replies fragments).Listening :=
  ⟨⟨h.connected.shut, h.connected.peerGone⟩, h.state⟩

/-- A frame that is no close is read by an open connection. -/
theorem Listening.frame_run (h : c.Listening) {frame : Frame} {rest : Bytes}
    (hframe : frame.Acceptable c.endpoint.role c.endpoint.limit)
    (hopcode : frame.header.opcode ≠ .close)
    (harrived : c.endpoint.incoming.arrived = frame.encode ++ rest) :
    Connection.frame.run.run c = (.ok frame, c.behind rest [] c.fragments) := by
  have hincoming : c.endpoint.incoming =
      { arrived := frame.encode ++ rest, closed := c.endpoint.incoming.closed } := by
    rw [← harrived]
  have hstate : Endpoint.stateReceived c.endpoint.state frame.header.opcode =
      some c.endpoint.state := if_neg hopcode
  have hread := Connection.frame_run
    (Endpoint.readFrame_run (by rw [h.state]; rfl) hframe hincoming hstate)
  rw [hread, behind_nil]

/-- The next read returns a message. A read looks at no more frames than bytes arrived, and one
more; that bound is never reached. -/
def Reads (c : Connection) (message : Message) (c' : Connection) : Prop :=
  ∀ frames, c.endpoint.incoming.arrived.length < frames →
    (messageWithin frames).run.run c = (.ok message, c')

theorem Reads.run_receive {message : Message} (h : c.Reads message c') :
    c.run receive = (.ok message, c') := by
  rw [run, receive, run_bind_ok (run_get c)]
  exact h _ (Nat.lt_succ_self _)

/-- A frame that completes a message ends the read. -/
theorem Reads.of_complete {frame : Frame} {read : Connection} {message : Message}
    (hframe : Connection.frame.run.run c = (.ok frame, read))
    (haccept : (accept frame).run.run read = (.ok (some message), c')) : c.Reads message c' := by
  intro frames hframes
  obtain ⟨n, rfl⟩ := Nat.exists_eq_succ_of_ne_zero (Nat.ne_zero_of_lt hframes)
  rw [messageWithin, run_bind_ok hframe, run_bind_ok haccept, run_pure]

/-- Behind a frame that completes no message the read goes on. -/
theorem Reads.of_fragment {frame : Frame} {read taken : Connection} {message : Message}
    (hframe : Connection.frame.run.run c = (.ok frame, read))
    (haccept : (accept frame).run.run read = (.ok none, taken))
    (hshorter : taken.endpoint.incoming.arrived.length < c.endpoint.incoming.arrived.length)
    (h : taken.Reads message c') : c.Reads message c' := by
  intro frames hframes
  obtain ⟨n, rfl⟩ := Nat.exists_eq_succ_of_ne_zero (Nat.ne_zero_of_lt hframes)
  rw [messageWithin, run_bind_ok hframe, run_bind_ok haccept]
  exact h n (by omega)

/-- The next reads return some messages. -/
inductive ReadsAll : Connection → List Message → Connection → Prop
  | nil (c : Connection) : ReadsAll c [] c
  | cons {c c₁ c₂ : Connection} {message : Message} {more : List Message} :
      c.Reads message c₁ → ReadsAll c₁ more c₂ → ReadsAll c (message :: more) c₂

theorem ReadsAll.append {c₁ : Connection} {first second : List Message}
    (h₁ : ReadsAll c first c₁) (h₂ : ReadsAll c₁ second c') : ReadsAll c (first ++ second) c' := by
  induction h₁ with
  | nil => exact h₂
  | cons hread _ ih => exact .cons hread (ih h₂)

/-- Behind a frame that completes no message the reads go on. -/
theorem ReadsAll.of_fragment {frame : Frame} {read taken : Connection} {messages : List Message}
    (hframe : Connection.frame.run.run c = (.ok frame, read))
    (haccept : (accept frame).run.run read = (.ok none, taken))
    (hshorter : taken.endpoint.incoming.arrived.length < c.endpoint.incoming.arrived.length)
    (hmessages : messages ≠ []) (h : ReadsAll taken messages c') : ReadsAll c messages c' := by
  cases h with
  | nil => exact absurd rfl hmessages
  | cons hread hmore => exact .cons (.of_fragment hframe haccept hshorter hread) hmore

theorem ReadsAll.receives {messages : List Message} (h : ReadsAll c messages c') :
    c.receives messages.length = (messages.map .ok, c') := by
  induction h with
  | nil => rfl
  | cons hread _ ih =>
    rw [List.length_cons, Connection.receives, hread.run_receive]
    simp only [ih, List.map_cons]

/-- A ping or a pong is accepted whatever message is under construction, and a ping answered. -/
theorem Listening.accept_aside (h : c.Listening) {aside : Message} {limit : Nat}
    (haside : aside.Aside limit) (role : Role) (key : MaskKey) :
    (accept (aside.frame role key)).run.run c =
      (.ok (some aside), c.behind c.endpoint.incoming.arrived (pongsFor [aside]) c.fragments) := by
  cases aside with
  | ping data =>
    have hping := accept_ping role key h.connected haside.length_le
      (.inl h.state)
    rw [h.state] at hping
    exact hping
  | pong data =>
    have hnone : pongsFor [.pong data] = [] := rfl
    rw [hnone, behind_nil]
    rfl
  | _ => rcases haside.opcode with hopcode | hopcode <;> cases hopcode

/-- A ping or a pong is the next message. -/
theorem Listening.reads_aside (h : c.Listening) {aside : Message} {key : MaskKey} {rest : Bytes}
    (haside : aside.Aside c.endpoint.limit)
    (harrived : c.endpoint.incoming.arrived =
      (aside.frame c.endpoint.role.peer key).encode ++ rest) :
    c.Reads aside (c.behind rest (pongsFor [aside]) c.fragments) := by
  have hacceptable := haside.deliverable.acceptable c.endpoint.role.peer key
  rw [Role.peer_peer] at hacceptable
  have hopcode : aside.opcode ≠ .close := by
    rcases haside.opcode with hopcode | hopcode <;> rw [hopcode] <;> decide
  have haccept := (h.later rest [] c.fragments).accept_aside haside c.endpoint.role.peer key
  rw [behind_behind, List.nil_append] at haccept
  exact .of_complete (h.frame_run hacceptable hopcode harrived) haccept

/-- Pings and pongs are read one by one. -/
theorem Listening.readsAll_asides (h : c.Listening) {asides : List (Message × MaskKey)}
    {rest : Bytes} (hasides : ∀ aside ∈ asides, aside.1.Aside c.endpoint.limit)
    (harrived : c.endpoint.incoming.arrived =
      (asides.map fun aside => aside.1.frame c.endpoint.role.peer aside.2).flatMap Frame.encode ++
        rest) :
    ReadsAll c (asides.map Prod.fst)
      (c.behind rest (pongsFor (asides.map Prod.fst)) c.fragments) := by
  induction asides generalizing c with
  | nil =>
    have hsame : c.behind rest (pongsFor []) c.fragments = c := by
      rw [List.map_nil, List.flatMap_nil, List.nil_append] at harrived
      rw [← harrived, show pongsFor [] = [] from rfl, behind_nil]
    rw [List.map_nil, hsame]
    exact .nil c
  | cons aside asides ih =>
    obtain ⟨tail, htail⟩ : ∃ tail, tail = (asides.map fun aside =>
      aside.1.frame c.endpoint.role.peer aside.2).flatMap Frame.encode ++ rest := ⟨_, rfl⟩
    rw [List.map_cons, List.flatMap_cons, List.append_assoc, ← htail] at harrived
    have hread := h.reads_aside (hasides aside List.mem_cons_self) harrived
    have hmore := ih (h.later tail (pongsFor [aside.1]) c.fragments)
      (fun other hother => hasides other (List.mem_cons_of_mem _ hother)) htail
    rw [behind_behind, ← pongsFor_append] at hmore
    exact .cons hread hmore

/-- What a connection holds of a data message of some kind, and the opcode of the frame that
brings more of it. -/
inductive Awaits (kind : Opcode) : Option (Header × Bytes) → (opcode : Opcode) → (soFar : Bytes) →
    Prop
  | first : Awaits kind none kind []
  | next {header : Header} {soFar : Bytes} : header.opcode = kind →
      Awaits kind (some (header, soFar)) .continuation soFar

variable {message : Message} {opcode : Opcode} {soFar payload : Bytes}

theorem Awaits.isControl_eq_false (h : Awaits message.opcode c.fragments opcode soFar)
    (hdata : message.opcode = .text ∨ message.opcode = .binary) : opcode.isControl = false := by
  generalize c.fragments = fragments at h
  cases h with
  | first => rcases hdata with hkind | hkind <;> rw [hkind] <;> rfl
  | next _ => rfl

theorem Awaits.ne_close (h : Awaits message.opcode c.fragments opcode soFar)
    (hdata : message.opcode = .text ∨ message.opcode = .binary) : opcode ≠ .close := by
  rintro rfl
  cases h.isControl_eq_false hdata

/-- The last fragment completes the message. -/
theorem Awaits.accept_last (h : Awaits message.opcode c.fragments opcode soFar)
    (hdata : message.opcode = .text ∨ message.opcode = .binary)
    (hwhole : soFar ++ payload = message.payload)
    (hlimit : message.payload.length ≤ c.endpoint.limit) (role : Role) (key : MaskKey) :
    (accept (Frame.outgoing role key opcode true payload)).run.run c =
      (.ok (some message), c.behind c.endpoint.incoming.arrived [] none) := by
  rw [behind_nil]
  generalize hfragments : c.fragments = fragments at h
  cases h with
  | first =>
    rw [List.nil_append] at hwhole
    have haccept := accept_data role key hfragments hdata
    rw [Message.frame, ← hwhole] at haccept
    rw [haccept, ← hfragments]
  | @next header _ hkind =>
    have hfits : ¬ c.endpoint.limit < soFar.length + payload.length := by
      rw [← List.length_append, hwhole]
      exact Nat.not_lt_of_le hlimit
    have hsome : header.opcode ≠ .continuation := by
      rcases hdata with hkind' | hkind' <;> rw [hkind, hkind'] <;> decide
    simp only [accept, Frame.outgoing]
    rw [run_bind_ok (run_get c), hfragments]
    simp only [Header.ofFragments, if_neg hsome, hwhole, if_true]
    rw [run_bind_ok (run_modify _ c), run_bind_ok (run_get _), if_neg hfits]
    exact run_bind_ok (complete_run hkind hdata)

/-- Any other fragment is kept. -/
theorem Awaits.accept_part (h : Awaits message.opcode c.fragments opcode soFar)
    (hdata : message.opcode = .text ∨ message.opcode = .binary)
    (hlimit : (soFar ++ payload).length ≤ c.endpoint.limit) (role : Role) (key : MaskKey) :
    ∃ fragments, Awaits message.opcode fragments .continuation (soFar ++ payload) ∧
      (accept (Frame.outgoing role key opcode false payload)).run.run c =
        (.ok none, c.behind c.endpoint.incoming.arrived [] fragments) := by
  generalize hfragments : c.fragments = fragments at h
  cases h with
  | first =>
    refine ⟨some ((Frame.outgoing role key message.opcode false payload).header, payload),
      .next rfl, ?_⟩
    rw [behind_nil]
    simp only [accept, Frame.outgoing]
    rcases hdata with hkind | hkind <;> rw [hkind, run_bind_ok (run_get c), hfragments] <;> rfl
  | @next header _ hkind =>
    have hfits : ¬ c.endpoint.limit < soFar.length + payload.length := by
      rw [← List.length_append]
      exact Nat.not_lt_of_le hlimit
    refine ⟨some (header, soFar ++ payload), .next hkind, ?_⟩
    rw [behind_nil]
    simp only [accept, Frame.outgoing]
    rw [run_bind_ok (run_get c), hfragments]
    simp only [Bool.false_eq_true, if_false]
    rw [run_bind_ok (run_modify _ c), run_bind_ok (run_get _), if_neg hfits]
    rfl

/-- The frame of the last fragment ends the read of the message. -/
theorem Listening.reads_last (h : c.Listening)
    (hawaits : Awaits message.opcode c.fragments opcode soFar)
    (hdata : message.opcode = .text ∨ message.opcode = .binary)
    (hlt : message.payload.length < UInt64.size / 2)
    (hlimit : message.payload.length ≤ c.endpoint.limit)
    (hwhole : soFar ++ payload = message.payload) {key : MaskKey} {rest : Bytes}
    (harrived : c.endpoint.incoming.arrived =
      (Frame.outgoing c.endpoint.role.peer key opcode true payload).encode ++ rest) :
    c.Reads message (c.behind rest [] none) := by
  have hlength : payload.length ≤ message.payload.length := by
    rw [← hwhole, List.length_append]
    omega
  have hcontrol := hawaits.isControl_eq_false hdata
  have hframe := h.frame_run (Frame.acceptable_fragment key hcontrol
    (Nat.lt_of_le_of_lt hlength hlt) (Nat.le_trans hlength hlimit))
    (hawaits.ne_close hdata) harrived
  have haccept := Awaits.accept_last (c := c.behind rest [] c.fragments) hawaits hdata hwhole
    hlimit c.endpoint.role.peer key
  rw [behind_behind] at haccept
  exact .of_complete hframe haccept

/-- The read of the message goes on behind the frame of any other fragment. -/
theorem Listening.readsAll_part (h : c.Listening)
    (hawaits : Awaits message.opcode c.fragments opcode soFar)
    (hdata : message.opcode = .text ∨ message.opcode = .binary)
    (hlt : (soFar ++ payload).length < UInt64.size / 2)
    (hlimit : (soFar ++ payload).length ≤ c.endpoint.limit) {key : MaskKey} {rest : Bytes}
    (harrived : c.endpoint.incoming.arrived =
      (Frame.outgoing c.endpoint.role.peer key opcode false payload).encode ++ rest) :
    ∃ fragments, Awaits message.opcode fragments .continuation (soFar ++ payload) ∧
      ∀ {messages c'}, messages ≠ [] → ReadsAll (c.behind rest [] fragments) messages c' →
        ReadsAll c messages c' := by
  have hlength : payload.length ≤ (soFar ++ payload).length := by
    rw [List.length_append]
    omega
  have hframe := h.frame_run (Frame.acceptable_fragment key (hawaits.isControl_eq_false hdata)
    (Nat.lt_of_le_of_lt hlength hlt) (Nat.le_trans hlength hlimit))
    (hawaits.ne_close hdata) harrived
  obtain ⟨fragments, hmore, haccept⟩ := Awaits.accept_part (c := c.behind rest [] c.fragments)
    hawaits hdata hlimit c.endpoint.role.peer key
  rw [behind_behind] at haccept
  -- A frame has a header at least, so that less is left behind it.
  have hheader := List.length_pos_iff.mpr
    (Frame.outgoing c.endpoint.role.peer key opcode false payload).encode_ne_nil
  have hshorter : rest.length < c.endpoint.incoming.arrived.length := by
    rw [harrived, List.length_append]
    exact Nat.lt_add_of_pos_left hheader
  exact ⟨fragments, hmore, .of_fragment hframe haccept hshorter⟩

/-- The pings and pongs between the fragments of a message are read, and then the message. -/
theorem Listening.readsAll_fragments (h : c.Listening)
    (hdata : message.opcode = .text ∨ message.opcode = .binary)
    (hlt : message.payload.length < UInt64.size / 2)
    (hlimit : message.payload.length ≤ c.endpoint.limit) {fragments : List Fragment}
    (hsome : fragments ≠ []) (hawaits : Awaits message.opcode c.fragments opcode soFar)
    (hwhole : soFar ++ fragments.flatMap Fragment.payload = message.payload)
    (hasides : ∀ fragment ∈ fragments, ∀ aside ∈ fragment.asides,
      aside.1.Aside c.endpoint.limit) {rest : Bytes}
    (harrived : c.endpoint.incoming.arrived =
      (fragmentFrames c.endpoint.role.peer opcode fragments).flatMap Frame.encode ++ rest) :
    ReadsAll c (asidesOf fragments ++ [message])
      (c.behind rest (pongsFor (asidesOf fragments)) none) := by
  induction fragments generalizing c opcode soFar with
  | nil => exact absurd rfl hsome
  | cons fragment more ih =>
    obtain ⟨tail, htail⟩ : ∃ tail, tail =
      (fragmentFrames c.endpoint.role.peer .continuation more).flatMap Frame.encode ++ rest :=
        ⟨_, rfl⟩
    rw [fragmentFrames, List.flatMap_append, List.flatMap_cons, List.append_assoc,
      List.append_assoc, ← htail] at harrived
    rw [List.flatMap_cons, ← List.append_assoc] at hwhole
    -- First the pings and pongs are read, and then the frame of the fragment itself.
    have hfirst := h.readsAll_asides (hasides fragment List.mem_cons_self) harrived
    have hlistening := h.later ((Frame.outgoing c.endpoint.role.peer fragment.key opcode
      more.isEmpty fragment.payload).encode ++ tail)
      (pongsFor (fragment.asides.map Prod.fst)) c.fragments
    rw [asidesOf_cons, pongsFor_append, List.append_assoc]
    refine hfirst.append ?_
    cases more with
    | nil =>
      obtain rfl : tail = rest := htail
      rw [List.flatMap_nil, List.append_nil] at hwhole
      have hlast := hlistening.reads_last hawaits hdata hlt hlimit hwhole rfl
      rw [behind_behind] at hlast
      exact .cons hlast (.nil _)
    | cons next more =>
      have hlength : (soFar ++ fragment.payload).length ≤ message.payload.length := by
        rw [← hwhole]
        exact (List.prefix_append _ _).length_le
      obtain ⟨held, hheld, hpart⟩ := hlistening.readsAll_part hawaits hdata
        (Nat.lt_of_le_of_lt hlength hlt) (Nat.le_trans hlength hlimit) rfl
      refine hpart (by simp) ?_
      rw [behind_behind, List.append_nil]
      have hmore := ih (h.later tail (pongsFor (fragment.asides.map Prod.fst)) held) hlimit
        (by simp) hheld hwhole
        (fun other hother => hasides other (List.mem_cons_of_mem _ hother)) htail
      rw [behind_behind] at hmore
      exact hmore

/-- The reads of a connection that has all fragments of a data message return the pings and pongs
between them, and then the message as a whole. The pings are answered, nothing else is sent, and
no message is left under construction. -/
theorem receives_fragments (hconnected : c.endpoint.Connected) (hopen : c.endpoint.state = .open)
    (hnone : c.fragments = none) (hdata : message.opcode = .text ∨ message.opcode = .binary)
    (hlt : message.payload.length < UInt64.size / 2)
    (hlimit : message.payload.length ≤ c.endpoint.limit) {fragments : List Fragment}
    (hsome : fragments ≠ []) (hwhole : fragments.flatMap Fragment.payload = message.payload)
    (hasides : ∀ fragment ∈ fragments, ∀ aside ∈ fragment.asides,
      aside.1.Aside c.endpoint.limit) {rest : Bytes} {closed : Bool}
    (hincoming : c.endpoint.incoming =
      { arrived := (fragmentFrames c.endpoint.role.peer message.opcode fragments).flatMap
          Frame.encode ++ rest
        closed }) :
    c.receives ((asidesOf fragments).length + 1) =
      ((asidesOf fragments ++ [message]).map .ok,
        { endpoint :=
            { c.endpoint with
              incoming := { arrived := rest, closed }
              sent := c.endpoint.sent ++ framesOf c.endpoint.role
                (fun i => c.endpoint.drawKey (c.endpoint.sent.length + i))
                (pongsFor (asidesOf fragments)) }
          fragments := none }) := by
  have hawaits : Awaits message.opcode c.fragments message.opcode [] := by
    rw [hnone]
    exact .first
  have hreads := (Listening.mk hconnected hopen).readsAll_fragments hdata hlt hlimit hsome hawaits
    hwhole hasides (by rw [hincoming])
  have hanswers := hreads.receives
  rw [List.length_append, List.length_singleton, behind, hincoming] at hanswers
  exact hanswers

/-- A character that is cut in two, with a ping in between, at either end. -/
theorem receives_fragments_cut_character :
    let arrived (role : Role) : Bytes := match role with
      | .server => [0x01, 0x81, 1, 2, 3, 4, 0xC2, 0x89, 0x81, 5, 6, 7, 8, 2,
          0x80, 0x81, 9, 10, 11, 12, 0xA0]
      | .client => [0x01, 0x01, 0xC3, 0x89, 0x01, 7, 0x80, 0x01, 0xA9]
    let drawKey (n : Nat) : MaskKey := ⟨55, 250, 33, .ofNat (n + 1)⟩
    let c (role : Role) : Connection :=
      { endpoint := { role, drawKey, incoming := { arrived := arrived role } } }
    let behind (role : Role) : Connection :=
      { endpoint := { role, drawKey, sent := [(Message.pong [7]).frame role (drawKey 0)] } }
    (∀ role, (c role).receives 2 = ([.ok (.ping [7]), .ok (.text "é")], behind role)) ∧
      (behind .server).endpoint.wire = [0x8A, 0x01, 7] ∧
      (behind .client).endpoint.wire = [0x8A, 0x81, 55, 250, 33, 1, 48] := by
  intro arrived drawKey c behind
  let fragments : List Fragment :=
    [{ payload := [0xC3], key := ⟨1, 2, 3, 4⟩ },
      { asides := [(.ping [7], ⟨5, 6, 7, 8⟩)], payload := [0xA9], key := ⟨9, 10, 11, 12⟩ }]
  have harrived : ∀ role, arrived role =
      (fragmentFrames role.peer .text fragments).flatMap Frame.encode
    | .client | .server => by decide +kernel
  have hasides : ∀ fragment ∈ fragments, ∀ aside ∈ fragment.asides,
      aside.1.Aside defaultLimit := by
    simp only [fragments, List.mem_cons, List.not_mem_nil, or_false, forall_eq_or_imp, forall_eq,
      false_implies, implies_true, true_and]
    exact ⟨.inl rfl, by decide, by decide⟩
  have hwhole : fragments.flatMap Fragment.payload = (Message.text "é").payload := by
    decide +kernel
  have hlimit : (Message.text "é").payload.length ≤ defaultLimit := by decide +kernel
  have hincoming (role : Role) : (c role).endpoint.incoming =
      { arrived := (fragmentFrames role.peer (Message.text "é").opcode fragments).flatMap
          Frame.encode ++ [] } := by
    rw [List.append_nil]
    exact congrArg (Feed.mk · false) (harrived role)
  exact ⟨fun role => receives_fragments (c := c role) ⟨rfl, rfl⟩ rfl rfl (.inl rfl)
    (by decide +kernel) hlimit (List.cons_ne_nil _ _) hwhole hasides (hincoming role),
    by decide +kernel, by decide +kernel⟩

end Connection

end HttpRelay.WebSocket
