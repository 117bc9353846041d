import HttpRelay.Proofs.WebSocket.Exchange

/-!
# The ends of a connection

A party is one end of a connection together with what it sent and read so far and the bytes that
are on their way to it. What it sends reaches the other party through a channel that loses and
reorders nothing.

* `Party.send`, `Party.close`, `Party.read`, `Party.arrive`: what happens at one end;
* `Party.Ready`: the invariant of an end by itself;
* `Channel`: the invariant of what goes from one end to the other;
* `Party.Ready.send_cases`, `Party.Ready.read_cases`: what a send and a read of an end find;
* `Channel.speak`, `Channel.take`: a channel behind one more message sent, or read.
-/

namespace HttpRelay.WebSocket

/-- One end of a connection, with the bytes on their way to it and what it sent and read so far. -/
structure Party where
  conn : Connection
  /-- The bytes that the other end sent and that did not arrive yet. -/
  flight : Bytes := []
  /-- The messages sent, the pongs and the echo of a close among them. -/
  outbox : List Message := []
  /-- The messages that reads returned. -/
  inbox : List Message := []
  /-- The errors that reads returned. -/
  refusals : List Error := []

namespace Party

/-- Send a message. -/
def send (p : Party) (message : Message) : Party :=
  match p.conn.run (Connection.send message) with
  | (.ok (), conn) => { p with conn, outbox := p.outbox ++ [message.delivered] }
  | (.error _, conn) => { p with conn }

/-- Start the closing handshake. -/
def close (p : Party) (code : CloseCode) (reason : String) : Party :=
  match p.conn.run (Connection.close code reason) with
  | (.ok (), conn) =>
    { p with conn, outbox := p.outbox ++ [(Message.close (some ⟨code, reason⟩)).delivered] }
  | (.error _, conn) => { p with conn }

/-- Read a message and reply to it. A read that still waits for bytes did not take place yet. -/
def read (p : Party) : Party :=
  match p.conn.run Connection.receive with
  | (.ok message, conn) =>
    { p with
      conn
      inbox := p.inbox ++ [message]
      outbox := p.outbox ++ (message.reply? p.conn.endpoint.state).toList }
  | (.error .starved, _) => p
  | (.error (.failed error), conn) => { p with conn, refusals := p.refusals ++ [error] }

/-- Some of the bytes on their way arrive. -/
def arrive (p : Party) (n : Nat) : Party :=
  { p with
    conn.endpoint.incoming.arrived := p.conn.endpoint.incoming.arrived ++ p.flight.take n
    flight := p.flight.drop n }

/-- The bytes that are still to be read. -/
def unread (p : Party) : Bytes := p.conn.endpoint.incoming.arrived ++ p.flight

/-- What the other end has to do with: whom it hears, and what was said. -/
def said (p : Party) : Role × (Nat → MaskKey) × List Frame × List Message :=
  (p.conn.endpoint.role, p.conn.endpoint.drawKey, p.conn.endpoint.sent, p.outbox)

/-- Frames that the other end puts on the wire are on their way. -/
def hear (p : Party) (frames : List Frame) : Party :=
  { p with flight := p.flight ++ frames.flatMap Frame.encode }

end Party

/-- Whether a message is a close. -/
def Message.isClose (message : Message) : Bool := message.opcode = .close

/-- How far the closing handshake is at an end, by whether it sent and read a close. -/
inductive Phase : State → (sent received : Bool) → Prop
  | talking : Phase .open false false
  | closing : Phase .closeSent true false
  | closed : Phase .closed true true

/-- Only an end that neither sent nor read a close may send. -/
theorem Phase.of_stateSent {state behind : State} {sent received : Bool} {opcode : Opcode}
    (h : Phase state sent received) (hsent : Endpoint.stateSent state opcode = some behind) :
    state = .open ∧ behind = if opcode = .close then .closeSent else .open := by
  unfold Endpoint.stateSent at hsent
  by_cases hclose : opcode = .close
  · rw [if_pos hclose] at hsent ⊢
    cases h with
    | talking => exact ⟨rfl, (Option.some.inj hsent).symm⟩
    | closing => cases hsent
    | closed => cases hsent
  · rw [if_neg hclose] at hsent ⊢
    cases h with
    | talking => exact ⟨rfl, (Option.some.inj hsent).symm⟩
    | closing => cases hsent
    | closed => cases hsent

/-- An end that is not through with the closing handshake may read. -/
theorem Phase.open_or_closeSent {state : State} {sent received : Bool}
    (h : Phase state sent received) (hstate : state ≠ .closed) :
    state = .open ∨ state = .closeSent := by
  cases h with
  | talking => exact .inl rfl
  | closing => exact .inr rfl
  | closed => exact absurd rfl hstate

/-- An open end neither sent nor read a close. -/
theorem Phase.of_open {sent received : Bool} (h : Phase .open sent received) :
    sent = false ∧ received = false := by
  cases h
  exact ⟨rfl, rfl⟩

/-- An end that is through with the closing handshake read a close. -/
theorem Phase.of_closed {sent received : Bool} (h : Phase .closed sent received) :
    received = true := by
  cases h
  rfl

theorem Phase.ne_errored {state : State} {sent received : Bool} (h : Phase state sent received) :
    state ≠ .errored := by
  cases h <;> decide

/-- What a read does to the closing handshake. -/
theorem Phase.answer {state : State} {sent received : Bool} (h : Phase state sent received)
    (hopen : state = .open ∨ state = .closeSent) (message : Message) :
    Phase (message.stateBehind state) (sent || (message.reply? state).toList.any Message.isClose)
      (received || message.isClose) := by
  cases h with
  | talking => cases message <;> constructor
  | closing => cases message <;> constructor
  | closed => cases hopen with
    | inl h => cases h
    | inr h => cases h

/-- The frames of some messages, masked with the keys of an end. -/
def framesOf (role : Role) (keys : Nat → MaskKey) (messages : List Message) : List Frame :=
  messages.mapIdx fun i message => message.frame role (keys i)

/-- What holds of an end by itself. -/
structure Party.Ready (p : Party) (role : Role) (limit : Nat) : Prop where
  role : p.conn.endpoint.role = role
  limit : p.conn.endpoint.limit = limit
  connected : p.conn.endpoint.Connected
  fragments : p.conn.fragments = none
  lasting : p.conn.endpoint.incoming.closed = false
  phase : Phase p.conn.endpoint.state (p.outbox.any Message.isClose) (p.inbox.any Message.isClose)
  /-- Only an end that is through with the closing handshake refuses to read. -/
  refusals : ∀ error ∈ p.refusals, error = .notPermitted .closed

/-- What holds between the end `p` and the end `q` that reads what `p` sends. -/
structure Channel (limit : Nat) (p q : Party) : Prop where
  sent : p.conn.endpoint.sent =
    framesOf p.conn.endpoint.role p.conn.endpoint.drawKey p.outbox
  received : q.inbox <+: p.outbox
  unread : q.unread = (p.conn.endpoint.sent.drop q.inbox.length).flatMap Frame.encode
  deliverable : ∀ message ∈ p.outbox, message.Deliverable limit
  /-- Nothing is sent behind a close. -/
  closeLast : ∀ message ∈ p.outbox.dropLast, message.isClose = false

/-- The frames behind the first few are those of the next message and the ones behind it. -/
theorem drop_framesOf (role : Role) (keys : Nat → MaskKey) (past : List Message)
    (message : Message) (more : List Message) :
    (framesOf role keys (past ++ message :: more)).drop past.length =
      message.frame role (keys past.length) ::
        (framesOf role keys (past ++ message :: more)).drop (past.length + 1) := by
  rw [List.drop_eq_getElem_cons (by simp [framesOf])]
  congr 1
  simp [framesOf]

theorem framesOf_concat (role : Role) (keys : Nat → MaskKey) (messages : List Message)
    (message : Message) :
    framesOf role keys (messages ++ [message]) =
      framesOf role keys messages ++ [message.frame role (keys messages.length)] := by
  simp [framesOf, List.mapIdx_append]

/-- Of two beginnings of the same bytes, one is longer than the other, or begins with it. -/
theorem split_of_append_eq {arrived flight frame behind : Bytes}
    (h : arrived ++ flight = frame ++ behind) :
    (∃ missing, frame = arrived ++ missing ∧ missing ≠ []) ∨ ∃ rest, arrived = frame ++ rest := by
  rcases List.append_eq_append_iff.mp h with ⟨missing, hframe, -⟩ | ⟨rest, harrived, -⟩
  · by_cases hmissing : missing = []
    · exact .inr ⟨[], by rw [hframe, hmissing, List.append_nil, List.append_nil]⟩
    · exact .inl ⟨missing, hframe, hmissing⟩
  · exact .inr ⟨rest, harrived⟩

/-- A ping without contents can always be delivered. -/
theorem Message.deliverable_ping_nil (limit : Nat) : (Message.ping []).Deliverable limit where
  length_lt := by decide
  length_le := Nat.zero_le limit
  control _ := Nat.zero_le _
  code status h := by cases h

theorem Frame.encode_ne_nil (frame : Frame) : frame.encode ≠ [] := by
  rw [Frame.encode, Header.encode_eq]
  simp

/-- A channel does not depend on what the sending end reads. -/
theorem Channel.of_said_eq {limit : Nat} {p p' q : Party} (h : Channel limit p q)
    (hsaid : p'.said = p.said) : Channel limit p' q := by
  simp only [Party.said, Prod.mk.injEq] at hsaid
  obtain ⟨hrole, hkeys, hsent, houtbox⟩ := hsaid
  refine ⟨?_, houtbox ▸ h.received, hsent ▸ h.unread, houtbox ▸ h.deliverable,
    houtbox ▸ h.closeLast⟩
  rw [hrole, hkeys, hsent, houtbox]
  exact h.sent

/-- A channel does not depend on what the reading end sends. -/
theorem Channel.of_heard_eq {limit : Nat} {p q q' : Party} (h : Channel limit p q)
    (hheard : (q'.inbox, q'.unread) = (q.inbox, q.unread)) : Channel limit p q' := by
  obtain ⟨hinbox, hunread⟩ := Prod.mk.inj hheard
  exact ⟨h.sent, hinbox ▸ h.received, hunread.trans (hinbox ▸ h.unread), h.deliverable,
    h.closeLast⟩

/-- What is unread begins with the frame of the next message. -/
theorem Channel.unread_cons {limit : Nat} {p q : Party} (h : Channel limit p q) {message : Message}
    {more : List Message} (hnext : p.outbox = q.inbox ++ message :: more) :
    q.unread = (message.frame p.conn.endpoint.role
        (p.conn.endpoint.drawKey q.inbox.length)).encode ++
      (p.conn.endpoint.sent.drop (q.inbox.length + 1)).flatMap Frame.encode := by
  rw [h.unread, h.sent, hnext, drop_framesOf, List.flatMap_cons]

namespace Party

variable {p q : Party} {role : Role} {limit : Nat}

/-- Put the frame of a message on the wire. -/
def speak (p : Party) (message : Message) : Party :=
  { p with
    conn.endpoint.sent := p.conn.endpoint.sent ++
      [message.frame p.conn.endpoint.role (p.conn.endpoint.drawKey p.conn.endpoint.sent.length)]
    outbox := p.outbox ++ [message] }

/-- Take a message off the wire, with some bytes behind it. -/
def take (p : Party) (message : Message) (rest : Bytes) : Party :=
  { p with
    conn.endpoint.incoming := { arrived := rest }
    inbox := p.inbox ++ [message] }

/-- Move to a state. -/
def enter (p : Party) (state : State) : Party := { p with conn.endpoint.state := state }

theorem hear_nil (p : Party) : p.hear [] = p := by
  simp [hear]

theorem drop_sent_speak (p : Party) (message : Message) :
    (p.speak message).conn.endpoint.sent.drop p.conn.endpoint.sent.length =
      [message.frame p.conn.endpoint.role
        (p.conn.endpoint.drawKey p.conn.endpoint.sent.length)] := by
  simp [speak]

/-- To close is to send a close. -/
theorem close_eq (p : Party) (code : CloseCode) (reason : String) :
    p.close code reason = p.send (.close (some ⟨code, reason⟩)) := rfl

/-- A send puts the frame of a message on the wire, or changes nothing. -/
theorem Ready.send_cases (h : p.Ready role limit) (message : Message) :
    p.send message = p ∨
      (p.conn.endpoint.state = .open ∧
        (message.delivered.opcode.isControl = true →
          message.delivered.payload.length ≤ Close.maxControlPayload) ∧
        (∀ status, message.delivered = .close (some status) → status.code.isSendable = true) ∧
        p.send message = (p.speak message.delivered).enter
          (if message.delivered.isClose then .closeSent else .open)) := by
  rcases Connection.send_cases h.connected message with
    ⟨error, hrun⟩ | ⟨state, hstate, hlength, hcode, hrun⟩
  · left
    rw [send, Connection.run, hrun]
  · right
    obtain ⟨hopen, rfl⟩ := h.phase.of_stateSent hstate
    refine ⟨hopen, hlength, hcode, ?_⟩
    rw [send, Connection.run, hrun]
    simp only [Message.isClose, decide_eq_true_eq]
    rfl

/-- The end behind a read of a message, with some bytes behind it. -/
def answer (p : Party) (message : Message) (rest : Bytes) : Party :=
  let taken := p.take message rest
  ((message.reply? p.conn.endpoint.state).elim taken taken.speak).enter
    (message.stateBehind p.conn.endpoint.state)

/-- A read of an end that may read takes the next message, if it arrived. -/
theorem Ready.read_of_arrived (h : p.Ready role limit) (hstate : p.conn.endpoint.state ≠ .closed)
    {message : Message} (hmessage : message.Deliverable limit) {key : MaskKey} {rest : Bytes}
    (harrived : p.conn.endpoint.incoming.arrived = (message.frame role.peer key).encode ++ rest) :
    p.read = p.answer message rest := by
  have hincoming : p.conn.endpoint.incoming =
      { arrived := (message.frame p.conn.endpoint.role.peer key).encode ++ rest } := by
    rw [h.role, ← harrived, ← h.lasting]
  have hrun := Connection.receive_run h.connected h.fragments (h.phase.open_or_closeSent hstate)
    (h.limit ▸ hmessage) hincoming
  rw [read, Connection.run, hrun, answer]
  dsimp only
  cases message.reply? p.conn.endpoint.state with
  | none =>
    simp only [Option.toList_none, List.map_nil, List.append_nil]
    rfl
  | some reply => rfl

/-- A read of an end that may read waits, if only a part of a frame arrived. -/
theorem Ready.read_of_part (h : p.Ready role limit) (hstate : p.conn.endpoint.state ≠ .closed)
    {message : Message} (hmessage : message.Deliverable limit) {key : MaskKey} {missing : Bytes}
    (hsplit : (message.frame role.peer key).encode =
      p.conn.endpoint.incoming.arrived ++ missing) (hmissing : missing ≠ []) : p.read = p := by
  have hreceive : p.conn.endpoint.state.canReceive = true := by
    rcases h.phase.open_or_closeSent hstate with hopen | hsent
    · rw [hopen]
      rfl
    · rw [hsent]
      rfl
  have hincoming : p.conn.endpoint.incoming =
      { arrived := p.conn.endpoint.incoming.arrived } := by rw [← h.lasting]
  have hframe := hmessage.acceptable role.peer key
  rw [Role.peer_peer, ← h.role, ← h.limit] at hframe
  rw [← h.role] at hsplit
  have hstarved := Connection.receive_starved hreceive hframe hincoming hsplit.symm hmissing
  rw [read, Connection.run]
  rcases hrun : Connection.receive.run.run p.conn with ⟨answer, conn⟩
  rw [hrun] at hstarved
  obtain rfl : answer = .error .starved := hstarved
  rfl

/-- A read takes the next message, waits for it, or is refused behind the closing handshake. -/
theorem Ready.read_cases (h : p.Ready role limit) (hin : Channel limit q p)
    (hrole : q.conn.endpoint.role = role.peer) :
    p.read = p ∨
      p.read = { p with refusals := p.refusals ++ [.notPermitted .closed] } ∨
      ∃ message more rest,
        (p.conn.endpoint.state = .open ∨ p.conn.endpoint.state = .closeSent) ∧
        q.outbox = p.inbox ++ message :: more ∧
        p.conn.endpoint.incoming.arrived = (message.frame q.conn.endpoint.role
          (q.conn.endpoint.drawKey p.inbox.length)).encode ++ rest ∧
        p.read = p.answer message rest := by
  by_cases hclosed : p.conn.endpoint.state = .closed
  · right; left
    rw [read, Connection.run, Connection.receive_refused hclosed]
  obtain ⟨pending, hpending⟩ := hin.received
  cases pending with
  | nil =>
    have hunread := hin.unread
    rw [hin.sent, ← hpending, List.append_nil, List.drop_eq_nil_of_le (by simp [framesOf]),
      List.flatMap_nil, unread, List.append_eq_nil_iff] at hunread
    -- Whatever frame comes next, nothing of it arrived yet.
    have hsplit : ((Message.ping []).frame role.peer .zero).encode =
        p.conn.endpoint.incoming.arrived ++ ((Message.ping []).frame role.peer .zero).encode := by
      rw [hunread.1, List.nil_append]
    exact .inl (h.read_of_part hclosed (Message.deliverable_ping_nil limit) hsplit
      (Frame.encode_ne_nil _))
  | cons message more =>
    -- The next message is on its way, and all of its frame arrived or only a part of it.
    have hmessage := hin.deliverable message (by rw [← hpending]; simp)
    have hunread := hin.unread_cons hpending.symm
    rcases split_of_append_eq hunread with ⟨missing, hsplit, hmissing⟩ | ⟨rest, harrived⟩
    · exact .inl (h.read_of_part hclosed hmessage (hrole ▸ hsplit) hmissing)
    · exact .inr (.inr ⟨message, more, rest, h.phase.open_or_closeSent hclosed, hpending.symm,
        harrived, h.read_of_arrived hclosed hmessage (hrole ▸ harrived)⟩)

theorem outbox_answer (p : Party) (message : Message) (rest : Bytes) :
    (p.answer message rest).outbox =
      p.outbox ++ (message.reply? p.conn.endpoint.state).toList := by
  rw [answer]
  cases message.reply? p.conn.endpoint.state with
  | none => exact (List.append_nil _).symm
  | some reply => rfl

theorem inbox_answer (p : Party) (message : Message) (rest : Bytes) :
    (p.answer message rest).inbox = p.inbox ++ [message] := by
  rw [answer]
  cases message.reply? p.conn.endpoint.state <;> rfl

/-- A read leaves an end as it should be. -/
theorem Ready.answer (h : p.Ready role limit)
    (hopen : p.conn.endpoint.state = .open ∨ p.conn.endpoint.state = .closeSent)
    (message : Message) (rest : Bytes) : (p.answer message rest).Ready role limit := by
  -- What changes is the state, and whether a close was sent or read.
  have hphase := h.phase.answer hopen message
  rw [← List.any_append, ← outbox_answer p message rest] at hphase
  have hinbox : (p.answer message rest).inbox.any Message.isClose =
      (p.inbox.any Message.isClose || message.isClose) := by simp [inbox_answer]
  rw [← hinbox] at hphase
  unfold Party.answer at hphase ⊢
  cases hreply : message.reply? p.conn.endpoint.state with
  | none =>
    rw [hreply] at hphase
    exact ⟨h.role, h.limit, ⟨h.connected.shut, h.connected.peerGone⟩, h.fragments, rfl, hphase,
      h.refusals⟩
  | some reply =>
    rw [hreply] at hphase
    exact ⟨h.role, h.limit, ⟨h.connected.shut, h.connected.peerGone⟩, h.fragments, rfl, hphase,
      h.refusals⟩

end Party

namespace Channel

variable {p q : Party} {limit : Nat}

theorem length_sent (h : Channel limit p q) :
    p.conn.endpoint.sent.length = p.outbox.length := by
  rw [h.sent, framesOf, List.length_mapIdx]

/-- One more message is sent. -/
theorem speak (h : Channel limit p q) {message : Message} (hmessage : message.Deliverable limit)
    (hopen : p.outbox.any Message.isClose = false) :
    Channel limit (p.speak message) (q.hear [message.frame p.conn.endpoint.role
      (p.conn.endpoint.drawKey p.conn.endpoint.sent.length)]) where
  sent := by
    change p.conn.endpoint.sent ++ _ =
      framesOf p.conn.endpoint.role p.conn.endpoint.drawKey (p.outbox ++ [message])
    rw [framesOf_concat, ← h.sent, h.length_sent]
  received := h.received.trans (List.prefix_append p.outbox [message])
  unread := by
    -- The frames that were read are among those sent before.
    have hread : q.inbox.length ≤ p.conn.endpoint.sent.length :=
      h.length_sent ▸ h.received.length_le
    change q.conn.endpoint.incoming.arrived ++ (q.flight ++ _) =
      ((p.conn.endpoint.sent ++ _).drop q.inbox.length).flatMap Frame.encode
    rw [List.drop_append_of_le_length hread, List.flatMap_append, ← h.unread, Party.unread,
      List.append_assoc]
  deliverable m hm := by
    rcases List.mem_append.mp hm with hold | hnew
    · exact h.deliverable m hold
    · exact List.mem_singleton.mp hnew ▸ hmessage
  closeLast m hm := by
    change m ∈ (p.outbox ++ [message]).dropLast at hm
    rw [List.dropLast_concat] at hm
    exact Bool.eq_false_iff.mpr (List.any_eq_false.mp hopen m hm)

/-- The next message is read. -/
theorem take (h : Channel limit q p) {message : Message} {more : List Message} {rest : Bytes}
    (hnext : q.outbox = p.inbox ++ message :: more)
    (harrived : p.conn.endpoint.incoming.arrived =
      (message.frame q.conn.endpoint.role (q.conn.endpoint.drawKey p.inbox.length)).encode ++
        rest) : Channel limit q (p.take message rest) where
  sent := h.sent
  received := ⟨more, by rw [hnext, Party.take, List.append_assoc, List.singleton_append]⟩
  unread := by
    have hunread := h.unread_cons hnext
    rw [Party.unread, harrived, List.append_assoc] at hunread
    change rest ++ p.flight = (q.conn.endpoint.sent.drop (p.inbox ++ [message]).length).flatMap _
    rw [List.append_cancel_left hunread, List.length_append, List.length_singleton]
  deliverable := h.deliverable
  closeLast := h.closeLast

/-- Behind a close nothing is left to be read. -/
theorem unread_eq_nil (h : Channel limit q p) (hclosed : p.inbox.any Message.isClose = true) :
    p.unread = [] := by
  obtain ⟨pending, hpending⟩ := h.received
  obtain ⟨message, hmessage, hclose⟩ := List.any_eq_true.mp hclosed
  -- The close would not be the last message sent if anything were pending behind it.
  have hnone : pending = [] := by
    refine Classical.byContradiction fun hsome => ?_
    have hlast := h.closeLast message (by
      rw [← hpending, List.dropLast_append_of_ne_nil hsome]
      exact List.mem_append_left _ hmessage)
    rw [hclose] at hlast
    cases hlast
  have hlength : q.conn.endpoint.sent.length = p.inbox.length := by
    rw [h.length_sent, ← hpending, hnone, List.append_nil]
  rw [h.unread, ← hlength, List.drop_length, List.flatMap_nil]

end Channel

end HttpRelay.WebSocket
