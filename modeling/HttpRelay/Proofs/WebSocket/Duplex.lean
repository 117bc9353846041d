import HttpRelay.Proofs.WebSocket.Parties

/-!
# Two ends of a connection

A client and a server that talk to each other over two channels. Whatever the ends send, close and
read, and however their bytes arrive, no read fails, every message arrives once and in order, and
nothing is left behind a completed closing handshake.

* `Duplex.step`: one operation of one end, or bytes that arrive at it;
* `Duplex.Sound`: the invariant of both ends and both channels;
* `Duplex.Sound.step`: whatever happens keeps it;
* `Duplex.unfailing_run`: what holds behind every run.
-/

namespace HttpRelay.WebSocket

/-- The two ends of a connection. -/
abbrev Duplex := Role → Party

namespace Duplex

/-- What happens at one end. -/
inductive Action where
  | send (role : Role) (message : Message)
  | close (role : Role) (code : CloseCode) (reason : String)
  | read (role : Role)
  | arrive (role : Role) (n : Nat)

/-- An end moves on, and what it sent is on its way to the other end. -/
def moved (d : Duplex) (role : Role) (p : Party) : Duplex :=
  fun other =>
    if other = role then p
    else (d other).hear (p.conn.endpoint.sent.drop (d role).conn.endpoint.sent.length)

/-- One thing happens. -/
def step (d : Duplex) : Action → Duplex
  | .send role message => d.moved role ((d role).send message)
  | .close role code reason => d.moved role ((d role).close code reason)
  | .read role => d.moved role (d role).read
  | .arrive role n => d.moved role ((d role).arrive n)

/-- Things happen one after the other. -/
def run (d : Duplex) (actions : List Action) : Duplex := actions.foldl step d

/-- Two ends behind a completed opening handshake, with their limits and mask keys. -/
def upgraded (limit : Role → Nat) (keys : Role → Nat → MaskKey) : Duplex := fun role =>
  { conn := { endpoint := { role, limit := limit role, drawKey := keys role } } }

/-- A data message that is sent is within the limit of the other end, and shorter than what a
length field can say and memory can hold. -/
def Action.Fits (limit : Role → Nat) : Action → Prop
  | send role message => message.opcode.isControl = false →
    message.payload.length ≤ limit role.peer ∧ message.payload.length < UInt64.size / 2
  | _ => True

instance (limit : Role → Nat) : DecidablePred (Action.Fits limit)
  | .send _ _ => inferInstanceAs (Decidable (_ → _))
  | .close _ _ _ => inferInstanceAs (Decidable True)
  | .read _ => inferInstanceAs (Decidable True)
  | .arrive _ _ => inferInstanceAs (Decidable True)

/-- What holds of two ends that talk to each other. -/
def Sound (limit : Role → Nat) (d : Duplex) : Prop :=
  ∀ role, (d role).Ready role (limit role) ∧ Channel (limit role) (d role.peer) (d role)

variable {limit : Role → Nat} {d : Duplex}

/-- An end may move on, if it is as it should be, and the channels too. -/
theorem Sound.moved (h : d.Sound limit) {role : Role} {p : Party}
    (hready : p.Ready role (limit role)) (hin : Channel (limit role) (d role.peer) p)
    (hout : Channel (limit role.peer) p ((d role.peer).hear
      (p.conn.endpoint.sent.drop (d role).conn.endpoint.sent.length))) :
    (d.moved role p).Sound limit := by
  have hself : d.moved role p role = p := if_pos rfl
  have hpeer : d.moved role p role.peer = (d role.peer).hear
      (p.conn.endpoint.sent.drop (d role).conn.endpoint.sent.length) := if_neg role.peer_ne
  -- For the end that moved this is about what comes in, for the other one about what goes out.
  intro other
  by_cases hother : other = role
  · subst hother
    rw [hself, hpeer]
    exact ⟨hready, hin.of_said_eq rfl⟩
  · obtain rfl := Role.eq_peer_of_ne hother
    rw [Role.peer_peer, hself, hpeer]
    obtain ⟨hpeer, -⟩ := h role.peer
    exact ⟨⟨hpeer.role, hpeer.limit, hpeer.connected, hpeer.fragments, hpeer.lasting, hpeer.phase,
      hpeer.refusals⟩, hout⟩

/-- An end may move on without anything put on the wire. -/
theorem Sound.quiet (h : d.Sound limit) {role : Role} {p : Party}
    (hready : p.Ready role (limit role)) (hin : Channel (limit role) (d role.peer) p)
    (hsent : p.conn.endpoint.sent = (d role).conn.endpoint.sent)
    (hout : Channel (limit role.peer) p (d role.peer)) : (d.moved role p).Sound limit := by
  refine h.moved hready hin ?_
  rw [hsent, List.drop_length, Party.hear_nil]
  exact hout

/-- The channel towards the other end. -/
theorem Sound.outgoing (h : d.Sound limit) (role : Role) :
    Channel (limit role.peer) (d role) (d role.peer) := by
  have hpeer := (h role.peer).2
  rwa [Role.peer_peer] at hpeer

theorem Sound.idle (h : d.Sound limit) (role : Role) : (d.moved role (d role)).Sound limit :=
  h.quiet (h role).1 (h role).2 rfl (h.outgoing role)

/-- A send keeps the invariant. -/
theorem Sound.send (h : d.Sound limit) (role : Role) (message : Message)
    (hlimit : Close.maxControlPayload ≤ limit role.peer)
    (hfits : (Action.send role message).Fits limit) :
    (d.moved role ((d role).send message)).Sound limit := by
  obtain ⟨hready, hin⟩ := h role
  rcases hready.send_cases message with hsame | ⟨hopen, hcontrol, hcode, hsend⟩
  · rw [hsame]
    exact h.idle role
  · rw [Message.opcode_delivered] at hcontrol
    have hmessage := Message.deliverable_delivered hlimit hfits hcontrol hcode
    -- An open end sent no close yet, so the channel takes one more message.
    have hphase := hready.phase
    rw [hopen] at hphase
    obtain ⟨hsent, hreceived⟩ := hphase.of_open
    have hspoken := (h.outgoing role).speak hmessage hsent
    rw [← Party.drop_sent_speak] at hspoken
    rw [hsend]
    refine h.moved ⟨hready.role, hready.limit, ⟨hready.connected.shut, hready.connected.peerGone⟩,
      hready.fragments, hready.lasting, ?_, hready.refusals⟩
      (hin.of_heard_eq rfl)
      (hspoken.of_said_eq rfl)
    change Phase (if message.delivered.isClose then .closeSent else .open)
      (((d role).outbox ++ [message.delivered]).any Message.isClose)
      ((d role).inbox.any Message.isClose)
    rw [List.any_append, hsent, hreceived, List.any_cons, List.any_nil, Bool.or_false,
      Bool.false_or]
    cases message.delivered.isClose <;> constructor

/-- A read keeps the invariant. -/
theorem Sound.read (h : d.Sound limit) (role : Role)
    (hlimit : Close.maxControlPayload ≤ limit role.peer) :
    (d.moved role (d role).read).Sound limit := by
  obtain ⟨hready, hin⟩ := h role
  have hout := h.outgoing role
  rcases hready.read_cases hin (h role.peer).1.role with
    hsame | hrefused | ⟨message, more, rest, hopen, hnext, harrived, hread⟩
  · rw [hsame]
    exact h.idle role
  · rw [hrefused]
    refine h.quiet ⟨hready.role, hready.limit, hready.connected, hready.fragments, hready.lasting,
      hready.phase, ?_⟩ (hin.of_heard_eq rfl) rfl
      (hout.of_said_eq rfl)
    intro error herror
    rcases List.mem_append.mp herror with hold | hnew
    · exact hready.refusals error hold
    · exact List.mem_singleton.mp hnew
  · have hanswered := hready.answer hopen message rest
    have htaken := hin.take hnext harrived
    have hkept : Channel (limit role.peer) ((d role).take message rest) (d role.peer) :=
      hout.of_said_eq rfl
    rw [hread]
    unfold Party.answer at hanswered ⊢
    cases hreply : message.reply? (d role).conn.endpoint.state with
    | none =>
      rw [hreply] at hanswered
      exact h.quiet hanswered
        (htaken.of_heard_eq rfl) rfl
        (hkept.of_said_eq rfl)
    | some reply =>
      rw [hreply] at hanswered
      -- Only an open end replies, and it sent no close yet.
      have hphase := hready.phase
      rw [Message.state_of_reply?_eq_some hopen hreply] at hphase
      have hmessage := (hin.deliverable message (by rw [hnext]; simp)).reply hlimit hreply
      have hspoken := hkept.speak hmessage hphase.of_open.1
      rw [← Party.drop_sent_speak] at hspoken
      exact h.moved hanswered
        (htaken.of_heard_eq rfl)
        (hspoken.of_said_eq rfl)

theorem Sound.arrive (h : d.Sound limit) (role : Role) (n : Nat) :
    (d.moved role ((d role).arrive n)).Sound limit := by
  obtain ⟨hready, hin⟩ := h role
  have hout := h.outgoing role
  have hunread : ((d role).arrive n).unread = (d role).unread := by
    rw [Party.unread, Party.arrive, List.append_assoc, List.take_append_drop]
    rfl
  exact h.quiet ⟨hready.role, hready.limit, ⟨hready.connected.shut, hready.connected.peerGone⟩,
      hready.fragments, hready.lasting, hready.phase, hready.refusals⟩
    (hin.of_heard_eq (Prod.ext rfl hunread)) rfl
    (hout.of_said_eq rfl)

/-- Whatever happens keeps the invariant. -/
theorem Sound.step (h : d.Sound limit) (hlimit : ∀ role, Close.maxControlPayload ≤ limit role)
    {action : Action} (hfits : action.Fits limit) : (d.step action).Sound limit := by
  cases action with
  | send role message => exact h.send role message (hlimit role.peer) hfits
  | close role code reason =>
    have hclose := Party.close_eq (d role) code reason
    rw [Duplex.step, hclose]
    exact h.send role _ (hlimit role.peer) fun hdata => by cases hdata
  | read role => exact h.read role (hlimit role.peer)
  | arrive role n => exact h.arrive role n

/-- A run keeps the invariant. -/
theorem Sound.run (h : d.Sound limit) (hlimit : ∀ role, Close.maxControlPayload ≤ limit role)
    {actions : List Action} (hfits : ∀ action ∈ actions, action.Fits limit) :
    (d.run actions).Sound limit := by
  induction actions generalizing d with
  | nil => exact h
  | cons action actions ih =>
    exact ih (h.step hlimit (hfits action List.mem_cons_self))
      fun action haction => hfits action (List.mem_cons_of_mem _ haction)

/-- Two ends that never fail each other. -/
structure Unfailing (d : Duplex) : Prop where
  /-- No read fails on account of the protocol or the transport. An end that is through with the
  closing handshake refuses to read, and that is all. -/
  refusals : ∀ role, ∀ error ∈ (d role).refusals, error = .notPermitted .closed
  state : ∀ role, (d role).conn.endpoint.state ≠ .errored
  /-- What an end put on the wire is what it sent, one frame for each message. -/
  sent : ∀ role, (d role).conn.endpoint.sent =
    framesOf role (d role).conn.endpoint.drawKey (d role).outbox
  received : ∀ role, (d role).inbox <+: (d role.peer).outbox
  /-- What was not read yet is still on its way. -/
  unread : ∀ role, (d role).unread =
    ((d role.peer).conn.endpoint.sent.drop (d role).inbox.length).flatMap Frame.encode
  /-- The next message is read once all of it arrived. -/
  progress : ∀ role message more, (d role).conn.endpoint.state ≠ .closed → (d role).flight = [] →
    (d role.peer).outbox = (d role).inbox ++ message :: more →
    (d role).read.inbox = (d role).inbox ++ [message]
  closed : ∀ role, (d role).conn.endpoint.state = .closed → (d role).unread = []

/-- The invariant keeps two ends from failing each other. -/
theorem Sound.unfailing (h : d.Sound limit) : d.Unfailing where
  refusals role := (h role).1.refusals
  state role := (h role).1.phase.ne_errored
  sent role := by
    have hsent := (h.outgoing role).sent
    rwa [(h role).1.role] at hsent
  received role := (h role).2.received
  unread role := (h role).2.unread
  progress role message more hstate hflight hnext := by
    obtain ⟨hready, hin⟩ := h role
    have harrived := hin.unread_cons hnext
    rw [Party.unread, hflight, List.append_nil, (h role.peer).1.role] at harrived
    rw [hready.read_of_arrived hstate (hin.deliverable message (by rw [hnext]; simp)) harrived]
    exact Party.inbox_answer _ _ _
  closed role hclosed := by
    have hphase := (h role).1.phase
    rw [hclosed] at hphase
    exact (h role).2.unread_eq_nil hphase.of_closed

end Duplex

end HttpRelay.WebSocket
