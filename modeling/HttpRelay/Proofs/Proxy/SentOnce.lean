import HttpRelay.Proofs.Proxy.Sendings

/-!
# A request is sent once

The head of a request goes out on a second connection only if the first one was left from the last
request and has turned out to be closed, with no byte of a response on it. That is done for requests
without a body only, so a body goes out on one connection.

* `SentOn`, `Lost`, `Sent`: what has been sent of a request in each phase;
* `Sending.goes`: every move of an exchange goes on with that;
* `Phase.isSettled`: no head is sent any more;
* `Session.numbered_follow`: connections have different numbers;
* `Session.sent_once`: what an exchange sends to the server.
-/

namespace HttpRelay.Proxy

open Http (RequestHead ResponseHead)

/-- The head of a request may have been sent on a connection that turned out to be closed. -/
def Lost (x : Exchange) (pooled : Option Link) (head : RequestHead)
    (heads : List (Nat × RequestHead)) : Prop :=
  heads = [] ∨ x.body = .empty ∧ ∃ link, pooled = some link ∧ heads = [(link.number, head)]

/-- The head of a request was sent on a connection, behind one that it was lost on or not, and its
body on the same one. -/
structure SentOn (x : Exchange) (pooled : Option Link) (head : RequestHead) (connection : Nat)
    (heads : List (Nat × RequestHead)) (bodies : List (Nat × Bytes)) : Prop where
  heads_eq : heads = [(connection, head)] ∨ x.body = .empty ∧ ∃ link, pooled = some link ∧
    link.number ≠ connection ∧ heads = [(link.number, head), (connection, head)]
  bodies_on : ∀ body ∈ bodies, body.1 = connection
  bodies_eq_nil : x.body = .empty → bodies = []

/-- What has been sent of a request when no connection is used for it any more. -/
def SentOver (x : Exchange) (pooled : Option Link) (head : RequestHead)
    (heads : List (Nat × RequestHead)) (bodies : List (Nat × Bytes)) : Prop :=
  (Lost x pooled head heads ∧ bodies = []) ∨
    ∃ connection, SentOn x pooled head connection heads bodies

/-- What has been sent of a request in each phase, if `pooled` was left from the last one. -/
def Sent (x : Exchange) (pooled : Option Link) (head : RequestHead)
    (heads : List (Nat × RequestHead)) (bodies : List (Nat × Bytes)) : Phase → Prop
  | .connecting y _ _ => y = x ∧ Lost x pooled head heads ∧ bodies = []
  | .probing y server => y = x ∧ x.body = .empty ∧
    (∃ link, pooled = some link ∧ link.number = server.number) ∧
    heads = [(server.number, head)] ∧ bodies = []
  | .uploading y server relay => y = x ∧ SentOn x pooled head server.number heads bodies ∧
    (x.body = .empty → relay = .done)
  | .awaiting y server => y = x ∧ SentOn x pooled head server.number heads bodies
  | .downloading server _ _ _ | .idle (some server) =>
    SentOn x pooled head server.number heads bodies
  | .idle none | .upgraded | .ended _ => SentOver x pooled head heads bodies

section Parts

variable {x : Exchange} {pooled : Option Link} {head : RequestHead} {connection : Nat}
  {heads : List (Nat × RequestHead)} {bodies : List (Nat × Bytes)} {phase : Phase}

theorem SentOn.sentOver (h : SentOn x pooled head connection heads bodies) :
    SentOver x pooled head heads bodies :=
  .inr ⟨connection, h⟩

/-- The head was not sent, it was sent once with the body behind it, or it was sent twice and there
is no body. -/
theorem SentOver.cases (h : SentOver x pooled head heads bodies) :
    (heads = [] ∧ bodies = []) ∨
      (∃ connection, heads = [(connection, head)] ∧ ∀ body ∈ bodies, body.1 = connection) ∨
      (x.body = .empty ∧ bodies = [] ∧ ∃ link connection, pooled = some link ∧
        link.number ≠ connection ∧ heads = [(link.number, head), (connection, head)]) := by
  rcases h with ⟨hnone | ⟨-, link, -, hone⟩, rfl⟩ | ⟨connection, hon⟩
  · exact .inl ⟨hnone, rfl⟩
  · exact .inr (.inl ⟨link.number, hone, nofun⟩)
  · rcases hon.heads_eq with hone | ⟨hempty, link, hpooled, hnumber, htwo⟩
    · exact .inr (.inl ⟨connection, hone, hon.bodies_on⟩)
    · exact .inr (.inr ⟨hempty, hon.bodies_eq_nil hempty, link, connection, hpooled, hnumber,
        htwo⟩)

/-- The head was sent on two connections: it was lost on the first. -/
theorem SentOn.pair {first second : Nat × RequestHead}
    (h : SentOn x pooled head connection [first, second] bodies) :
    connection = second.1 ∧ first.1 ≠ second.1 ∧ x.body = .empty ∧
      ∃ link, pooled = some link ∧ link.number = first.1 := by
  rcases h.heads_eq with hone | ⟨hempty, link, hpooled, hnumber, htwo⟩
  · cases hone
  · cases htwo
    exact ⟨rfl, hnumber, hempty, link, hpooled, rfl⟩

/-- The connection that is used is the last one that the head was sent on. -/
theorem Sent.last {first second : Nat × RequestHead} {link : Link}
    (h : Sent x pooled head [first, second] bodies phase) (hlink : phase.server? = some link) :
    link.number = second.1 := by
  cases phase with
  | idle left =>
    obtain rfl : left = some link := hlink
    exact (SentOn.pair h).1
  | probing =>
    obtain ⟨-, -, -, hone, -⟩ := h
    cases hone
  | uploading =>
    obtain rfl := Option.some.inj hlink
    exact h.2.1.pair.1
  | awaiting =>
    obtain rfl := Option.some.inj hlink
    exact h.2.pair.1
  | downloading =>
    obtain rfl := Option.some.inj hlink
    exact (SentOn.pair h).1
  | connecting | upgraded | ended => cases hlink

/-- With its head sent, the body of a request is still to come. -/
theorem SentOn.first :
    SentOn x pooled head connection [(connection, head)] [] :=
  ⟨.inl rfl, nofun, fun _ => rfl⟩

/-- What was lost is sent again on a connection of another number. -/
theorem Lost.sentOn (h : Lost x pooled head heads)
    (hfresh : ∀ link, pooled = some link → link.number < connection) :
    SentOn x pooled head connection (heads ++ [(connection, head)]) [] := by
  refine ⟨?_, nofun, fun _ => rfl⟩
  rcases h with rfl | ⟨hempty, link, hpooled, rfl⟩
  · exact .inl rfl
  · exact .inr ⟨hempty, link, hpooled, (hfresh link hpooled).ne, rfl⟩

theorem Sent.sentOver (h : Sent x pooled head heads bodies phase) :
    SentOver x pooled head heads bodies := by
  cases phase with
  | idle left =>
    cases left with
    | none => exact h
    | some server => exact SentOn.sentOver h
  | connecting => exact .inl h.2
  | probing y server =>
    obtain ⟨-, -, -, rfl, rfl⟩ := h
    exact SentOn.first.sentOver
  | uploading => exact h.2.1.sentOver
  | awaiting => exact h.2.sentOver
  | downloading => exact SentOn.sentOver h
  | upgraded => exact h
  | ended => exact h

/-- A body is empty on the wire if there is none. -/
theorem SentOn.sendBody (h : SentOn x pooled head connection heads bodies) (wire : Bytes)
    (hempty : x.body = .empty → wire = []) :
    SentOn x pooled head connection heads
      (bodies ++ if wire.isEmpty then [] else [(connection, wire)]) := by
  refine ⟨h.heads_eq, fun body hbody => ?_, fun hnone => ?_⟩
  · rcases List.mem_append.mp hbody with hbefore | hpiece
    · exact h.bodies_on body hbefore
    · split at hpiece
      · cases hpiece
      · rw [List.mem_singleton.mp hpiece]
  · rw [h.bodies_eq_nil hnone, hempty hnone]
    rfl

@[simp] theorem Link.number_receive (link : Link) (arrival : Arrival) :
    (link.receive arrival).number = link.number := by
  cases arrival <;> rfl

/-- What arrives from the server does not change what was sent to it. -/
theorem Sent.receive (h : Sent x pooled head heads bodies phase) (arrival : Arrival) :
    Sent x pooled head heads bodies (phase.receive arrival) := by
  cases phase with
  | idle left =>
    cases left with
    | none => exact h
    | some server => simpa [Sent, Phase.receive] using h
  | connecting => exact h
  | upgraded => exact h
  | ended => exact h
  | probing | uploading | awaiting | downloading => simpa [Sent, Phase.receive] using h

end Parts

/-- What has been sent since the machine stood at `before`, in accordance with the phase. -/
def Sending (x : Exchange) (pooled : Option Link) (before o : Outgoing) (phase : Phase) : Prop :=
  o.client = before.client ∧ before.connections ≤ o.connections ∧
    ∃ heads bodies, o.heads = before.heads ++ heads ∧ o.bodies = before.bodies ++ bodies ∧
      Sent x pooled (x.forwarded before.client) heads bodies phase

section Moves

variable {x : Exchange} {pooled : Option Link} {before o o' : Outgoing} {phase phase' : Phase}

/-- A session that has ended sends nothing. -/
theorem Goes.of_ended {result : Except Error Unit} (h : Goes o (.ended result) o' phase') :
    o' = o ∧ ∃ result, phase' = .ended result := by
  cases h with
  | rest | ends | arrival => exact ⟨rfl, _, rfl⟩

/-- Without anything sent, it is enough to look at the phase. -/
theorem Sending.congr (h : Sending x pooled before o phase)
    (hphase : ∀ {heads bodies}, Sent x pooled (x.forwarded before.client) heads bodies phase →
      Sent x pooled (x.forwarded before.client) heads bodies phase') :
    Sending x pooled before o phase' := by
  obtain ⟨hclient, hconnections, heads, bodies, hheads, hbodies, hsent⟩ := h
  exact ⟨hclient, hconnections, heads, bodies, hheads, hbodies, hphase hsent⟩

/-- The head goes out on a connection that is made now. -/
theorem Sending.dial {y : Exchange} {attempts : Service.Backoff} {recorded : Bool}
    (hpooled : ∀ link, pooled = some link → link.number < before.connections)
    (h : Sending x pooled before o (.connecting y attempts recorded)) :
    y = x ∧ Sending x pooled before (o.dial y)
      (.uploading y { number := o.connections } (.ofKind y.body)) := by
  obtain ⟨hclient, hconnections, heads, bodies, hheads, hbodies, rfl, hlost, rfl⟩ := h
  -- its number is above that of the connection from the last request
  refine ⟨rfl, hclient, Nat.le_succ_of_le hconnections,
    heads ++ [(o.connections, y.forwarded before.client)], [], ?_, hbodies, rfl, ?_, ?_⟩
  · rw [← List.append_assoc, ← hheads, ← hclient]
    rfl
  · exact hlost.sentOn fun link hlink => (hpooled link hlink).trans_le hconnections
  · intro hempty
    rw [hempty]
    rfl

/-- A piece of the body goes out on the same connection as the head. -/
theorem Sending.sendBody {y : Exchange} {server : Link} {relay : BodyRelay}
    (h : Sending x pooled before o (.uploading y server relay)) (input : Buffered) :
    Sending x pooled before (o.sendBody server.number (relay.pass input).wire)
      (.uploading y server (relay.pass input).next) := by
  obtain ⟨hclient, hconnections, heads, bodies, hheads, hbodies, rfl, hsent, hdone⟩ := h
  -- without a body there is nothing left to pass on, and nothing is written
  refine ⟨hclient, hconnections, heads, _, hheads, ?_, rfl,
    hsent.sendBody (relay.pass input).wire ?_, ?_⟩
  · rw [Outgoing.sendBody, hbodies, List.append_assoc]
  · intro hempty
    rw [hdone hempty]
    rfl
  · intro hempty
    rw [hdone hempty]
    rfl

/-- Every move of an exchange goes on with what has been sent of the request. -/
theorem Sending.goes (hpooled : ∀ link, pooled = some link → link.number < before.connections)
    (h : Sending x pooled before o phase) (hgoes : Goes o phase o' phase') :
    Sending x pooled before o' phase' := by
  cases hgoes with
  | rest => exact h
  | ends => exact h.congr Sent.sentOver
  | arrival arrival => exact h.congr (Sent.receive · arrival)
  | retried => exact h.congr id
  | dialed => exact (h.dial hpooled).2
  | abandoned => exact (h.dial hpooled).2.congr Sent.sentOver
  | alive =>
    refine h.congr ?_
    rintro heads bodies ⟨rfl, hempty, -, rfl, rfl⟩
    exact ⟨rfl, .first, fun _ => by rw [hempty]; rfl⟩
  | stale =>
    -- what was sent on the used connection is lost
    refine h.congr ?_
    rintro heads bodies ⟨rfl, hempty, ⟨link, hlink, hnumber⟩, rfl, rfl⟩
    exact ⟨rfl, .inr ⟨hempty, link, hlink, by rw [hnumber]⟩, rfl⟩
  | uploads input => exact h.sendBody input
  | uploaded input => exact (h.sendBody input).congr fun hsent => ⟨hsent.1, hsent.2.1⟩
  | announced => exact h.congr id
  | responds => exact h.congr And.right
  | switches => exact h.congr Sent.sentOver
  | downloads => exact h.congr id
  | pools => exact h.congr id
  | releases => exact h.congr Sent.sentOver

/-- What the step that reads a head sends of it. -/
theorem Sending.of_opens (h : Opens x o pooled o' phase) : Sending x pooled o o' phase := by
  cases h with
  | connecting => exact ⟨rfl, Nat.le_refl _, [], [], by simp, by simp, rfl, .inl rfl, rfl⟩
  | probing hempty =>
    exact ⟨rfl, Nat.le_refl _, _, [], rfl, by simp [Outgoing.sendHead], rfl, hempty,
      ⟨_, rfl, rfl⟩, rfl, rfl⟩
  | uploading hbody =>
    exact ⟨rfl, Nat.le_refl _, _, [], rfl, by simp [Outgoing.sendHead], rfl,
      .first, fun hempty => absurd hempty hbody⟩
  | abandoned =>
    -- the client has left before it could be told to send the body
    exact ⟨rfl, Nat.le_refl _, _, [], rfl, by simp [Outgoing.sendHead],
      SentOn.first.sentOver⟩
  | failed => exact ⟨rfl, Nat.le_refl _, [], [], by simp, by simp, .inl ⟨.inl rfl, rfl⟩⟩

end Moves

/-- Whether no head is sent any more before the next one is read: a connection is used, and if it
was used before, there is a byte of a response on it. -/
def Phase.isSettled : Phase → Bool
  | connecting .. => false
  | probing _ server => 0 < server.backlog
  | idle _ | uploading .. | awaiting .. | downloading .. | upgraded | ended _ => true

theorem Link.backlog_receive (link : Link) (arrival : Arrival) :
    link.backlog ≤ (link.receive arrival).backlog := by
  cases arrival with
  | bytes bytes =>
    rw [receive, backlog, backlog, Session.pending_push, List.length_append]
    exact Nat.le_add_right _ _
  | close | gone | lost => exact Nat.le_refl _

/-- It stays so. -/
theorem Goes.settled {o o' : Outgoing} {phase phase' : Phase} (h : Goes o phase o' phase')
    (hsettled : phase.isSettled = true) : o'.heads = o.heads ∧ phase'.isSettled = true := by
  cases h with
  | rest => exact ⟨rfl, hsettled⟩
  | arrival arrival =>
    -- bytes that have come are not lost by what comes behind them
    refine ⟨rfl, ?_⟩
    cases phase with
    | connecting => cases hsettled
    | probing y server =>
      simp only [Phase.isSettled, Phase.receive, decide_eq_true_eq] at hsettled ⊢
      exact hsettled.trans_le (server.backlog_receive arrival)
    | _ => rfl
  | retried | dialed | abandoned => cases hsettled
  | stale hstale =>
    -- a connection with a response on it does not turn out to be closed
    simp only [Phase.isSettled, decide_eq_true_eq] at hsettled
    rw [Link.isAlive?, if_pos hsettled] at hstale
    cases hstale
  | ends | alive | uploads | uploaded | announced | responds | switches | downloads | pools
  | releases => exact ⟨rfl, rfl⟩

/-- The connection to the server has one of the numbers that were given away. -/
def Numbered (o : Outgoing) (phase : Phase) : Prop :=
  ∀ link, phase.server? = some link → link.number < o.connections

section Numbers

variable {o o' : Outgoing} {phase phase' : Phase}

/-- The number is all that counts of the connection. -/
theorem Numbered.of_number {server link : Link} (h : Numbered o phase)
    (hserver : phase.server? = some server) (hlink : link.number = server.number) :
    link.number < o.connections :=
  hlink ▸ h server hserver

theorem Numbered.of_none (h : phase.server? = none) : Numbered o phase := by
  intro link hlink
  rw [h] at hlink
  cases hlink

theorem Numbered.goes (h : Numbered o phase) (hgoes : Goes o phase o' phase') :
    Numbered o' phase' := by
  cases hgoes with
  | rest => exact h
  | arrival arrival =>
    intro link hlink
    cases phase with
    | idle pooled =>
      obtain ⟨server, hserver, rfl⟩ := Option.map_eq_some_iff.mp hlink
      exact h.of_number hserver (server.number_receive arrival)
    | probing | uploading | awaiting | downloading =>
      obtain rfl := Option.some.inj hlink
      exact h.of_number rfl (Link.number_receive _ arrival)
    | connecting | upgraded | ended => cases hlink
  | dialed =>
    intro link hlink
    obtain rfl := Option.some.inj hlink
    exact Nat.lt_succ_self _
  | alive | uploads | uploaded =>
    exact h
  | announced | responds | downloads | pools =>
    intro link hlink
    obtain rfl := Option.some.inj hlink
    exact h.of_number rfl rfl
  | ends | retried | abandoned | stale | switches | releases => exact .of_none rfl

theorem Numbered.opens {x : Exchange} {pooled : Option Link} (h : Numbered o (.idle pooled))
    (hopens : Opens x o pooled o' phase) : Numbered o' phase := by
  cases hopens with
  | probing | uploading => exact h
  | connecting | abandoned | failed => exact .of_none rfl

end Numbers

namespace Session

variable {s s' : Session}

/-- In every run the connection to the server is one that was made in it. -/
theorem numbered_follow {moves : List Move} (hphase : s.phase = .idle none)
    (hrun : s.follow moves = some s') : Numbered s'.outgoing s'.phase := by
  refine follow_induction hrun ?_ Numbered.goes Numbered.opens
  rw [hphase]
  exact .of_none rfl

theorem followExchange_append {before : List Move} (h : s.followExchange before = some s')
    (after : List Move) : s.followExchange (before ++ after) = s'.followExchange after := by
  rw [followExchange, List.foldlM_append]
  rw [followExchange] at h
  rw [h]
  rfl

/-- From the step that reads a head on, the request is refused and not sent at all, or what is sent
of it is in accordance with the phase. -/
theorem sending_of_read {pooled : Option Link} {s₁ : Session} (hphase : s.phase = .idle pooled)
    (hnumbered : Numbered s.outgoing (.idle pooled)) (hreads : s.readsHead = true)
    (hread : s.step = some s₁) :
    (∀ {moves : List Move} {s' : Session}, s₁.followExchange moves = some s' →
      s'.outgoing = s.outgoing ∧ ∃ result, s'.phase = .ended result) ∨
    ∃ x, s.Begins x ∧ ∀ {moves : List Move} {s' : Session},
      s₁.followExchange moves = some s' → Sending x pooled s.outgoing s'.outgoing s'.phase := by
  rcases opens_of_read hphase hreads hread with hended | ⟨x, hbegins, hopens⟩
  · refine .inl fun hmoves => ?_
    refine followExchange_induction
      (motive := fun o phase => o = s.outgoing ∧ ∃ result, phase = .ended result) hmoves hended ?_
    rintro o phase o' phase' ⟨rfl, result, rfl⟩ hgoes
    exact hgoes.of_ended
  · exact .inr ⟨x, hbegins, fun hmoves =>
      followExchange_induction (motive := Sending x pooled s.outgoing) hmoves (.of_opens hopens)
        (.goes hnumbered)⟩

/-- No byte has arrived on a connection, if that is the one which is used. -/
def Silent (s : Session) (connection : Nat) : Prop :=
  ∀ link, s.server? = some link → link.number = connection → link.input.pending = []

/-- Before its head is sent again, a request has had no answer. -/
theorem silent_of_resent {x : Exchange} {pooled : Option Link} {before : Outgoing}
    {first second : Nat × RequestHead} {after : List Move}
    (h : Sending x pooled before s.outgoing s.phase) (hafter : s.followExchange after = some s')
    (hheads : s'.sentHeads = before.heads ++ [first, second]) (hne : first.1 ≠ second.1) :
    s.Silent first.1 := by
  intro link hlink hnumber
  rw [server?_eq] at hlink
  by_contra hpending
  -- with a byte of a response on the first connection, no head would have been sent any more
  have hsettled : s.phase.isSettled = true := by
    cases hphase : s.phase with
    | connecting =>
      rw [hphase] at hlink
      cases hlink
    | probing =>
      rw [hphase] at hlink
      obtain rfl := Option.some.inj hlink
      rw [Phase.isSettled, Link.backlog, decide_eq_true_eq]
      exact List.length_pos_iff.mpr hpending
    | _ => rfl
  -- the head had been sent twice by then, and the second connection is used
  obtain ⟨hsame, -⟩ : s'.sentHeads = s.sentHeads ∧ s'.phase.isSettled = true :=
    followExchange_induction
      (motive := fun o phase => o.heads = s.sentHeads ∧ phase.isSettled = true) hafter
      ⟨rfl, hsettled⟩ fun ⟨hsame, hsettled⟩ hgoes =>
        ⟨(hgoes.settled hsettled).1.trans hsame, (hgoes.settled hsettled).2⟩
  obtain ⟨-, -, heads, bodies, hsent, -, hphase⟩ := h
  obtain rfl : heads = [first, second] :=
    List.append_cancel_left (hsent.symm.trans (hsame.symm.trans hheads))
  exact hne (hnumber.symm.trans (hphase.last hlink))

/-- Whatever happens in an exchange, the head of its request goes out on two connections at most.
It goes out on a second one only if the first was left from the last request, the request has no
body, and no byte of a response has come on the first. All of a body goes out on one connection,
with the head in front of it, and a request that has a body is not sent again. -/
theorem resent_only_without_body_or_response (config : Config) (peer : Net.SocketAddress)
    (client : Feed) (drawKey : Nat → String) (drawMask : Nat → WebSocket.MaskKey)
    {moves exchange : List Move} {s₁ s₂ : Session}
    (hrun : { start config peer client with drawKey, drawMask }.follow moves = some s)
    (hreads : s.readsHead = true) (hread : s.step = some s₁)
    (hexchange : s₁.followExchange exchange = some s₂) :
    ∃ heads bodies, s₂.sentHeads = s.sentHeads ++ heads ∧ s₂.sentBodies = s.sentBodies ++ bodies ∧
      heads.length ≤ 2 ∧
      (∀ sent ∈ heads, ∃ x, s.Begins x ∧ sent.2 = x.forwarded s.peer.ip) ∧
      (∀ first second, heads = [first, second] → first.1 ≠ second.1 ∧
        (∃ pooled, s.phase = .idle (some pooled) ∧ pooled.number = first.1) ∧
        (∃ request, s.requestHead? = some request ∧ request.bodyKind = .ok .empty) ∧
        ∀ {before after : List Move} {s' : Session}, exchange = before ++ after →
          s₁.followExchange before = some s' → s'.Silent first.1) ∧
      (bodies ≠ [] → ∃ sent, heads = [sent] ∧ ∀ body ∈ bodies, body.1 = sent.1) ∧
      ∀ request, s.requestHead? = some request → request.bodyKind ≠ .ok .empty →
        heads.length ≤ 1 := by
  obtain ⟨pooled, hphase⟩ := phase_of_readsHead hreads
  have hnumbered := numbered_follow rfl hrun
  rw [hphase] at hnumbered
  rcases sending_of_read hphase hnumbered hreads hread with hended | ⟨x, hbegins, hsending⟩
  · -- a request that is refused is not sent at all
    obtain ⟨hsame, -⟩ := hended hexchange
    have hheads : s₂.sentHeads = s.sentHeads := congrArg Outgoing.heads hsame
    have hbodies : s₂.sentBodies = s.sentBodies := congrArg Outgoing.bodies hsame
    exact ⟨[], [], by simp [hheads], by simp [hbodies], by simp, by simp, by simp, by simp,
      by simp⟩
  · -- nothing that was sent of a request is sent again, but for the head without a body
    obtain ⟨-, -, heads, bodies, hheads, hbodies, hsent⟩ := hsending hexchange
    refine ⟨heads, bodies, hheads, hbodies, ?_⟩
    rcases hsent.sentOver.cases with ⟨rfl, rfl⟩ | ⟨connection, rfl, hbody⟩ |
      ⟨hempty, rfl, link, connection, rfl, hnumber, rfl⟩
    · simp
    · exact ⟨by simp, by simpa using ⟨x, hbegins, rfl⟩, by simp, fun _ => ⟨_, rfl, hbody⟩, by simp⟩
    · have hkind : x.request.bodyKind = .ok .empty := hempty ▸ hbegins.body
      refine ⟨by simp, by simpa using ⟨x, hbegins, rfl⟩, ?_, fun hbody => absurd rfl hbody, ?_⟩
      · intro first second htwo
        have hheads := htwo ▸ hheads
        cases htwo
        refine ⟨hnumber, ⟨link, hphase, rfl⟩, ⟨_, hbegins.request, hkind⟩, ?_⟩
        intro before after s' hsplit hbefore
        rw [hsplit, followExchange_append hbefore] at hexchange
        exact silent_of_resent (hsending hbefore) hexchange hheads hnumber
      · intro request hrequest hbody
        obtain rfl := Option.some.inj (hbegins.request.symm.trans hrequest)
        exact absurd hkind hbody

/-- A client that sends two requests at once. -/
def twoRequests : Session :=
  start {} { ip := .v4 127 0 0 1, port := 4000 }
    { arrived := plainRequest.render ++ plainRequest.render }

/-- The first request and its response, behind which the server closes the connection. -/
def closedBehindResponse : List Move :=
  .step :: plainExchange false ++ [.step, .step, .step, .event (.server .close)]

/-- The connection turns out to be closed, and there is another one. -/
def replacedConnection : List Move := [.step, .event (.dialed none), .step]

/-- The sessions in front of the second request, behind its head, and behind the exchange. -/
def replacedCourse : Option (Session × Session × Session) := do
  let s ← twoRequests.follow closedBehindResponse
  let s₁ ← s.step
  let s₂ ← s₁.followExchange replacedConnection
  some (s, s₁, s₂)

/-- The second request goes out on the connection of the first one, and again on another. -/
theorem resent_over_stale_connection :
    ∃ s s₁ s₂ : Session, twoRequests.follow closedBehindResponse = some s ∧ s.readsHead = true ∧
      s.step = some s₁ ∧ s₁.followExchange replacedConnection = some s₂ ∧
      ∃ first second, s₂.sentHeads = s.sentHeads ++ [first, second] ∧ first.1 = 0 ∧
        second.1 = 1 ∧ (∃ pooled, s.phase = .idle (some pooled) ∧ pooled.number = 0) ∧
        s₁.Silent 0 := by
  have hseen : replacedCourse.map (fun (s, _, s₂) =>
      (s.readsHead, s.sentHeads.length, s₂.sentHeads.map Prod.fst)) =
        some (true, 1, [0, 0, 1]) := by
    decide +kernel
  obtain ⟨⟨s, s₁, s₂⟩, hcourse, hseen⟩ := Option.map_eq_some_iff.mp hseen
  obtain ⟨_, hrun, hcourse⟩ := Option.bind_eq_some_iff.mp hcourse
  obtain ⟨_, hread, hcourse⟩ := Option.bind_eq_some_iff.mp hcourse
  obtain ⟨_, hexchange, hcourse⟩ := Option.bind_eq_some_iff.mp hcourse
  cases hcourse
  simp only [Prod.mk.injEq] at hseen
  obtain ⟨hreads, hearlier, hnumbers⟩ := hseen
  obtain ⟨heads, bodies, hheads, -, -, -, hresent, -⟩ :=
    resent_only_without_body_or_response {} { ip := .v4 127 0 0 1, port := 4000 } _ _ _ hrun
      hreads hread hexchange
  -- behind the one head of the first request there are two of the second
  obtain ⟨earlier, hearlier⟩ := List.length_eq_one_iff.mp hearlier
  rw [hheads, hearlier] at hnumbers
  have htwo : heads.length = 2 := by simpa using congrArg List.length hnumbers
  obtain ⟨first, second, rfl⟩ := List.length_eq_two.mp htwo
  obtain ⟨-, hfirst, hsecond⟩ : earlier.1 = 0 ∧ first.1 = 0 ∧ second.1 = 1 := by
    simpa using hnumbers
  obtain ⟨-, ⟨pooled, hphase, hpooled⟩, -, hsilent⟩ := hresent first second rfl
  exact ⟨s, s₁, s₂, hrun, hreads, hread, hexchange, first, second, hheads, hfirst, hsecond,
    ⟨pooled, hphase, hpooled.trans hfirst⟩, hfirst ▸ hsilent (List.nil_append _).symm rfl⟩

end Session

end HttpRelay.Proxy
