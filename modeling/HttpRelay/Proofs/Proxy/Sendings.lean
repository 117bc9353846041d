import HttpRelay.Proofs.Proxy.KeepAlive

/-!
# What a session sends to the server

Towards the server a session is a small machine. It makes connections, writes the head of a request
on one of them, and the body behind it. Every move of an exchange is one of the few that this
machine has, and no later proof about what the server is sent looks into a function of a session.

* `Session.sentHeads`, `Session.sentBodies`: what was written, with the connection it was written
  on;
* `Outgoing`, `Goes`: the machine;
* `Session.goes_moveExchange`: a move that reads no head is a move of it;
* `Session.Begins`, `Opens`, `Session.opens_of_read`: where a step that reads a head leaves it;
* `Session.follow_induction`: what the machine keeps is kept over a run.
-/

namespace HttpRelay.Proxy

open Http (RequestHead ResponseHead)

/-- The head that an action writes to the server, and on which connection. -/
def Action.head? : Action → Option (Nat × RequestHead)
  | sentHead connection head => some (connection, head)
  | began _ | sentBody .. | answered _ => none

/-- The piece of a body that an action writes to the server, and on which connection. -/
def Action.body? : Action → Option (Nat × Bytes)
  | sentBody connection wire => some (connection, wire)
  | began _ | sentHead .. | answered _ => none

/-- What was sent to the server for a client, and over how many connections. -/
structure Outgoing where
  client : Net.IpAddress
  /-- The key sent with the n-th request. -/
  drawKey : Nat → String
  connections : Nat
  heads : List (Nat × RequestHead)
  bodies : List (Nat × Bytes)

namespace Outgoing

/-- The head of a request is written. -/
def sendHead (o : Outgoing) (connection : Nat) (x : Exchange) : Outgoing :=
  { o with heads := o.heads ++ [(connection, x.forwarded o.client)] }

/-- A connection is made, and the head of a request is written on it. -/
def dial (o : Outgoing) (x : Exchange) : Outgoing :=
  { o.sendHead o.connections x with connections := o.connections + 1 }

/-- A piece of a body is written, unless it is empty. -/
def sendBody (o : Outgoing) (connection : Nat) (wire : Bytes) : Outgoing :=
  { o with bodies := o.bodies ++ if wire.isEmpty then [] else [(connection, wire)] }

theorem sendBody_of_isEmpty {wire : Bytes} (h : wire.isEmpty = true) (o : Outgoing)
    (connection : Nat) : o.sendBody connection wire = o := by
  simp [sendBody, h]

end Outgoing

namespace Phase

/-- What happens on the connection to the server. -/
def receive (arrival : Arrival) : Phase → Phase
  | idle pooled => idle (pooled.map (·.receive arrival))
  | probing x server => probing x (server.receive arrival)
  | uploading x server relay => uploading x (server.receive arrival) relay
  | awaiting x server => awaiting x (server.receive arrival)
  | downloading server relay reusable keepAlive =>
    downloading (server.receive arrival) relay reusable keepAlive
  | connecting x attempts recorded => connecting x attempts recorded
  | upgraded => upgraded
  | ended result => ended result

/-- The connection to the server, if there is one. -/
def server? : Phase → Option Link
  | idle pooled => pooled
  | probing _ server | uploading _ server _ | awaiting _ server | downloading server _ _ _ =>
    some server
  | connecting .. | upgraded | ended _ => none

end Phase

/-- The moves of an exchange, as the server notices them. -/
inductive Goes : Outgoing → Phase → Outgoing → Phase → Prop
  | rest {o : Outgoing} {phase : Phase} : Goes o phase o phase
  | ends {o : Outgoing} {phase : Phase} {result : Except Error Unit} :
      Goes o phase o (.ended result)
  | arrival {o : Outgoing} {phase : Phase} (arrival : Arrival) :
      Goes o phase o (phase.receive arrival)
  /-- An attempt to connect has failed, and there is another one. -/
  | retried {o : Outgoing} {x : Exchange} {attempts attempts' : Service.Backoff} {recorded : Bool} :
      Goes o (.connecting x attempts recorded) o (.connecting x attempts' recorded)
  | dialed {o : Outgoing} {x : Exchange} {attempts : Service.Backoff} {recorded : Bool} :
      Goes o (.connecting x attempts recorded) (o.dial x)
        (.uploading x { number := o.connections } (.ofKind x.body))
  /-- The head is written, but the client cannot be given leave to send the body. -/
  | abandoned {o : Outgoing} {x : Exchange} {attempts : Service.Backoff} {recorded : Bool}
      {result : Except Error Unit} :
      Goes o (.connecting x attempts recorded) (o.dial x) (.ended result)
  /-- There is a response on a used connection. -/
  | alive {o : Outgoing} {x : Exchange} {server : Link} (h : server.isAlive? = some true) :
      Goes o (.probing x server) o (.uploading x server (.ofKind x.body))
  /-- A used connection has turned out to be closed. -/
  | stale {o : Outgoing} {x : Exchange} {server : Link} {attempts : Service.Backoff}
      (h : server.isAlive? = some false) :
      Goes o (.probing x server) o (.connecting x attempts true)
  | uploads {o : Outgoing} {x : Exchange} {server : Link} {relay : BodyRelay} (input : Buffered) :
      Goes o (.uploading x server relay) (o.sendBody server.number (relay.pass input).wire)
        (.uploading x server (relay.pass input).next)
  | uploaded {o : Outgoing} {x : Exchange} {server : Link} {relay : BodyRelay} (input : Buffered) :
      Goes o (.uploading x server relay) (o.sendBody server.number (relay.pass input).wire)
        (.awaiting x server)
  | announced {o : Outgoing} {x : Exchange} {server : Link} (input : Buffered) :
      Goes o (.awaiting x server) o (.awaiting x { server with input })
  | responds {o : Outgoing} {x : Exchange} {server : Link} (input : Buffered) (relay : BodyRelay)
      (reusable keepAlive : Bool) :
      Goes o (.awaiting x server) o (.downloading { server with input } relay reusable keepAlive)
  | switches {o : Outgoing} {x : Exchange} {server : Link} : Goes o (.awaiting x server) o .upgraded
  | downloads {o : Outgoing} {server : Link} {relay : BodyRelay} {reusable keepAlive : Bool}
      (input : Buffered) (next : BodyRelay) :
      Goes o (.downloading server relay reusable keepAlive) o
        (.downloading { server with input } next reusable keepAlive)
  /-- Behind the body, the connection is left for the next request. -/
  | pools {o : Outgoing} {server : Link} {relay : BodyRelay} {reusable keepAlive : Bool}
      (input : Buffered) :
      Goes o (.downloading server relay reusable keepAlive) o (.idle (some { server with input }))
  /-- Behind the body, the connection is given up. -/
  | releases {o : Outgoing} {server : Link} {relay : BodyRelay} {reusable keepAlive : Bool} :
      Goes o (.downloading server relay reusable keepAlive) o (.idle none)

/-- Where the step that reads a head leaves the machine with the request, if there may be a
connection from the last one. -/
inductive Opens (x : Exchange) (o : Outgoing) : Option Link → Outgoing → Phase → Prop
  | connecting {pooled : Option Link} {attempts : Service.Backoff} {recorded : Bool} :
      Opens x o pooled o (.connecting x attempts recorded)
  | probing {server : Link} (h : x.body = .empty) :
      Opens x o (some server) (o.sendHead server.number x) (.probing x server)
  | uploading {server : Link} (h : x.body ≠ .empty) :
      Opens x o (some server) (o.sendHead server.number x) (.uploading x server (.ofKind x.body))
  | abandoned {server : Link} {result : Except Error Unit} (h : x.body ≠ .empty) :
      Opens x o (some server) (o.sendHead server.number x) (.ended result)
  | failed {pooled : Option Link} {result : Except Error Unit} :
      Opens x o pooled o (.ended result)

namespace Session

/-- The heads that were sent to the server, in order. -/
def sentHeads (s : Session) : List (Nat × RequestHead) := s.actions.filterMap Action.head?

/-- The pieces of bodies that were sent to the server, in order. -/
def sentBodies (s : Session) : List (Nat × Bytes) := s.actions.filterMap Action.body?

/-- A session as the server notices it. -/
def outgoing (s : Session) : Outgoing where
  client := s.peer.ip
  drawKey := s.drawKey
  connections := s.connections
  heads := s.sentHeads
  bodies := s.sentBodies

theorem server?_eq (s : Session) : s.server? = s.phase.server? := by
  rw [server?]
  cases s.phase <;> rfl

theorem receiveServer_eq (s : Session) (arrival : Arrival) :
    s.receiveServer arrival = s.enter (s.phase.receive arrival) := by
  rw [receiveServer]
  cases s with
  | mk config peer client phase => cases phase <;> rfl

section Simp

variable (s : Session)

@[simp] theorem outgoing_enter (phase : Phase) : (s.enter phase).outgoing = s.outgoing := rfl

@[simp] theorem outgoing_note (direction : Direction) (kind : PayloadKind) (payload : Bytes) :
    (s.note direction kind payload).outgoing = s.outgoing := by
  rw [note]
  split <;> rfl

@[simp] theorem outgoing_act_began (head : RequestHead) :
    (s.act (.began head)).outgoing = s.outgoing := by
  simp [outgoing, act, sentHeads, sentBodies, Action.head?, Action.body?]

@[simp] theorem outgoing_act_answered (answer : Answer) :
    (s.act (.answered answer)).outgoing = s.outgoing := by
  simp [outgoing, act, sentHeads, sentBodies, Action.head?, Action.body?]

theorem outgoing_act_sentHead (connection : Nat) (x : Exchange) :
    (s.act (.sentHead connection (x.forwarded s.peer.ip))).outgoing =
      s.outgoing.sendHead connection x := by
  simp [outgoing, act, sentHeads, sentBodies, Action.head?, Action.body?, Outgoing.sendHead]

theorem outgoing_act_sentBody {connection : Nat} {wire : Bytes} (h : wire.isEmpty = false) :
    (s.act (.sentBody connection wire)).outgoing = s.outgoing.sendBody connection wire := by
  simp [outgoing, act, sentHeads, sentBodies, Action.head?, Action.body?, Outgoing.sendBody, h]

@[simp] theorem outgoing_refuse (cause : Refusal) (error : Error) :
    (s.refuse cause error).outgoing = s.outgoing := by
  rw [refuse, fail, outgoing_enter]
  split
  · exact outgoing_act_answered s _
  · rfl

end Simp

variable {o : Outgoing} {phase : Phase} {x : Exchange} {server : Link} {s s' : Session}

section Parts

theorem goes_fail (h : s.outgoing = o) (error : Error) :
    Goes o phase (s.fail error).outgoing (s.fail error).phase := by
  rw [fail, outgoing_enter, h]
  exact .ends

theorem goes_refuse (h : s.outgoing = o) (cause : Refusal) (error : Error) :
    Goes o phase (s.refuse cause error).outgoing (s.refuse cause error).phase := by
  rw [outgoing_refuse, h]
  exact .ends

/-- What is written to the client is not noticed by the server, unless the session fails over it. -/
theorem goes_tell {next : Session → Session} (h : s.outgoing = o) (answer : Answer)
    (hnext : ∀ s', s'.outgoing = o → Goes o phase (next s').outgoing (next s').phase) :
    Goes o phase (s.tell answer next).outgoing (s.tell answer next).phase := by
  rw [tell]
  split
  · exact goes_fail h _
  · exact hnext _ ((outgoing_act_answered s answer).trans h)

theorem goes_tellHead {next : Session → Session} (h : s.outgoing = o) (answer : Answer)
    (hnext : ∀ s', s'.outgoing = o → Goes o phase (next s').outgoing (next s').phase) :
    Goes o phase (s.tellHead answer next).outgoing (s.tellHead answer next).phase :=
  goes_tell ((outgoing_note ..).trans h) answer hnext

/-- The body is passed on next, or the client could not be given leave to send it. -/
theorem startUpload_cases (s : Session) (x : Exchange) (server : Link) :
    (s.startUpload x server).outgoing = s.outgoing ∧
      ((s.startUpload x server).phase = .uploading x server (.ofKind x.body) ∨
        ∃ result, (s.startUpload x server).phase = .ended result) := by
  rw [startUpload, tell]
  split
  · split
    · exact ⟨rfl, .inr ⟨_, rfl⟩⟩
    · exact ⟨outgoing_act_answered s _, .inl rfl⟩
  · exact ⟨rfl, .inl rfl⟩

/-- The head is written on a connection, or the connection has failed. -/
theorem sendHead_cases (s : Session) (x : Exchange) (server : Link) :
    ((s.sendHead x server).outgoing = s.outgoing.sendHead server.number x ∧
        ((s.sendHead x server).phase = .uploading x server (.ofKind x.body) ∨
          ∃ result, (s.sendHead x server).phase = .ended result)) ∨
      (server.unwritable.isSome ∧ (s.sendHead x server).outgoing = s.outgoing ∧
        ∃ result, (s.sendHead x server).phase = .ended result) := by
  -- that the connection has failed is kept, as a new one has not
  rw [sendHead]
  split
  next hbroken => exact .inr ⟨by simp [hbroken], rfl, _, rfl⟩
  next =>
    rw [← outgoing_act_sentHead]
    exact .inl (startUpload_cases _ x server)

end Parts

section Responses

theorem goes_upgrade (h : s.outgoing = o) (x y : Exchange) (server server' : Link)
    (head : ResponseHead) :
    Goes o (.awaiting y server') (s.upgrade x server head).outgoing
      (s.upgrade x server head).phase := by
  rw [upgrade]
  split
  · split
    · refine goes_tellHead h _ fun s' h => ?_
      subst h
      exact .switches
    · exact goes_refuse h _ _
  · exact goes_refuse h _ _

theorem goes_respond (h : s.outgoing = o) (x : Exchange) (server : Link) (input : Buffered)
    (head : ResponseHead) :
    Goes o (.awaiting x server) (s.respond x { server with input } head).outgoing
      (s.respond x { server with input } head).phase := by
  rw [respond]
  split
  · exact goes_refuse h _ _
  · refine goes_tellHead h _ fun s' h => ?_
    rw [outgoing_enter, h]
    exact .responds ..

/-- The head of a response is announced, changes the protocol or is responded with. -/
theorem goes_receiveHead (h : s.outgoing = o) (x : Exchange) (server : Link) (input : Buffered)
    (head : ResponseHead) :
    Goes o (.awaiting x server) (s.receiveHead x { server with input } head).outgoing
      (s.receiveHead x { server with input } head).phase := by
  rw [receiveHead]
  split
  · exact goes_upgrade h ..
  · split
    · split
      · rw [outgoing_enter, h]
        exact .announced input
      · refine goes_tellHead h _ fun s' h => ?_
        rw [outgoing_enter, h]
        exact .announced input
    · exact goes_respond h ..

end Responses

section Bodies

theorem goes_stepUpload {relay : BodyRelay} (hstep : s.stepUpload x server relay = some s') :
    Goes s.outgoing (.uploading x server relay) s'.outgoing s'.phase := by
  have hnoted : ({ s with client := { s.client with input :=
      (relay.pass s.client.input).input } }.note .toServer .body
        (relay.pass s.client.input).payload).outgoing = s.outgoing := outgoing_note ..
  unfold stepUpload at hstep
  dsimp only at hstep
  split at hstep
  next => cases hstep
  next =>
    obtain rfl := Option.some.inj hstep
    exact goes_fail hnoted _
  next complete _ =>
    -- the move is the same whether the pass has left something to write or not
    have huploads : Goes s.outgoing (.uploading x server relay)
        (s.outgoing.sendBody server.number (relay.pass s.client.input).wire)
        (if complete then .awaiting x server
          else .uploading x server (relay.pass s.client.input).next) := by
      cases complete with
      | true => exact .uploaded _
      | false => exact .uploads _
    split at hstep
    next hempty =>
      -- framing without payload is no piece
      obtain rfl := Option.some.inj hstep
      rw [Outgoing.sendBody_of_isEmpty hempty] at huploads
      rw [outgoing_enter, hnoted]
      exact huploads
    next hwire =>
      split at hstep
      next =>
        obtain rfl := Option.some.inj hstep
        exact goes_fail hnoted _
      next =>
        obtain rfl := Option.some.inj hstep
        rw [outgoing_enter, outgoing_act_sentBody _ (Bool.eq_false_iff.mpr hwire), hnoted]
        exact huploads

theorem goes_stepDownload {relay : BodyRelay} {reusable keepAlive : Bool}
    (hstep : s.stepDownload server relay reusable keepAlive = some s') :
    Goes s.outgoing (.downloading server relay reusable keepAlive) s'.outgoing s'.phase := by
  -- what comes behind a pass, whoever was told of it
  have honward (s' : Session) (h : s'.outgoing = s.outgoing) (complete : Bool) :
      Goes s.outgoing (.downloading server relay reusable keepAlive) s'.outgoing
        (if !complete then .downloading { server with input := (relay.pass server.input).input }
            (relay.pass server.input).next reusable keepAlive
          else if keepAlive then
            .idle (if reusable then
              some { server with input := (relay.pass server.input).input } else none)
          else .ended (.ok ())) := by
    rw [h]
    cases complete with
    | false => exact .downloads ..
    | true =>
      cases keepAlive with
      | false => exact .ends
      | true =>
        cases reusable with
        | true => exact .pools _
        | false => exact .releases
  unfold stepDownload at hstep
  dsimp only at hstep
  split at hstep
  next => cases hstep
  next =>
    obtain rfl := Option.some.inj hstep
    exact goes_fail (outgoing_note ..) _
  next complete _ =>
    split at hstep
    next =>
      obtain rfl := Option.some.inj hstep
      exact honward _ (outgoing_note ..) complete
    next =>
      split at hstep
      next =>
        obtain rfl := Option.some.inj hstep
        exact goes_fail (outgoing_note ..) _
      next =>
        obtain rfl := Option.some.inj hstep
        exact honward _ ((outgoing_act_answered ..).trans (outgoing_note ..)) complete

end Bodies

section Moves

theorem goes_withFrames (hphase : s.phase = phase) (relay : FrameRelay) :
    Goes s.outgoing phase (s.withFrames relay).outgoing (s.withFrames relay).phase := by
  rw [withFrames]
  split
  · exact .ends
  · exact hphase ▸ .rest

theorem goes_stepFrames (hphase : s.phase = phase) (hstep : s.stepFrames = some s') :
    Goes s.outgoing phase s'.outgoing s'.phase := by
  rw [stepFrames] at hstep
  split at hstep
  · cases hstep
  · split at hstep
    · obtain rfl := Option.some.inj hstep
      exact goes_withFrames hphase _
    · obtain rfl := Option.some.inj hstep
      exact goes_withFrames hphase _
    · cases hstep

/-- A step that reads no head is a move of an exchange. -/
theorem goes_step (hreads : s.readsHead = false) (hstep : s.step = some s') :
    Goes s.outgoing s.phase s'.outgoing s'.phase := by
  -- every phase has a step of its own, but there is none before a dial or behind the end
  cases hphase : s.phase with
  | idle pooled =>
    -- with no head to read, the step can only end the session
    rcases step_idle_cases hphase hstep with ⟨hread, -⟩ | ⟨-, result, rfl⟩
    · rw [hreads] at hread
      cases hread
    · exact .ends
  | connecting =>
    rw [step, hphase] at hstep
    cases hstep
  | probing x server =>
    rw [step, hphase] at hstep
    dsimp only at hstep
    split at hstep
    next => cases hstep
    next halive =>
      obtain rfl := Option.some.inj hstep
      obtain ⟨houtgoing, hnext | ⟨result, hnext⟩⟩ := startUpload_cases s x server
      · rw [houtgoing, hnext]
        exact .alive halive
      · rw [houtgoing, hnext]
        exact .ends
    next hstale =>
      obtain rfl := Option.some.inj hstep
      exact .stale hstale
  | uploading x server relay =>
    rw [step, hphase] at hstep
    exact goes_stepUpload hstep
  | awaiting x server =>
    rw [step, hphase] at hstep
    dsimp only at hstep
    split at hstep
    next => cases hstep
    next =>
      obtain rfl := Option.some.inj hstep
      exact goes_refuse rfl _ _
    next =>
      obtain rfl := Option.some.inj hstep
      exact goes_receiveHead rfl ..
  | downloading server relay reusable keepAlive =>
    rw [step, hphase] at hstep
    exact goes_stepDownload hstep
  | upgraded =>
    rw [step, hphase] at hstep
    exact goes_stepFrames hphase hstep
  | ended =>
    rw [step, hphase] at hstep
    cases hstep

/-- A connection that was made gets the head of the request. -/
theorem goes_dial {attempts : Service.Backoff} {recorded : Bool}
    (h : s.outgoing = { o with connections := o.connections + 1 }) :
    Goes o (.connecting x attempts recorded) (s.sendHead x { number := o.connections }).outgoing
      (s.sendHead x { number := o.connections }).phase := by
  -- the connection was counted before the head is written, and a dial does both at once
  have hdial : s.outgoing.sendHead o.connections x = o.dial x := by rw [h]; rfl
  rcases sendHead_cases s x { number := o.connections } with
    ⟨hsent, hnext | ⟨result, hnext⟩⟩ | ⟨hbroken, -⟩
  · rw [hsent, hdial, hnext]
    exact .dialed
  · rw [hsent, hdial, hnext]
    exact .abandoned
  · cases hbroken

theorem goes_receiveDial (failure : Option IoFailure) :
    Goes s.outgoing s.phase (s.receiveDial failure).outgoing (s.receiveDial failure).phase := by
  unfold receiveDial
  split
  next recorded hphase =>
    rw [hphase]
    refine goes_dial ?_
    cases recorded with
    | true => rfl
    | false => exact outgoing_note ..
  next hphase =>
    rw [hphase]
    split
    · exact .retried
    · exact goes_refuse rfl _ _
  next => exact .rest

theorem goes_expire : Goes s.outgoing s.phase s.expire.outgoing s.expire.phase := by
  unfold expire
  split
  next => exact .ends
  next => exact goes_refuse rfl _ _
  next => exact goes_refuse rfl _ _
  next hphase =>
    split
    · exact goes_withFrames rfl _
    · exact .rest
  next => exact .rest

theorem goes_receive (event : Event) :
    Goes s.outgoing s.phase (s.receive event).outgoing (s.receive event).phase := by
  cases event with
  | client arrival =>
    rw [receive]
    split
    · exact .rest
    · exact .rest
  | server arrival =>
    rw [receive]
    split
    · exact .rest
    · rw [receiveServer_eq]
      exact .arrival arrival
  | dialed failure => exact goes_receiveDial failure
  | timedOut => exact goes_expire

/-- Every move that reads no head is one of the moves of an exchange. -/
theorem goes_moveExchange {m : Move} (h : s.moveExchange m = some s') :
    Goes s.outgoing s.phase s'.outgoing s'.phase := by
  rcases moveExchange_cases h with ⟨event, rfl⟩ | ⟨hreads, hstep⟩
  · exact goes_receive event
  · exact goes_step hreads hstep

end Moves

section Reading

/-- The exchange that a session begins with the head it reads. -/
structure Begins (s : Session) (x : Exchange) : Prop where
  request : s.requestHead? = some x.request
  body : x.request.bodyKind = .ok x.body
  keys : (s.act (.began x.request)).keysOf x.request = .ok x.keys

@[simp] theorem outgoing_reject (s : Session) (error : Error) :
    (s.reject error).outgoing = s.outgoing := by
  unfold reject
  split
  · exact outgoing_refuse ..
  · exact outgoing_refuse ..
  · rfl

theorem reject_ends (s : Session) (error : Error) :
    ∃ result, (s.reject error).phase = .ended result := by
  unfold reject
  split
  · exact ⟨_, rfl⟩
  · exact ⟨_, rfl⟩
  · exact ⟨_, rfl⟩

theorem opens_connect (h : s.outgoing = o) (x : Exchange) (pooled : Option Link)
    (recorded : Bool) :
    Opens x o pooled (s.connect x recorded).outgoing (s.connect x recorded).phase := by
  rw [connect, outgoing_enter, h]
  exact .connecting

/-- On a used connection the head is written at once, if the connection has not failed. -/
theorem opens_reuse (h : s.outgoing = o) (x : Exchange) (server : Link) :
    Opens x o (some server) (s.reuse x server).outgoing (s.reuse x server).phase := by
  have hnoted : (s.noteHead x).outgoing = o := (outgoing_note ..).trans h
  rw [reuse]
  split
  next hempty =>
    split
    next => exact opens_connect hnoted x _ true
    next =>
      rw [outgoing_enter, outgoing_act_sentHead, hnoted]
      exact .probing hempty
  next hbody =>
    rcases sendHead_cases (s.noteHead x) x server with
      ⟨hsent, hnext | ⟨result, hnext⟩⟩ | ⟨-, hsent, result, hnext⟩
    · rw [hsent, hnext, hnoted]
      exact .uploading hbody
    · rw [hsent, hnext, hnoted]
      exact .abandoned hbody
    · rw [hsent, hnext, hnoted]
      exact .failed

/-- A step that reads a head refuses the request and ends, or opens an exchange. -/
theorem opens_of_read {pooled : Option Link} (hphase : s.phase = .idle pooled)
    (hreads : s.readsHead = true) (hstep : s.step = some s') :
    (s'.outgoing = s.outgoing ∧ ∃ result, s'.phase = .ended result) ∨
      ∃ x, s.Begins x ∧ Opens x s.outgoing pooled s'.outgoing s'.phase := by
  have hreject (s₁ : Session) (error : Error) (h : s₁.outgoing = s.outgoing) :
      ((s₁.reject error).outgoing = s.outgoing ∧
        ∃ result, (s₁.reject error).phase = .ended result) :=
    ⟨(outgoing_reject ..).trans h, reject_ends ..⟩
  rw [step_of_idle hphase] at hstep
  split at hstep
  next => cases hstep
  next =>
    obtain rfl := Option.some.inj hstep
    exact .inl (hreject _ _ rfl)
  next hread =>
    -- a client that has left sends no head
    rw [readsHead, hphase] at hreads
    simp [hread] at hreads
  next head hread =>
    obtain rfl := Option.some.inj hstep
    have hrequest : s.requestHead? = some head := by rw [requestHead?, hphase, hread]
    rw [serve]
    split
    next => exact .inl (hreject _ _ rfl)
    next body hbody =>
      have hbegan : (s.pastHead.act (.began head)).outgoing = s.outgoing :=
        outgoing_act_began ..
      dsimp only
      split
      next => exact .inl (hreject _ _ hbegan)
      next keys hkeys =>
        refine .inr ⟨{ request := head, body, keys }, ⟨hrequest, hbody, hkeys⟩, ?_⟩
        split
        next server => exact opens_reuse hbegan _ server
        next => exact opens_connect hbegan _ none false

end Reading

section Runs

/-- What the moves of the machine keep is kept over the moves of an exchange. -/
theorem followExchange_induction {motive : Outgoing → Phase → Prop} {moves : List Move}
    (hrun : s.followExchange moves = some s') (hstart : motive s.outgoing s.phase)
    (hgoes : ∀ {o phase o' phase'}, motive o phase → Goes o phase o' phase' → motive o' phase') :
    motive s'.outgoing s'.phase :=
  foldlM_induction (motive := fun s => motive s.outgoing s.phase) hrun hstart
    fun h hmove => hgoes h (goes_moveExchange hmove)

/-- What the moves of the machine and the reading of a head keep is kept over a whole run. -/
theorem follow_induction {motive : Outgoing → Phase → Prop} {moves : List Move}
    (hrun : s.follow moves = some s') (hstart : motive s.outgoing s.phase)
    (hgoes : ∀ {o phase o' phase'}, motive o phase → Goes o phase o' phase' → motive o' phase')
    (hopens : ∀ {x pooled o o' phase'}, motive o (.idle pooled) → Opens x o pooled o' phase' →
      motive o' phase') :
    motive s'.outgoing s'.phase := by
  refine foldlM_induction (motive := fun s => motive s.outgoing s.phase) hrun hstart ?_
  intro s m s' h hmove
  cases m with
  | event event =>
    obtain rfl := Option.some.inj hmove
    exact hgoes h (goes_receive event)
  | step =>
    cases hreads : s.readsHead with
    | false => exact hgoes h (goes_step hreads hmove)
    | true =>
      obtain ⟨pooled, hphase⟩ := phase_of_readsHead hreads
      rcases opens_of_read hphase hreads hmove with ⟨hsame, result, hended⟩ | ⟨x, -, hread⟩
      · -- a request that is refused is not noticed by the server
        rw [hsame, hended]
        exact hgoes h .ends
      · exact hopens (hphase ▸ h) hread

end Runs

end Session

end HttpRelay.Proxy
