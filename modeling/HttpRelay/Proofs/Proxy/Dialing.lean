import HttpRelay.Proofs.Proxy.Sendings
import HttpRelay.Proofs.Service.Delays

/-!
# Connecting to the server

A session that needs a connection attempts to make one until it has one or the attempts of its
configuration are used up. Whatever else happens in the meantime, the attempts are counted.

* `Event.dial?`: what becomes of an attempt;
* `Session.Dialing`: a session that makes an attempt of some number;
* `Session.Dialing.run`: the number is one more than that of the failures;
* `Session.Dialing.succeeds`, `Session.Dialing.exhausted`: what ends the attempts;
* `Session.retries_bounded`: how many attempts are made, and how long is waited between them.
-/

namespace HttpRelay.Proxy

open Service (Backoff)

/-- What becomes of an attempt to connect. -/
def Event.dial? : Event → Option (Option IoFailure)
  | dialed failure => some failure
  | client _ | server _ | timedOut => none

namespace Session

variable {s : Session} {x : Exchange} {recorded : Bool} {retries : Config.Retries}
  {attempts connections : Nat}

section Waiting

theorem settle_of_step_eq_none (h : s.step = none) : s.settle = s := by
  rw [settle]
  generalize 8 * (s.backlog + 2) = steps
  cases steps with
  | zero => rfl
  | succ steps => rw [settleWithin, h]

theorem run_cons (s : Session) (event : Event) (events : List Event) :
    s.run (event :: events) = (s.handle event).run events := rfl

theorem run_append (s : Session) (before after : List Event) :
    s.run (before ++ after) = (s.run before).run after := List.foldl_append

/-- A session that has ended stays so. -/
theorem phase_receive_of_ended {result : Except Error Unit} (h : s.phase = .ended result)
    (event : Event) : (s.receive event).phase = .ended result := by
  cases event with
  | client =>
    rw [receive]
    split <;> exact h
  | server =>
    rw [receive]
    split
    · exact h
    · rw [receiveServer_eq, h]
      rfl
  | dialed => simp [receive, receiveDial, h]
  | timedOut =>
    rw [receive, expire, h]
    exact h

theorem phase_run_of_ended {result : Except Error Unit} (h : s.phase = .ended result)
    (events : List Event) : (s.run events).phase = .ended result := by
  induction events generalizing s with
  | nil => exact h
  | cons event events ih =>
    have hreceive := phase_receive_of_ended h event
    have hstep : (s.receive event).step = none := by rw [step, hreceive]
    rw [run_cons, handle, settle_of_step_eq_none hstep]
    exact ih hreceive

end Waiting

section Dials

variable {b : Backoff} (h : s.phase = .connecting x b recorded)

include h

theorem receiveDial_failed (failure : IoFailure) :
    s.receiveDial (some failure) =
      match b.next 0 with
      | (some _, b) => s.enter (.connecting x b recorded)
      | (none, b) => s.refuse .badGateway (.serverUnavailable b.attempts failure) := by
  cases s
  cases h
  rfl

theorem receiveDial_made :
    s.receiveDial none =
      (if recorded then { s with connections := s.connections + 1 }
        else { s with connections := s.connections + 1 }.noteHead x).sendHead x
          { number := s.connections } := by
  cases s
  cases h
  rfl

end Dials

/-- The body is passed on next, unless the client cannot be given leave to send it. -/
theorem phase_sendHead {server : Link} (s : Session) (x : Exchange)
    (hwritable : server.unwritable = none) :
    (s.sendHead x server).phase = .uploading x server (.ofKind x.body) ∨
      ∃ failure, (s.sendHead x server).phase = .ended (.error (.io failure)) := by
  rw [sendHead, hwritable]
  dsimp only
  rw [startUpload]
  split
  · rw [tell]
    split
    next failure _ => exact .inr ⟨failure, rfl⟩
    next => exact .inl rfl
  · exact .inl rfl

/-- A session that makes its n-th attempt to connect for a request. -/
structure Dialing (s : Session) (x : Exchange) (recorded : Bool) (retries : Config.Retries)
    (connections attempts : Nat) : Prop where
  phase : s.phase = .connecting x { retries, attempts } recorded
  connections : s.connections = connections

theorem dialing_connect (s : Session) (x : Exchange) (recorded : Bool) :
    (s.connect x recorded).Dialing x recorded s.config.server.retries s.connections 1 :=
  ⟨rfl, rfl⟩

namespace Dialing

variable (h : s.Dialing x recorded retries connections attempts)

include h

/-- There is nothing to do until the attempt is over. -/
theorem settle : s.settle = s := by
  apply settle_of_step_eq_none
  rw [step, h.phase]

/-- Anything but the end of the attempt leaves it as it is. -/
theorem receive {event : Event} (hevent : event.dial? = none) :
    (s.receive event).Dialing x recorded retries connections attempts := by
  cases event with
  | dialed => cases hevent
  | client =>
    rw [Session.receive]
    split <;> exact ⟨h.phase, h.connections⟩
  | server =>
    rw [Session.receive]
    split
    · exact ⟨h.phase, h.connections⟩
    · rw [receiveServer_eq, h.phase]
      exact ⟨rfl, h.connections⟩
  | timedOut =>
    rw [Session.receive, expire, h.phase]
    exact h

/-- Behind a failure there is another attempt, unless they are used up. -/
theorem fails (hleft : attempts < max 1 retries.maxAttempts) (failure : IoFailure) :
    (s.receive (.dialed (some failure))).Dialing x recorded retries connections
      (attempts + 1) := by
  have hnext : ({ retries, attempts } : Backoff).next 0 =
      (some _, { retries, attempts := attempts + 1 }) := if_pos hleft
  rw [Session.receive, receiveDial_failed h.phase, hnext]
  exact ⟨rfl, h.connections⟩

/-- The number of an attempt is one more than that of the failures, whatever else happens. -/
theorem run {events : List Event} {failures : List IoFailure}
    (hevents : events.filterMap Event.dial? = failures.map some)
    (hleft : attempts + failures.length ≤ max 1 retries.maxAttempts) :
    (s.run events).Dialing x recorded retries connections (attempts + failures.length) := by
  induction events generalizing s attempts failures with
  | nil =>
    obtain rfl := List.map_eq_nil_iff.mp hevents.symm
    exact h
  | cons event events ih =>
    rw [run_cons, handle]
    cases hdial : event.dial? with
    | none =>
      rw [List.filterMap_cons_none hdial] at hevents
      have hnext := h.receive hdial
      rw [hnext.settle]
      exact ih hnext hevents hleft
    | some outcome =>
      rw [List.filterMap_cons_some hdial] at hevents
      obtain ⟨failure, failures, rfl, rfl, hrest⟩ := List.map_eq_cons_iff.mp hevents.symm
      obtain rfl : event = .dialed (some failure) := by
        cases event <;> cases hdial
        rfl
      rw [List.length_cons] at hleft ⊢
      have hnext := h.fails (by omega) failure
      rw [hnext.settle, ← Nat.add_assoc, Nat.add_right_comm]
      exact ih hnext hrest.symm (by omega)

/-- With the last attempt, the session fails. -/
theorem exhausted (hlast : attempts = max 1 retries.maxAttempts) (failure : IoFailure) :
    (s.receive (.dialed (some failure))).phase =
      .ended (.error (.serverUnavailable attempts failure)) := by
  have hnext : ({ retries, attempts } : Backoff).next 0 = (none, { retries, attempts }) :=
    if_neg (by rw [Backoff.limit]; exact hlast.not_lt)
  rw [Session.receive, receiveDial_failed h.phase, hnext]
  rfl

/-- The connection that an attempt makes is used for the request, unless the client cannot be told
to send its body. -/
theorem succeeds :
    (s.receive (.dialed none)).connections = connections + 1 ∧
      ((s.receive (.dialed none)).phase =
          .uploading x { number := connections } (.ofKind x.body) ∨
        ∃ failure, (s.receive (.dialed none)).phase = .ended (.error (.io failure))) := by
  obtain rfl := h.connections
  rw [Session.receive, receiveDial_made h.phase]
  refine ⟨?_, phase_sendHead _ x rfl⟩
  -- neither the head nor the leave to send the body counts as a connection
  generalize hcounted : (if recorded then _ else _ : Session) = counted
  have hconnections : counted.outgoing.connections = s.connections + 1 := by
    rw [← hcounted]
    split
    · rfl
    · exact congrArg Outgoing.connections (outgoing_note ..)
  change (counted.sendHead x _).outgoing.connections = _
  rcases sendHead_cases counted x { number := s.connections } with
    ⟨hsent, -⟩ | ⟨hbroken, -⟩
  · rw [hsent]
    exact hconnections
  · cases hbroken

end Dialing

/-- A delay is that of the exact number, cut at its limit, with at most a tenth of jitter, and the
sum fits a word. The delays of a policy are as many as its attempts, the first is zero, and no more
come behind them. Connecting makes one attempt for each of them until one succeeds, and if none
does, it fails with their number and the last failure. -/
theorem retries_bounded (s : Session) (x : Exchange) (recorded : Bool) (random : Nat → Nat)
    (hmax : s.config.server.retries.maxDelay ≤ 2 ^ 63 - 1) :
    let retries := s.config.server.retries
    let limit := max 1 retries.maxAttempts
    let policy : Backoff := { retries }
    let capped attempt := min (retries.baseDelay * 2 ^ (attempt - 1)) retries.maxDelay
    let delay attempt := Backoff.delay attempt retries.baseDelay retries.maxDelay
    (∀ attempt, 1 ≤ attempt → capped attempt ≤ capped (attempt + 1) ∧
      ∀ n, capped attempt ≤ delay attempt n ∧
        delay attempt n ≤ capped attempt + capped attempt / 10 ∧ delay attempt n < 2 ^ 64) ∧
    (policy.drawn random 0 = some 0 ∧
      ∀ calls, policy.drawn random calls =
        if calls < limit then some (delay calls (random calls)) else none) ∧
    ∀ (before : List Event) (failures : List IoFailure),
      before.filterMap Event.dial? = failures.map some → failures.length < limit →
      let waiting := (s.connect x recorded).run before
      let attempts := policy.behind random (failures.length + 1)
      (waiting.phase = .connecting x attempts recorded ∧
        attempts.attempts = failures.length + 1 ∧ waiting.connections = s.connections) ∧
      ((waiting.receive (.dialed none)).connections = s.connections + 1 ∧
        ((waiting.receive (.dialed none)).phase =
            .uploading x { number := s.connections } (.ofKind x.body) ∨
          ∃ failure, (waiting.receive (.dialed none)).phase = .ended (.error (.io failure)))) ∧
      ∀ failure after, failures.length + 1 = limit →
        (waiting.run (.dialed (some failure) :: after)).phase =
          .ended (.error (.serverUnavailable limit failure)) := by
  intro retries limit policy capped delay
  have hword : retries.maxDelay ≤ UInt64.size - 1 := Nat.le_trans hmax (by decide)
  refine ⟨fun attempt hattempt => ⟨?_, fun n => ?_⟩, ⟨?_, fun calls => ?_⟩, ?_⟩
  · exact Backoff.capped_le_succ attempt retries.baseDelay retries.maxDelay
  · obtain ⟨hlower, hupper⟩ : capped attempt ≤ delay attempt n ∧
        delay attempt n ≤ capped attempt + capped attempt / 10 :=
      Backoff.delay_bounds hattempt hword n
    exact ⟨hlower, hupper, Backoff.delay_lt hmax n⟩
  · rw [Backoff.drawn_eq, if_pos (by omega), Backoff.delay_zero]
  · exact Backoff.drawn_eq retries random calls
  intro before failures hbefore hleft waiting attempts
  have hattempts : attempts = { retries, attempts := failures.length + 1 } := by
    show policy.behind random _ = _
    rw [Backoff.behind_eq, Nat.min_eq_left hleft]
  have hwaiting : waiting.Dialing x recorded retries s.connections (failures.length + 1) := by
    have hcount : 1 + failures.length ≤ limit := Nat.add_comm .. ▸ hleft
    rw [Nat.add_comm]
    exact (dialing_connect s x recorded).run hbefore hcount
  refine ⟨⟨?_, ?_, hwaiting.connections⟩, hwaiting.succeeds, fun failure after hlast => ?_⟩
  · rw [hattempts]
    exact hwaiting.phase
  · rw [hattempts]
  · -- the last failure ends the session, and nothing that comes behind it matters
    have hended := hwaiting.exhausted hlast failure
    have hstep : (waiting.receive (.dialed (some failure))).step = none := by rw [step, hended]
    rw [run_cons, handle, settle_of_step_eq_none hstep, ← hlast]
    exact phase_run_of_ended hended after

/-- With the usual three attempts, the second follows within 110 milliseconds. If the last one
fails as well, the session ends, though the client has more to say. -/
theorem retries_bounded_three_failures :
    let s := Session.start {} { ip := .v4 127 0 0 1, port := 4000 } {}
    let x : Exchange := { request := ⟨"GET", "/", 1, {}⟩, body := .empty, keys := none }
    let more : Event := .client (.bytes (Bytes.ofText "GET / HTTP/1.1\r\n\r\n"))
    (∃ delay, Backoff.drawn { retries := {} } id 1 = some delay ∧
        100 ≤ delay ∧ delay ≤ 100 + 100 / 10) ∧
      Backoff.drawn { retries := {} } id 3 = none ∧
      ((s.connect x false).run [.dialed (some .connectionRefused), more,
        .dialed (some .connectionRefused), .dialed (some .timedOut), more]).phase =
          .ended (.error (.serverUnavailable 3 .timedOut)) := by
  intro s x more
  obtain ⟨hbounds, ⟨-, hdrawn⟩, hconnect⟩ := retries_bounded s x false id (by decide)
  obtain ⟨hlower, hupper, -⟩ := (hbounds 1 (by decide)).2 1
  let before : List Event :=
    [.dialed (some .connectionRefused), more, .dialed (some .connectionRefused)]
  obtain ⟨-, -, hlast⟩ :=
    hconnect before [.connectionRefused, .connectionRefused] rfl (by decide)
  refine ⟨⟨_, hdrawn 1, hlower, hupper⟩, hdrawn 3, ?_⟩
  show (Session.run _ (before ++ [.dialed (some .timedOut), more])).phase = _
  rw [run_append]
  exact hlast .timedOut [more] (by decide)

end Session

end HttpRelay.Proxy
