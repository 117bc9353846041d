import HttpRelay.Proofs.Proxy.PumpForwarding
import HttpRelay.Proofs.Proxy.PumpSafety

/-!
# The relay as a run of two pumps

Whatever a `FrameRelay` does is one of the runs that two pumps can make, and what holds of all of
these holds of it.

* `Mirrors`: two pumps that are where a relay is;
* `Mirrors.step`, `Mirrors.pump`, `Mirrors.expire`, `Mirrors.act`: they can follow the relay;
* `FrameRelay.Reached.mirrored`: they can come to wherever a relay comes to;
* `FrameRelay.Reached.sent`: so a relay is safe for its peers, whatever they do.
-/

namespace HttpRelay.WebSocket

/-- The bytes that an endpoint receives by what its peer does. -/
def PeerAct.sends (act : PeerAct) (e : Endpoint) : Bytes :=
  match act with
  | send bytes => if e.incoming.closed then [] else bytes
  | finish | leave => []

end HttpRelay.WebSocket

namespace HttpRelay.Proxy

open WebSocket

/-- The bytes that a peer sends arrive. -/
theorem Wing.arrive_sends {w : Wing} {bytes rest : Bytes}
    (h : w.flight = (PeerAct.send bytes).sends w.endpoint ++ rest) :
    w.arrive bytes.length =
      { w with
        endpoint := (PeerAct.send bytes).on w.endpoint
        flight := rest } := by
  rw [PeerAct.sends] at h
  rw [Wing.arrive, PeerAct.on]
  cases hclosed : w.endpoint.incoming.closed with
  | true =>
    have hpush : w.endpoint.incoming.push bytes = w.endpoint.incoming := by
      rw [Feed.push, if_pos hclosed]
    rw [hclosed, if_pos rfl, List.nil_append] at h
    rw [if_pos rfl, ← h]
    simp only [hpush]
  | false =>
    rw [hclosed, if_neg Bool.false_ne_true] at h
    rw [if_neg Bool.false_ne_true, h, List.take_left, List.drop_left]

namespace FrameRelay

/-- The direction of the pump that reads the endpoint in a role. -/
def direction : Role → Direction
  | .server => .toServer
  | .client => .toClient

/-- The endpoint in a role. -/
def facing (r : FrameRelay) : Role → Endpoint
  | .server => r.client
  | .client => r.server

/-- Another endpoint in a role. -/
def setFacing (r : FrameRelay) (e : Endpoint) : Role → FrameRelay
  | .server => { r with client := e }
  | .client => { r with server := e }

variable {r : FrameRelay} {role : Role} {source target e : Endpoint} {frame? : Option Frame}

/-- The relay behind a frame that was forwarded or not. -/
def behind (r : FrameRelay) (role : Role) (source target : Endpoint) (frame? : Option Frame) :
    FrameRelay :=
  { (r.setFacing source role).setFacing target role.peer with
    record := r.record ++ (frame?.map (item (direction role))).toList }

@[simp] theorem facing_setFacing_self : (r.setFacing e role).facing role = e := by
  cases role <;> rfl

@[simp] theorem facing_setFacing_peer :
    (r.setFacing e role).facing role.peer = r.facing role.peer := by
  cases role <;> rfl

@[simp] theorem outcome_setFacing : (r.setFacing e role).outcome = r.outcome := by
  cases role <;> rfl

@[simp] theorem hasEnded_setFacing (direction : Direction) :
    (r.setFacing e role).hasEnded direction = r.hasEnded direction := by
  cases role <;> rfl

@[simp] theorem facing_behind_self : (r.behind role source target frame?).facing role = source := by
  cases role <;> rfl

@[simp] theorem facing_behind_peer :
    (r.behind role source target frame?).facing role.peer = target := by
  cases role <;> rfl

@[simp] theorem outcome_behind : (r.behind role source target frame?).outcome = r.outcome := by
  cases role <;> rfl

@[simp] theorem hasEnded_behind (direction : Direction) :
    (r.behind role source target frame?).hasEnded direction = r.hasEnded direction := by
  cases role <;> rfl

/-- A step in a direction, by the endpoints that it reads and writes. -/
theorem step_eq (r : FrameRelay) (role : Role) :
    r.step (direction role) =
      if r.outcome.isSome || r.hasEnded (direction role) then (false, r)
      else
        let (forwarding, source, target) := forwardFrame (r.facing role) (r.facing role.peer)
        let r' := r.behind role source target forwarding.frame?
        match forwarding with
        | .starved => (false, r)
        | .forwarded _ => (true, r')
        | .closed _ => (true, r'.ended (direction role))
        | .unreadable error | .undelivered _ error =>
          (true, { r' with outcome := some (.error (.webSocket error)) }) := by
  cases role <;> rfl

/-- The relay behind the close of a direction. -/
def marked (r : FrameRelay) : Role → FrameRelay
  | .server => { r with toServerEnded := true }
  | .client => { r with toClientEnded := true }

@[simp] theorem facing_marked (other : Role) : (r.marked role).facing other = r.facing other := by
  cases role <;> rfl

@[simp] theorem outcome_marked : (r.marked role).outcome = r.outcome := by
  cases role <;> rfl

@[simp] theorem hasEnded_marked_self : (r.marked role).hasEnded (direction role) = true := by
  cases role <;> rfl

@[simp] theorem hasEnded_marked_peer :
    (r.marked role).hasEnded (direction role.peer) = r.hasEnded (direction role.peer) := by
  cases role <;> rfl

@[simp] theorem facing_finish (other : Role) :
    r.finish.facing other = { r.facing other with shut := true } := by
  cases other <;> rfl

/-- The relay is over behind the second close. -/
theorem ended_eq (r : FrameRelay) (role : Role) :
    r.ended (direction role) =
      if r.hasEnded (direction role.peer) then (r.marked role).finish else r.marked role := by
  cases role with
  | server => rfl
  | client =>
    change (if (r.toServerEnded && true) = true then _ else _) = _
    rw [Bool.and_true]
    rfl

end FrameRelay

namespace Pumps

variable {p : Pumps} {role : Role}

/-- A pump goes on as long as the other one rests. -/
theorem step_advance_of_rests (hexpired : p.expired = false)
    (hrests : (p.wings role.peer).stage = .resting ∨ (p.wings role.peer).stage = .ended none) :
    p.step (.advance role) = p.advanced role := by
  have hblocked : p.isBlocked role = false := by
    rcases hrests with hrests | hrests <;> simp [isBlocked, hrests, Stage.toSource, Stage.toTarget]
  have hpeer : (p.wings role.peer).stage.isBroken = false := by
    rcases hrests with hrests | hrests <;> rw [hrests] <;> rfl
  cases hover : p.isOver with
  | false => exact step_advance hover hblocked
  | true =>
    -- A pump that has ended is where it was.
    obtain ⟨failure, hended⟩ : ∃ failure, (p.wings role).stage = .ended failure := by
      rw [isOver_eq p role, hexpired, hpeer, Bool.false_or, Bool.or_false] at hover
      cases hstage : (p.wings role).stage with
      | ended failure => exact ⟨failure, rfl⟩
      | _ =>
        rw [hstage] at hover
        cases hover
    have hsame : (p.wings role).advance (p.wings role.peer).endpoint =
        (p.wings role, (p.wings role.peer).endpoint) := by
      rw [Wing.advance, hended]
    rw [advanced_of_advance hsame, Pumps.step, hover]
    exact (moved_wings p role).symm

/-- The steps of a pump while the other one rests. -/
theorem run_of_advances {w w' : Wing} {target target' : Endpoint} (h : w.Advances target w' target')
    (hw : p.wings role = w) (htarget : (p.wings role.peer).endpoint = target)
    (hexpired : p.expired = false)
    (hrests : (p.wings role.peer).stage = .resting ∨ (p.wings role.peer).stage = .ended none) :
    ∃ actions, p.run actions = p.moved role w' { p.wings role.peer with endpoint := target' } := by
  induction h generalizing p with
  | @refl w target =>
    subst hw htarget
    exact ⟨[], (moved_wings p role).symm⟩
  | @head w w' w'' target target' target'' hstep _ ih =>
    subst hw htarget
    have hfirst : p.step (.advance role) =
        p.moved role w' { p.wings role.peer with endpoint := target' } :=
      (step_advance_of_rests hexpired hrests).trans (advanced_of_advance hstep)
    have hself : (p.step (.advance role)).wings role = w' := by rw [hfirst, wings_moved_self]
    have hpeer : (p.step (.advance role)).wings role.peer =
        { p.wings role.peer with endpoint := target' } := by rw [hfirst, wings_moved_peer]
    have hexpired' : (p.step (.advance role)).expired = false := by
      rw [hfirst]
      exact hexpired
    obtain ⟨actions, hrun⟩ := ih hself (by rw [hpeer]) hexpired' (by rw [hpeer]; exact hrests)
    refine ⟨.advance role :: actions, hrun.trans ?_⟩
    rw [hpeer, hfirst]
    rfl

/-- Both sending halves are shut down when no pump uses them any more. -/
theorem run_hangUp (hover : (p.expired || p.isDone) = true)
    (hidle : ∀ role, p.pending role = []) :
    p.run [.hangUp .server, .hangUp .client] =
      { p with wings := fun role => (p.wings role).hangUp } := by
  have hfirst : p.step (.hangUp .server) = p.altered .server Wing.hangUp := by
    rw [step, hover, hidle]
    rfl
  have hsecond : (p.altered .server Wing.hangUp).step (.hangUp .client) =
      (p.altered .server Wing.hangUp).altered .client Wing.hangUp := by
    refine if_pos ?_
    change ((p.expired || p.isDone) && (p.pending .client).isEmpty) = true
    rw [hover, hidle]
    rfl
  rw [run, List.foldl_cons, List.foldl_cons, List.foldl_nil, hfirst, hsecond]
  refine congrArg (fun wings => { p with wings }) (funext fun role => ?_)
  cases role <;> rfl

end Pumps

/-- Two pumps are where a relay is, and the peers have some bytes more to send. -/
structure Mirrors (more : Role → Bytes) (p : Pumps) (r : FrameRelay) : Prop where
  facing : ∀ role, (p.wings role).endpoint = r.facing role
  flight : ∀ role, (p.wings role).flight = more role
  resting : r.outcome = none → p.expired = false ∧ ∀ role, (p.wings role).stage =
    if r.hasEnded (FrameRelay.direction role) then .ended none else .resting
  finished : r.outcome ≠ none → p.isOver = true

namespace Mirrors

open Pumps FrameRelay

variable {more : Role → Bytes} {p : Pumps} {r : FrameRelay}

/-- A pump of a relay that is not over rests or has forwarded its close. -/
theorem rests (h : Mirrors more p r) (houtcome : r.outcome = none) (role : Role) :
    (p.wings role).stage = .resting ∨ (p.wings role).stage = .ended none := by
  rw [(h.resting houtcome).2]
  split
  · exact .inr rfl
  · exact .inl rfl

/-- The end in good order. -/
theorem finish (hfacing : ∀ role, (p.wings role).endpoint = r.facing role)
    (hflight : ∀ role, (p.wings role).flight = more role)
    (hrests : ∀ role, (p.wings role).stage = .resting ∨ (p.wings role).stage = .ended none)
    (hover : (p.expired || p.isDone) = true) :
    Mirrors more (p.run [.hangUp .server, .hangUp .client]) r.finish := by
  have hidle (role : Role) : p.pending role = [] := by
    rw [pending]
    rcases hrests role with hstage | hstage <;> rcases hrests role.peer with hstage' | hstage' <;>
      rw [hstage, hstage'] <;> rfl
  rw [run_hangUp hover hidle]
  refine ⟨fun role => ?_, hflight, fun hnone => (by cases hnone), fun _ => ?_⟩
  · rw [facing_finish, ← hfacing]
    rfl
  · change (p.expired || p.isDone || _ || _) = true
    rw [hover, Bool.true_or, Bool.true_or]

/-- The pumps follow the close of a direction. -/
theorem ended {role : Role} (hfacing : ∀ other, (p.wings other).endpoint = r.facing other)
    (hflight : ∀ other, (p.wings other).flight = more other) (hexpired : p.expired = false)
    (houtcome : r.outcome = none) (hself : (p.wings role).stage = .ended none)
    (hpeer : (p.wings role.peer).stage =
      if r.hasEnded (direction role.peer) then .ended none else .resting) :
    ∃ actions, Mirrors more (p.run actions) (r.ended (direction role)) := by
  rw [ended_eq]
  cases hother : r.hasEnded (direction role.peer) with
  | true =>
    rw [hother] at hpeer
    have hended : ∀ other, (p.wings other).stage = .ended none :=
      Role.forall_of_peer role hself hpeer
    have hdone : p.isDone = true := isDone_iff.mpr fun other => by rw [hended other]; rfl
    refine ⟨[.hangUp .server, .hangUp .client],
      finish (fun other => ?_) hflight (fun other => .inr (hended other)) ?_⟩
    · rw [facing_marked]
      exact hfacing other
    · rw [hdone, Bool.or_true]
  | false =>
    rw [hother] at hpeer
    rw [if_neg Bool.false_ne_true]
    refine ⟨[], fun other => ?_, hflight, fun _ => ⟨hexpired, Role.forall_of_peer role ?_ ?_⟩,
      fun hsome => absurd (outcome_marked.trans houtcome) hsome⟩
    · rw [facing_marked]
      exact hfacing other
    · rw [hasEnded_marked_self]
      exact hself
    · rw [hasEnded_marked_peer, hother]
      exact hpeer

/-- The pumps follow a step of the relay. -/
theorem step (h : Mirrors more p r) (role : Role) :
    ∃ actions, Mirrors more (p.run actions) (r.step (direction role)).2 := by
  rw [step_eq]
  by_cases hstop : (r.outcome.isSome || r.hasEnded (direction role)) = true
  · rw [if_pos hstop]
    exact ⟨[], h⟩
  rw [if_neg hstop]
  rw [Bool.or_eq_true, not_or, Bool.not_eq_true, Bool.not_eq_true, Option.isSome_eq_false_iff,
    Option.isNone_iff_eq_none] at hstop
  obtain ⟨houtcome, hopen⟩ := hstop
  obtain ⟨hexpired, hstage⟩ := h.resting houtcome
  rcases hforward : forwardFrame (r.facing role) (r.facing role.peer) with
    ⟨forwarding, source, target⟩
  by_cases hstarved : forwarding = .starved
  · rw [hstarved]
    exact ⟨[], h⟩
  -- The other pump rests at the end of its last frame, so this one forwards a frame undisturbed.
  rw [← h.facing, ← h.facing] at hforward
  have hresting : (p.wings role).stage = .resting := by rw [hstage, hopen]; rfl
  obtain ⟨actions, hrun⟩ := run_of_advances (Wing.advances_forwardFrame hresting hforward hstarved)
    rfl rfl hexpired (h.rests houtcome role.peer)
  -- Where both wings are behind that, by the pump that moved and by the other one.
  have hfacing (other : Role) : ((p.run actions).wings other).endpoint =
      (r.behind role source target forwarding.frame?).facing other := by
    rw [hrun]
    revert other
    refine Role.forall_of_peer role ?_ ?_
    · rw [wings_moved_self, facing_behind_self]
    · rw [wings_moved_peer, facing_behind_peer]
  have hflight (other : Role) : ((p.run actions).wings other).flight = more other := by
    rw [hrun]
    revert other
    refine Role.forall_of_peer role ?_ ?_
    · rw [wings_moved_self]
      exact h.flight role
    · rw [wings_moved_peer]
      exact h.flight role.peer
  have hself : ((p.run actions).wings role).stage = forwarding.stage := by
    rw [hrun, wings_moved_self]
  have hpeer : ((p.run actions).wings role.peer).stage =
      if r.hasEnded (direction role.peer) then .ended none else .resting := by
    rw [hrun, wings_moved_peer]
    exact hstage role.peer
  have hexpired' : (p.run actions).expired = false := by
    rw [hrun]
    exact hexpired
  have hnone : (r.behind role source target forwarding.frame?).outcome = none := by
    rw [outcome_behind, houtcome]
  cases forwarding with
  | starved => exact absurd rfl hstarved
  | forwarded frame =>
    refine ⟨actions, hfacing, hflight, fun _ => ⟨hexpired', Role.forall_of_peer role ?_ ?_⟩,
      fun hsome => absurd hnone hsome⟩
    · rw [hself, hasEnded_behind, hopen]
      rfl
    · rw [hpeer, hasEnded_behind]
  | closed frame =>
    obtain ⟨further, h⟩ := ended hfacing hflight hexpired' hnone hself
      (by rw [hpeer, hasEnded_behind])
    exact ⟨actions ++ further, by rw [run_append]; exact h⟩
  | unreadable error | undelivered _ error =>
    refine ⟨actions, hfacing, hflight, fun hsome => (by cases hsome), fun _ => ?_⟩
    rw [isOver_eq _ role, hself]
    simp [Forwarding.stage, Stage.isBroken]

/-- The pumps follow the relay of some frames in a direction. -/
theorem pumpWithin (h : Mirrors more p r) (role : Role) (frames : Nat) :
    ∃ actions, Mirrors more (p.run actions) (r.pumpWithin (direction role) frames) := by
  induction frames generalizing p r with
  | zero => exact ⟨[], h⟩
  | succ frames ih =>
    obtain ⟨actions, hstep⟩ := h.step role
    rw [FrameRelay.pumpWithin]
    rcases hmoved : r.step (direction role) with ⟨_ | _, r'⟩ <;> rw [hmoved] at hstep
    · exact ⟨actions, hstep⟩
    · obtain ⟨further, hrest⟩ := ih hstep
      exact ⟨actions ++ further, by rw [run_append]; exact hrest⟩

/-- The pumps follow the relay of whatever has arrived. -/
theorem pump (h : Mirrors more p r) : ∃ actions, Mirrors more (p.run actions) r.pump := by
  obtain ⟨actions, hserver⟩ := h.pumpWithin .server (r.client.incoming.arrived.length + 1)
  obtain ⟨further, hclient⟩ := hserver.pumpWithin .client
    ((r.pumpWithin .toServer (r.client.incoming.arrived.length + 1)).server.incoming.arrived.length
      + 1)
  exact ⟨actions ++ further, by rw [run_append]; exact hclient⟩

/-- The pumps follow the end of the time of the second direction. -/
theorem expire (h : Mirrors more p r) : ∃ actions, Mirrors more (p.run actions) r.expire := by
  rw [FrameRelay.expire]
  by_cases hclosing : r.isClosing = true
  · rw [if_pos hclosing]
    rw [FrameRelay.isClosing, Bool.and_eq_true, Option.isNone_iff_eq_none] at hclosing
    obtain ⟨houtcome, hfirst⟩ := hclosing
    obtain ⟨hexpired, hstage⟩ := h.resting houtcome
    have hwhole (role : Role) : (p.wings role).stage.isBroken = false ∧
        (p.wings role).stage.isDone = r.hasEnded (direction role) := by
      rw [hstage]
      cases r.hasEnded (direction role) <;> exact ⟨rfl, rfl⟩
    have hone : ((p.wings .client).stage.isDone || (p.wings .server).stage.isDone) = true := by
      rw [(hwhole .client).2, (hwhole .server).2, Bool.or_comm]
      exact hfirst
    -- Either both pumps are done, or one of them is awaited and the time is up.
    have hover : (p.expired || p.isClosing || p.isDone) = true := by
      rw [Pumps.isClosing, isOver, (hwhole .client).1, (hwhole .server).1, hone, hexpired]
      cases p.isDone <;> rfl
    exact ⟨[.expire, .hangUp .server, .hangUp .client],
      finish (p := p.step .expire) h.facing h.flight (h.rests houtcome) hover⟩
  · rw [if_neg hclosing]
    exact ⟨[], h⟩

/-- The pumps follow what is done to an endpoint from outside. -/
theorem altered {role : Role} {before : Role → Bytes} (h : Mirrors before p r) {e : Endpoint}
    (change : Wing → Wing) (hendpoint : (change (p.wings role)).endpoint = e)
    (hflight : (change (p.wings role)).flight = more role)
    (hbefore : before role.peer = more role.peer)
    (hstage : (change (p.wings role)).stage = (p.wings role).stage) :
    Mirrors more (p.altered role change) (r.setFacing e role) := by
  have hstages (other : Role) : ((p.altered role change).wings other).stage =
      (p.wings other).stage := by
    rw [wings_altered]
    split
    next hother => rw [hother, hstage]
    next => rfl
  refine ⟨Role.forall_of_peer role ?_ ?_, Role.forall_of_peer role ?_ ?_, fun hnone => ?_,
    fun hsome => ?_⟩
  · rw [wings_altered, if_pos rfl, facing_setFacing_self]
    exact hendpoint
  · rw [wings_altered, if_neg role.peer_ne, facing_setFacing_peer]
    exact h.facing role.peer
  · rw [wings_altered, if_pos rfl]
    exact hflight
  · rw [wings_altered, if_neg role.peer_ne, ← hbefore]
    exact h.flight role.peer
  · rw [outcome_setFacing] at hnone
    obtain ⟨hexpired, hresting⟩ := h.resting hnone
    refine ⟨hexpired, fun other => ?_⟩
    rw [hstages, hasEnded_setFacing]
    exact hresting other
  · rw [outcome_setFacing] at hsome
    have hover := h.finished hsome
    rw [isOver_eq p role] at hover
    rw [isOver_eq _ role, hstages, hstages]
    exact hover

/-- The pumps follow what a peer does. -/
theorem act {role : Role} {before : Role → Bytes} (h : Mirrors before p r) (act : PeerAct)
    (hself : before role = act.sends (r.facing role) ++ more role)
    (hpeer : before role.peer = more role.peer) :
    ∃ action, Mirrors more (p.step action) (r.setFacing (act.on (r.facing role)) role) := by
  have hflight := (h.flight role).trans hself
  rw [← h.facing role] at hflight ⊢
  cases act with
  | send bytes =>
    have harrive := Wing.arrive_sends hflight
    refine ⟨.arrive role bytes.length, h.altered (·.arrive bytes.length) ?_ ?_ hpeer ?_⟩ <;>
      rw [harrive]
  | finish => exact ⟨.finish role, h.altered Wing.finish rfl hflight hpeer rfl⟩
  | leave => exact ⟨.leave role, h.altered Wing.leave rfl hflight hpeer rfl⟩

end Mirrors

/-- The keys of a relay. Only the frames for the server are masked. -/
def relayKeys (drawKey : Nat → MaskKey) : Role → Nat → MaskKey
  | .client => drawKey
  | .server => fun _ => .zero

namespace FrameRelay

/-- Where a relay comes to, by the bytes that each peer sent: whatever the peers do, it forwards
what has arrived, or the time of the second direction is up. -/
inductive Reached (limit : Nat) (drawKey : Nat → MaskKey) : (Role → Bytes) → FrameRelay → Prop
  | start : Reached limit drawKey (fun _ => []) (start {} {} limit drawKey)
  | act {streams : Role → Bytes} {r : FrameRelay} (role : Role) (act : PeerAct)
      (h : Reached limit drawKey streams r) :
      Reached limit drawKey
        (fun other => if other = role then streams other ++ act.sends (r.facing other)
          else streams other)
        (r.setFacing (act.on (r.facing role)) role)
  | pump {streams : Role → Bytes} {r : FrameRelay} (h : Reached limit drawKey streams r) :
      Reached limit drawKey streams r.pump
  | expire {streams : Role → Bytes} {r : FrameRelay} (h : Reached limit drawKey streams r) :
      Reached limit drawKey streams r.expire

/-- Two pumps can come to wherever a relay comes to, whatever the peers are still to send. -/
theorem Reached.mirrored {limit : Nat} {drawKey : Nat → MaskKey} {streams : Role → Bytes}
    {r : FrameRelay} (h : Reached limit drawKey streams r) (more : Role → Bytes) :
    ∃ actions, Mirrors more ((Pumps.start (fun role => streams role ++ more role) limit
      (relayKeys drawKey)).run actions) r := by
  induction h generalizing more with
  | start =>
    refine ⟨[], ?_, fun role => rfl, fun _ => ⟨rfl, ?_⟩, fun hsome => absurd rfl hsome⟩ <;>
      intro role <;> cases role <;> rfl
  | @act streams r role act h ih =>
    obtain ⟨actions, hbefore⟩ := ih fun other =>
      if other = role then act.sends (r.facing other) ++ more other else more other
    obtain ⟨action, hmirrors⟩ : ∃ action, Mirrors more _ _ :=
      hbefore.act act (if_pos rfl) (if_neg role.peer_ne)
    refine ⟨actions ++ [action], ?_⟩
    have hstreams (other : Role) :
        (if other = role then streams other ++ act.sends (r.facing other) else streams other) ++
            more other =
          streams other ++
            (if other = role then act.sends (r.facing other) ++ more other else more other) := by
      split
      · rw [List.append_assoc]
      · rfl
    rw [funext hstreams, Pumps.run_append]
    exact hmirrors
  | pump _ ih =>
    obtain ⟨actions, hbefore⟩ := ih more
    obtain ⟨further, hmirrors⟩ := hbefore.pump
    exact ⟨actions ++ further, by rw [Pumps.run_append]; exact hmirrors⟩
  | expire _ ih =>
    obtain ⟨actions, hbefore⟩ := ih more
    obtain ⟨further, hmirrors⟩ := hbefore.expire
    exact ⟨actions ++ further, by rw [Pumps.run_append]; exact hmirrors⟩

/-- Whatever the peers of a relay do, each is sent the first frames of the other one, in order, and
at most one close of the relay behind them. Nothing is sent behind a close, and the octets on the
wire are those of the frames, masked for a server only. -/
theorem Reached.sent {limit : Nat} {drawKey : Nat → MaskKey} {streams : Role → Bytes}
    {r : FrameRelay} (h : Reached limit drawKey streams r) (role : Role) :
    (∃ received rest forwarded farewell,
        Decodes role.peer limit (streams role.peer) received rest ∧ forwarded <+: received ∧
          (r.facing role).sent = reframed role (relayKeys drawKey role) forwarded ++ farewell ∧
          (farewell = [] ∨ ∃ out, out.IsFarewell role ∧ farewell = [out])) ∧
      (∀ frame ∈ (r.facing role).sent.dropLast, ¬ frame.IsClose) ∧
      Bytes.IsSequence (Frame.IsSpelled role.peer) (r.facing role).sent (r.facing role).wire := by
  obtain ⟨actions, hmirrors⟩ := h.mirrored fun _ => []
  simp only [List.append_nil] at hmirrors
  have hsafe := Pumps.safe_run streams limit (relayKeys drawKey) actions
  obtain ⟨rest, hreceived⟩ := hsafe.received role.peer
  obtain ⟨forwarded, farewell, hforwarded, hsent, hfarewell⟩ := hsafe.sent role
  have hlast := hsafe.closeLast role
  have hwire := hsafe.wire role
  rw [hmirrors.facing role] at hsent hlast hwire
  exact ⟨⟨_, rest, forwarded, farewell, hreceived, hforwarded, hsent, hfarewell⟩, hlast, hwire⟩

end FrameRelay

end HttpRelay.Proxy
