import HttpRelay.Proofs.Proxy.PumpMoves
import HttpRelay.Proofs.WebSocket.WireOctets

/-!
# What two pumps forward

Whatever two peers send, and however the two pumps overtake each other, each peer is sent a
beginning of what the other one sent, and at most one close of the relay behind it. Nothing follows
a close.

* `regular_reframed`, `Frame.IsFarewell.regular`: what is sent can be written octet by octet;
* `Outlet`: what holds of the frames towards a peer;
* `Inlet`: what holds of the frames read from a peer;
* `Pumps.Sound.run`: both hold behind every run;
* `Pumps.safe_run`: what this says about the peers.
-/

namespace HttpRelay.WebSocket

/-- Frames as an end in a role sends them on, one after the other. -/
def reframed (role : Role) (keys : Nat → MaskKey) (frames : List Frame) : List Frame :=
  frames.mapIdx fun i frame => frame.reframe role (keys i)

theorem reframed_concat (role : Role) (keys : Nat → MaskKey) (frames : List Frame)
    (frame : Frame) :
    reframed role keys (frames ++ [frame]) =
      reframed role keys frames ++ [frame.reframe role (keys frames.length)] := by
  simp [reframed, List.mapIdx_append]

@[simp] theorem length_reframed (role : Role) (keys : Nat → MaskKey) (frames : List Frame) :
    (reframed role keys frames).length = frames.length := List.length_mapIdx

/-- Frames that were read are sent on with their payloads, masked for a server only. -/
theorem regular_reframed {role : Role} {keys : Nat → MaskKey} {frames : List Frame}
    (h : ∀ frame ∈ frames, frame.Regular) :
    ∀ out ∈ reframed role keys frames, out.Regular ∧
      out.header.mask.isSome = decide (role.peer = .server) := by
  intro out hout
  obtain ⟨i, hi, rfl⟩ := List.mem_mapIdx.mp hout
  have hregular := h frames[i] (List.getElem_mem hi)
  exact ⟨Frame.regular_outgoing role _ hregular.length_lt (hregular.length ▸ hregular.proper),
    Frame.isSome_mask_outgoing role _ _ _ _⟩

/-- A close that the relay sends of its own accord. -/
def Frame.IsFarewell (role : Role) (frame : Frame) : Prop :=
  ∃ key code reason payload, Close.payload code reason = .ok payload ∧
    frame = Frame.outgoing role key .close true payload

theorem Frame.IsFarewell.isClose {role : Role} {frame : Frame} (h : frame.IsFarewell role) :
    frame.IsClose := by
  obtain ⟨key, code, reason, payload, -, rfl⟩ := h
  rfl

theorem Frame.IsFarewell.regular {role : Role} {frame : Frame} (h : frame.IsFarewell role) :
    frame.Regular ∧ frame.header.mask.isSome = decide (role.peer = .server) := by
  obtain ⟨key, code, reason, payload, hpayload, rfl⟩ := h
  have hshort := Close.length_payload_le hpayload
  exact ⟨regular_outgoing role key (Close.lt_of_le_maxControlPayload hshort)
    fun _ => ⟨rfl, hshort⟩, isSome_mask_outgoing role key _ _ _⟩

end HttpRelay.WebSocket

namespace HttpRelay.Proxy

open WebSocket
open Bytes (IsSequence)

/-- Whether a pump may still read frames. -/
def Stage.isReading : Stage → Bool
  | resting | reading | holding _ | writing _ => true
  | _ => false

/-- What a pump is doing, by the frames that it read and those of them that were sent. -/
def Stage.Carries (role : Role) (keys : Nat → MaskKey) (received forwarded : List Frame) :
    Stage → Prop
  | resting | reading => received = forwarded
  | holding frame => received = forwarded ++ [frame]
  | writing out => ∃ frame, received = forwarded ++ [frame] ∧
    out = frame.reframe role (keys forwarded.length)
  | parting _ out => forwarded <+: received ∧ out.IsFarewell role
  | _ => forwarded <+: received

section Carries

variable {role : Role} {keys : Nat → MaskKey} {received forwarded : List Frame}

theorem Stage.Carries.prefix {stage : Stage} (h : stage.Carries role keys received forwarded) :
    forwarded <+: received := by
  cases stage with
  | resting | reading => exact h ▸ List.prefix_rfl
  | holding frame => exact ⟨[frame], h.symm⟩
  | writing out =>
    obtain ⟨frame, hreceived, -⟩ := h
    exact ⟨[frame], hreceived.symm⟩
  | parting cause out => exact h.1
  | _ => exact h

/-- Behind a failure nothing of the frames matters any more but their order. -/
theorem Failure.carries_next (failure : Failure) (h : forwarded <+: received) :
    failure.next.Carries role keys received forwarded := by
  rw [Failure.next]
  split <;> exact h

@[simp] theorem Failure.toTarget_next (failure : Failure) : failure.next.toTarget = [] := by
  rw [Failure.next]
  split <;> rfl

@[simp] theorem Failure.toSource_next (failure : Failure) : failure.next.toSource = [] := by
  rw [Failure.next]
  split <;> rfl

end Carries

/-- What holds of the frames towards the peer of an endpoint, between the pump that writes them and
the pump that reads the endpoint. -/
structure Outlet (role : Role) (keys : Nat → MaskKey) (e : Endpoint) (pump back : Stage)
    (received : List Frame) : Prop where
  plays : e.role = role
  draws : e.drawKey = keys
  /-- The sending half is taken by one pump at a time. -/
  exclusive : pump.toTarget = [] ∨ back.toSource = []
  closing : Closing e.state (e.sent ++ (pump.toTarget ++ back.toSource))
  reporting : ∀ out ∈ back.toSource, out.IsFarewell role
  sent : ∃ forwarded farewell, e.sent = reframed role keys forwarded ++ farewell ∧
    (∀ out ∈ farewell, out.IsFarewell role) ∧ pump.Carries role keys received forwarded

namespace Outlet

variable {role : Role} {keys : Nat → MaskKey} {e e' : Endpoint} {pump pump' back back' : Stage}
  {received received' : List Frame} {frame out : Frame} {failure : Failure}
  {cause : WebSocket.Error} {state : State} {code : CloseCode} {reason : String} {payload : Bytes}

/-- What does not touch the wire keeps the frames towards a peer as they should be. -/
theorem kept (h : Outlet role keys e pump back received) (hrole : e'.role = e.role)
    (hkeys : e'.drawKey = e.drawKey) (hsent : e'.sent = e.sent)
    (hsend : e'.state.canSend = true → e.state.canSend = true)
    (hpump : pump'.toTarget = pump.toTarget) (hback : back'.toSource = back.toSource)
    (hcarries : ∀ forwarded, pump.Carries role keys received forwarded →
      pump'.Carries role keys received' forwarded) :
    Outlet role keys e' pump' back' received' := by
  obtain ⟨forwarded, farewell, hsplit, hfarewell, hpumped⟩ := h.sent
  refine ⟨hrole.trans h.plays, hkeys.trans h.draws, ?_, ?_, ?_,
    forwarded, farewell, hsent.trans hsplit, hfarewell, hcarries forwarded hpumped⟩
  · rw [hpump, hback]
    exact h.exclusive
  · rw [hsent, hpump, hback]
    exact h.closing.mono hsend
  · rw [hback]
    exact h.reporting

/-- A step of the pump that reads the endpoint, if it does not touch the endpoint. -/
theorem kept_back (h : Outlet role keys e pump back received)
    (hback : back'.toSource = back.toSource) : Outlet role keys e pump back' received :=
  h.kept rfl rfl rfl id rfl hback fun _ => id

/-- A step of the pump that writes to the endpoint, if it does not touch the endpoint. -/
theorem kept_pump (h : Outlet role keys e pump back received)
    (hpump : pump'.toTarget = pump.toTarget)
    (hcarries : ∀ forwarded, pump.Carries role keys received forwarded →
      pump'.Carries role keys received' forwarded) :
    Outlet role keys e pump' back received' :=
  h.kept rfl rfl rfl id hpump rfl hcarries

/-- In front of any close, no farewell was sent. -/
theorem sent_eq (h : Outlet role keys e pump back received)
    (hopen : ∀ frame ∈ e.sent, ¬ frame.IsClose) :
    ∃ forwarded, e.sent = reframed role keys forwarded ∧
      pump.Carries role keys received forwarded := by
  obtain ⟨forwarded, farewell, hsplit, hfarewell, hpumped⟩ := h.sent
  obtain rfl : farewell = [] := by
    refine List.eq_nil_iff_forall_not_mem.mpr fun out hout => ?_
    exact hopen out (hsplit ▸ List.mem_append_right _ hout) (hfarewell out hout).isClose
  exact ⟨forwarded, by rw [hsplit, List.append_nil], hpumped⟩

/-- The pump that writes to the endpoint gets a frame ready. -/
theorem begun (h : Outlet role keys e (.holding frame) back received)
    (hfree : back.toSource = [])
    (hstate : Endpoint.stateSent e.state frame.header.opcode = some state) :
    Outlet role keys { e with state }
      (.writing (frame.reframe e.role (e.drawKey e.sent.length))) back received := by
  have hclosing := h.closing
  rw [hfree, show Stage.toTarget (.holding frame) = [] from rfl, List.append_nil,
    List.append_nil] at hclosing
  -- As the end may still send, all that was sent are frames of the other peer, in their number.
  obtain ⟨forwarded, hsent, hreceived⟩ :=
    h.sent_eq (hclosing.open_ (State.canSend_of_stateSent hstate).1)
  refine ⟨h.plays, h.draws, .inr hfree, ?_, h.reporting, forwarded, [], ?_, ?_,
    frame, hreceived, ?_⟩
  · rw [hfree]
    exact hclosing.concat hstate
  · rw [List.append_nil]
    exact hsent
  · intro out hout
    cases hout
  · rw [h.plays, h.draws, hsent, length_reframed]

/-- A close of the relay gets ready, by the pump that writes to the endpoint. -/
theorem parting (h : Outlet role keys e (.abandoning cause) back received)
    (hfree : back.toSource = [])
    (hstate : Endpoint.stateSent e.state .close = some state)
    (hpayload : Close.payload code reason = .ok payload) :
    Outlet role keys { e with state } (.parting cause (e.closeWith payload)) back received := by
  have hclosing := h.closing
  rw [hfree, show Stage.toTarget (.abandoning cause) = [] from rfl, List.append_nil,
    List.append_nil] at hclosing
  obtain ⟨forwarded, farewell, hsplit, hfarewell, hpumped⟩ := h.sent
  refine ⟨h.plays, h.draws, .inr hfree, ?_, h.reporting, forwarded, farewell, hsplit, hfarewell,
    hpumped, ?_⟩
  · rw [hfree]
    exact hclosing.concat hstate
  · exact ⟨_, code, reason, payload, hpayload, by rw [Endpoint.closeWith, h.plays]⟩

/-- A close of the relay gets ready, by the pump that reads the endpoint. -/
theorem told (h : Outlet role keys e pump (.failing failure) received)
    (hfree : pump.toTarget = [])
    (hstate : Endpoint.stateSent e.state .close = some state)
    (hpayload : Close.payload code reason = .ok payload) :
    Outlet role keys { e with state } pump (.reporting failure (e.closeWith payload)) received := by
  have hclosing := h.closing
  rw [hfree, show Stage.toSource (.failing failure) = [] from rfl, List.append_nil,
    List.append_nil] at hclosing
  refine ⟨h.plays, h.draws, .inl hfree, ?_, ?_, h.sent⟩
  · rw [hfree]
    exact hclosing.concat hstate
  · intro out hout
    obtain rfl := List.mem_singleton.mp hout
    exact ⟨_, code, reason, payload, hpayload, by rw [Endpoint.closeWith, h.plays]⟩

/-- A frame that was forwarded is on the wire. -/
theorem put (h : Outlet role keys e (.writing out) back received) (hpump : pump'.toTarget = [])
    (hcarries : pump'.Carries role keys received received) :
    Outlet role keys { e with sent := e.sent ++ [out] } pump' back received := by
  -- The pump holds the sending half, so the other one is not putting anything on the wire.
  have hfree : back.toSource = [] := h.exclusive.resolve_left (List.cons_ne_nil out [])
  have hclosing := h.closing
  rw [hfree, List.append_nil, show Stage.toTarget (.writing out) = [out] from rfl] at hclosing
  obtain ⟨forwarded, hsent, frame, hreceived, hout⟩ := h.sent_eq hclosing.not_isClose
  refine ⟨h.plays, h.draws, .inl hpump, ?_, h.reporting, received, [], ?_, ?_, hcarries⟩
  · rw [hpump, hfree, List.append_nil, List.append_nil]
    exact hclosing
  · rw [List.append_nil, hreceived, reframed_concat, hsent, hout]
  · intro other hother
    cases hother

/-- A close of the relay is on the wire, from the pump that writes to the endpoint. -/
theorem parted (h : Outlet role keys e (.parting cause out) back received)
    (hpump : pump'.toTarget = [])
    (hcarries : ∀ forwarded, forwarded <+: received →
      pump'.Carries role keys received forwarded) :
    Outlet role keys { e with sent := e.sent ++ [out] } pump' back received := by
  have hfree : back.toSource = [] := h.exclusive.resolve_left (List.cons_ne_nil out [])
  have hclosing := h.closing
  rw [hfree, List.append_nil, show Stage.toTarget (.parting cause out) = [out] from rfl]
    at hclosing
  obtain ⟨forwarded, farewell, hsplit, hfarewell, hpumped, hout⟩ := h.sent
  refine ⟨h.plays, h.draws, .inl hpump, ?_, h.reporting, forwarded, farewell ++ [out], ?_, ?_,
    hcarries forwarded hpumped⟩
  · rw [hpump, hfree, List.append_nil, List.append_nil]
    exact hclosing
  · rw [hsplit, List.append_assoc]
  · intro other hother
    rcases List.mem_append.mp hother with hother | hother
    · exact hfarewell other hother
    · exact List.mem_singleton.mp hother ▸ hout

/-- A close of the relay is on the wire, from the pump that reads the endpoint. -/
theorem reported (h : Outlet role keys e pump (.reporting failure out) received)
    (hback : back'.toSource = []) :
    Outlet role keys { e with sent := e.sent ++ [out], state := .errored } pump back'
      received := by
  have hfree : pump.toTarget = [] := h.exclusive.resolve_right (List.cons_ne_nil out [])
  have hclosing := h.closing
  rw [hfree, List.nil_append, show Stage.toSource (.reporting failure out) = [out] from rfl]
    at hclosing
  obtain ⟨forwarded, farewell, hsplit, hfarewell, hpumped⟩ := h.sent
  refine ⟨h.plays, h.draws, .inl hfree, ?_, ?_, forwarded, farewell ++ [out], ?_, ?_, hpumped⟩
  · rw [hback, hfree, List.append_nil, List.append_nil]
    exact hclosing.mono fun hopen => by cases hopen
  · rw [hback]
    intro other hother
    cases hother
  · rw [hsplit, List.append_assoc]
  · intro other hother
    rcases List.mem_append.mp hother with hother | hother
    · exact hfarewell other hother
    · exact List.mem_singleton.mp hother ▸ h.reporting out (List.mem_singleton_self out)

/-- The connection is over before the frame on its way is on the wire. -/
theorem lost (h : Outlet role keys e pump back received) (hpump : pump'.toTarget = [])
    (hback : back'.toSource = [])
    (hcarries : ∀ forwarded, pump.Carries role keys received forwarded →
      pump'.Carries role keys received forwarded) :
    Outlet role keys { e with state := .errored } pump' back' received := by
  obtain ⟨forwarded, farewell, hsplit, hfarewell, hpumped⟩ := h.sent
  refine ⟨h.plays, h.draws, .inl hpump, ?_, ?_, forwarded, farewell, hsplit, hfarewell,
    hcarries forwarded hpumped⟩
  · rw [hpump, hback, List.append_nil, List.append_nil]
    exact h.closing.lost
  · rw [hback]
    intro other hother
    cases hother

/-- A step of the pump that writes to the endpoint keeps the frames towards its peer. -/
theorem of_moves_target {w w' : Wing}
    (h : Outlet role keys e w.stage back w.received) (hmoves : w.Moves e w' e')
    (hfree : w.stage.needsTarget = true → back.toSource = []) :
    Outlet role keys e' w'.stage back w'.received := by
  -- Only `begun` and `parting` take the sending half, and only `put` and `parted` use it.
  cases hmoves with
  | wait => exact h
  | begin hstage _ =>
    rw [hstage] at h
    exact h.kept_pump rfl fun _ => id
  | read hstage _ _ =>
    rw [hstage] at h
    exact h.kept_pump rfl fun forwarded hreceived => congrArg (· ++ _) hreceived
  | breakOff hstage _ =>
    rcases hstage with hstage | hstage <;> rw [hstage] at h <;>
      exact h.kept_pump rfl fun forwarded hcarries => hcarries.prefix
  | begun hstage hstate =>
    rw [hstage] at h hfree
    exact h.begun (hfree rfl) hstate
  | refused hstage =>
    rw [hstage] at h
    exact h.kept_pump rfl fun forwarded hcarries => hcarries.prefix
  | put hstage =>
    rw [hstage] at h
    refine h.put ?_ ?_ <;> split
    · rfl
    · rfl
    · exact List.prefix_rfl
    · rfl
  | lost hstage =>
    rw [hstage] at h
    have hfree : back.toSource = [] := h.exclusive.resolve_left (List.cons_ne_nil _ [])
    exact h.lost rfl hfree fun forwarded hcarries => hcarries.prefix
  | told hstage _ _ =>
    rw [hstage] at h
    exact h.kept_pump rfl fun forwarded hcarries => hcarries.prefix
  | @untold failure _ hstage _ =>
    rw [hstage] at h
    exact h.kept_pump failure.toTarget_next fun forwarded => failure.carries_next
  | @reported failure _ hstage =>
    rw [hstage] at h
    exact h.kept_pump failure.toTarget_next fun forwarded => failure.carries_next
  | @unreported failure _ hstage =>
    rw [hstage] at h
    exact h.kept_pump failure.toTarget_next fun forwarded => failure.carries_next
  | parting hstage hstate hpayload =>
    rw [hstage] at h hfree
    exact h.parting (hfree rfl) hstate hpayload
  | silent hstage =>
    rw [hstage] at h
    exact h.kept_pump rfl fun forwarded hcarries => hcarries.prefix
  | parted hstage =>
    rw [hstage] at h
    exact h.parted rfl fun _ => id
  | unparted hstage =>
    rw [hstage] at h
    have hfree : back.toSource = [] := h.exclusive.resolve_left (List.cons_ne_nil _ [])
    exact h.lost rfl hfree fun forwarded hcarries => hcarries.prefix

/-- A step of the pump that reads the endpoint keeps the frames towards its peer. -/
theorem of_moves_source {w w' : Wing} {target target' : Endpoint}
    (h : Outlet role keys w.endpoint pump w.stage received) (hmoves : w.Moves target w' target')
    (hfree : w.stage.needsSource = true → pump.toTarget = []) :
    Outlet role keys w'.endpoint pump w'.stage received := by
  -- Towards the peer that it reads, a pump only sends the close that reports a failure.
  cases hmoves with
  | wait => exact h
  | read hstage _ hstate =>
    rw [hstage] at h
    exact h.kept rfl rfl rfl (State.canSend_of_stateReceived hstate) rfl rfl fun _ => id
  | breakOff hstage hstate =>
    rcases hstage with hstage | hstage <;> rw [hstage] at h <;>
      exact h.kept rfl rfl rfl hstate.canSend rfl rfl fun _ => id
  | told hstage hstate hpayload =>
    rw [hstage] at h hfree
    exact h.told (hfree rfl) hstate hpayload
  | @untold failure _ hstage hstate =>
    rw [hstage] at h
    exact h.kept rfl rfl rfl hstate.canSend rfl failure.toSource_next fun _ => id
  | @reported failure _ hstage =>
    rw [hstage] at h
    exact h.reported failure.toSource_next
  | @unreported failure _ hstage =>
    rw [hstage] at h
    have hfree : pump.toTarget = [] := h.exclusive.resolve_right (List.cons_ne_nil _ [])
    exact h.lost hfree failure.toSource_next fun _ => id
  | put hstage =>
    rw [hstage] at h
    refine h.kept_back ?_
    split <;> rfl
  | begin hstage _ | begun hstage _ | refused hstage | lost hstage | parting hstage _ _
  | silent hstage | parted hstage | unparted hstage =>
    rw [hstage] at h
    exact h.kept_back rfl

end Outlet

/-- What holds of the frames that a pump reads. -/
structure Inlet (role : Role) (limit : Nat) (stream : Bytes) (w : Wing) : Prop where
  plays : w.endpoint.role = role
  accepts : w.endpoint.limit = limit
  /-- The frames come first in what the peer sends, and until a failure the rest is still to be
  read. -/
  decoded : ∃ rest, Decodes role limit stream w.received rest ∧
    (w.stage.isReading = true → rest = w.endpoint.incoming.arrived ++ w.flight)

namespace Inlet

variable {role : Role} {limit : Nat} {stream : Bytes} {w w' : Wing}

/-- What reads nothing keeps the frames that were read as they should be. -/
theorem kept (h : Inlet role limit stream w) (hrole : w'.endpoint.role = w.endpoint.role)
    (hlimit : w'.endpoint.limit = w.endpoint.limit) (hreceived : w'.received = w.received)
    (hunread : w'.stage.isReading = true → w.stage.isReading = true ∧
      w'.endpoint.incoming.arrived ++ w'.flight = w.endpoint.incoming.arrived ++ w.flight) :
    Inlet role limit stream w' := by
  obtain ⟨rest, hdecodes, hrest⟩ := h.decoded
  refine ⟨hrole.trans h.plays, hlimit.trans h.accepts, rest, hreceived ▸ hdecodes,
    fun hreading => ?_⟩
  obtain ⟨hbefore, hsame⟩ := hunread hreading
  rw [hsame]
  exact hrest hbefore

/-- A step of the pump keeps the frames that it read as they should be. -/
theorem of_moves {target target' : Endpoint} (h : Inlet role limit stream w)
    (hmoves : w.Moves target w' target') : Inlet role limit stream w' := by
  have hended (failure : Failure) : failure.next.isReading ≠ true := by
    rw [Failure.next]
    split <;> simp [Stage.isReading]
  cases hmoves with
  | wait => exact h
  | begin hstage _ | begun hstage _ | put hstage =>
    exact h.kept rfl rfl rfl fun _ => ⟨by rw [hstage]; rfl, rfl⟩
  | @read frame feed state hstage hread hstate =>
    obtain ⟨rest, hdecodes, hrest⟩ := h.decoded
    obtain rfl := hrest (by rw [hstage]; rfl)
    -- what arrived is enough for the next frame, whatever is on its way behind it
    rw [h.plays, h.accepts] at hread
    exact ⟨h.plays, h.accepts, _, hdecodes.append (.of_read hread w.flight), fun _ => rfl⟩
  | untold _ _ | reported _ | unreported _ =>
    exact h.kept rfl rfl rfl fun hreading => absurd hreading (hended _)
  | _ => exact h.kept rfl rfl rfl fun hreading => by cases hreading

end Inlet

/-- A step of a pump sends to the endpoint that it writes to, and reads nothing there. -/
theorem Wing.Moves.target_eq {w w' : Wing} {target target' : Endpoint}
    (h : w.Moves target w' target') :
    target'.role = target.role ∧ target'.limit = target.limit ∧
      target'.incoming = target.incoming := by
  cases h <;> exact ⟨rfl, rfl, rfl⟩

/-- A step of a pump lets nothing arrive. -/
theorem Wing.Moves.flight_eq {w w' : Wing} {target target' : Endpoint}
    (h : w.Moves target w' target') : w'.flight = w.flight := by
  cases h <;> rfl

/-- A step of a pump shuts nothing down. -/
theorem Wing.Moves.shut_eq {w w' : Wing} {target target' : Endpoint}
    (h : w.Moves target w' target') :
    w'.endpoint.shut = w.endpoint.shut ∧ target'.shut = target.shut := by
  cases h <;> exact ⟨rfl, rfl⟩

namespace Pumps

/-- What holds of both pumps. -/
structure Sound (streams : Role → Bytes) (limit : Nat) (keys : Role → Nat → MaskKey)
    (p : Pumps) : Prop where
  inlet : ∀ role, Inlet role limit (streams role) (p.wings role)
  outlet : ∀ role, Outlet role (keys role) (p.wings role).endpoint (p.wings role.peer).stage
    (p.wings role).stage (p.wings role.peer).received

variable {streams : Role → Bytes} {limit : Nat} {keys : Role → Nat → MaskKey} {p : Pumps}

/-- Other wings that are as they should be. -/
theorem sound_moved {role : Role} {w w' : Wing} (hinlet : Inlet role limit (streams role) w)
    (hinlet' : Inlet role.peer limit (streams role.peer) w')
    (houtlet : Outlet role (keys role) w.endpoint w'.stage w.stage w'.received)
    (houtlet' : Outlet role.peer (keys role.peer) w'.endpoint w.stage w'.stage w.received) :
    (p.moved role w w').Sound streams limit keys := by
  constructor
  · refine Role.forall_of_peer role ?_ ?_
    · rw [wings_moved_self]
      exact hinlet
    · rw [wings_moved_peer]
      exact hinlet'
  · refine Role.forall_of_peer role ?_ ?_
    · rw [wings_moved_self, wings_moved_peer]
      exact houtlet
    · rw [Role.peer_peer, wings_moved_self, wings_moved_peer]
      exact houtlet'

/-- The frames towards the peer that a pump writes to. -/
theorem Sound.outlet_peer (h : p.Sound streams limit keys) (role : Role) :
    Outlet role.peer (keys role.peer) (p.wings role.peer).endpoint (p.wings role).stage
      (p.wings role.peer).stage (p.wings role).received := by
  have houtlet := h.outlet role.peer
  rwa [Role.peer_peer] at houtlet

/-- A pump that goes on keeps both pumps as they should be. -/
theorem Sound.advance (h : p.Sound streams limit keys) {role : Role}
    (hfree : p.isBlocked role = false) : (p.advanced role).Sound streams limit keys := by
  have hmoves := Wing.moves_advance (p.wings role) (p.wings role.peer).endpoint
  rcases hadvance : (p.wings role).advance (p.wings role.peer).endpoint with ⟨w, target⟩
  rw [hadvance] at hmoves
  rw [advanced_of_advance hadvance]
  simp only [isBlocked, Bool.or_eq_false_iff, Bool.and_eq_false_iff, Bool.not_eq_false',
    List.isEmpty_iff] at hfree
  obtain ⟨hrole, hlimit, hincoming⟩ := hmoves.target_eq
  -- The step is one of the pump that reads this endpoint, and of the one that writes to the other.
  refine sound_moved ((h.inlet role).of_moves hmoves) ?_
    ((h.outlet role).of_moves_source hmoves fun hneeds => ?_)
    ((h.outlet_peer role).of_moves_target hmoves fun hneeds => ?_)
  · exact (h.inlet role.peer).kept hrole hlimit rfl fun hreading => ⟨hreading, by rw [hincoming]⟩
  · exact hfree.2.resolve_left (by simp [hneeds])
  · exact hfree.1.resolve_left (by simp [hneeds])

/-- What happens to a wing without its pump keeps both pumps as they should be. -/
theorem Sound.altered (h : p.Sound streams limit keys) {role : Role} (change : Wing → Wing)
    (hkeeps : (p.wings role).Keeps (change (p.wings role))) :
    (p.altered role change).Sound streams limit keys := by
  refine sound_moved ?_ (h.inlet role.peer) ?_ ?_
  · exact (h.inlet role).kept hkeeps.plays hkeeps.accepts hkeeps.received fun hreading =>
      ⟨hkeeps.stage ▸ hreading, hkeeps.unread⟩
  · refine (h.outlet role).kept hkeeps.plays hkeeps.draws hkeeps.sent ?_ rfl ?_ fun _ => id
    · rw [hkeeps.state]
      exact id
    · rw [hkeeps.stage]
  · rw [hkeeps.stage, hkeeps.received]
    exact h.outlet_peer role

/-- Whatever happens keeps both pumps as they should be. -/
theorem Sound.step (h : p.Sound streams limit keys) (action : Action) :
    (p.step action).Sound streams limit keys := by
  cases action with
  | advance role =>
    rw [Pumps.step]
    by_cases hstay : (p.isOver || p.isBlocked role) = true
    · rw [if_pos hstay]
      exact h
    · rw [if_neg hstay]
      rw [Bool.or_eq_true, not_or, Bool.not_eq_true, Bool.not_eq_true] at hstay
      exact h.advance hstay.2
  | arrive role n => exact h.altered (·.arrive n) (Wing.keeps_arrive n)
  | finish role => exact h.altered Wing.finish Wing.keeps_finish
  | leave role => exact h.altered Wing.leave Wing.keeps_leave
  | expire => exact ⟨h.inlet, h.outlet⟩
  | hangUp role =>
    rw [Pumps.step]
    split
    · exact h.altered Wing.hangUp Wing.keeps_hangUp
    · exact h

/-- A run keeps both pumps as they should be. -/
theorem Sound.run (h : p.Sound streams limit keys) (actions : List Action) :
    (p.run actions).Sound streams limit keys := by
  induction actions generalizing p with
  | nil => exact h
  | cons action actions ih => exact ih (h.step action)

/-- Two pumps at their start are as they should be. -/
theorem sound_start (streams : Role → Bytes) (limit : Nat) (keys : Role → Nat → MaskKey) :
    (start streams limit keys).Sound streams limit keys := by
  constructor <;> intro role
  · exact ⟨rfl, rfl, streams role, .nil _, fun _ => rfl⟩
  · refine ⟨rfl, rfl, .inl rfl, ⟨?_, fun _ => ?_⟩, ?_, [], [], rfl, ?_, rfl⟩ <;>
      exact List.forall_mem_nil _

/-- What two pumps do to the peers, whatever the peers send. -/
structure Safe (streams : Role → Bytes) (limit : Nat) (keys : Role → Nat → MaskKey)
    (p : Pumps) : Prop where
  /-- The frames that are read off a connection come first in what its peer sends. -/
  received : ∀ role, ∃ rest,
    Decodes role limit (streams role) (p.wings role).received rest
  /-- A peer is sent the first frames of the other one, in order, each as its endpoint sends it,
  and at most one close of the relay behind them. -/
  sent : ∀ role, ∃ forwarded farewell, forwarded <+: (p.wings role.peer).received ∧
    (p.wings role).endpoint.sent = reframed role (keys role) forwarded ++ farewell ∧
    (farewell = [] ∨ ∃ out, out.IsFarewell role ∧ farewell = [out])
  /-- Nothing is sent behind a close, and so there is at most one. -/
  closeLast : ∀ role, ∀ frame ∈ (p.wings role).endpoint.sent.dropLast, ¬ frame.IsClose
  /-- The octets that a peer sends begin with those of the frames that are read off them. -/
  taken : ∀ role, ∃ octets rest, streams role = octets ++ rest ∧
    IsSequence (Frame.IsSpelled role) (p.wings role).received octets
  /-- The octets on the wire to a peer are those of the frames sent to it, masked if the peer is a
  server, and plain if it is a client. -/
  wire : ∀ role, IsSequence (Frame.IsSpelled role.peer) (p.wings role).endpoint.sent
    (p.wings role).endpoint.wire

/-- Pumps that are as they should be are safe for the peers. -/
theorem Sound.safe (h : p.Sound streams limit keys) : p.Safe streams limit keys where
  received role := by
    obtain ⟨rest, hdecodes, -⟩ := (h.inlet role).decoded
    exact ⟨rest, hdecodes⟩
  sent role := by
    obtain ⟨forwarded, farewell, hsplit, hfarewell, hcarries⟩ := (h.outlet role).sent
    refine ⟨forwarded, farewell, hcarries.prefix, hsplit, ?_⟩
    cases farewell with
    | nil => exact .inl rfl
    | cons out more =>
      have hout := hfarewell out List.mem_cons_self
      -- A farewell is a close, and so nothing is behind it.
      obtain rfl : more = [] := by
        refine Classical.byContradiction fun hmore => ?_
        refine (h.outlet role).closing.lost.last out ?_ hout.isClose
        rw [hsplit, List.dropLast_append_of_ne_nil (List.cons_ne_nil out more),
          List.dropLast_cons_of_ne_nil hmore]
        exact List.mem_append_right _ List.mem_cons_self
      exact .inr ⟨out, hout, rfl⟩
  closeLast role := (h.outlet role).closing.lost.last
  taken role := by
    obtain ⟨rest, hdecodes, -⟩ := (h.inlet role).decoded
    obtain ⟨octets, hstream, hspelled, -⟩ := hdecodes.spelled
    exact ⟨octets, rest, hstream, hspelled⟩
  wire role := by
    obtain ⟨forwarded, farewell, hsplit, hfarewell, hcarries⟩ := (h.outlet role).sent
    obtain ⟨rest, hdecodes, -⟩ := (h.inlet role.peer).decoded
    obtain ⟨-, -, -, hregular⟩ := hdecodes.spelled
    rw [Endpoint.wire_eq]
    refine isSequence_encode fun out hout => ?_
    rcases List.mem_append.mp (hsplit ▸ hout) with hforwarded | hlast
    · have hread : forwarded ⊆ _ := List.IsPrefix.subset hcarries.prefix
      exact regular_reframed (fun frame hframe => hregular frame (hread hframe)) out hforwarded
    · exact (hfarewell out hlast).regular

/-- Whatever two peers send, and however the two pumps overtake each other, they are safe for the
peers. -/
theorem safe_run (streams : Role → Bytes) (limit : Nat) (keys : Role → Nat → MaskKey)
    (actions : List Action) :
    ((start streams limit keys).run actions).Safe streams limit keys :=
  ((sound_start streams limit keys).run actions).safe

end Pumps

end HttpRelay.Proxy
