import HttpRelay.Proofs.Proxy.PumpCourse
import HttpRelay.Proofs.Proxy.PumpRelay
import HttpRelay.Proofs.WebSocket.OrderChecks

/-!
# The order of fragments is not checked

A pump forwards frame after frame, and looks at no frame twice. What it sends is in order if the
frames of its peer are, and out of order if they are not: a continuation of nothing is forwarded
like any other frame, where a read of whole messages refuses it.

* `forwardFrame_of_open`: a frame goes out whatever went out before;
* `Pumps.run_amid`: so do all frames of a peer;
* `Pumps.Safe.inOrder_sent_iff`: what a peer is sent is in order just as what was read off the other
  one;
* `Pumps.forwards_in_order_iff`: so it is in order for all that a peer may send in order, and for
  nothing else;
* `FrameRelay.Reached.inOrder_sent_iff`: the same of a relay, whatever its peers do.
-/

namespace HttpRelay.WebSocket

/-- A frame that is sent on does to a message what it did before. -/
theorem openBehind?_reframed (isOpen : Bool) (role : Role) (keys : Nat → MaskKey)
    (frames : List Frame) :
    openBehind? isOpen (reframed role keys frames) = openBehind? isOpen frames := by
  -- a frame keeps its opcode and whether it is final, whatever role and key it is sent with
  induction frames generalizing isOpen keys with
  | nil => rfl
  | cons frame frames ih =>
    rw [reframed, List.mapIdx_cons, openBehind?, openBehind?, List.foldlM_cons, List.foldlM_cons]
    exact bind_congr fun isOpen' => ih isOpen' fun i => keys (i + 1)

theorem inOrder_reframed (role : Role) (keys : Nat → MaskKey) (frames : List Frame) :
    InOrder (reframed role keys frames) ↔ InOrder frames := by
  rw [InOrder, openBehind?_reframed, InOrder]

/-- Where only the last frame may be a close, the order is that of the frames in front of it. -/
theorem exists_unclosed {frames : List Frame} (h : hasClose frames.dropLast = false) :
    ∃ past, past <+: frames ∧ hasClose past = false ∧ (InOrder frames ↔ InOrder past) := by
  rcases List.eq_nil_or_concat frames with rfl | ⟨past, last, rfl⟩
  · exact ⟨[], List.prefix_rfl, rfl, Iff.rfl⟩
  · rw [List.concat_eq_append] at h ⊢
    rw [List.dropLast_concat] at h
    by_cases hclose : last.IsClose
    · have hcontrol : ∀ frame ∈ [last], frame.header.opcode.isControl = true := by
        intro frame hframe
        rw [List.mem_singleton.mp hframe, hclose]
        rfl
      exact ⟨past, List.prefix_append past [last], h, inOrder_append_control hcontrol⟩
    · refine ⟨past ++ [last], List.prefix_rfl, ?_, Iff.rfl⟩
      rw [hasClose_append, h, hasClose_singleton]
      exact decide_eq_false hclose

/-- Where nothing is sent behind a close, only the last of the frames sent on may be one. -/
theorem hasClose_dropLast_of_reframed {role : Role} {keys : Nat → MaskKey}
    {frames farewell : List Frame}
    (h : ∀ frame ∈ (reframed role keys frames ++ farewell).dropLast, ¬ frame.IsClose) :
    hasClose frames.dropLast = false := by
  rcases List.eq_nil_or_concat frames with rfl | ⟨past, last, rfl⟩
  · rfl
  · rw [List.concat_eq_append, reframed_concat, List.append_assoc,
      List.dropLast_append_of_ne_nil (by simp)] at h
    rw [List.concat_eq_append, List.dropLast_concat, ← hasClose_reframed role keys past,
      hasClose_eq_false]
    exact fun frame hframe => h frame (List.mem_append_left _ hframe)

end HttpRelay.WebSocket

namespace HttpRelay.Proxy

open WebSocket Outcome

/-- Between two open ends, a frame that is no close goes out whatever went out before. -/
theorem forwardFrame_of_open {source target : Endpoint} {frame : Frame} {feed : Feed}
    (hread : Feed.run source.incoming (Frame.decode source.role source.limit) = (.ok frame, feed))
    (hopen : frame.header.opcode ≠ .close) (hsource : source.state = .open)
    (htarget : target.state = .open) (hconnected : target.Connected) :
    forwardFrame source target = (.forwarded frame, { source with incoming := feed },
      { target with
        sent := target.sent ++
          [frame.reframe target.role (target.drawKey target.sent.length)] }) := by
  have hreceive : source.state.canReceive = true := by rw [hsource]; rfl
  have hreceived : Endpoint.stateReceived source.state frame.header.opcode = some source.state :=
    if_neg hopen
  have hsent : Endpoint.stateSent target.state frame.header.opcode = some target.state := by
    rw [Endpoint.stateSent, if_neg hopen, htarget]
    rfl
  have hwrite : target.run
      (Endpoint.writeFrame frame.header.opcode frame.header.fin frame.payload) =
        (.ok (), { target with
          sent := target.sent ++
            [frame.reframe target.role (target.drawKey target.sent.length)] }) := by
    have hprepare : (Endpoint.prepare frame.header.opcode frame.header.fin frame.payload).run.run
        target = _ := Endpoint.prepare_run (Frame.ensures_decode _ _ _ _ _ hread) hsent
    rw [Endpoint.run, Endpoint.writeFrame_eq]
    exact (run_bind_ok hprepare).trans (Endpoint.put_run ⟨hconnected.shut, hconnected.peerGone⟩ _)
  rw [forwardFrame, Endpoint.run, Endpoint.readFrame_eq,
    run_bind_ok (Endpoint.beginRead_run hreceive), Endpoint.finishRead_run hread hreceived]
  dsimp only
  rw [hwrite]
  dsimp only
  rw [if_neg hopen]

namespace Pumps

variable (streams : Role → Bytes) (limit : Nat) (keys : Role → Nat → MaskKey) (role : Role)

/-- Two pumps that forwarded some frames off one connection, and nothing else. The rest of what its
peer sends has arrived. -/
def amid (past : List Frame) (arrived : Bytes) : Pumps :=
  (start streams limit keys).moved role
    { endpoint := { role, limit, drawKey := keys role, incoming := { arrived } }
      received := past }
    { endpoint :=
        { role := role.peer, limit, drawKey := keys role.peer
          sent := reframed role.peer (keys role.peer) past }
      flight := streams role.peer }

theorem wings_amid_self (past : List Frame) (arrived : Bytes) :
    (amid streams limit keys role past arrived).wings role =
      { endpoint := { role, limit, drawKey := keys role, incoming := { arrived } }
        received := past } := wings_moved_self _ _ _ _

theorem wings_amid_peer (past : List Frame) (arrived : Bytes) :
    (amid streams limit keys role past arrived).wings role.peer =
      { endpoint :=
          { role := role.peer, limit, drawKey := keys role.peer
            sent := reframed role.peer (keys role.peer) past }
        flight := streams role.peer } := wings_moved_peer _ _ _ _

/-- All that a peer sends arrives first. -/
theorem run_arrive : (start streams limit keys).run [.arrive role (streams role).length] =
    amid streams limit keys role [] (streams role) := by
  have harrive : ((start streams limit keys).wings role).arrive (streams role).length =
      { endpoint :=
          { role, limit, drawKey := keys role, incoming := { arrived := streams role } } } := by
    simp [Wing.arrive, start, Feed.push]
  rw [run, List.foldl_cons, List.foldl_nil, step, altered]
  simp only [harrive]
  rfl

variable {limit role} {frames : List Frame} {bytes rest : Bytes}

/-- The next frame is forwarded. -/
theorem run_amid_frame (past : List Frame) {frame : Frame} {middle : Bytes}
    (hread : Feed.run { arrived := bytes } (Frame.decode role limit) =
      (.ok frame, { arrived := middle })) (hopen : ¬ frame.IsClose) :
    ∃ actions, (amid streams limit keys role past bytes).run actions =
      amid streams limit keys role (past ++ [frame]) middle := by
  have hself := wings_amid_self streams limit keys role past bytes
  have hpeer := wings_amid_peer streams limit keys role past bytes
  generalize hamid : amid streams limit keys role past bytes = p at hself hpeer ⊢
  -- what was forwarded before leaves both ends open, and nothing else of it is looked at
  have hsource : Feed.run (p.wings role).endpoint.incoming
      (Frame.decode (p.wings role).endpoint.role (p.wings role).endpoint.limit) =
        (.ok frame, { arrived := middle }) := by
    rw [hself]
    exact hread
  have htarget : (p.wings role.peer).endpoint.state = .open := by rw [hpeer]
  have hconnected : (p.wings role.peer).endpoint.Connected := by
    rw [hpeer]
    exact ⟨rfl, rfl⟩
  have hforward := forwardFrame_of_open hsource hopen (by rw [hself]) htarget hconnected
  have hadvances := Wing.advances_forwardFrame (by rw [hself]) hforward nofun
  obtain ⟨actions, hrun⟩ := run_of_advances hadvances rfl rfl (by rw [← hamid]; rfl)
    (.inl (by rw [hpeer]))
  refine ⟨actions, hrun.trans ?_⟩
  rw [hself, hpeer, ← hamid, amid, amid, reframed_concat]
  simp only [length_reframed]
  rfl

/-- All frames of a peer are forwarded that come in front of its close. -/
theorem run_amid (past : List Frame) (h : Decodes role limit bytes frames rest)
    (hopen : hasClose frames = false) :
    ∃ actions, (amid streams limit keys role past bytes).run actions =
      amid streams limit keys role (past ++ frames) rest := by
  induction h generalizing past with
  | nil => exact ⟨[], by rw [List.append_nil]; rfl⟩
  | @cons bytes middle rest frame frames hframe _ ih =>
    obtain ⟨hfirst, hmore⟩ := List.forall_mem_cons.mp (hasClose_eq_false.mp hopen)
    obtain ⟨actions, hrun⟩ := run_amid_frame streams keys past hframe hfirst
    obtain ⟨further, hrest⟩ := ih (past ++ [frame]) (hasClose_eq_false.mpr hmore)
    refine ⟨actions ++ further, ?_⟩
    rw [run_append, hrun, hrest, List.append_assoc]
    rfl

/-- All frames of a peer are forwarded, whatever their order, and the peer is not failed for any of
them. -/
theorem exists_forwarding (h : Decodes role limit (streams role) frames rest)
    (hopen : hasClose frames = false) :
    ∃ actions, (start streams limit keys).run actions =
      amid streams limit keys role frames rest := by
  obtain ⟨actions, hrun⟩ := run_amid streams keys [] h hopen
  exact ⟨.arrive role (streams role).length :: actions,
    (run_append _ [_] actions).trans (by rw [run_arrive, hrun, List.nil_append])⟩

variable {streams keys}

/-- What a peer is sent is in order just as what was read off the other one. -/
theorem Safe.inOrder_sent_iff {p : Pumps} (h : p.Safe streams limit keys) (role : Role) :
    ∃ frames rest, Decodes role limit (streams role) frames rest ∧ hasClose frames = false ∧
      (InOrder (p.wings role.peer).endpoint.sent ↔ InOrder frames) := by
  obtain ⟨_, hreceived⟩ := h.received role
  obtain ⟨forwarded, farewell, hforwarded, hsent, hfarewell⟩ := h.sent role.peer
  have hlast := h.closeLast role.peer
  rw [Role.peer_peer] at hforwarded
  rw [hsent] at hlast
  -- the closes behind the frames make no difference, be they of the relay or of the peer
  have hcontrol : ∀ frame ∈ farewell, frame.header.opcode.isControl = true := by
    intro frame hframe
    rcases hfarewell with rfl | ⟨out, hout, rfl⟩
    · cases hframe
    · rw [List.mem_singleton.mp hframe, hout.isClose]
      rfl
  obtain ⟨past, hpast, hopen, hiff⟩ := exists_unclosed (hasClose_dropLast_of_reframed hlast)
  obtain ⟨rest, hdecodes⟩ := hreceived.of_prefix (hpast.trans hforwarded)
  refine ⟨past, rest, hdecodes, hopen, ?_⟩
  rw [hsent, inOrder_append_control hcontrol, inOrder_reframed, hiff]

variable (streams limit keys role)

/-- The frames that are forwarded off a connection are in order, whatever the pumps do, just if all
frames of its peer are. A peer whose frames a reader of whole messages refuses on account of their
order is not failed: the frame is forwarded that may not come where it does. -/
theorem forwards_in_order_iff :
    ((∀ actions,
        InOrder (((start streams limit keys).run actions).wings role.peer).endpoint.sent) ↔
      ∀ frames rest, Decodes role limit (streams role) frames rest → hasClose frames = false →
        InOrder frames) ∧
    ∀ (e : Endpoint) (messages : List Message) (before after : Connection)
      (halt : Halt WebSocket.Error),
      e.role = role → e.limit = limit → e.incoming.arrived = streams role →
      Connection.receives messages.length { endpoint := e } = (messages.map .ok, before) →
      before.run Connection.receive = (.error halt, after) → OutOfTurn halt →
      ∃ past frame actions,
        let p := (start streams limit keys).run actions
        InOrder past ∧ ¬ InOrder (past ++ [frame]) ∧
          (∃ rest, Decodes role limit (streams role) (past ++ [frame]) rest) ∧
          (p.wings role.peer).endpoint.sent =
            reframed role.peer (keys role.peer) (past ++ [frame]) ∧
          (p.wings role).endpoint.sent = [] ∧ (p.wings role).endpoint.state = .open ∧
          (p.wings role).stage = .resting := by
  refine ⟨⟨fun h frames rest hdecodes hopen => ?_, fun h actions => ?_⟩, ?_⟩
  · -- some run forwards all the frames, so that their order shows in what it sends
    obtain ⟨actions, hrun⟩ := exists_forwarding streams keys hdecodes hopen
    have hsent := h actions
    rw [hrun, wings_amid_peer] at hsent
    exact (inOrder_reframed _ _ _).mp hsent
  · obtain ⟨frames, rest, hdecodes, hopen, hiff⟩ :=
      (safe_run streams limit keys actions).inOrder_sent_iff role
    exact hiff.mpr (h frames rest hdecodes hopen)
  · rintro e messages before after halt rfl rfl harrived hreads hhalt hturn
    obtain ⟨past, frame, rest, hrefuses⟩ := Connection.receives_refuses hreads hhalt hturn
    obtain ⟨hpast, hframe⟩ := hrefuses.not_inOrder rfl
    -- the pump finds the same frames as the read, and none of them stops it
    have hdecodes := hrefuses.decodes
    simp only [harrived] at hdecodes
    obtain ⟨actions, hrun⟩ := exists_forwarding streams keys hdecodes hrefuses.unclosed
    refine ⟨past, frame, actions, hpast, hframe, ⟨rest, hdecodes⟩, ?_⟩
    rw [hrun, wings_amid_peer, wings_amid_self]
    exact ⟨rfl, rfl, rfl, rfl⟩

/-- A text in two fragments with a ping between them stays in order, and the continuation of nothing
that the other peer sends is forwarded. -/
theorem forwards_in_order_iff_text_and_continuation :
    let key : MaskKey := ⟨1, 2, 3, 4⟩
    let frames : List Frame :=
      [.outgoing .client key .text false [104], .outgoing .client key .ping true [],
        .outgoing .client key .continuation true [105]]
    let streams (role : Role) : Bytes := match role with
      | .server => frames.flatMap Frame.encode
      | .client => [0x80, 0]
    (∀ actions, InOrder
        (((start streams 125 fun _ _ => .zero).run actions).wings .client).endpoint.sent) ∧
      ∃ actions, ¬ InOrder
        (((start streams 125 fun _ _ => .zero).run actions).wings .server).endpoint.sent := by
  intro key frames streams
  have hacceptable : ∀ frame ∈ frames, frame.Acceptable .server 125 := by
    simp only [frames, List.mem_cons, List.not_mem_nil, or_false, forall_eq_or_imp, forall_eq]
    exact ⟨⟨rfl, by decide, by decide, rfl, nofun, nofun⟩,
      ⟨rfl, by decide, by decide, rfl, by decide, nofun⟩,
      ⟨rfl, by decide, by decide, rfl, nofun, nofun⟩⟩
  have hall : Decodes .server 125 (streams .server) frames [] := by
    have hdecodes := Decodes.of_encode hacceptable []
    rwa [List.append_nil] at hdecodes
  constructor
  · refine (forwards_in_order_iff streams 125 (fun _ _ => .zero) .server).1.mpr
      fun others rest hothers _ => ?_
    have hinOrder : InOrder frames := by decide
    exact hinOrder.of_prefix (hothers.prefix_of_stuck hall nofun)
  · obtain ⟨past, frame, actions, -, hframe, -, hsent, -⟩ :=
      (forwards_in_order_iff streams 125 (fun _ _ => .zero) .client).2
        { role := .client, limit := 125, incoming := { arrived := [0x80, 0] } } [] _ _
        (.failed (.peer "continuation frame without a message in progress")) rfl rfl rfl rfl rfl
        (by decide)
    refine ⟨actions, ?_⟩
    have hserver : Role.client.peer = .server := rfl
    rw [hserver] at hsent
    rw [hsent, inOrder_reframed]
    exact hframe

end Pumps

/-- A continuation of nothing goes on to the server, where a read of whole messages refuses it. -/
theorem FrameRelay.forwards_continuation_of_nothing :
    let arrived : Bytes := [0x80, 0x80, 1, 2, 3, 4]
    let c : Connection := { endpoint := { role := .server, incoming := { arrived } } }
    let r := (start { arrived } {} defaultLimit).pump
    (c.run Connection.receive).1 =
        .error (.failed (.peer "continuation frame without a message in progress")) ∧
      r.server.sent = [Frame.outgoing .client .zero .continuation true []] ∧
      ¬ InOrder r.server.sent ∧ r.client.sent = [] ∧ r.outcome = none := by
  intro arrived c r
  have hsent : r.server.sent = [Frame.outgoing .client .zero .continuation true []] := by
    dsimp only [r, arrived]
    rfl
  refine ⟨?_, hsent, ?_, ?_, ?_⟩
  · dsimp only [c, arrived]
    rfl
  · rw [hsent]
    decide
  · dsimp only [r, arrived]
    rfl
  · dsimp only [r, arrived]
    rfl

/-- Whatever the peers of a relay do, what it sends to one of them is in order just as what it read
off the other one. -/
theorem FrameRelay.Reached.inOrder_sent_iff {limit : Nat} {drawKey : Nat → MaskKey}
    {streams : Role → Bytes} {r : FrameRelay} (h : Reached limit drawKey streams r) (role : Role) :
    ∃ frames rest, Decodes role limit (streams role) frames rest ∧ hasClose frames = false ∧
      (InOrder (r.facing role.peer).sent ↔ InOrder frames) := by
  obtain ⟨actions, hmirrors⟩ := h.mirrored fun _ => []
  simp only [List.append_nil] at hmirrors
  have hsafe := Pumps.safe_run streams limit (relayKeys drawKey) actions
  have hiff := hsafe.inOrder_sent_iff role
  rwa [hmirrors.facing role.peer] at hiff

end HttpRelay.Proxy
