import HttpRelay.Proofs.Proxy.PumpCourse

/-!
# Closing in good order

Two peers that keep to the protocol and whose connections last are relayed to the end: whatever the
pumps do first, no pump fails, every frame is forwarded up to the close of its peer, and both
connections end closed.

* `Pumps.Calm`: runs that nothing from outside disturbs;
* `Pumps.Orderly.run`: behind them, both pumps are in good order;
* `Pumps.faultless_run`: what this says about the peers;
* `Pumps.safe_and_faultless_run`: what two pumps do for any peers, and what they do for such peers.
-/

namespace HttpRelay.Proxy

open WebSocket

namespace Pumps

/-- What happens does not disturb two peers in good order: an input ends behind all that its peer
sends, a peer goes away behind its close, and the time is not up while a pump is awaited. -/
def Action.Calm (p : Pumps) : Action → Prop
  | finish role => (p.wings role).flight = []
  | leave role => (p.wings role).flight = [] ∧ hasClose (p.wings role).endpoint.sent = true
  | expire => p.isClosing = false
  | _ => True

/-- Nothing that happens disturbs two peers in good order. -/
def Calm : Pumps → List Action → Prop
  | _, [] => True
  | p, action :: actions => action.Calm p ∧ Calm (p.step action) actions

instance (p : Pumps) : DecidablePred (Action.Calm p)
  | .advance _ | .arrive _ _ | .hangUp _ => inferInstanceAs (Decidable True)
  | .finish role => inferInstanceAs (Decidable ((p.wings role).flight = []))
  | .leave role => inferInstanceAs
    (Decidable ((p.wings role).flight = [] ∧ hasClose (p.wings role).endpoint.sent = true))
  | .expire => inferInstanceAs (Decidable (p.isClosing = false))

/-- Whether a run is calm can be computed. -/
def decidableCalm : (p : Pumps) → (actions : List Action) → Decidable (p.Calm actions)
  | _, [] => .isTrue trivial
  | p, action :: actions =>
    @instDecidableAnd _ _ (inferInstanceAs (Decidable (action.Calm p)))
      (decidableCalm (p.step action) actions)

instance (p : Pumps) (actions : List Action) : Decidable (p.Calm actions) :=
  p.decidableCalm actions

/-- What holds of two pumps between peers in good order. -/
structure Orderly (limit : Nat) (keys : Role → Nat → MaskKey) (frames : Role → List Frame)
    (p : Pumps) : Prop where
  course : ∀ role, Course role limit (keys role.peer) (frames role) (p.wings role)
    (p.wings role.peer)
  timely : p.expired = false
  /-- A sending half is shut down behind both closes. -/
  shut : ∀ role, (p.wings role).endpoint.shut = true → p.isDone = true

variable {limit : Nat} {keys : Role → Nat → MaskKey} {frames : Role → List Frame} {p : Pumps}

theorem Orderly.course_peer (h : p.Orderly limit keys frames) (role : Role) :
    Course role.peer limit (keys role) (frames role.peer) (p.wings role.peer) (p.wings role) := by
  have hcourse := h.course role.peer
  rwa [Role.peer_peer] at hcourse

/-- Other wings that are in good order. -/
theorem orderly_moved {role : Role} {w w' : Wing}
    (hnear : Course role limit (keys role.peer) (frames role) w w')
    (hfar : Course role.peer limit (keys role) (frames role.peer) w' w)
    (htimely : p.expired = false)
    (hshut : w.endpoint.shut = true ∨ w'.endpoint.shut = true →
      w.stage.isDone = true ∧ w'.stage.isDone = true) :
    (p.moved role w w').Orderly limit keys frames := by
  have hdone (h : w.stage.isDone = true ∧ w'.stage.isDone = true) :
      (p.moved role w w').isDone = true := by
    refine isDone_iff.mpr (Role.forall_of_peer role ?_ ?_)
    · rw [wings_moved_self]
      exact h.1
    · rw [wings_moved_peer]
      exact h.2
  refine ⟨Role.forall_of_peer role ?_ ?_, htimely, Role.forall_of_peer role ?_ ?_⟩
  · rw [wings_moved_self, wings_moved_peer]
    exact hnear
  · rw [Role.peer_peer, wings_moved_self, wings_moved_peer]
    exact hfar
  · rw [wings_moved_self]
    exact fun h => hdone (hshut (.inl h))
  · rw [wings_moved_peer]
    exact fun h => hdone (hshut (.inr h))

/-- A step of a pump, while it makes any. -/
theorem Orderly.stride (h : p.Orderly limit keys frames) {role : Role} {stream : Bytes}
    (hspeaks : Speaks role limit stream (frames role)) :
    Stride role limit (keys role.peer) (keys role) (frames role) (frames role.peer)
      (p.wings role) ((p.advanced role).wings role) ((p.advanced role).wings role.peer) := by
  rw [wings_advanced_self, wings_advanced_peer]
  refine (h.course role).stride (h.course_peer role) hspeaks fun hstage => ?_
  refine Bool.eq_false_iff.mpr fun hshut => ?_
  rw [isDone_iff.mp (h.shut role.peer hshut) role] at hstage
  cases hstage

/-- A pump that goes on keeps both pumps in good order. -/
theorem Orderly.advance (h : p.Orderly limit keys frames) {role : Role} {stream : Bytes}
    (hspeaks : Speaks role limit stream (frames role)) (hdone : p.isDone = false) :
    (p.advanced role).Orderly limit keys frames := by
  have hstride := h.stride hspeaks
  rw [wings_advanced_self, wings_advanced_peer] at hstride
  obtain ⟨hshut, hshut'⟩ :=
    (Wing.moves_advance (p.wings role) (p.wings role.peer).endpoint).shut_eq
  refine orderly_moved hstride.near hstride.far h.timely ?_
  -- Nothing is shut down before both pumps are done.
  rintro (hnear | hfar)
  · rw [h.shut role (hshut ▸ hnear)] at hdone
    cases hdone
  · rw [h.shut role.peer (hshut' ▸ hfar)] at hdone
    cases hdone

/-- What happens to a wing without its pump keeps both pumps in good order, if the input does not
end too soon, the peer does not go away too soon, and nothing is shut down too soon. -/
theorem Orderly.altered (h : p.Orderly limit keys frames) {role : Role} (change : Wing → Wing)
    (hkeeps : (p.wings role).Keeps (change (p.wings role)))
    (hlasting : (change (p.wings role)).endpoint.incoming.closed = true →
      (p.wings role).flight = [])
    (hpresent : (change (p.wings role)).endpoint.peerGone = true →
      hasClose (p.wings role).endpoint.sent = true)
    (hshut : (change (p.wings role)).endpoint.shut = true → p.isDone = true) :
    (p.altered role change).Orderly limit keys frames := by
  have hcourse := h.course role
  refine orderly_moved ?_
    ((h.course_peer role).kept_other hkeeps.draws hkeeps.sent (by rw [hkeeps.stage])) h.timely
    fun hany => ?_
  · refine ⟨hkeeps.plays.trans hcourse.plays, hkeeps.accepts.trans hcourse.accepts, hcourse.draws,
      ?_, fun hclosed => hkeeps.flight (hlasting hclosed), ?_, ?_, ?_⟩
    · rw [hkeeps.received, hkeeps.unread]
      exact hcourse.unread
    · rw [hkeeps.stage, hkeeps.received]
      exact hcourse.conveys
    · rw [hkeeps.state, hkeeps.received, hkeeps.sent]
      exact hcourse.state
    · rw [hkeeps.sent]
      exact hpresent
  · have hdone : p.isDone = true := hany.elim hshut (h.shut role.peer)
    rw [hkeeps.stage]
    exact ⟨isDone_iff.mp hdone role, isDone_iff.mp hdone role.peer⟩

/-- Whatever happens without disturbing the peers keeps both pumps in good order. -/
theorem Orderly.step {streams : Role → Bytes} (h : p.Orderly limit keys frames)
    (hspeaks : ∀ role, Speaks role limit (streams role) (frames role)) {action : Action}
    (hcalm : action.Calm p) : (p.step action).Orderly limit keys frames := by
  cases action with
  | advance role =>
    rw [Pumps.step]
    by_cases hstay : (p.isOver || p.isBlocked role) = true
    · rw [if_pos hstay]
      exact h
    · rw [if_neg hstay]
      simp only [Bool.or_eq_true, isOver, not_or, Bool.not_eq_true] at hstay
      exact h.advance (hspeaks role) hstay.1.1.1.2
  | arrive role n =>
    have hcourse := h.course role
    obtain ⟨hclosed, hgone, hshut⟩ : ((p.wings role).arrive n).endpoint.incoming.closed =
          (p.wings role).endpoint.incoming.closed ∧
        ((p.wings role).arrive n).endpoint.peerGone = (p.wings role).endpoint.peerGone ∧
        ((p.wings role).arrive n).endpoint.shut = (p.wings role).endpoint.shut := by
      rw [Wing.arrive]
      split
      · exact ⟨rfl, rfl, rfl⟩
      next hopen => exact ⟨by rw [Feed.push, if_neg hopen], rfl, rfl⟩
    exact h.altered (·.arrive n) (Wing.keeps_arrive n) (hclosed ▸ hcourse.lasting)
      (hgone ▸ hcourse.present) (hshut ▸ h.shut role)
  | finish role =>
    exact h.altered Wing.finish Wing.keeps_finish (fun _ => hcalm) (h.course role).present
      (h.shut role)
  | leave role =>
    exact h.altered Wing.leave Wing.keeps_leave (fun _ => hcalm.1) (fun _ => hcalm.2) (h.shut role)
  | expire =>
    -- the time is up while no pump is awaited, so nothing comes of it
    have htimely : (p.expired || p.isClosing) = false := by
      rw [h.timely]
      exact hcalm
    exact ⟨h.course, htimely, h.shut⟩
  | hangUp role =>
    rw [Pumps.step]
    split
    next hover =>
      -- the time is not up, so both pumps are done
      rw [h.timely, Bool.false_or, Bool.and_eq_true] at hover
      exact h.altered Wing.hangUp Wing.keeps_hangUp (h.course role).lasting (h.course role).present
        fun _ => hover.1
    next => exact h

/-- A calm run keeps both pumps in good order. -/
theorem Orderly.run {streams : Role → Bytes} (h : p.Orderly limit keys frames)
    (hspeaks : ∀ role, Speaks role limit (streams role) (frames role)) {actions : List Action}
    (hcalm : p.Calm actions) : (p.run actions).Orderly limit keys frames := by
  induction actions generalizing p with
  | nil => exact h
  | cons action actions ih => exact ih (h.step hspeaks hcalm.1) hcalm.2

/-- Two pumps at their start are in good order. -/
theorem orderly_start {streams : Role → Bytes} {limit : Nat} (keys : Role → Nat → MaskKey)
    {frames : Role → List Frame}
    (hspeaks : ∀ role, Speaks role limit (streams role) (frames role)) :
    (start streams limit keys).Orderly limit keys frames := by
  refine ⟨fun role => ?_, rfl, fun role hshut => by cases hshut⟩
  obtain ⟨rest, hdecodes⟩ := (hspeaks role).decodes
  exact ⟨rfl, rfl, rfl, ⟨frames role, rest, rfl, hdecodes⟩, fun hclosed => (by cases hclosed),
    ⟨rfl, rfl⟩, rfl, fun hgone => (by cases hgone)⟩

/-- No pump fails between peers in good order. -/
theorem Orderly.isFailed_eq_false (h : p.Orderly limit keys frames) (role : Role) :
    (p.wings role).stage.isFailed = false :=
  (h.course role).conveys.isFailed_eq_false

/-- A pump that has not failed leaves the peer alone that it reads. -/
theorem stage_of_not_isFailed {stage : Stage} (h : stage.isFailed = false) :
    stage.toSource = [] ∧ stage.needsSource = false ∧ stage.isBroken = false := by
  cases stage with
  | failing _ | reporting _ _ | abandoning _ | parting _ _ => cases h
  | ended failure =>
    cases failure with
    | none => exact ⟨rfl, rfl, rfl⟩
    | some error => cases h
  | _ => exact ⟨rfl, rfl, rfl⟩

/-- A pump between peers in good order goes on until both are done. -/
theorem Orderly.step_advance (h : p.Orderly limit keys frames) (role : Role)
    (hdone : p.isDone = false) :
    p.step (.advance role) = p.advanced role := by
  -- Only a pump that failed ends the other one early, or takes the sending half towards its peer.
  have hkept (role : Role) := stage_of_not_isFailed (h.isFailed_eq_false role)
  have hover : p.isOver = false := by
    rw [isOver, h.timely, hdone, (hkept .client).2.2, (hkept .server).2.2]
    rfl
  have hblocked : p.isBlocked role = false := by
    rw [isBlocked, (hkept role.peer).1, (hkept role).2.1]
    simp
  exact Pumps.step_advance hover hblocked

/-- What happens without a pump leaves it where it is. When no bytes are on their way to it, none
are behind. -/
theorem step_of_ne_advance {role : Role} {action : Action} (hother : action ≠ .advance role) :
    ((p.step action).wings role).stage = (p.wings role).stage ∧
      ((p.step action).wings role).received = (p.wings role).received ∧
      ((p.wings role).flight = [] → ((p.step action).wings role).flight = []) := by
  have haltered {other : Role} (change : Wing → Wing)
      (hkeeps : (p.wings other).Keeps (change (p.wings other))) :
      ((p.altered other change).wings role).stage = (p.wings role).stage ∧
        ((p.altered other change).wings role).received = (p.wings role).received ∧
        ((p.wings role).flight = [] → ((p.altered other change).wings role).flight = []) := by
    rw [wings_altered]
    split
    next hsame => exact hsame ▸ ⟨hkeeps.stage, hkeeps.received, hkeeps.flight⟩
    next => exact ⟨rfl, rfl, id⟩
  cases action with
  | advance other =>
    -- the other pump writes to this wing, but leaves its pump alone
    obtain rfl : role = other.peer := Role.eq_peer_of_ne fun hsame => hother (by rw [hsame])
    rw [Pumps.step]
    split
    · exact ⟨rfl, rfl, id⟩
    · rw [wings_advanced_peer]
      exact ⟨rfl, rfl, id⟩
  | arrive other n => exact haltered (·.arrive n) (Wing.keeps_arrive n)
  | finish other => exact haltered Wing.finish Wing.keeps_finish
  | leave other => exact haltered Wing.leave Wing.keeps_leave
  | expire => exact ⟨rfl, rfl, id⟩
  | hangUp other =>
    rw [Pumps.step]
    split
    · exact haltered Wing.hangUp Wing.keeps_hangUp
    · exact ⟨rfl, rfl, id⟩

theorem remaining_congr {w w' : Wing} (hstage : w'.stage = w.stage)
    (hreceived : w'.received = w.received) (all : List Frame) :
    w'.remaining all = w.remaining all := by
  rw [Wing.remaining, Wing.remaining, hstage, hreceived]

/-- A pump that has no step to make is done. -/
theorem Orderly.remaining_eq_zero (h : p.Orderly limit keys frames) {role : Role} {stream : Bytes}
    (hspeaks : Speaks role limit stream (frames role))
    (hzero : (p.wings role).remaining (frames role) = 0) :
    (p.wings role).stage = .ended none := by
  have hconveys := (h.course role).conveys
  obtain ⟨todo, rest, hsplit, -⟩ := (h.course role).unread
  have hlength := congrArg List.length hsplit
  rw [List.length_append] at hlength
  -- Before the close is read, a frame is left, and with it there are steps to make.
  have hmore (hopen : hasClose (p.wings role).received = false) : 0 < todo.length := by
    obtain ⟨frame, more, rfl⟩ := hspeaks.exists_cons hsplit hopen
    exact Nat.zero_lt_succ _
  cases hstage : (p.wings role).stage with
  | resting | reading =>
    rw [hstage] at hconveys
    have := hmore hconveys.2
    simp only [Wing.remaining, hstage] at hzero
    omega
  | holding _ | writing _ => simp [Wing.remaining, hstage] at hzero
  | ended failure =>
    cases failure with
    | none => rfl
    | some error =>
      rw [hstage] at hconveys
      exact hconveys.elim
  | _ =>
    rw [hstage] at hconveys
    exact hconveys.elim

/-- A pump that has all bytes of its peer makes one step less with each of its steps, and no other
one more. -/
theorem Orderly.remaining_step (h : p.Orderly limit keys frames) {role : Role} {stream : Bytes}
    (hspeaks : Speaks role limit stream (frames role)) (hflight : (p.wings role).flight = [])
    (action : Action) :
    ((p.step action).wings role).flight = [] ∧
      ((p.step action).wings role).remaining (frames role) ≤
        (p.wings role).remaining (frames role) - if action = .advance role then 1 else 0 := by
  by_cases haction : action = .advance role
  · subst haction
    rw [if_pos rfl]
    cases hdone : p.isDone with
    | true =>
      -- the pump has ended, so there was no step left to begin with
      have hended := isDone_iff.mp hdone role
      have hover : p.isOver = true := by simp [isOver, hdone]
      have hsame : p.step (.advance role) = p := by
        rw [Pumps.step, hover]
        rfl
      have hnone : (p.wings role).remaining (frames role) = 0 := by
        cases hstage : (p.wings role).stage with
        | ended _ => simp [Wing.remaining, hstage]
        | _ =>
          rw [hstage] at hended
          cases hended
      rw [hsame, hnone]
      exact ⟨hflight, Nat.zero_le _⟩
    | false =>
      rw [h.step_advance role hdone]
      refine ⟨?_, ?_⟩
      · rw [wings_advanced_self, (Wing.moves_advance _ _).flight_eq]
        exact hflight
      · -- a pump waits only for bytes that are on their way
        rcases (h.stride hspeaks).fewer with ⟨hwaits, -⟩ | hfewer
        · exact absurd hflight hwaits
        · exact Nat.le_of_eq hfewer
  · obtain ⟨hstage, hreceived, hnone⟩ := step_of_ne_advance (p := p) haction
    rw [if_neg haction, remaining_congr hstage hreceived]
    exact ⟨hnone hflight, Nat.le_refl _⟩

/-- A pump that has all bytes of its peer is done when it made its steps. -/
theorem Orderly.remaining_run {streams : Role → Bytes} (h : p.Orderly limit keys frames)
    (hspeaks : ∀ role, Speaks role limit (streams role) (frames role)) {role : Role}
    (hflight : (p.wings role).flight = []) {actions : List Action} (hcalm : p.Calm actions) :
    ((p.run actions).wings role).remaining (frames role) ≤
      (p.wings role).remaining (frames role) - actions.count (.advance role) := by
  -- The bound drops with each step of the pump, and the steps left are never fewer than the bound.
  induction actions generalizing p with
  | nil => exact Nat.le_refl _
  | cons action actions ih =>
    obtain ⟨hflight', hfewer⟩ := h.remaining_step (hspeaks role) hflight action
    have hrest := ih (h.step hspeaks hcalm.1) hflight' hcalm.2
    rw [List.count_cons]
    change ((p.step action).run actions |>.wings role).remaining (frames role) ≤ _
    by_cases haction : action = .advance role
    · rw [if_pos haction] at hfewer
      rw [if_pos (beq_iff_eq.mpr haction)]
      omega
    · rw [if_neg haction] at hfewer
      rw [if_neg (by simpa using haction)]
      omega

/-- A pump makes four steps for a frame. -/
theorem Orderly.remaining_le (h : p.Orderly limit keys frames) (role : Role) :
    (p.wings role).remaining (frames role) ≤ 4 * (frames role).length := by
  have hconveys := (h.course role).conveys
  obtain ⟨todo, rest, hsplit, -⟩ := (h.course role).unread
  have hlength := congrArg List.length hsplit
  rw [List.length_append] at hlength
  cases hstage : (p.wings role).stage with
  | holding frame =>
    rw [hstage] at hconveys
    obtain ⟨past, hreceived, -⟩ := hconveys
    simp only [Wing.remaining, hstage, hlength, hreceived, List.length_append,
      List.length_singleton]
    omega
  | writing out =>
    rw [hstage] at hconveys
    obtain ⟨past, frame, hreceived, -⟩ := hconveys
    simp only [Wing.remaining, hstage, hlength, hreceived, List.length_append,
      List.length_singleton]
    omega
  | _ =>
    simp only [Wing.remaining, hstage]
    omega

/-- What two pumps do for two peers that keep to the protocol. -/
structure Faultless (keys : Role → Nat → MaskKey) (frames : Role → List Frame) (p : Pumps) :
    Prop where
  /-- No pump fails, on account of a state or anything else. -/
  unfailing : ∀ role, (p.wings role).stage.isFailed = false
  state : ∀ role, (p.wings role).endpoint.state ≠ .errored
  /-- The frames are those of the peer, and a peer is sent nothing but those of the other one. -/
  received : ∀ role, (p.wings role).received <+: frames role
  sent : ∀ role, ∃ forwarded, forwarded <+: (p.wings role.peer).received ∧
    (p.wings role).endpoint.sent = reframed role (keys role) forwarded
  /-- A pump that is done forwarded all frames, the close included. -/
  forwarded : ∀ role, (p.wings role).stage = .ended none →
    (p.wings role).received = frames role ∧
      (p.wings role.peer).endpoint.sent = reframed role.peer (keys role.peer) (frames role)
  /-- A connection is closed when a close was read off it and one was sent to it. -/
  closed : ∀ role, hasClose (p.wings role).received = true →
    hasClose (p.wings role).endpoint.sent = true → (p.wings role).endpoint.state = .closed
  /-- When both pumps are done, both connections are closed. -/
  done : (∀ role, (p.wings role).stage = .ended none) →
    ∀ role, (p.wings role).endpoint.state = .closed
  /-- A pump is done when it made its steps behind the arrival of all bytes of its peer, whatever
  happens besides. -/
  progress : ∀ role more, p.Calm more → (p.wings role).flight = [] →
    4 * (frames role).length ≤ more.count (.advance role) →
    ((p.run more).wings role).stage = .ended none

/-- Pumps in good order fail no peer. -/
theorem Orderly.faultless {streams : Role → Bytes} (h : p.Orderly limit keys frames)
    (hspeaks : ∀ role, Speaks role limit (streams role) (frames role)) :
    p.Faultless keys frames where
  unfailing := h.isFailed_eq_false
  state role := by
    rw [(h.course role).state]
    unfold State.ofCloses
    split <;> decide
  received role := by
    obtain ⟨todo, rest, hsplit, -⟩ := (h.course role).unread
    exact ⟨todo, hsplit.symm⟩
  sent role := by
    have hsent := (h.course_peer role).conveys.sent_eq
    rwa [Role.peer_peer] at hsent
  forwarded role hended := by
    have hconveys := (h.course role).conveys
    rw [hended] at hconveys
    exact hconveys
  closed role hreceived hsent := by
    rw [(h.course role).state, hreceived, hasClose_append, hsent, Bool.true_or]
    rfl
  done hended role := by
    have hconveys := (h.course role).conveys
    have hconveys' := (h.course_peer role).conveys
    rw [hended] at hconveys hconveys'
    rw [(h.course role).state, hconveys.1, (hspeaks role).hasClose_eq_true, hasClose_append,
      hconveys'.2, hasClose_reframed, (hspeaks role.peer).hasClose_eq_true]
    rfl
  progress role more hcalm hflight hmany := by
    have hfewer := h.remaining_run hspeaks hflight hcalm
    have hall := h.remaining_le role
    exact (h.run hspeaks hcalm).remaining_eq_zero (hspeaks role) (by omega)

/-- Two peers that keep to the protocol and that nothing disturbs are relayed to the end, however
the two pumps overtake each other. -/
theorem faultless_run {streams : Role → Bytes} {limit : Nat} (keys : Role → Nat → MaskKey)
    {frames : Role → List Frame}
    (hspeaks : ∀ role, Speaks role limit (streams role) (frames role)) {actions : List Action}
    (hcalm : (start streams limit keys).Calm actions) :
    ((start streams limit keys).run actions).Faultless keys frames :=
  ((orderly_start keys hspeaks).run hspeaks hcalm).faultless hspeaks

/-- What two pumps do, whatever the peers send and however the pumps overtake each other: they are
safe for the peers, and between peers that keep to the protocol they do not fail either of them. -/
theorem safe_and_faultless_run (streams : Role → Bytes) (limit : Nat) (keys : Role → Nat → MaskKey)
    (actions : List Action) :
    ((start streams limit keys).run actions).Safe streams limit keys ∧
      ∀ frames : Role → List Frame, (∀ role, Speaks role limit (streams role) (frames role)) →
        (start streams limit keys).Calm actions →
        ((start streams limit keys).run actions).Faultless keys frames :=
  ⟨safe_run streams limit keys actions, fun _ hspeaks hcalm => faultless_run keys hspeaks hcalm⟩

/-- Closes that cross are both forwarded, and one peer leaves behind them. What the client sends
goes on under the keys of the relay, and what the server sends goes on as it is. -/
theorem safe_and_faultless_crossing_closes :
    let said (role : Role) : List Frame := match role with
      | .server => [.outgoing .client ⟨1, 2, 3, 4⟩ .text true [104, 105]]
      | .client => []
    let close (role : Role) := Frame.outgoing role.peer ⟨5, 6, 7, 8⟩ .close true [3, 232]
    let frames := fun role => said role ++ [close role]
    let streams (role : Role) : Bytes := match role with
      | .server => [0x81, 0x82, 1, 2, 3, 4, 105, 107, 0x88, 0x82, 5, 6, 7, 8, 6, 238, 255]
      | .client => [0x88, 0x02, 3, 232, 255]
    let keys : Role → Nat → MaskKey := fun _ n => ⟨55, 250, 33, .ofNat (n + 1)⟩
    let actions : List Action :=
      [.arrive .server 9, .advance .server, .advance .client, .arrive .client 100, .advance .client,
        .advance .server, .advance .client, .advance .server, .arrive .server 100, .advance .server,
        .advance .client, .leave .server, .advance .server, .advance .server, .advance .server,
        .advance .server, .finish .client, .hangUp .client]
    let p := (start streams 125 keys).run actions
    p.isDone = true ∧ (p.wings .client).endpoint.shut = true ∧
      (p.wings .client).endpoint.wire =
        [0x81, 0x82, 55, 250, 33, 1, 95, 147, 0x88, 0x82, 55, 250, 33, 2, 52, 18] ∧
      (p.wings .server).endpoint.wire = [0x88, 0x02, 3, 232] ∧
      p.Safe streams 125 keys ∧ p.Faultless keys frames := by
  intro said close frames streams keys actions
  have hnormal : Close.ofPayload [3, 232] = .ok (some ⟨.normal, ""⟩) :=
    @Close.ofPayload_octets ⟨.normal, ""⟩ rfl
  have hsaid : ∀ role, ∀ frame ∈ said role, frame.Acceptable role 125
    | .server, frame, hframe => by
      obtain rfl := List.mem_singleton.mp hframe
      exact ⟨rfl, by decide, by decide, rfl, nofun, nofun⟩
  have hclose : ∀ role, (close role).Acceptable role 125
    | .client | .server => ⟨rfl, by decide, by decide, rfl, by decide, fun _ => ⟨_, hnormal⟩⟩
  have hstreams : ∀ role, streams role = (frames role).flatMap Frame.encode ++ [255]
    | .client | .server => by decide +kernel
  have hspeaks (role : Role) : Speaks role 125 (streams role) (frames role) := by
    rw [hstreams role]
    exact .of_encode (hsaid role) (by cases role <;> rfl) (hclose role) rfl [255]
  obtain ⟨hsafe, hfaultless⟩ := safe_and_faultless_run streams 125 keys actions
  exact ⟨by decide +kernel, by decide +kernel, by decide +kernel, by decide +kernel, hsafe,
    hfaultless frames hspeaks (by decide +kernel)⟩

end Pumps

end HttpRelay.Proxy
