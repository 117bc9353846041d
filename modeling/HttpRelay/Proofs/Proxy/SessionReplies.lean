import HttpRelay.Proofs.Proxy.Replies
import HttpRelay.Proofs.Proxy.SessionMoves

/-!
# How a session replies

Every function of a session goes on with the reply to one request, and keeps it in step with the
phase. There is one lemma for each function, and no later proof looks into one.

* `Session.Serves`: a session that stands in a reply, behind what it wrote before;
* `Session.Wrote`: what has been written of the reply while no frames are relayed;
* `Session.Serves.step`, `Session.Serves.receive`: a move that reads no head goes on with the
  reply;
* `Session.Serves.read`: one that reads a head begins the next.
-/

namespace HttpRelay.Proxy

open Http (RequestHead ResponseHead)

namespace Session

/-- A session that stands in a reply, behind what it answered earlier. -/
def Serves (earlier : List Answer) (s : Session) : Prop :=
  ∃ answers, s.answers = earlier ++ answers ∧ Standing s.phase s.frames answers

/-- A session that relays no frames, and has written a part of a reply behind what it answered
earlier. -/
def Wrote (part : List Answer → Prop) (earlier : List Answer) (s : Session) : Prop :=
  s.frames = none ∧ ∃ answers, s.answers = earlier ++ answers ∧ part answers

/-- A session that has not begun the response. -/
abbrev Unanswered : List Answer → Session → Prop := Wrote Interims

/-- A session that has begun the response. -/
abbrev Answering : List Answer → Session → Prop := Wrote Answered

variable {earlier : List Answer} {s s' : Session}

section Parts

variable {part part' : List Answer → Prop}

/-- Whatever else changes, what was written was written. -/
theorem Wrote.congr (h : Wrote part earlier s) (hanswers : s'.answers = s.answers)
    (hframes : s'.frames = s.frames) : Wrote part earlier s' := by
  rw [Wrote, hanswers, hframes]
  exact h

theorem Wrote.note (h : Wrote part earlier s) (direction : Direction) (kind : PayloadKind)
    (payload : Bytes) : Wrote part earlier (s.note direction kind payload) :=
  h.congr (answers_note ..) (frames_note ..)

theorem Wrote.act {action : Action} (h : Wrote part earlier s) (haction : action.answer? = none) :
    Wrote part earlier (s.act action) := by
  refine h.congr ?_ rfl
  rw [answers_act, haction, Option.toList_none, List.append_nil]

theorem Wrote.append {answer : Answer} (h : Wrote part earlier s)
    (hpart : ∀ {answers}, part answers → part' (answers ++ [answer]))
    (hanswers : s'.answers = s.answers ++ [answer]) (hframes : s'.frames = none) :
    Wrote part' earlier s' := by
  obtain ⟨-, answers, hearlier, hwritten⟩ := h
  refine ⟨hframes, answers ++ [answer], ?_, hpart hwritten⟩
  rw [hanswers, hearlier, List.append_assoc]

theorem Wrote.enter {phase : Phase} (h : Wrote part earlier s)
    (hphase : ∀ {answers}, part answers → Standing phase none answers) :
    Serves earlier (s.enter phase) := by
  obtain ⟨hframes, answers, hearlier, hwritten⟩ := h
  refine ⟨answers, hearlier, ?_⟩
  rw [frames_enter, hframes]
  exact hphase hwritten

/-- What has been written, from where a session stands. -/
theorem Serves.wrote (h : Serves earlier s)
    (hpart : ∀ {answers}, Standing s.phase s.frames answers → s.frames = none ∧ part answers) :
    Wrote part earlier s := by
  obtain ⟨answers, hearlier, hstanding⟩ := h
  obtain ⟨hframes, hwritten⟩ := hpart hstanding
  exact ⟨hframes, answers, hearlier, hwritten⟩

theorem Unanswered.finish (h : Unanswered earlier s) (result : Except Error Unit) :
    Serves earlier (s.enter (.ended result)) :=
  h.enter fun hinterims => .ended (.inl hinterims)

theorem Answering.body (h : Answering earlier s) (wire : Bytes) :
    Answering earlier (s.act (.answered (.body wire))) :=
  h.append Answered.append (answers_act ..) h.1

theorem Answering.finish (h : Answering earlier s) (result : Except Error Unit) :
    Serves earlier (s.enter (.ended result)) :=
  h.enter fun hanswered => .ended (.inr hanswered)

end Parts

section Requests

theorem Unanswered.refuse (h : Unanswered earlier s) (cause : Refusal) (error : Error) :
    Serves earlier (s.refuse cause error) := by
  rw [Session.refuse]
  split
  next =>
    have hrefused : Wrote Refused earlier (s.act (.answered (.refusal cause))) :=
      h.append (fun hinterims => ⟨_, cause, hinterims, rfl⟩) (answers_act ..) h.1
    exact hrefused.enter .refused
  next => exact h.finish _

theorem Unanswered.reject (h : Unanswered earlier s) (error : Error) :
    Serves earlier (s.reject error) := by
  unfold Session.reject
  split
  next => exact h.refuse _ _
  next => exact h.refuse _ _
  next => exact h.finish _

/-- Something is written, or the session ends. -/
theorem Unanswered.tell {answer : Answer} {next : Session → Session} (h : Unanswered earlier s)
    (hnext : ∀ s', s'.answers = s.answers ++ [answer] → s'.frames = none →
      Serves earlier (next s')) : Serves earlier (s.tell answer next) := by
  rw [Session.tell]
  split
  next => exact h.finish _
  next => exact hnext _ (answers_act ..) h.1

theorem Unanswered.tellHead {answer : Answer} {next : Session → Session}
    (h : Unanswered earlier s)
    (hnext : ∀ s', s'.answers = s.answers ++ [answer] → s'.frames = none →
      Serves earlier (next s')) : Serves earlier (s.tellHead answer next) := by
  have hnoted : Unanswered earlier (s.note .toClient .head answer.render) := h.note ..
  exact hnoted.tell fun s' hanswers => hnext s' (hanswers.trans (by rw [answers_note]))

theorem Unanswered.startUpload (h : Unanswered earlier s) (x : Exchange) (server : Link) :
    Serves earlier (s.startUpload x server) := by
  rw [Session.startUpload]
  split
  next =>
    refine h.tell fun s' hanswers hframes => ?_
    have hinterim : Unanswered earlier s' := h.append (·.append .proceed) hanswers hframes
    exact hinterim.enter (.serving rfl)
  next => exact h.enter (.serving rfl)

theorem Unanswered.sendHead (h : Unanswered earlier s) (x : Exchange) (server : Link) :
    Serves earlier (s.sendHead x server) := by
  rw [Session.sendHead]
  split
  next => exact h.finish _
  next => exact Unanswered.startUpload (h.act rfl) x server

theorem Unanswered.noteHead (h : Unanswered earlier s) (x : Exchange) :
    Unanswered earlier (s.noteHead x) :=
  h.note ..

theorem Unanswered.connect (h : Unanswered earlier s) (x : Exchange) (recorded : Bool) :
    Serves earlier (s.connect x recorded) :=
  h.enter (.serving rfl)

theorem Unanswered.reuse (h : Unanswered earlier s) (x : Exchange) (server : Link) :
    Serves earlier (s.reuse x server) := by
  rw [Session.reuse]
  have hnoted := h.noteHead x
  split
  next =>
    split
    next => exact hnoted.connect x true
    next => exact Wrote.enter (hnoted.act rfl) (.serving rfl)
  next => exact hnoted.sendHead x server

theorem Unanswered.serve (h : Unanswered earlier s) (pooled : Option Link) (head : RequestHead) :
    Serves earlier (s.serve pooled head) := by
  rw [Session.serve]
  split
  next => exact h.reject _
  next =>
    have hbegan : Unanswered earlier (s.act (.began head)) := h.act rfl
    dsimp only
    split
    next => exact hbegan.reject _
    next =>
      split
      next => exact hbegan.reuse _ _
      next => exact hbegan.connect _ _

end Requests

section Responses

theorem Unanswered.upgrade {head : ResponseHead} (h : Unanswered earlier s)
    (hhead : head.status = 101) (x : Exchange) (server : Link) :
    Serves earlier (s.upgrade x server head) := by
  rw [Session.upgrade]
  split
  next clientKey _ _ _ =>
    split
    next =>
      -- the status of the head that is written is that of the server's
      have hgranted : (grantedUpgrade head clientKey).status = 101 := hhead
      refine h.tellHead fun s' hanswers hframes => ?_
      obtain ⟨-, answers, hearlier, hswitched⟩ : Wrote Switched earlier s' :=
        h.append (fun hinterims => ⟨_, _, hinterims, hgranted, rfl⟩) hanswers hframes
      exact ⟨answers, hearlier, .upgraded hswitched⟩
    next => exact h.refuse _ _
  next => exact h.refuse _ _

theorem Unanswered.respond {head : ResponseHead} (h : Unanswered earlier s)
    (hhead : head.isInformational = false) (x : Exchange) (server : Link) :
    Serves earlier (s.respond x server head) := by
  rw [Session.respond]
  split
  next => exact h.refuse _ _
  next body _ =>
    have hfinal : (forwardedResponse head body (x.request.keepAlive && body != .untilClose)
      x.request.version).isInformational = false := hhead
    refine h.tellHead fun s' hanswers hframes => ?_
    have hanswered : Answering earlier s' :=
      h.append (fun hinterims => ⟨_, _, [], hinterims, hfinal, rfl⟩) hanswers hframes
    exact hanswered.enter .downloading

theorem Unanswered.receiveHead (h : Unanswered earlier s) (x : Exchange) (server : Link)
    (head : ResponseHead) : Serves earlier (s.receiveHead x server head) := by
  rw [Session.receiveHead]
  split
  next hswitch => exact h.upgrade hswitch x server
  next hswitch =>
    split
    next hinfo =>
      split
      -- the client has the leave to send its body already, and is not told
      next => exact h.enter (.serving rfl)
      next =>
        refine h.tellHead fun s' hanswers hframes => ?_
        have hinterim : Unanswered earlier s' :=
          h.append (·.append (.interim hinfo hswitch)) hanswers hframes
        exact hinterim.enter (.serving rfl)
    next hinfo => exact h.respond (Bool.eq_false_iff.mpr hinfo) x server

end Responses

section Bodies

theorem Unanswered.stepUpload {x : Exchange} {server : Link} {relay : BodyRelay}
    (h : Unanswered earlier s) (hstep : s.stepUpload x server relay = some s') :
    Serves earlier s' := by
  have hnoted : Unanswered earlier
      ({ s with client := { s.client with input := (relay.pass s.client.input).input } }.note
        .toServer .body (relay.pass s.client.input).payload) :=
    h.congr (answers_note ..) (frames_note ..)
  have honward (complete : Bool) (next : BodyRelay) :
      (if complete then Phase.awaiting x server else .uploading x server next).isServing =
        true := by
    cases complete <;> rfl
  unfold Session.stepUpload at hstep
  dsimp only at hstep
  split at hstep
  next => cases hstep
  next =>
    obtain rfl := Option.some.inj hstep
    exact hnoted.finish _
  next complete _ =>
    split at hstep
    next =>
      obtain rfl := Option.some.inj hstep
      exact hnoted.enter (.serving (honward complete _))
    next =>
      split at hstep
      next =>
        obtain rfl := Option.some.inj hstep
        exact hnoted.finish _
      next =>
        obtain rfl := Option.some.inj hstep
        exact Wrote.enter (hnoted.act rfl) (.serving (honward complete _))

/-- Behind a piece of the body comes the next piece, the next request or the end. -/
theorem Answering.onward (h : Answering earlier s) (complete keepAlive : Bool) (server : Link)
    (next : BodyRelay) (reusable : Bool) :
    Serves earlier (s.enter
      (if !complete then .downloading server next reusable keepAlive
      else if keepAlive then .idle (if reusable then some server else none)
      else .ended (.ok ()))) := by
  refine h.enter fun hanswered => ?_
  cases complete with
  | false => exact .downloading hanswered
  | true =>
    cases keepAlive with
    | false => exact .ended (.inr hanswered)
    | true => exact .idle (.inr hanswered)

theorem Answering.stepDownload {server : Link} {relay : BodyRelay} {reusable keepAlive : Bool}
    (h : Answering earlier s) (hstep : s.stepDownload server relay reusable keepAlive = some s') :
    Serves earlier s' := by
  have hnoted : Answering earlier (s.note .toClient .body (relay.pass server.input).payload) :=
    h.note ..
  unfold Session.stepDownload at hstep
  dsimp only at hstep
  split at hstep
  next => cases hstep
  next =>
    obtain rfl := Option.some.inj hstep
    exact hnoted.finish _
  next complete _ =>
    split at hstep
    next =>
      obtain rfl := Option.some.inj hstep
      exact hnoted.onward complete keepAlive _ _ reusable
    next =>
      split at hstep
      next =>
        obtain rfl := Option.some.inj hstep
        exact hnoted.finish _
      next =>
        obtain rfl := Option.some.inj hstep
        exact Answering.onward (hnoted.body _) complete keepAlive _ _ reusable

end Bodies

section Moves

/-- In a phase that serves a request, the response has not begun. -/
theorem Serves.unanswered {phase : Phase} (h : Serves earlier s) (hphase : s.phase = phase)
    (hserving : phase.isServing = true) : Unanswered earlier s :=
  h.wrote (·.of_serving (hphase ▸ hserving))

theorem Serves.answering {server : Link} {relay : BodyRelay} {reusable keepAlive : Bool}
    (h : Serves earlier s) (hphase : s.phase = .downloading server relay reusable keepAlive) :
    Answering earlier s :=
  h.wrote fun hstanding => Standing.of_downloading (hphase ▸ hstanding)

/-- Between replies, one has been written or none. -/
theorem Serves.idle {pooled : Option Link} (h : Serves earlier s)
    (hphase : s.phase = .idle pooled) :
    Wrote (fun answers => answers = [] ∨ Answered answers) earlier s :=
  h.wrote fun hstanding => Standing.of_idle (hphase ▸ hstanding)

theorem Serves.finish_idle {pooled : Option Link} (h : Serves earlier s)
    (hphase : s.phase = .idle pooled) (result : Except Error Unit) :
    Serves earlier (s.enter (.ended result)) := by
  refine (h.idle hphase).enter fun hanswered => .ended ?_
  rcases hanswered with rfl | hanswered
  · exact .inl interims_nil
  · exact .inr hanswered

/-- Frames that are relayed go on to be, until they end. -/
theorem Serves.withFrames (h : Serves earlier s) (hphase : s.phase = .upgraded)
    (relay : FrameRelay) : Serves earlier (s.withFrames relay) := by
  obtain ⟨answers, hearlier, hstanding⟩ := h
  rw [hphase] at hstanding
  have hswitched := hstanding.of_upgraded
  rw [Session.withFrames]
  split
  next result _ => exact ⟨answers, hearlier, .closed hswitched⟩
  next =>
    refine ⟨answers, hearlier, ?_⟩
    change Standing s.phase _ _
    rw [hphase]
    exact .upgraded hswitched

theorem Serves.stepFrames (h : Serves earlier s) (hphase : s.phase = .upgraded)
    (hstep : s.stepFrames = some s') : Serves earlier s' := by
  rw [Session.stepFrames] at hstep
  split at hstep
  next => cases hstep
  next =>
    split at hstep
    · obtain rfl := Option.some.inj hstep
      exact h.withFrames hphase _
    · obtain rfl := Option.some.inj hstep
      exact h.withFrames hphase _
    · cases hstep

/-- A step that reads no head goes on with the reply. -/
theorem Serves.step (h : Serves earlier s) (hreads : s.readsHead = false)
    (hstep : s.step = some s') : Serves earlier s' := by
  cases hphase : s.phase with
  | idle pooled =>
    -- with no head to read, the input has ended or the connection has failed
    rcases step_idle_cases hphase hstep with ⟨hread, -⟩ | ⟨-, result, rfl⟩
    · rw [hreads] at hread
      cases hread
    · exact Serves.finish_idle (s := s.pastHead) h hphase result
  | connecting =>
    rw [Session.step, hphase] at hstep
    cases hstep
  | probing x server =>
    have hopen := h.unanswered hphase rfl
    rw [Session.step, hphase] at hstep
    dsimp only at hstep
    split at hstep
    next => cases hstep
    next =>
      obtain rfl := Option.some.inj hstep
      exact hopen.startUpload x server
    next =>
      obtain rfl := Option.some.inj hstep
      exact hopen.connect x true
  | uploading x server relay =>
    rw [Session.step, hphase] at hstep
    exact (h.unanswered hphase rfl).stepUpload hstep
  | awaiting x server =>
    have hopen := h.unanswered hphase rfl
    rw [Session.step, hphase] at hstep
    dsimp only at hstep
    split at hstep
    next => cases hstep
    next =>
      obtain rfl := Option.some.inj hstep
      exact hopen.refuse _ _
    next =>
      obtain rfl := Option.some.inj hstep
      exact hopen.receiveHead x _ _
  | downloading server relay reusable keepAlive =>
    rw [Session.step, hphase] at hstep
    exact (h.answering hphase).stepDownload hstep
  | upgraded =>
    rw [Session.step, hphase] at hstep
    exact h.stepFrames hphase hstep
  | ended =>
    rw [Session.step, hphase] at hstep
    cases hstep

/-- A step that reads a head begins the next reply. -/
theorem Serves.read (h : Serves earlier s) (hreads : s.readsHead = true)
    (hstep : s.step = some s') : Serves s.answers s' := by
  obtain ⟨pooled, hphase⟩ := phase_of_readsHead hreads
  -- all that was written so far belongs to the replies before
  have hnone : Unanswered s.answers s.pastHead :=
    ⟨(h.idle hphase).1, [], (List.append_nil _).symm, interims_nil⟩
  rcases step_idle_cases hphase hstep with ⟨-, hread⟩ | ⟨hread, -⟩
  · rcases hread with ⟨error, rfl⟩ | ⟨head, rfl⟩
    · exact hnone.reject error
    · exact hnone.serve pooled head
  · rw [hreads] at hread
    cases hread

theorem Serves.receiveServer (h : Serves earlier s) (arrival : Arrival) :
    Serves earlier (s.receiveServer arrival) := by
  unfold Session.receiveServer
  split
  next hphase => exact (h.idle hphase).enter .idle
  next hphase => exact (h.unanswered hphase rfl).enter (.serving rfl)
  next hphase => exact (h.unanswered hphase rfl).enter (.serving rfl)
  next hphase => exact (h.unanswered hphase rfl).enter (.serving rfl)
  next hphase => exact (h.answering hphase).enter .downloading
  next => exact h
  next => exact h
  next => exact h

theorem Serves.receiveDial (h : Serves earlier s) (failure : Option IoFailure) :
    Serves earlier (s.receiveDial failure) := by
  unfold Session.receiveDial
  split
  next x _ recorded hphase =>
    have hopen : Unanswered earlier { s with connections := s.connections + 1 } :=
      h.unanswered hphase rfl
    dsimp only
    split
    next => exact hopen.sendHead _ _
    next => exact (hopen.noteHead x).sendHead _ _
  next hphase =>
    have hopen := h.unanswered hphase rfl
    split
    next => exact hopen.enter (.serving rfl)
    next => exact hopen.refuse _ _
  next => exact h

theorem Serves.expire (h : Serves earlier s) : Serves earlier s.expire := by
  unfold Session.expire
  split
  next hphase => exact h.finish_idle hphase _
  next hphase => exact (h.unanswered hphase rfl).refuse _ _
  next hphase => exact (h.unanswered hphase rfl).refuse _ _
  next hphase =>
    split
    next => exact h.withFrames hphase _
    next => exact h
  next => exact h

/-- Frames that are relayed change, and the reply does not. -/
theorem Serves.reframe (h : Serves earlier s) {relay : FrameRelay} (hframes : s.frames = some relay)
    (relay' : FrameRelay) : Serves earlier { s with frames := some relay' } := by
  obtain ⟨answers, hearlier, hstanding⟩ := h
  refine ⟨answers, hearlier, ?_⟩
  rw [hframes] at hstanding
  change Standing s.phase (some relay') answers
  generalize s.phase = phase at hstanding
  -- frames are relayed behind a change of protocol only
  cases hstanding with
  | upgraded hswitched => exact .upgraded hswitched
  | closed hswitched => exact .closed hswitched

/-- What happens outside goes on with the reply. -/
theorem Serves.receive (h : Serves earlier s) (event : Event) :
    Serves earlier (s.receive event) := by
  cases event with
  | client arrival =>
    unfold Session.receive
    dsimp only
    split
    next hframes => exact h.reframe hframes _
    next hframes => exact h
  | server arrival =>
    unfold Session.receive
    dsimp only
    split
    next hframes => exact h.reframe hframes _
    next hframes => exact h.receiveServer arrival
  | dialed failure => exact h.receiveDial failure
  | timedOut => exact h.expire

end Moves

end Session

end HttpRelay.Proxy
