import HttpRelay.Proofs.Chunked.Consuming
import HttpRelay.Proofs.Proxy.Replies
import HttpRelay.Proofs.Proxy.SessionMoves

/-!
# The request that a session serves

From the head of a request to the head of the response a session is about that one request, and
takes nothing off the client's connection but the body of it. Whatever else the client sends
meanwhile stays where it is.

* `BodyRelay.Took`: what a relay has taken of a body;
* `Underway`: how far a session has come with a request;
* `Delivers`: what comes of the relay of the body of a response;
* `Session.Serving`: the same with what is left of the client's input, one lemma for each function
  of a session;
* `Session.underway_followExchange`: the moves of an exchange go on with the request;
* `Session.underway_of_read`: from the step that reads its head on.
-/

namespace HttpRelay.Proxy

open Http (RequestHead ResponseHead)

namespace BodyRelay

variable {kind : Http.BodyKind} {relay : BodyRelay} {input : Buffered} {complete : Bool}

/-- A forward that does not halt carries over what it takes off its input, or finds the end. -/
theorem forward_ok {next : Nat → BodyRelay} {limit : Nat} {atEnd : Except (Halt Error) Bool}
    (h : (forward next limit atEnd input).status = .ok complete) :
    ∃ data, input.pending = data ++ (forward next limit atEnd input).input.pending ∧
      data.length ≤ limit ∧ (forward next limit atEnd input).next = next data.length ∧
      (complete = false ∨ atEnd = .ok complete) := by
  rcases hread : (input.readSome limit : Except (Halt IoFailure) Bytes × Buffered) with
    ⟨halt | data, input'⟩
  · rw [forward, hread] at h
    cases h
  · obtain ⟨hpending, hlength⟩ := Buffered.readSome_ok hread
    rw [forward, hread] at h ⊢
    dsimp only at h ⊢
    split at h
    next hend =>
      obtain rfl := List.isEmpty_iff.mp hend
      exact ⟨[], hpending, hlength, rfl, .inr h⟩
    next hsome =>
      rw [if_neg hsome]
      exact ⟨data, hpending, hlength, rfl, .inl (Except.ok.inj h).symm⟩

theorem forward_suffix {next : Nat → BodyRelay} {limit : Nat} {atEnd : Except (Halt Error) Bool}
    (h : (forward next limit atEnd input).status = .ok complete) :
    (forward next limit atEnd input).input.pending <:+ input.pending := by
  obtain ⟨data, hpending, -⟩ := forward_ok h
  exact ⟨data, hpending.symm⟩

/-- A pass that does not halt takes bytes off the front of its input. -/
theorem pass_suffix (h : (relay.pass input).status = .ok complete) :
    (relay.pass input).input.pending <:+ input.pending := by
  cases relay with
  | done => exact List.suffix_rfl
  | counted left =>
    cases left with
    | zero => exact List.suffix_rfl
    | succ left => exact forward_suffix h
  | untilClose => exact forward_suffix h
  | chunked remaining =>
    cases hstatus : (Chunked.Copy.pass { reader := { input, remaining } }).status with
    | error halt =>
      rw [pass, hstatus] at h
      cases h
    | ok complete' => exact Chunked.Copy.pass_suffix hstatus

/-- What a relay of a kind has taken off its input since it began, where it stands, and whether it
is complete. -/
inductive Took (kind : Http.BodyKind) : Bytes → BodyRelay → Bool → Prop
  | start : Took kind [] (ofKind kind) false
  | pass {taken piece : Bytes} {relay : BodyRelay} {input : Buffered} {complete : Bool}
      (before : Took kind taken relay false)
      (status : (relay.pass input).status = .ok complete)
      (split : input.pending = piece ++ (relay.pass input).input.pending) :
      Took kind (taken ++ piece) (relay.pass input).next complete

/-- A body that is empty takes nothing. -/
theorem Took.of_empty {taken : Bytes} (h : Took .empty taken relay complete) :
    taken = [] ∧ relay = .done := by
  induction h with
  | start => exact ⟨rfl, rfl⟩
  | pass before status split ih =>
    obtain ⟨rfl, rfl⟩ := ih
    have hpiece := List.append_cancel_right (split.symm.trans (List.nil_append _).symm)
    exact ⟨hpiece, rfl⟩

/-- A body with a length takes as many bytes. -/
theorem Took.of_contentLength {length : Nat} {taken : Bytes}
    (h : Took (.contentLength length) taken relay complete) :
    ∃ left, relay = .counted left ∧ taken.length + left = length ∧
      (complete = true → left = 0) := by
  induction h with
  | start => exact ⟨length, rfl, by simp, nofun⟩
  | @pass taken piece relay input complete before status split ih =>
    obtain ⟨left, rfl, hlength, -⟩ := ih
    cases left with
    | zero =>
      have hpiece := List.append_cancel_right (split.symm.trans (List.nil_append _).symm)
      exact ⟨0, rfl, by simpa [hpiece] using hlength, fun _ => rfl⟩
    | succ left =>
      -- a pass forwards no more than is left, and is not complete at the end of the input
      obtain ⟨data, hdata, hle, hnext, hcomplete⟩ := forward_ok status
      obtain rfl : piece = data := List.append_cancel_right (split.symm.trans hdata)
      rw [passLength] at hle
      refine ⟨left + 1 - piece.length, hnext, ?_, ?_⟩
      · rw [List.length_append]
        omega
      · rcases hcomplete with rfl | hend
        · exact nofun
        · cases hend

end BodyRelay

/-- How far a session has come with a request: what has been taken of its body in each phase. -/
inductive Underway (x : Exchange) : Bytes → Phase → Prop
  | connecting {attempts : Service.Backoff} {recorded : Bool} :
      Underway x [] (.connecting x attempts recorded)
  | probing {server : Link} : Underway x [] (.probing x server)
  | uploading {taken : Bytes} {server : Link} {relay : BodyRelay}
      (h : BodyRelay.Took x.body taken relay false) : Underway x taken (.uploading x server relay)
  | awaiting {taken : Bytes} {server : Link} {relay : BodyRelay}
      (h : BodyRelay.Took x.body taken relay true) : Underway x taken (.awaiting x server)
  | past {taken : Bytes} {phase : Phase} (h : phase.isServing = false) : Underway x taken phase

namespace Underway

variable {x x' : Exchange} {taken : Bytes} {server : Link}

theorem of_connecting {attempts : Service.Backoff} {recorded : Bool}
    (h : Underway x taken (.connecting x' attempts recorded)) : x' = x ∧ taken = [] := by
  cases h with
  | connecting => exact ⟨rfl, rfl⟩
  | past hpast => cases hpast

theorem of_probing (h : Underway x taken (.probing x' server)) : x' = x ∧ taken = [] := by
  cases h with
  | probing => exact ⟨rfl, rfl⟩
  | past hpast => cases hpast

theorem of_uploading {relay : BodyRelay} (h : Underway x taken (.uploading x' server relay)) :
    x' = x ∧ BodyRelay.Took x.body taken relay false := by
  cases h with
  | uploading htook => exact ⟨rfl, htook⟩
  | past hpast => cases hpast

/-- The request that is awaited an answer for is the one under way. -/
theorem of_awaiting (h : Underway x taken (.awaiting x' server)) :
    x' = x ∧ ∃ relay, BodyRelay.Took x.body taken relay true := by
  cases h with
  | awaiting htook => exact ⟨rfl, _, htook⟩
  | past hpast => cases hpast

end Underway

/-- What comes of the relay of a body, behind which the connection is kept or not. -/
inductive Delivers (keepAlive : Bool) : Phase → Prop
  | relaying {server : Link} {relay : BodyRelay} {reusable : Bool} :
      Delivers keepAlive (.downloading server relay reusable keepAlive)
  | kept {pooled : Option Link} (h : keepAlive = true) : Delivers keepAlive (.idle pooled)
  | closed (h : keepAlive = false) : Delivers keepAlive (.ended (.ok ()))
  | failed {error : Error} : Delivers keepAlive (.ended (.error error))

/-- A failed connection does not make up a value. -/
theorem Link.resolve_ok {ε α : Type} {link : Link} {failed : IoFailure → ε}
    {result : Except (Halt ε) α} {a : α} (h : link.resolve failed result = .ok a) :
    result = .ok a := by
  unfold resolve at h
  split at h
  · cases h
  · exact h

namespace Session

/-- A session that has come so far with a request, and what is left of the client's input. -/
structure Serving (x : Exchange) (taken : Bytes) (input : Buffered) (s : Session) : Prop where
  input : s.client.input = input
  underway : Underway x taken s.phase

variable {x : Exchange} {taken : Bytes} {input : Buffered} {s s' : Session}

@[simp] theorem client_act (s : Session) (action : Action) : (s.act action).client = s.client := rfl

@[simp] theorem client_note (s : Session) (direction : Direction) (kind : PayloadKind)
    (payload : Bytes) : (s.note direction kind payload).client = s.client := by
  rw [note]
  split <;> rfl

/-- A head is written, or nobody receives it and the session fails. -/
theorem tellHead_cases (s : Session) (answer : Answer) (next : Session → Session) :
    (∃ (s₁ : Session) (error : Error), s.tellHead answer next = s₁.fail error) ∨
      ∃ s₁ : Session, s₁.client = s.client ∧ s₁.answers = s.answers ++ [answer] ∧
        s.tellHead answer next = next s₁ := by
  rw [tellHead, tell]
  split
  · exact .inl ⟨_, _, rfl⟩
  · refine .inr ⟨_, ?_, ?_, rfl⟩
    · rw [client_act, client_note]
    · rw [answers_act, answers_note]
      rfl

section Parts

theorem serving_enter {phase : Phase} (hinput : s.client.input = input)
    (hphase : Underway x taken phase) : Serving x taken input (s.enter phase) :=
  ⟨hinput, hphase⟩

theorem serving_fail (hinput : s.client.input = input) (error : Error) :
    Serving x taken input (s.fail error) :=
  serving_enter hinput (.past rfl)

theorem serving_refuse (hinput : s.client.input = input) (cause : Refusal) (error : Error) :
    Serving x taken input (s.refuse cause error) := by
  refine serving_fail ?_ error
  split
  · exact hinput
  · exact hinput

/-- Something is written and the session goes on, or it fails. -/
theorem serving_tell {next : Session → Session} (hinput : s.client.input = input)
    (answer : Answer)
    (hnext : ∀ s', s'.client.input = input → Serving x taken input (next s')) :
    Serving x taken input (s.tell answer next) := by
  rw [tell]
  split
  · exact serving_fail hinput _
  · exact hnext _ hinput

theorem serving_tellHead {next : Session → Session} (hinput : s.client.input = input)
    (answer : Answer)
    (hnext : ∀ s', s'.client.input = input → Serving x taken input (next s')) :
    Serving x taken input (s.tellHead answer next) :=
  serving_tell (by rw [client_note, hinput]) answer hnext

theorem serving_startUpload (hinput : s.client.input = input) (server : Link) :
    Serving x [] input (s.startUpload x server) := by
  rw [startUpload]
  split
  · exact serving_tell hinput _ fun s' hinput => serving_enter hinput (.uploading .start)
  · exact serving_enter hinput (.uploading .start)

theorem serving_sendHead (hinput : s.client.input = input) (server : Link) :
    Serving x [] input (s.sendHead x server) := by
  rw [sendHead]
  split
  · exact serving_fail hinput _
  · exact serving_startUpload (s := s.act _) hinput server

theorem serving_connect (hinput : s.client.input = input) (recorded : Bool) :
    Serving x [] input (s.connect x recorded) :=
  serving_enter hinput .connecting

theorem serving_reuse (hinput : s.client.input = input) (server : Link) :
    Serving x [] input (s.reuse x server) := by
  have hnoted : (s.noteHead x).client.input = input := by rw [noteHead, client_note, hinput]
  rw [reuse]
  split
  · split
    · exact serving_connect hnoted true
    · exact serving_enter hnoted .probing
  · exact serving_sendHead hnoted server

/-- A session that refuses serves nothing. -/
theorem isServing_refuse (s : Session) (cause : Refusal) (error : Error) :
    (s.refuse cause error).phase.isServing = false := rfl

theorem isServing_reject (s : Session) (error : Error) :
    (s.reject error).phase.isServing = false := by
  unfold reject
  split <;> rfl

/-- A session that serves a request is under way with it, and has taken nothing of its body. -/
theorem serving_serve {pooled : Option Link} {head : RequestHead}
    (hserving : (s.serve pooled head).phase.isServing = true) :
    ∃ x : Exchange, x.request = head ∧ head.bodyKind = .ok x.body ∧
      Serving x [] s.client.input (s.serve pooled head) := by
  rw [serve] at hserving ⊢
  split at hserving
  next => exact absurd hserving (by simp [isServing_reject])
  next body hbody =>
    dsimp only at hserving ⊢
    split at hserving
    next => exact absurd hserving (by simp [isServing_reject])
    next keys _ =>
      refine ⟨{ request := head, body, keys }, rfl, hbody, ?_⟩
      cases pooled with
      | some server => exact serving_reuse (s := s.act _) rfl server
      | none => exact serving_connect (s := s.act _) rfl false

theorem serving_respond (hinput : s.client.input = input) (server : Link) (head : ResponseHead) :
    Serving x taken input (s.respond x server head) := by
  rw [respond]
  split
  · exact serving_refuse hinput _ _
  · exact serving_tellHead hinput _ fun s' hinput => serving_enter hinput (.past rfl)

theorem serving_upgrade (hinput : s.client.input = input) (server : Link) (head : ResponseHead) :
    Serving x taken input (s.upgrade x server head) := by
  rw [upgrade]
  split
  · split
    · exact serving_tellHead hinput _ fun s' hinput => ⟨hinput, .past rfl⟩
    · exact serving_refuse hinput _ _
  · exact serving_refuse hinput _ _

/-- The head of a response is awaited until one does not announce another. -/
theorem serving_receiveHead {relay : BodyRelay} (hinput : s.client.input = input)
    (htook : BodyRelay.Took x.body taken relay true) (server : Link) (head : ResponseHead) :
    Serving x taken input (s.receiveHead x server head) := by
  rw [receiveHead]
  split
  · exact serving_upgrade hinput server head
  · split
    · split
      · exact serving_enter hinput (.awaiting htook)
      · exact serving_tellHead hinput _ fun s' hinput => serving_enter hinput (.awaiting htook)
    · exact serving_respond hinput server head

end Parts

section Moves

/-- A piece of the body of a request is taken off the client. -/
theorem underway_stepUpload {server : Link} {relay : BodyRelay}
    (htook : BodyRelay.Took x.body taken relay false)
    (hstep : s.stepUpload x server relay = some s') (hserving : s'.phase.isServing = true) :
    ∃ piece, s.client.input.pending = piece ++ s'.client.input.pending ∧
      Underway x (taken ++ piece) s'.phase := by
  -- with the pass, what it took counts as taken
  have honward {s' : Session} {complete : Bool}
      (hstatus : (relay.pass s.client.input).status = .ok complete)
      (hinput : s'.client.input = (relay.pass s.client.input).input)
      (hphase : s'.phase = if complete then .awaiting x server
        else .uploading x server (relay.pass s.client.input).next) :
      ∃ piece, s.client.input.pending = piece ++ s'.client.input.pending ∧
        Underway x (taken ++ piece) s'.phase := by
    obtain ⟨piece, hpiece⟩ := BodyRelay.pass_suffix hstatus
    have hnext := htook.pass hstatus hpiece.symm
    rw [hinput, hphase]
    refine ⟨piece, hpiece.symm, ?_⟩
    cases complete with
    | true => exact .awaiting hnext
    | false => exact .uploading hnext
  unfold stepUpload at hstep
  dsimp only at hstep
  split at hstep
  next => cases hstep
  next =>
    obtain rfl := Option.some.inj hstep
    cases hserving
  next hresolve =>
    have hstatus := Link.resolve_ok hresolve
    split at hstep
    next =>
      obtain rfl := Option.some.inj hstep
      exact honward hstatus (congrArg Link.input (client_note ..)) rfl
    next =>
      split at hstep
      next =>
        obtain rfl := Option.some.inj hstep
        cases hserving
      next =>
        obtain rfl := Option.some.inj hstep
        exact honward hstatus (congrArg Link.input (client_note ..)) rfl

/-- Bytes that arrive from the client with a move. Nothing arrives behind the close, and frames are
read from elsewhere. -/
def arrives (s : Session) : Move → Bytes
  | .event (.client (.bytes bytes)) =>
    if s.frames.isSome || s.client.input.feed.closed then [] else bytes
  | _ => []

/-- Bytes that arrive from the client with some moves. -/
def heard (s : Session) : List Move → Bytes
  | [] => []
  | m :: moves => s.arrives m ++ ((s.move m).elim [] fun s' => s'.heard moves)

theorem pending_push (b : Buffered) (bytes : Bytes) :
    (b.push bytes).pending = b.pending ++ if b.feed.closed then [] else bytes := by
  rw [Buffered.push, Buffered.pending, Buffered.pending, Feed.push]
  split <;> simp

/-- A session that is still serving behind a step goes on with the request. -/
theorem underway_step (hunder : Underway x taken s.phase) (hserves : s.phase.isServing = true)
    (hstep : s.step = some s') (hserving : s'.phase.isServing = true) :
    ∃ piece, s.client.input.pending = piece ++ s'.client.input.pending ∧
      Underway x (taken ++ piece) s'.phase := by
  -- only the upload takes anything off the client
  have hkept (h : Serving x taken s.client.input s') :
      ∃ piece, s.client.input.pending = piece ++ s'.client.input.pending ∧
        Underway x (taken ++ piece) s'.phase := by
    refine ⟨[], by rw [h.input, List.nil_append], ?_⟩
    rw [List.append_nil]
    exact h.underway
  cases hphase : s.phase with
  | connecting =>
    rw [step, hphase] at hstep
    cases hstep
  | probing y server =>
    rw [hphase] at hunder
    rw [step, hphase] at hstep
    dsimp only at hstep
    obtain ⟨rfl, rfl⟩ := hunder.of_probing
    split at hstep
    next => cases hstep
    next =>
      obtain rfl := Option.some.inj hstep
      exact hkept (serving_startUpload rfl server)
    next =>
      obtain rfl := Option.some.inj hstep
      exact hkept (serving_connect rfl true)
  | uploading y server relay =>
    rw [hphase] at hunder
    rw [step, hphase] at hstep
    obtain ⟨rfl, htook⟩ := hunder.of_uploading
    exact underway_stepUpload htook hstep hserving
  | awaiting y server =>
    rw [hphase] at hunder
    rw [step, hphase] at hstep
    dsimp only at hstep
    obtain ⟨rfl, relay, htook⟩ := hunder.of_awaiting
    split at hstep
    next => cases hstep
    next =>
      obtain rfl := Option.some.inj hstep
      cases hserving
    next =>
      obtain rfl := Option.some.inj hstep
      exact hkept (serving_receiveHead rfl htook _ _)
  | idle | downloading | upgraded | ended => rw [hphase] at hserves; cases hserves

theorem serving_receiveServer (hunder : Underway x taken s.phase) (arrival : Arrival) :
    Serving x taken s.client.input (s.receiveServer arrival) := by
  unfold receiveServer
  split
  next => exact serving_enter rfl (.past rfl)
  next hphase =>
    rw [hphase] at hunder
    obtain ⟨rfl, rfl⟩ := hunder.of_probing
    exact serving_enter rfl .probing
  next hphase =>
    rw [hphase] at hunder
    obtain ⟨rfl, htook⟩ := hunder.of_uploading
    exact serving_enter rfl (.uploading htook)
  next hphase =>
    rw [hphase] at hunder
    obtain ⟨rfl, relay, htook⟩ := hunder.of_awaiting
    exact serving_enter rfl (.awaiting htook)
  next => exact serving_enter rfl (.past rfl)
  next => exact ⟨rfl, hunder⟩
  next => exact ⟨rfl, hunder⟩
  next => exact ⟨rfl, hunder⟩

theorem serving_receiveDial (hunder : Underway x taken s.phase) (failure : Option IoFailure) :
    Serving x taken s.client.input (s.receiveDial failure) := by
  unfold receiveDial
  split
  next y _ recorded hphase =>
    rw [hphase] at hunder
    obtain ⟨rfl, rfl⟩ := hunder.of_connecting
    -- the head is recorded unless it was, and is then written on the new connection
    refine serving_sendHead ?_ _
    split
    · rfl
    · rw [noteHead, client_note]
  next hphase =>
    rw [hphase] at hunder
    obtain ⟨rfl, rfl⟩ := hunder.of_connecting
    split
    · exact serving_enter rfl .connecting
    · exact serving_refuse rfl _ _
  next => exact ⟨rfl, hunder⟩

theorem serving_expire (hunder : Underway x taken s.phase) :
    Serving x taken s.client.input s.expire := by
  unfold expire
  split
  next => exact serving_enter rfl (.past rfl)
  next => exact serving_refuse rfl _ _
  next => exact serving_refuse rfl _ _
  next hphase =>
    split
    next =>
      rw [withFrames]
      split
      · exact ⟨rfl, .past rfl⟩
      · exact ⟨rfl, hunder⟩
    next => exact ⟨rfl, hunder⟩
  next => exact ⟨rfl, hunder⟩

/-- What happens outside takes nothing off the client's input, and adds what arrives. -/
theorem underway_receive (hunder : Underway x taken s.phase) (event : Event) :
    (s.receive event).client.input.pending =
        s.client.input.pending ++ s.arrives (.event event) ∧
      Underway x taken (s.receive event).phase := by
  have hkept (h : Serving x taken s.client.input (s.receive event))
      (hnone : s.arrives (.event event) = []) :
      (s.receive event).client.input.pending =
          s.client.input.pending ++ s.arrives (.event event) ∧
        Underway x taken (s.receive event).phase := by
    rw [h.input, hnone, List.append_nil]
    exact ⟨rfl, h.underway⟩
  cases event with
  | client arrival =>
    cases hframes : s.frames with
    | some relay =>
      have hreceive : s.receive (.client arrival) =
          { s with frames := some { relay with
              client := receiveFrames relay.client arrival } } := by
        rw [receive, hframes]
      refine hkept (hreceive ▸ ⟨rfl, hunder⟩) ?_
      cases arrival <;> simp [arrives, hframes]
    | none =>
      have hreceive : s.receive (.client arrival) =
          { s with client := s.client.receive arrival } := by
        rw [receive, hframes]
      rw [hreceive]
      refine ⟨?_, hunder⟩
      cases arrival with
      | bytes bytes =>
        rw [arrives, hframes, Option.isSome_none, Bool.false_or]
        exact pending_push s.client.input bytes
      | close | gone | lost => exact (List.append_nil _).symm
  | server arrival =>
    refine hkept ?_ rfl
    cases hframes : s.frames with
    | some relay =>
      rw [receive, hframes]
      exact ⟨rfl, hunder⟩
    | none =>
      rw [receive, hframes]
      exact serving_receiveServer hunder arrival
  | dialed failure => exact hkept (serving_receiveDial hunder failure) rfl
  | timedOut => exact hkept (serving_expire hunder) rfl

theorem isServing_withFrames (hphase : s.phase = .upgraded) (relay : FrameRelay) :
    (s.withFrames relay).phase.isServing = false := by
  rw [withFrames]
  split
  · rfl
  · exact congrArg Phase.isServing hphase

theorem isServing_stepFrames (hphase : s.phase = .upgraded) (hstep : s.stepFrames = some s') :
    s'.phase.isServing = false := by
  rw [stepFrames] at hstep
  split at hstep
  · cases hstep
  · split at hstep
    · obtain rfl := Option.some.inj hstep
      exact isServing_withFrames hphase _
    · obtain rfl := Option.some.inj hstep
      exact isServing_withFrames hphase _
    · cases hstep

/-- A piece of a body is relayed, and behind the last one the connection is kept or not. -/
theorem delivers_stepDownload {server : Link} {relay : BodyRelay} {reusable keepAlive : Bool}
    (hstep : s.stepDownload server relay reusable keepAlive = some s') :
    Delivers keepAlive s'.phase := by
  have honward (complete : Bool) (next : BodyRelay) (server : Link) : Delivers keepAlive
      (if !complete then .downloading server next reusable keepAlive
        else if keepAlive then .idle (if reusable then some server else none)
        else .ended (.ok ())) := by
    cases complete with
    | false => exact .relaying
    | true =>
      cases keepAlive with
      | false => exact .closed rfl
      | true => exact .kept rfl
  unfold stepDownload at hstep
  dsimp only at hstep
  split at hstep
  next => cases hstep
  next =>
    obtain rfl := Option.some.inj hstep
    exact .failed
  next =>
    split at hstep
    next =>
      obtain rfl := Option.some.inj hstep
      exact honward _ _ _
    next =>
      split at hstep
      next =>
        obtain rfl := Option.some.inj hstep
        exact .failed
      next =>
        obtain rfl := Option.some.inj hstep
        exact honward _ _ _

theorem isServing_stepDownload {server : Link} {relay : BodyRelay} {reusable keepAlive : Bool}
    (hstep : s.stepDownload server relay reusable keepAlive = some s') :
    s'.phase.isServing = false := by
  have hdelivers := delivers_stepDownload hstep
  generalize s'.phase = phase at hdelivers
  cases hdelivers with
  | relaying | kept | closed | failed => rfl

theorem isServing_receiveServer (hover : s.phase.isServing = false) (arrival : Arrival) :
    (s.receiveServer arrival).phase.isServing = false := by
  unfold receiveServer
  split
  next => rfl
  next hphase => rw [hphase] at hover; cases hover
  next hphase => rw [hphase] at hover; cases hover
  next hphase => rw [hphase] at hover; cases hover
  next => rfl
  next => exact hover
  next => exact hover
  next => exact hover

theorem isServing_receive (hover : s.phase.isServing = false) (event : Event) :
    (s.receive event).phase.isServing = false := by
  cases event with
  | client arrival =>
    rw [receive]
    split
    · exact hover
    · exact hover
  | server arrival =>
    rw [receive]
    split
    · exact hover
    · exact isServing_receiveServer hover arrival
  | dialed failure =>
    rw [receive]
    unfold receiveDial
    split
    next hphase => rw [hphase] at hover; cases hover
    next hphase => rw [hphase] at hover; cases hover
    next => exact hover
  | timedOut =>
    rw [receive]
    unfold expire
    split
    next => rfl
    next => exact isServing_refuse ..
    next => exact isServing_refuse ..
    next hphase =>
      split
      · exact isServing_withFrames hphase _
      · exact hover
    next => exact hover

/-- A session that serves nothing serves nothing until it reads the head of a request. -/
theorem isServing_moveExchange {m : Move} (hover : s.phase.isServing = false)
    (h : s.moveExchange m = some s') : s'.phase.isServing = false := by
  rcases moveExchange_cases h with ⟨event, rfl⟩ | ⟨hreads, hstep⟩
  · exact isServing_receive hover event
  · cases hphase : s.phase with
    | connecting | probing | uploading | awaiting => rw [hphase] at hover; cases hover
    | idle pooled =>
      -- with no head to read, the step can only end the session
      rcases step_idle_cases hphase hstep with ⟨hread, -⟩ | ⟨-, result, rfl⟩
      · rw [hreads] at hread
        cases hread
      · rfl
    | downloading =>
      rw [step, hphase] at hstep
      exact isServing_stepDownload hstep
    | upgraded =>
      rw [step, hphase] at hstep
      exact isServing_stepFrames hphase hstep
    | ended =>
      rw [step, hphase] at hstep
      cases hstep

theorem isServing_followExchange {moves : List Move} (hover : s.phase.isServing = false)
    (h : s.followExchange moves = some s') : s'.phase.isServing = false :=
  foldlM_induction (motive := fun s => s.phase.isServing = false) h hover isServing_moveExchange

theorem isServing_of_followExchange {moves : List Move} (h : s.followExchange moves = some s')
    (hserving : s'.phase.isServing = true) : s.phase.isServing = true := by
  by_contra hover
  rw [isServing_followExchange (Bool.eq_false_iff.mpr hover) h] at hserving
  cases hserving

/-- The moves of an exchange go on with the request: what the client had sent and sends meanwhile
is the body that has been taken, and what is left of the input. -/
theorem underway_followExchange {moves : List Move} (hunder : Underway x taken s.phase)
    (h : s.followExchange moves = some s') (hserving : s'.phase.isServing = true) :
    ∃ piece, s.client.input.pending ++ s.heard moves = piece ++ s'.client.input.pending ∧
      Underway x (taken ++ piece) s'.phase := by
  induction moves generalizing s taken with
  | nil =>
    obtain rfl := Option.some.inj h
    exact ⟨[], List.append_nil _, by rwa [List.append_nil]⟩
  | cons m moves ih =>
    have hrun := h
    rw [followExchange, List.foldlM_cons] at h
    obtain ⟨s₁, hmove, hmoves⟩ := Option.bind_eq_some_iff.mp h
    have hsame : s.move m = some s₁ := by
      rw [moveExchange] at hmove
      split at hmove
      · cases hmove
      · exact hmove
    obtain ⟨piece, hpiece, hunder₁⟩ : ∃ piece,
        s.client.input.pending ++ s.arrives m = piece ++ s₁.client.input.pending ∧
          Underway x (taken ++ piece) s₁.phase := by
      cases m with
      | event event =>
        obtain rfl := Option.some.inj hsame
        obtain ⟨hpending, hunder'⟩ := underway_receive hunder event
        exact ⟨[], by rw [hpending, List.nil_append], by rwa [List.append_nil]⟩
      | step =>
        obtain ⟨piece, hpiece, hunder'⟩ :=
          underway_step hunder (isServing_of_followExchange hrun hserving) hsame
            (isServing_of_followExchange hmoves hserving)
        exact ⟨piece, (List.append_nil _).trans hpiece, hunder'⟩
    obtain ⟨more, hmore, hunder'⟩ := ih hunder₁ hmoves
    refine ⟨piece ++ more, ?_, by rwa [← List.append_assoc]⟩
    rw [heard, hsame, Option.elim_some, ← List.append_assoc, hpiece, List.append_assoc, hmore,
      List.append_assoc]

/-- A session that serves a request has served it ever since it read the head. -/
theorem underway_of_serve {pooled : Option Link} {head : RequestHead} {moves : List Move}
    (h : (s.serve pooled head).followExchange moves = some s')
    (hserving : s'.phase.isServing = true) :
    ∃ (x : Exchange) (taken : Bytes), x.request = head ∧ head.bodyKind = .ok x.body ∧
      s.client.input.pending ++ (s.serve pooled head).heard moves =
        taken ++ s'.client.input.pending ∧
      Underway x taken s'.phase := by
  obtain ⟨x, hrequest, hbody, hinput, hunder⟩ :=
    serving_serve (isServing_of_followExchange h hserving)
  obtain ⟨taken, htaken, hunder'⟩ := underway_followExchange hunder h hserving
  rw [hinput] at htaken
  exact ⟨x, taken, hrequest, hbody, htaken, by rwa [List.nil_append] at hunder'⟩

/-- A session that serves a request behind a step between requests has read its head in that
step. -/
theorem underway_of_read {s₁ : Session} {pooled : Option Link} {moves : List Move}
    (hidle : s.phase = .idle pooled) (hread : s.step = some s₁)
    (hmoves : s₁.followExchange moves = some s') (hserving : s'.phase.isServing = true) :
    ∃ (x : Exchange) (taken : Bytes),
      s.client.resolve .io (readRequestHead s.client.input).1 = .ok (some x.request) ∧
      x.request.bodyKind = .ok x.body ∧
      (readRequestHead s.client.input).2.pending ++ s₁.heard moves =
        taken ++ s'.client.input.pending ∧
      Underway x taken s'.phase := by
  rw [step_of_idle hidle] at hread
  split at hread
  next => cases hread
  next =>
    -- a session that refused the head, or found none, would not serve
    obtain rfl := Option.some.inj hread
    have hserves := isServing_of_followExchange hmoves hserving
    rw [isServing_reject] at hserves
    cases hserves
  next =>
    obtain rfl := Option.some.inj hread
    cases isServing_of_followExchange hmoves hserving
  next head hhead =>
    obtain rfl := Option.some.inj hread
    obtain ⟨x, taken, rfl, hbody, htaken, hunder⟩ := underway_of_serve hmoves hserving
    exact ⟨x, taken, hhead, hbody, htaken, hunder⟩

end Moves

end Session

end HttpRelay.Proxy
