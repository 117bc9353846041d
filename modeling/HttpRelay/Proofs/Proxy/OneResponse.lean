import HttpRelay.Proofs.Proxy.SessionReplies

/-!
# One final response to a request

Over a whole run every request gets one reply at most, and a refusal is the last thing that is
written.

* `Session.Unrefused`: a session that stands in a reply, with no refusal behind it;
* `Session.unrefused_follow`: so does every session behind a run;
* `Session.follow_of_ended`: a session that has ended without frames stays so;
* `Session.written_of_followExchange`: nothing is written before the first request;
* `Session.one_final_response`: what a run writes from one request to the next, and behind a
  refusal.
-/

namespace HttpRelay.Proxy.Session

open Http (RequestHead ResponseHead)

variable {s s' : Session}

/-- A session that stands in a reply, and has refused no request before it. -/
def Unrefused (s : Session) : Prop :=
  ∃ earlier, (∀ cause, .refusal cause ∉ earlier) ∧ Serves earlier s

theorem Unrefused.move {m : Move} (h : Unrefused s) (hmove : s.move m = some s') :
    Unrefused s' := by
  obtain ⟨earlier, hearlier, hserves⟩ := h
  cases m with
  | event event =>
    obtain rfl := Option.some.inj hmove
    exact ⟨earlier, hearlier, hserves.receive event⟩
  | step =>
    cases hreads : s.readsHead with
    | false => exact ⟨earlier, hearlier, hserves.step hreads hmove⟩
    | true =>
      -- the reply before has no refusal, or the session would have ended behind it
      refine ⟨s.answers, fun cause => ?_, hserves.read hreads hmove⟩
      obtain ⟨pooled, hphase⟩ := phase_of_readsHead hreads
      obtain ⟨-, answers, hanswers, hreply⟩ := hserves.idle hphase
      rw [hanswers, List.mem_append, not_or]
      refine ⟨hearlier cause, ?_⟩
      rcases hreply with rfl | hanswered
      · exact List.not_mem_nil
      · exact hanswered.refusal_not_mem cause

theorem unrefused_follow {moves : List Move} (hphase : s.phase = .idle none)
    (hframes : s.frames = none) (hactions : s.actions = [])
    (hrun : s.follow moves = some s') : Unrefused s' := by
  refine foldlM_induction hrun ⟨[], nofun, [], ?_, ?_⟩ Unrefused.move
  · rw [answers, hactions]
    rfl
  · rw [hphase, hframes]
    exact .idle (.inl rfl)

/-- A session that has ended, and relays no frames, does nothing any more. -/
theorem follow_of_ended {result : Except Error Unit} {moves : List Move}
    (hphase : s.phase = .ended result) (hframes : s.frames = none)
    (hrun : s.follow moves = some s') :
    s'.phase = .ended result ∧ s'.frames = none ∧ s'.actions = s.actions := by
  refine foldlM_induction (motive := fun s' =>
    s'.phase = .ended result ∧ s'.frames = none ∧ s'.actions = s.actions) hrun
    ⟨hphase, hframes, rfl⟩ ?_
  rintro s₁ m s₂ ⟨hphase, hframes, hactions⟩ hmove
  cases m with
  | step =>
    rw [move, step, hphase] at hmove
    cases hmove
  | event event =>
    obtain rfl := Option.some.inj hmove
    cases event <;>
      simp [receive, receiveServer, receiveDial, expire, hphase, hframes, hactions]

/-- Nothing is written before the first head is read. -/
theorem written_of_followExchange {moves : List Move} (hphase : s.phase = .idle none)
    (hframes : s.frames = none) (hactions : s.actions = [])
    (hrun : s.followExchange moves = some s') : s'.written = [] := by
  have hquiet : s'.actions = [] ∧ s'.frames = none ∧
      ((∃ pooled, s'.phase = .idle pooled) ∨ ∃ result, s'.phase = .ended result) := by
    refine foldlM_induction (motive := fun s' => s'.actions = [] ∧ s'.frames = none ∧
      ((∃ pooled, s'.phase = .idle pooled) ∨ ∃ result, s'.phase = .ended result)) hrun
      ⟨hactions, hframes, .inl ⟨none, hphase⟩⟩ ?_
    rintro s₁ m s₂ ⟨hactions, hframes, ⟨pooled, hphase⟩ | ⟨result, hphase⟩⟩ hmove
    · rcases moveExchange_cases hmove with ⟨event, rfl⟩ | ⟨hreads, hstep⟩
      · cases event <;>
          simp [receive, receiveServer, receiveDial, expire, enter, hphase, hframes, hactions]
      · rcases step_idle_cases hphase hstep with ⟨hread, -⟩ | ⟨-, result, rfl⟩
        · rw [hreads] at hread
          cases hread
        · exact ⟨hactions, hframes, .inr ⟨result, rfl⟩⟩
    · rcases moveExchange_cases hmove with ⟨event, rfl⟩ | ⟨-, hstep⟩
      · have hmoved : s₁.follow [.event event] = some (s₁.receive event) := rfl
        obtain ⟨hphase', hframes', hactions'⟩ := follow_of_ended hphase hframes hmoved
        exact ⟨hactions'.trans hactions, hframes', .inr ⟨result, hphase'⟩⟩
      · rw [step, hphase] at hstep
        cases hstep
  rw [written, hquiet.1]
  rfl

/-- Over any run, all that is written from the reading of one head to that of the next is one
reply, and once a refusal has been written, the session has ended with an error and writes nothing
more. -/
theorem one_final_response (config : Config) (peer : Net.SocketAddress) (client : Feed)
    (drawKey : Nat → String) (drawMask : Nat → WebSocket.MaskKey) {moves : List Move}
    (hrun : { start config peer client with drawKey, drawMask }.follow moves = some s) :
    (∀ {s₁ s₂ : Session} {exchange : List Move}, s.readsHead = true → s.step = some s₁ →
      s₁.followExchange exchange = some s₂ →
      ∃ answers, s₂.answers = s.answers ++ answers ∧
        s₂.written = s.written ++ answers.flatMap Answer.render ∧ Reply answers) ∧
    (∀ cause, .refusal cause ∈ s.answers →
      (∃ error, s.result? = some (.error error)) ∧
        ∀ {s' : Session} {more : List Move}, s.follow more = some s' →
          s'.result? = s.result? ∧ s'.written = s.written ∧ s'.isWebSocket = false) := by
  obtain ⟨earlier, hearlier, hserves⟩ := unrefused_follow rfl rfl rfl hrun
  constructor
  · -- the reply is followed from the step that reads the head through the moves behind it
    intro s₁ s₂ exchange hreads hstep hexchange
    have hread : Serves s.answers s₁ := hserves.read hreads hstep
    obtain ⟨answers, hanswers, hstanding⟩ : Serves s.answers s₂ := by
      refine foldlM_induction hexchange hread fun hserves hmove => ?_
      rcases moveExchange_cases hmove with ⟨event, rfl⟩ | ⟨hquiet, hstep⟩
      · exact hserves.receive event
      · exact hserves.step hquiet hstep
    refine ⟨answers, hanswers, ?_, hstanding.reply⟩
    rw [written_eq_answers, written_eq_answers, hanswers, List.flatMap_append]
  · intro cause hcause
    obtain ⟨answers, hanswers, hstanding⟩ := hserves
    rw [hanswers, List.mem_append] at hcause
    obtain ⟨⟨error, hphase⟩, hframes⟩ :=
      hstanding.ended_of_refusal (hcause.resolve_left (hearlier cause))
    refine ⟨⟨error, by rw [result?, hphase]⟩, fun hmore => ?_⟩
    obtain ⟨hphase', hframes', hactions⟩ := follow_of_ended hphase hframes hmore
    refine ⟨by rw [result?, result?, hphase, hphase'], by rw [written, written, hactions], ?_⟩
    rw [isWebSocket, hframes']
    rfl

/-- A session with a client that sends a request, and then what is none. -/
def requestThenNone : Session :=
  start {} { ip := .v4 127 0 0 1, port := 4000 }
    { arrived := Bytes.ofText "GET / HTTP/1.1\r\n\r\nnone\r\n\r\n" }

/-- A connection to the server, and a response that is announced. -/
def announcedResponse : List Move :=
  [.event (.dialed none), .step,
    .event (.server (.bytes (Bytes.ofText
      "HTTP/1.1 103 Early Hints\r\n\r\nHTTP/1.1 200 OK\r\nContent-Length: 2\r\n\r\nok"))),
    .step, .step, .step, .step]

/-- The request is answered with both heads and the body, and what is none with a refusal. -/
theorem one_final_response_announced :
    ∃ s s' : Session, requestThenNone.step.bind (·.followExchange announcedResponse) = some s ∧
      s.answers =
        [.interim { status := 103, reason := "Early Hints" },
          .final { status := 200, reason := "OK", headers := ⟨[⟨"Content-Length", "2"⟩]⟩ },
          .body (Bytes.ofText "ok")] ∧ Reply s.answers ∧
      requestThenNone.follow (.step :: announcedResponse ++ [.step]) = some s' ∧
      s'.answers = s.answers ++ [.refusal .badRequest] ∧
      ∃ error, s'.result? = some (.error error) := by
  have hanswers : (requestThenNone.step.bind (·.followExchange announcedResponse)).map answers =
      some [.interim { status := 103, reason := "Early Hints" },
        .final { status := 200, reason := "OK", headers := ⟨[⟨"Content-Length", "2"⟩]⟩ },
        .body (Bytes.ofText "ok")] := by
    decide +kernel
  have hrefused : (requestThenNone.follow (.step :: announcedResponse ++ [.step])).map answers =
      some [.interim { status := 103, reason := "Early Hints" },
        .final { status := 200, reason := "OK", headers := ⟨[⟨"Content-Length", "2"⟩]⟩ },
        .body (Bytes.ofText "ok"), .refusal .badRequest] := by
    decide +kernel
  obtain ⟨s, hexchange, hsome⟩ := Option.map_eq_some_iff.mp hanswers
  obtain ⟨s₁, hstep, hfollow⟩ := Option.bind_eq_some_iff.mp hexchange
  obtain ⟨s', hrun, hlast⟩ := Option.map_eq_some_iff.mp hrefused
  have hbegun : requestThenNone.follow [] = some requestThenNone := rfl
  obtain ⟨hreply, -⟩ := one_final_response {} { ip := .v4 127 0 0 1, port := 4000 } _ _ _ hbegun
  obtain ⟨-, hend⟩ := one_final_response {} { ip := .v4 127 0 0 1, port := 4000 } _ _ _ hrun
  obtain ⟨answers, hadded, -, hgrammar⟩ := hreply (by decide +kernel) hstep hfollow
  have hnone : requestThenNone.answers = [] := rfl
  rw [hnone, List.nil_append] at hadded
  refine ⟨s, s', hexchange, hsome, hadded ▸ hgrammar, hrun, ?_, ?_⟩
  · rw [hlast, hsome]
    rfl
  · exact (hend .badRequest (by simp [hlast])).1

end HttpRelay.Proxy.Session
