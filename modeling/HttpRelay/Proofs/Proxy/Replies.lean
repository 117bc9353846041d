import HttpRelay.Proxy.Session

/-!
# Replies to requests

A reply is heads that announce another one, and behind them at most one that does not, with its
body. Which part of a reply has been written shows in the phase of the session.

* `Interims`, `Answered`, `Switched`, `Refused`, `Reply`: the parts of a reply;
* `Standing`: what has been written of a reply in each phase;
* `Session.answers`: what a session has written, answer by answer.
-/

namespace HttpRelay.Proxy

open Http (RequestHead ResponseHead)

/-- An answer that announces another one. -/
inductive Answer.IsInterim : Answer → Prop
  | proceed : IsInterim .proceed
  | interim {head : ResponseHead} (hinfo : head.isInformational = true)
      (hswitch : head.status ≠ 101) : IsInterim (.interim head)

/-- It is written as the head of a response, of a status that announces another one. -/
theorem Answer.IsInterim.exists_head {answer : Answer} (h : answer.IsInterim) :
    ∃ head : ResponseHead, answer.render = head.render ∧ head.isInformational = true ∧
      head.status ≠ 101 := by
  cases h with
  | proceed => exact ⟨{ status := 100, reason := "Continue" }, by decide +kernel⟩
  | interim hinfo hswitch => exact ⟨_, rfl, hinfo, hswitch⟩

/-- Nothing but answers that announce another one. -/
def Interims (answers : List Answer) : Prop := ∀ answer ∈ answers, answer.IsInterim

/-- The head of a response, with pieces of its body behind it. -/
def Answered (answers : List Answer) : Prop :=
  ∃ (interims : List Answer) (head : ResponseHead) (wires : List Bytes),
    Interims interims ∧ head.isInformational = false ∧
      answers = interims ++ .final head :: wires.map .body

/-- The head of a response that changes the protocol. -/
def Switched (answers : List Answer) : Prop :=
  ∃ (interims : List Answer) (head : ResponseHead), Interims interims ∧ head.status = 101 ∧
    answers = interims ++ [.final head]

/-- A response that there is none. -/
def Refused (answers : List Answer) : Prop :=
  ∃ (interims : List Answer) (cause : Refusal), Interims interims ∧
    answers = interims ++ [.refusal cause]

/-- What may have been written in reply to one request. -/
def Reply (answers : List Answer) : Prop :=
  Interims answers ∨ Answered answers ∨ Switched answers ∨ Refused answers

section Parts

variable {answers : List Answer}

theorem interims_nil : Interims [] := nofun

theorem Interims.append {answer : Answer} (h : Interims answers) (hanswer : answer.IsInterim) :
    Interims (answers ++ [answer]) := by
  intro a ha
  rcases List.mem_append.mp ha with hmem | hlast
  · exact h a hmem
  · exact List.mem_singleton.mp hlast ▸ hanswer

theorem Answered.append {wire : Bytes} (h : Answered answers) :
    Answered (answers ++ [.body wire]) := by
  obtain ⟨interims, head, wires, hinterims, hhead, rfl⟩ := h
  exact ⟨interims, head, wires ++ [wire], hinterims, hhead, by simp⟩

theorem Interims.refusal_not_mem (h : Interims answers) (cause : Refusal) :
    .refusal cause ∉ answers := fun hmem => nomatch h _ hmem

theorem Answered.refusal_not_mem (h : Answered answers) (cause : Refusal) :
    .refusal cause ∉ answers := by
  obtain ⟨interims, head, wires, hinterims, -, rfl⟩ := h
  simp [hinterims.refusal_not_mem cause]

theorem Switched.refusal_not_mem (h : Switched answers) (cause : Refusal) :
    .refusal cause ∉ answers := by
  obtain ⟨interims, head, hinterims, -, rfl⟩ := h
  simp [hinterims.refusal_not_mem cause]

end Parts

/-- A request is served, and its response has not begun. -/
def Phase.isServing : Phase → Bool
  | .connecting .. | .probing .. | .uploading .. | .awaiting .. => true
  | .idle _ | .downloading .. | .upgraded | .ended _ => false

/-- Which part of a reply has been written in a phase, and whether frames are relayed. -/
inductive Standing : Phase → Option FrameRelay → List Answer → Prop
  | idle {pooled : Option Link} {answers : List Answer} (h : answers = [] ∨ Answered answers) :
      Standing (.idle pooled) none answers
  | serving {phase : Phase} {answers : List Answer} (hphase : phase.isServing = true)
      (h : Interims answers) : Standing phase none answers
  | downloading {server : Link} {relay : BodyRelay} {reusable keepAlive : Bool}
      {answers : List Answer} (h : Answered answers) :
      Standing (.downloading server relay reusable keepAlive) none answers
  | upgraded {relay : FrameRelay} {answers : List Answer} (h : Switched answers) :
      Standing .upgraded (some relay) answers
  | ended {result : Except Error Unit} {answers : List Answer}
      (h : Interims answers ∨ Answered answers) : Standing (.ended result) none answers
  | refused {error : Error} {answers : List Answer} (h : Refused answers) :
      Standing (.ended (.error error)) none answers
  | closed {result : Except Error Unit} {relay : FrameRelay} {answers : List Answer}
      (h : Switched answers) : Standing (.ended result) (some relay) answers

section Standing

variable {phase : Phase} {frames : Option FrameRelay} {answers : List Answer}

theorem Standing.reply (h : Standing phase frames answers) : Reply answers := by
  cases h with
  | idle h =>
    rcases h with rfl | hanswered
    · exact .inl interims_nil
    · exact .inr (.inl hanswered)
  | serving _ h => exact .inl h
  | downloading h => exact .inr (.inl h)
  | upgraded h | closed h => exact .inr (.inr (.inl h))
  | ended h => exact h.imp_right .inl
  | refused h => exact .inr (.inr (.inr h))

/-- Behind a refusal the session has ended, and no frames are relayed. -/
theorem Standing.ended_of_refusal (h : Standing phase frames answers) {cause : Refusal}
    (hcause : .refusal cause ∈ answers) :
    (∃ error, phase = .ended (.error error)) ∧ frames = none := by
  cases h with
  | idle h =>
    rcases h with rfl | hanswered
    · cases hcause
    · exact absurd hcause (hanswered.refusal_not_mem cause)
  | serving _ h => exact absurd hcause (h.refusal_not_mem cause)
  | downloading h => exact absurd hcause (h.refusal_not_mem cause)
  | upgraded h | closed h => exact absurd hcause (h.refusal_not_mem cause)
  | ended h =>
    rcases h with h | h
    · exact absurd hcause (h.refusal_not_mem cause)
    · exact absurd hcause (h.refusal_not_mem cause)
  | refused _ => exact ⟨⟨_, rfl⟩, rfl⟩

theorem Standing.of_serving (h : Standing phase frames answers) (hphase : phase.isServing = true) :
    frames = none ∧ Interims answers := by
  cases h with
  | serving _ h => exact ⟨rfl, h⟩
  | _ => cases hphase

theorem Standing.of_idle {pooled : Option Link} (h : Standing (.idle pooled) frames answers) :
    frames = none ∧ (answers = [] ∨ Answered answers) := by
  cases h with
  | serving hphase => cases hphase
  | idle h => exact ⟨rfl, h⟩

theorem Standing.of_downloading {server : Link} {relay : BodyRelay} {reusable keepAlive : Bool}
    (h : Standing (.downloading server relay reusable keepAlive) frames answers) :
    frames = none ∧ Answered answers := by
  cases h with
  | serving hphase => cases hphase
  | downloading h => exact ⟨rfl, h⟩

theorem Standing.of_upgraded (h : Standing .upgraded frames answers) : Switched answers := by
  cases h with
  | serving hphase => cases hphase
  | upgraded h => exact h

end Standing

/-- What an action writes to the client. -/
def Action.answer? : Action → Option Answer
  | answered answer => some answer
  | began _ | sentHead .. | sentBody .. => none

namespace Session

/-- What was answered, in order. -/
def answers (s : Session) : List Answer :=
  s.actions.filterMap Action.answer?

theorem written_eq_answers (s : Session) : s.written = s.answers.flatMap Answer.render := by
  rw [written, answers]
  induction s.actions with
  | nil => rfl
  | cons action actions ih =>
    cases action <;> simp [List.filterMap_cons, Action.answer?, ih]

section Simp

variable (s : Session)

theorem answers_act (action : Action) :
    (s.act action).answers = s.answers ++ action.answer?.toList := by
  cases h : action.answer? <;> simp [answers, act, h]

@[simp] theorem frames_enter (phase : Phase) : (s.enter phase).frames = s.frames := rfl

@[simp] theorem answers_note (direction : Direction) (kind : PayloadKind) (payload : Bytes) :
    (s.note direction kind payload).answers = s.answers := by
  rw [note]
  split <;> rfl

@[simp] theorem frames_note (direction : Direction) (kind : PayloadKind) (payload : Bytes) :
    (s.note direction kind payload).frames = s.frames := by
  rw [note]
  split <;> rfl

end Simp

end Session

end HttpRelay.Proxy
