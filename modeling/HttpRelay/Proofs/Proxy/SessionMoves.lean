import HttpRelay.Proxy.Session

/-!
# Moves of a session

A run of a session is a list of moves, in any order: steps that the session takes, and what happens
outside. A session deals with events in such moves, and one exchange is what happens between two
moves that read the head of a request.

* `Session.follow`: a session behind a list of moves;
* `Session.exists_follow_run`: whatever events it deals with, a session makes moves;
* `Session.readsHead`, `Session.followExchange`: moves that read no head.
-/

namespace HttpRelay.Proxy

/-- One move of a run. -/
inductive Move where
  /-- The session takes a step. -/
  | step
  | event (event : Event)
  deriving DecidableEq, Repr

/-- What holds at first and is kept by every part of a fold holds of what the fold gives. -/
theorem foldlM_induction {α β : Type} {f : β → α → Option β} {motive : β → Prop} {b b' : β}
    {l : List α} (h : l.foldlM f b = some b') (hstart : motive b)
    (hkept : ∀ {b a b'}, motive b → f b a = some b' → motive b') : motive b' := by
  induction l generalizing b with
  | nil =>
    obtain rfl := Option.some.inj h
    exact hstart
  | cons a l ih =>
    rw [List.foldlM_cons] at h
    obtain ⟨_, hfirst, hrest⟩ := Option.bind_eq_some_iff.mp h
    exact ih hrest (hkept hstart hfirst)

namespace Session

/-- A session behind one move. There is none if the session has to wait instead of taking a
step. -/
def move (s : Session) : Move → Option Session
  | .step => s.step
  | .event event => some (s.receive event)

/-- A session behind moves one after another. -/
def follow (s : Session) (moves : List Move) : Option Session := moves.foldlM move s

theorem follow_append {s s' : Session} {moves : List Move} (h : s.follow moves = some s')
    (more : List Move) : s.follow (moves ++ more) = s'.follow more := by
  rw [follow, List.foldlM_append]
  rw [follow] at h
  rw [h]
  rfl

/-- A session that settles takes steps. -/
theorem exists_follow_settleWithin (s : Session) (steps : Nat) :
    ∃ moves, s.follow moves = some (s.settleWithin steps) := by
  induction steps generalizing s with
  | zero => exact ⟨[], rfl⟩
  | succ steps ih =>
    rw [settleWithin]
    split
    next s' hstep =>
      obtain ⟨moves, hmoves⟩ := ih s'
      refine ⟨.step :: moves, ?_⟩
      rw [follow, List.foldlM_cons]
      exact Option.bind_eq_some_iff.mpr ⟨s', hstep, hmoves⟩
    next => exact ⟨[], rfl⟩

/-- Dealing with events is a run of moves. -/
theorem exists_follow_run (s : Session) (events : List Event) :
    ∃ moves, s.follow moves = some (s.run events) := by
  induction events generalizing s with
  | nil => exact ⟨[], rfl⟩
  | cons event events ih =>
    obtain ⟨steps, hsteps⟩ := exists_follow_settleWithin (s.receive event)
      (8 * ((s.receive event).backlog + 2))
    obtain ⟨moves, hmoves⟩ := ih (s.handle event)
    refine ⟨.event event :: steps ++ moves, ?_⟩
    exact (follow_append hsteps moves).trans hmoves

/-- Whether the next step reads the head of a request, be it one that is refused. -/
def readsHead (s : Session) : Bool :=
  match s.phase with
  | .idle _ =>
    match s.client.resolve .io (readRequestHead s.client.input).1 with
    | .ok (some _) | .error (.failed (.malformedHead _)) | .error (.failed (.headTooLarge _)) =>
      true
    | _ => false
  | _ => false

/-- A session that has taken what there is of a head off the client. -/
def pastHead (s : Session) : Session :=
  { s with client := { s.client with input := (readRequestHead s.client.input).2 } }

theorem step_of_idle {s : Session} {pooled : Option Link} (hphase : s.phase = .idle pooled) :
    s.step =
      match s.client.resolve .io (readRequestHead s.client.input).1 with
      | .error .starved => none
      | .error (.failed error) => some (s.pastHead.reject error)
      | .ok none => some (s.pastHead.enter (.ended (.ok ())))
      | .ok (some head) => some (s.pastHead.serve pooled head) := by
  cases s
  cases hphase
  rfl

theorem phase_of_readsHead {s : Session} (h : s.readsHead = true) :
    ∃ pooled, s.phase = .idle pooled := by
  rw [readsHead] at h
  split at h
  next pooled hphase => exact ⟨pooled, hphase⟩
  next => cases h

/-- A step between requests reads a head, which it refuses or serves, or it ends the session. -/
theorem step_idle_cases {s s' : Session} {pooled : Option Link} (hphase : s.phase = .idle pooled)
    (hstep : s.step = some s') :
    (s.readsHead = true ∧ ((∃ error, s' = s.pastHead.reject error) ∨
        ∃ head, s' = s.pastHead.serve pooled head)) ∨
      (s.readsHead = false ∧ ∃ result, s' = s.pastHead.enter (.ended result)) := by
  rw [step_of_idle hphase] at hstep
  rw [readsHead, hphase]
  dsimp only
  split at hstep
  next => cases hstep
  next error hread =>
    obtain rfl := Option.some.inj hstep
    rw [hread]
    -- only what is wrong with a head is answered
    cases error with
    | malformedHead => exact .inl ⟨rfl, .inl ⟨_, rfl⟩⟩
    | headTooLarge => exact .inl ⟨rfl, .inl ⟨_, rfl⟩⟩
    | _ => exact .inr ⟨rfl, _, rfl⟩
  next hread =>
    obtain rfl := Option.some.inj hstep
    rw [hread]
    exact .inr ⟨rfl, _, rfl⟩
  next head hread =>
    obtain rfl := Option.some.inj hstep
    rw [hread]
    exact .inl ⟨rfl, .inr ⟨head, rfl⟩⟩

/-- A session behind one move that reads no head. -/
def moveExchange (s : Session) (m : Move) : Option Session :=
  if m = .step ∧ s.readsHead then none else s.move m

/-- A session behind moves that read no head. -/
def followExchange (s : Session) (moves : List Move) : Option Session :=
  moves.foldlM moveExchange s

/-- A move that reads no head is an event, or a step that reads none. -/
theorem moveExchange_cases {s s' : Session} {m : Move} (h : s.moveExchange m = some s') :
    (∃ event, s' = s.receive event) ∨ (s.readsHead = false ∧ s.step = some s') := by
  cases m with
  | event event => exact .inl ⟨event, (Option.some.inj h).symm⟩
  | step =>
    by_cases hreads : s.readsHead = true
    · simp [moveExchange, hreads] at h
    · rw [moveExchange, if_neg fun hread => hreads hread.2] at h
      exact .inr ⟨Bool.eq_false_iff.mpr hreads, h⟩

end Session

end HttpRelay.Proxy
