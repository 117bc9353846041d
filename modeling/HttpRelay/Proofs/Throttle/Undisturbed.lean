import HttpRelay.Proofs.Throttle.Draining

/-!
# Undisturbed passes

A pass that no other party disturbs is the one sequence of `Scheduler.visit`, and every pass can go
on until it is over.

* `Machine.reaches_tick`: an undisturbed pass of the loop is `Scheduler.tick`;
* `Machine.reaches_shutdown`: an undisturbed shutdown is `Scheduler.shutdown`;
* `Machine.Reachable.exists_completed`: no state blocks a shutdown.
-/

namespace HttpRelay.Throttle

variable {α : Type} [Quantity α]

namespace Pass

/-- Steps of a pass in a row, and the events that they note. -/
inductive Advances : Pass α → Scheduler α → Pass α → Scheduler α → Log α → Prop
  | refl {pass : Pass α} {s : Scheduler α} : Advances pass s pass s []
  | head {pass pass' pass'' : Pass α} {s s' s'' : Scheduler α} {e : Event α} {log : Log α}
      (h : pass.Advance s pass' s' e) (hrest : Advances pass' s' pass'' s'' log) :
      Advances pass s pass'' s'' (e :: log)

/-- The steps of an undisturbed pass are the visits of its slots. -/
theorem advances_visit (purpose : Purpose α) (ahead : List Nat) (s : Scheduler α) :
    ∃ log, Advances ⟨purpose, ahead, none⟩ s ⟨purpose, [], none⟩
        (s.visit purpose.visitSlot ahead).2 log ∧
      log.handsOut = (s.visit purpose.visitSlot ahead).1 := by
  induction ahead generalizing s with
  | nil => exact ⟨[], .refl, rfl⟩
  | cons slot ahead ih =>
    obtain ⟨log, hrest, hreplies⟩ := ih (s.drain slot).2
    -- a visit drains the slot and answers at once: the two steps of the pass in it
    have hvisit : purpose.visitSlot s slot =
        (purpose.replies (s.drain slot).2 slot (s.drain slot).1, (s.drain slot).2) := by
      cases purpose <;> rfl
    rw [Scheduler.visit, hvisit]
    refine ⟨_, .head .take (.head .answer hrest), ?_⟩
    simpa [Log.handsOut, Event.handsOut] using hreplies

/-- Every pass can go on until it is over. -/
theorem exists_advances (pass : Pass α) (s : Scheduler α) :
    ∃ s' log, pass.Advances s ⟨pass.purpose, [], none⟩ s' log := by
  obtain ⟨purpose, ahead, hand⟩ := pass
  obtain ⟨log, hrest, -⟩ := advances_visit purpose ahead s
  -- a batch in the hand is answered first
  rcases hand with _ | ⟨slot, batch⟩
  · exact ⟨_, log, hrest⟩
  · exact ⟨_, _, .head .answer hrest⟩

/-- The steps of a pass leave a scheduler stopped. -/
theorem Advances.shutDown {pass pass' : Pass α} {s s' : Scheduler α} {log : Log α}
    (h : pass.Advances s pass' s' log) : s'.shutDown = s.shutDown := by
  induction h with
  | refl => rfl
  | head h _ ih =>
    obtain ⟨-, -, -, -, -, hshutDown⟩ := h.frame
    rw [ih, hshutDown]

end Pass

namespace Machine

/-- The loop can make the steps of its pass in a row. -/
theorem reaches_of_loop {m : Machine α} {pass pass' : Pass α} {s' : Scheduler α} {log : Log α}
    (h : pass.Advances m.scheduler pass' s' log) (hloop : m.loop = .passing pass) :
    Reaches m { m with scheduler := s', loop := .passing pass', log := m.log ++ log } := by
  -- The induction is on the steps of the pass; the log before them grows by one event at each.
  obtain ⟨s, loop, shutdown, before⟩ := m
  obtain rfl : loop = _ := hloop
  change pass.Advances s pass' s' log at h
  induction h generalizing before with
  | refl => rw [List.append_nil]
  | @head _ _ _ _ _ _ e log h _ ih =>
    have hrest := ih (before ++ [e])
    rw [List.append_assoc] at hrest
    exact .head (.advance rfl h) hrest

/-- A shutdown can make the steps of its pass in a row. -/
theorem reaches_of_shutdown {m : Machine α} {pass pass' : Pass α} {s' : Scheduler α} {log : Log α}
    (h : pass.Advances m.scheduler pass' s' log) (hshutdown : m.shutdown = .releasing pass) :
    Reaches m { m with scheduler := s', shutdown := .releasing pass', log := m.log ++ log } := by
  obtain ⟨s, loop, shutdown, before⟩ := m
  obtain rfl : shutdown = _ := hshutdown
  change pass.Advances s pass' s' log at h
  induction h generalizing before with
  | refl => rw [List.append_nil]
  | @head _ _ _ _ _ _ e log h _ ih =>
    have hrest := ih (before ++ [e])
    rw [List.append_assoc] at hrest
    exact .head (.release rfl h) hrest

/-- The loop can end its pass. -/
theorem reaches_settled {m : Machine α} {pass : Pass α} {s' : Scheduler α} {log : Log α}
    (h : pass.Advances m.scheduler ⟨pass.purpose, [], none⟩ s' log)
    (hloop : m.loop = .passing pass) :
    Reaches m { m with
      scheduler := s', loop := pass.purpose.next, log := m.log ++ log ++ [.ended] } := by
  have hlast := @Step.settle α _
    { m with scheduler := s', loop := .passing ⟨pass.purpose, [], none⟩, log := m.log ++ log }
    ⟨pass.purpose, [], none⟩ rfl ⟨rfl, rfl⟩
  exact (reaches_of_loop h hloop).tail hlast

/-- An undisturbed pass of the loop is one tick of the scheduler. -/
theorem reaches_tick {m : Machine α} (hidle : m.loop = .idle) (elapsed : α) :
    ∃ log, log.handsOut = (m.scheduler.tick elapsed).1 ∧
      Reaches m { m with scheduler := (m.scheduler.tick elapsed).2, log := m.log ++ log } := by
  have htick : m.scheduler.tick elapsed =
      m.scheduler.visit (Purpose.tick elapsed).visitSlot m.scheduler.slots := rfl
  rw [htick]
  obtain ⟨log, hsteps, hreplies⟩ :=
    Pass.advances_visit (.tick elapsed) m.scheduler.slots m.scheduler
  -- the loop notes where the pass begins and where it ends, and neither hands anything out
  refine ⟨.began :: log ++ [.ended], ?_, ?_⟩
  · rw [Log.handsOut_append]
    change [] ++ log.handsOut ++ [] = _
    rw [hreplies, List.nil_append, List.append_nil]
  · have hpass := reaches_settled
      (m := { m with loop := .passing ⟨.tick elapsed, m.scheduler.slots, none⟩ }.note .began)
      hsteps rfl
    have hall := Relation.ReflTransGen.head (.wake elapsed hidle) hpass
    simpa [note, Purpose.next, hidle] using hall

/-- An undisturbed shutdown, behind the loop, is a shutdown of the scheduler. -/
theorem reaches_shutdown {m : Machine α} (hcalled : m.shutdown = .notCalled)
    (hgone : m.loop = .absent ∨ m.loop = .ended) :
    ∃ log, log.handsOut = m.scheduler.shutdown.1 ∧
      Reaches m { m with
        scheduler := m.scheduler.shutdown.2, shutdown := .completed, log := m.log ++ log } := by
  obtain ⟨log, hsteps, hreplies⟩ :=
    Pass.advances_visit .release m.scheduler.slots m.scheduler.stop
  refine ⟨log, hreplies, ?_⟩
  obtain ⟨s, loop, shutdown, before⟩ := m
  obtain rfl : shutdown = _ := hcalled
  have hpass := reaches_of_shutdown
    (m := ⟨s.stop, loop, .releasing ⟨.release, s.slots, none⟩, before⟩) hsteps rfl
  have hstop : Step ⟨s, loop, .notCalled, before⟩ _ := .stop rfl
  have hall := Relation.ReflTransGen.head hstop hpass
  exact hall.tail (.complete rfl ⟨rfl, rfl⟩ hgone)

/-- A pass of the loop leads to what is behind it. -/
theorem exists_settled {m : Machine α} {pass : Pass α} (hloop : m.loop = .passing pass) :
    ∃ m', Reaches m m' ∧ m'.loop = pass.purpose.next ∧ m'.shutdown = m.shutdown ∧
      m'.scheduler.shutDown = m.scheduler.shutDown := by
  obtain ⟨s', log, hsteps⟩ := pass.exists_advances m.scheduler
  exact ⟨_, reaches_settled hsteps hloop, rfl, rfl, hsteps.shutDown⟩

/-- The loop can end behind a stop. -/
theorem exists_gone {m : Machine α} (hstop : m.scheduler.shutDown = true) :
    ∃ m', Reaches m m' ∧ (m'.loop = .absent ∨ m'.loop = .ended) ∧ m'.shutdown = m.shutdown := by
  -- A waiting loop finds the scheduler stopped, and makes its last pass.
  have hidle (m : Machine α) (hidle : m.loop = .idle) (hstop : m.scheduler.shutDown = true) :
      ∃ m', Reaches m m' ∧ (m'.loop = .absent ∨ m'.loop = .ended) ∧
        m'.shutdown = m.shutdown := by
    obtain ⟨m', hreaches, hnext, hshutdown, -⟩ := exists_settled
      (m := { m with loop := .passing ⟨.release, m.scheduler.slots, none⟩ }.note .began) rfl
    exact ⟨m', .head (.breakOff hidle hstop) hreaches, .inr hnext, hshutdown⟩
  cases hloop : m.loop with
  | absent => exact ⟨m, .refl, .inl hloop, rfl⟩
  | ended => exact ⟨m, .refl, .inr hloop, rfl⟩
  | idle => exact hidle m hloop hstop
  | passing pass =>
    obtain ⟨m', hreaches, hnext, hshutdown, hshutDown⟩ := exists_settled hloop
    cases hpurpose : pass.purpose with
    | release =>
      rw [hpurpose] at hnext
      exact ⟨m', hreaches, .inr hnext, hshutdown⟩
    | tick elapsed =>
      -- behind a tick the loop waits once more
      rw [hpurpose] at hnext
      obtain ⟨m'', hlater, hgone, hsame⟩ := hidle m' hnext (hshutDown.trans hstop)
      exact ⟨m'', hreaches.trans hlater, hgone, hsame.trans hshutdown⟩

/-- A shutdown that was called can complete. -/
theorem exists_completed_of_releasing {m : Machine α} {pass : Pass α}
    (hreleasing : m.shutdown = .releasing pass) (hstop : m.scheduler.shutDown = true) :
    ∃ m', Reaches m m' ∧ m'.shutdown = .completed := by
  obtain ⟨m', hreaches, hgone, hshutdown⟩ := exists_gone hstop
  obtain ⟨s', log, hsteps⟩ := pass.exists_advances m'.scheduler
  have hpass := reaches_of_shutdown hsteps (hshutdown.trans hreleasing)
  exact ⟨_, (hreaches.trans hpass).tail (.complete rfl ⟨rfl, rfl⟩ hgone), rfl⟩

/-- No reachable state blocks a shutdown. -/
theorem Reachable.exists_completed {m : Machine α} (h : m.Reachable) :
    ∃ m', Reaches m m' ∧ m'.shutdown = .completed := by
  cases hshutdown : m.shutdown with
  | completed => exact ⟨m, .refl, hshutdown⟩
  | releasing pass =>
    refine exists_completed_of_releasing hshutdown (h.stopped.called.mpr ?_)
    rw [hshutdown]
    simp
  | notCalled =>
    have hcalled : Step m { m with
        scheduler := m.scheduler.stop
        shutdown := .releasing ⟨.release, m.scheduler.slots, none⟩ } := .stop hshutdown
    obtain ⟨m', hreaches, hcompleted⟩ := exists_completed_of_releasing
      (m := { m with
        scheduler := m.scheduler.stop
        shutdown := .releasing ⟨.release, m.scheduler.slots, none⟩ }) rfl rfl
    exact ⟨m', .head hcalled hreaches, hcompleted⟩

end Machine

end HttpRelay.Throttle
