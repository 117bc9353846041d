import HttpRelay.Proofs.Throttle.Interleaving
import HttpRelay.Proofs.Throttle.Queues

/-!
# Accounting for tickets

In every reachable state each accepted ticket is in one place: it waits in its queue, it was taken
and is held by the loop or by a shutdown, or it was answered.

* `Pass.Advance.moves`, `Pass.Advance.frame`: what a step of a pass does to the account;
* `Reachable.accounted`: the account is right in every reachable state;
* `Accounted.conserved`: the places of all tickets, put together.
-/

namespace HttpRelay.Throttle

variable {α : Type}

/-- The tickets of some requests. -/
abbrev ticketsOf (requests : List (Parked α)) : List Nat := requests.map Parked.ticket

/-- The tickets that some answers are for. -/
abbrev answeredBy (replies : List (Reply α)) : List Nat := replies.map Prod.fst

namespace Purpose

/-- The answers to a batch that some budget gives. -/
def plan [Quantity α] (purpose : Purpose α) (budget : Nat) (batch : List (Parked α)) :
    List (Reply α) :=
  match purpose with
  | tick elapsed => (ticketsOf batch).zip (planTick budget elapsed (batch.map Parked.request))
  | release => batch.map fun p => (p.ticket, .unlimited)

/-- A batch is answered by the budget that its slot has at the time. -/
theorem replies_eq_plan [Quantity α] (purpose : Purpose α) (s : Scheduler α) (slot : Nat)
    (batch : List (Parked α)) :
    purpose.replies s slot batch = purpose.plan ((s.budget? ⟨slot⟩).getD 0) batch := by
  cases purpose <;> rfl

/-- A batch has one answer for each of its tickets, in order. -/
theorem answeredBy_replies [Quantity α] (purpose : Purpose α) (s : Scheduler α) (slot : Nat)
    (batch : List (Parked α)) :
    answeredBy (purpose.replies s slot batch) = ticketsOf batch := by
  cases purpose with
  | tick elapsed =>
    -- the plan is as long as the batch, so that the zip cuts nothing off
    rw [replies, Scheduler.answers]
    exact List.map_fst_zip (by simp)
  | release => simp [replies, Function.comp_def]

end Purpose

namespace Pass.Advance

variable [Quantity α] {pass pass' : Pass α} {s s' : Scheduler α} {e : Event α}

/-- A step of a pass moves requests from their slot into the hand, or from the hand to their
replies. -/
theorem moves (h : pass.Advance s pass' s' e) :
    s.waiting.Perm (s'.waiting ++ e.takes) ∧
      (ticketsOf (pass.held ++ e.takes)).Perm
        (ticketsOf pass'.held ++ answeredBy e.handsOut) := by
  cases h with
  | take => exact ⟨Scheduler.waiting_drain _ _, by simp [Pass.held, Event.takes, Event.handsOut]⟩
  | answer =>
    simp [Pass.held, Event.takes, Event.handsOut, Purpose.answeredBy_replies]

/-- A step of a pass parks nothing and begins and ends no pass. -/
theorem frame (h : pass.Advance s pass' s' e) :
    e.parks = [] ∧ e.isBegan = false ∧ e.isEnded = false ∧ pass'.purpose = pass.purpose ∧
      s'.nextTicket = s.nextTicket ∧ s'.shutDown = s.shutDown := by
  cases h <;> exact ⟨rfl, rfl, rfl, rfl, rfl, rfl⟩

end Pass.Advance

namespace Machine

/-- Every accepted ticket is in one place. -/
structure Accounted (m : Machine α) : Prop where
  /-- Tickets are given out in order. -/
  tickets : ticketsOf m.log.parks = List.range m.scheduler.nextTicket
  /-- What was accepted waits, or was taken. -/
  parks_perm : (ticketsOf m.log.parks).Perm (ticketsOf (m.scheduler.waiting ++ m.log.takes))
  /-- What was taken is held, or was answered. -/
  takes_perm : (ticketsOf m.log.takes).Perm
    (ticketsOf (m.loop.held ++ m.shutdown.held) ++ answeredBy m.log.handsOut)

/-- At the start no ticket was given out. -/
theorem accounted_init (count : Nat) (looping : Bool) :
    (init count looping : Machine α).Accounted := by
  cases looping
  · exact ⟨rfl, by simp [init, Log.parks, Log.takes], by
      simp [init, Log.takes, Log.handsOut, LoopState.held, ShutdownState.held]⟩
  · refine ⟨rfl, ?_, by
      simp [init, Log.takes, Log.handsOut, LoopState.held, ShutdownState.held]⟩
    have hwaiting : (Scheduler.ofCount count : Scheduler α).start.waiting = [] :=
      Scheduler.waiting_ofCount count
    simp [init, Log.parks, Log.takes, hwaiting]

/-- A step of a pass keeps the account, whoever makes the pass. -/
theorem Accounted.of_advance [Quantity α] {m m' : Machine α} {pass pass' : Pass α} {e : Event α}
    (h : m.Accounted) (hadvance : pass.Advance m.scheduler pass' m'.scheduler e)
    (hlog : m'.log = m.log ++ [e])
    (hheld : (ticketsOf (m'.loop.held ++ m'.shutdown.held ++ pass.held)).Perm
      (ticketsOf (m.loop.held ++ m.shutdown.held ++ pass'.held))) :
    m'.Accounted := by
  obtain ⟨hparksNone, -, -, -, hnext, -⟩ := hadvance.frame
  obtain ⟨hmove, hanswer⟩ := hadvance.moves
  have hwaiting := hmove.map Parked.ticket
  -- Each place is counted ticket by ticket: what leaves one of them arrives in the next.
  refine ⟨?_, ?_, ?_⟩
  · simpa [hlog, hparksNone, hnext] using h.tickets
  · -- from the queue to what was taken
    have hparks := h.parks_perm
    rw [List.perm_iff_count] at hparks hwaiting ⊢
    intro t
    have hparks := hparks t
    have hwaiting := hwaiting t
    simp only [ticketsOf, hlog, Log.parks_append, Log.takes_append, hparksNone,
      List.map_append, List.count_append, List.append_nil] at hparks hwaiting ⊢
    omega
  · -- from what was taken to the hand, and from the hand to the answers
    have htakes := h.takes_perm
    rw [List.perm_iff_count] at htakes hanswer hheld ⊢
    intro t
    have htakes := htakes t
    have hanswer := hanswer t
    have hheld := hheld t
    simp only [ticketsOf, answeredBy, hlog, Log.takes_append, Log.handsOut_append,
      List.map_append, List.count_append] at htakes hanswer hheld ⊢
    omega

/-- An event that moves no request keeps the account. -/
theorem Accounted.of_silent {m m' : Machine α} {e : Event α} (h : m.Accounted)
    (hscheduler : m'.scheduler = m.scheduler) (hlog : m'.log = m.log ++ [e])
    (he : e.parks = [] ∧ e.takes = [] ∧ e.handsOut = [])
    (hheld : m'.loop.held ++ m'.shutdown.held = m.loop.held ++ m.shutdown.held) :
    m'.Accounted := by
  obtain ⟨hparks, htakes, hanswers⟩ := he
  refine ⟨?_, ?_, ?_⟩
  · simpa [hlog, hparks, hscheduler] using h.tickets
  · simpa [hlog, hparks, htakes, hscheduler] using h.parks_perm
  · rw [hheld, hlog, Log.takes_append, Log.handsOut_append, htakes, hanswers,
      List.append_nil, List.append_nil]
    exact h.takes_perm

/-- Every step keeps the account of the tickets. -/
theorem accounted_step [Quantity α] {m m' : Machine α} (h : m.Accounted) (hstep : Step m m') :
    m'.Accounted := by
  have ⟨htickets, hparks, htakes⟩ := h
  cases hstep with
  | @accept id request ticket s henqueue =>
    obtain ⟨-, -, rfl, hs⟩ := Scheduler.enqueue?_eq_some henqueue
    have hwaiting := (Scheduler.waiting_enqueue henqueue).map Parked.ticket
    -- the new ticket is the next number, and joins what was accepted and what waits alike
    refine ⟨?_, ?_, ?_⟩
    · simp [note, Event.parks, htickets, hs, List.range_succ]
    · rw [List.perm_iff_count] at hparks hwaiting ⊢
      intro t
      have hparks := hparks t
      have hwaiting := hwaiting t
      simp only [ticketsOf, note, Log.parks_append, Log.takes_append, Event.parks, Event.takes,
        List.map_append, List.count_append, List.append_nil] at hparks hwaiting ⊢
      omega
    · simpa [note, Event.takes, Event.handsOut] using htakes
  | refuse _ => exact h.of_silent rfl rfl ⟨rfl, rfl, rfl⟩ rfl
  | setBudget hbudget =>
    have hwaiting := (Scheduler.waiting_setBudget hbudget).map Parked.ticket
    refine ⟨?_, ?_, htakes⟩
    · rw [Scheduler.setBudget?_eq_some hbudget]
      exact htickets
    · simp only [List.map_append] at hparks ⊢
      exact hparks.trans (hwaiting.symm.append_right _)
  | wake elapsed hloop =>
    exact h.of_silent rfl rfl ⟨rfl, rfl, rfl⟩ (by simp [note, hloop, LoopState.held, Pass.held])
  | breakOff hloop _ =>
    exact h.of_silent rfl rfl ⟨rfl, rfl, rfl⟩ (by simp [note, hloop, LoopState.held, Pass.held])
  | advance hloop hadvance =>
    -- only the order of the three hands differs
    refine h.of_advance hadvance rfl ?_
    simp only [note, hloop, LoopState.held]
    rw [List.append_assoc _ m.shutdown.held]
    exact (List.perm_append_comm.trans (List.perm_append_comm.append_right _)).map _
  | @settle pass hloop hended =>
    have hnone : pass.held = [] := by simp [Pass.held, hended.2]
    have hnext : pass.purpose.next.held = [] := by cases pass.purpose <;> rfl
    refine h.of_silent rfl rfl ⟨rfl, rfl, rfl⟩ ?_
    change pass.purpose.next.held ++ m.shutdown.held = m.loop.held ++ m.shutdown.held
    rw [hnext, hloop, LoopState.held, hnone]
  | stop hshutdown =>
    rw [hshutdown] at htakes
    exact ⟨htickets, hparks, htakes⟩
  | release hshutdown hadvance =>
    refine h.of_advance hadvance rfl ?_
    simp only [note, hshutdown, ShutdownState.held, List.append_assoc]
    exact (List.perm_append_comm.append_left _).map _
  | @complete pass hshutdown hended _ =>
    have hnone : pass.held = [] := by simp [Pass.held, hended.2]
    rw [hshutdown] at htakes
    exact ⟨htickets, hparks, by simpa [ShutdownState.held, hnone] using htakes⟩

/-- Every reachable state accounts for its tickets. -/
theorem Reachable.accounted [Quantity α] {m : Machine α} (h : m.Reachable) : m.Accounted :=
  h.induct accounted_init fun _ _ => accounted_step

namespace Accounted

variable {m : Machine α} (h : m.Accounted)

include h

/-- The places of an account, put together. -/
theorem conserved :
    (ticketsOf m.log.parks).Perm
      (ticketsOf (m.scheduler.waiting ++ m.loop.held ++ m.shutdown.held) ++
        answeredBy m.log.handsOut) := by
  have hparks := h.parks_perm
  have htakes := h.takes_perm
  rw [List.perm_iff_count] at hparks htakes ⊢
  intro ticket
  have hparks := hparks ticket
  have htakes := htakes ticket
  simp only [ticketsOf, answeredBy, List.map_append, List.count_append] at hparks htakes ⊢
  omega

/-- No two accepted requests share a ticket. -/
theorem nodup_parks : (ticketsOf m.log.parks).Nodup := by
  rw [h.tickets]
  exact List.nodup_range

/-- No request is taken twice. -/
theorem nodup_takes : (ticketsOf m.log.takes).Nodup := by
  have hnodup := h.parks_perm.nodup_iff.mp h.nodup_parks
  rw [ticketsOf, List.map_append] at hnodup
  exact (List.nodup_append.mp hnodup).2.1

/-- No ticket is answered twice. -/
theorem nodup_handsOut : (answeredBy m.log.handsOut).Nodup := by
  have hnodup := h.conserved.nodup_iff.mp h.nodup_parks
  exact (List.nodup_append.mp hnodup).2.1

end Accounted

end Machine

end HttpRelay.Throttle
