import HttpRelay.Proofs.Throttle.Tracing

/-!
# What whole passes drain

The passes of the loop and of a shutdown visit every slot, so no request outlasts them.

* `Reachable.stopped`: behind a stop the queues only empty, and the pass of the shutdown leaves
  nothing behind;
* `Reachable.timely`: a request is taken and answered by the end of the first pass of the loop
  that begins behind its acceptance, if no one takes it before.
-/

namespace HttpRelay.Throttle

variable {α : Type}

namespace Scheduler

/-- Requests wait in slots only. -/
theorem mem_slots_of_mem_parkedAt {s : Scheduler α} {slot : Nat} {p : Parked α}
    (hp : p ∈ s.parkedAt slot) : slot ∈ s.slots := by
  rw [slots, List.mem_range]
  refine Nat.lt_of_not_le fun hslot => ?_
  simp [parkedAt, List.getElem?_eq_none hslot] at hp

end Scheduler

namespace Pass.Advance

variable [Quantity α] {pass pass' : Pass α} {s s' : Scheduler α} {e : Event α}

/-- What still waits is not in a slot that the step of the pass left behind. -/
theorem mem_ahead (h : pass.Advance s pass' s' e) {slot : Nat} {p : Parked α}
    (hp : p ∈ s'.parkedAt slot) (hahead : slot ∈ pass.ahead) : slot ∈ pass'.ahead := by
  cases h with
  | @take _ taken =>
    rcases List.mem_cons.mp hahead with rfl | hahead
    · -- nothing waits any more in the slot that was just drained
      simp [Scheduler.parkedAt_drain] at hp
    · exact hahead
  | answer => exact hahead

/-- What a pass holds behind a step waited before it. -/
theorem hand_eq (h : pass.Advance s pass' s' e) {slot : Nat} {batch : List (Parked α)}
    (hhand : pass'.hand = some (slot, batch)) : batch = s.parkedAt slot := by
  cases h with
  | take =>
    obtain ⟨rfl, rfl⟩ : _ = slot ∧ _ = batch := by simpa using hhand
    rfl
  | answer => cases hhand

end Pass.Advance

/-- Number of passes that the loop has under way. -/
def LoopState.underWay : LoopState α → Nat
  | .passing _ => 1
  | _ => 0

namespace Machine

/-- A step notes one event or none. -/
theorem Step.log_cases [Quantity α] {m m' : Machine α} (h : Step m m') :
    m'.log = m.log ∨ ∃ e, m'.log = m.log ++ [e] := by
  cases h with
  | setBudget _ => exact .inl rfl
  | stop _ => exact .inl rfl
  | complete _ _ _ => exact .inl rfl
  | _ => exact .inr ⟨_, rfl⟩

/-! ## Behind a stop -/

/-- What a shutdown achieved so far. -/
structure Stopped (m : Machine α) : Prop where
  /-- The scheduler is stopped by the call of a shutdown. -/
  called : m.scheduler.shutDown = true ↔ m.shutdown ≠ .notCalled
  /-- The pass of a shutdown leaves nothing behind. -/
  behind : ∀ pass, m.shutdown = .releasing pass → pass.purpose = .release ∧
    ∀ slot, ∀ p ∈ m.scheduler.parkedAt slot, slot ∈ pass.ahead
  /-- Nothing waits behind a shutdown, and the loop is gone. -/
  completed : m.shutdown = .completed →
    (∀ slot, m.scheduler.parkedAt slot = []) ∧ (m.loop = .absent ∨ m.loop = .ended)

/-- At the start nothing is stopped. -/
theorem stopped_init (count : Nat) (looping : Bool) :
    (init count looping : Machine α).Stopped := by
  have hshutdown : (init count looping : Machine α).shutdown = .notCalled := by
    cases looping <;> rfl
  have hrunning : (init count looping : Machine α).scheduler.shutDown = false := by
    cases looping <;> rfl
  refine ⟨by simp [hshutdown, hrunning], ?_, ?_⟩
  · intro pass hpass
    simp [hshutdown] at hpass
  · intro hcompleted
    simp [hshutdown] at hcompleted

/-- A step that parks nothing, and leaves the shutdown and a gone loop alone, keeps what a shutdown
achieved. -/
theorem Stopped.of_subset {m m' : Machine α} (h : m.Stopped)
    (hshutDown : m'.scheduler.shutDown = m.scheduler.shutDown)
    (hparked : ∀ slot, ∀ p ∈ m'.scheduler.parkedAt slot, p ∈ m.scheduler.parkedAt slot)
    (hshutdown : m'.shutdown = m.shutdown)
    (hloop : m.loop = .absent ∨ m.loop = .ended → m'.loop = .absent ∨ m'.loop = .ended) :
    m'.Stopped := by
  refine ⟨by rw [hshutDown, hshutdown]; exact h.called, ?_, ?_⟩
  · intro pass hpass
    obtain ⟨hpurpose, hahead⟩ := h.behind pass (hshutdown ▸ hpass)
    exact ⟨hpurpose, fun slot p hp => hahead slot p (hparked slot p hp)⟩
  · intro hcompleted
    obtain ⟨hempty, hgone⟩ := h.completed (hshutdown ▸ hcompleted)
    refine ⟨fun slot => List.eq_nil_iff_forall_not_mem.mpr fun p hp => ?_, hloop hgone⟩
    have hbefore := hparked slot p hp
    rw [hempty slot] at hbefore
    cases hbefore

/-- A loop that waits or makes a pass is not gone. -/
theorem not_gone {m : Machine α} (h : m.loop = .idle ∨ ∃ pass, m.loop = .passing pass) :
    ¬ (m.loop = .absent ∨ m.loop = .ended) := by
  rintro (habsent | hended)
  · rcases h with hidle | ⟨pass, hpassing⟩
    · cases hidle.symm.trans habsent
    · cases hpassing.symm.trans habsent
  · rcases h with hidle | ⟨pass, hpassing⟩
    · cases hidle.symm.trans hended
    · cases hpassing.symm.trans hended

/-- Every step keeps what a shutdown achieved. -/
theorem stopped_step [Quantity α] {m m' : Machine α} (h : m.Stopped) (hstep : Step m m') :
    m'.Stopped := by
  cases hstep with
  | @accept id request ticket s henqueue =>
    -- Only a running scheduler accepts, so no shutdown was called.
    obtain ⟨hrunning, -, -, hs⟩ := Scheduler.enqueue?_eq_some henqueue
    have hnotCalled : m.shutdown = .notCalled := by
      refine Classical.byContradiction fun hcalled => ?_
      have hstop := h.called.mpr hcalled
      rw [hrunning] at hstop
      cases hstop
    refine ⟨?_, ?_, ?_⟩
    · change s.shutDown = true ↔ m.shutdown ≠ .notCalled
      have hkeeps : s.shutDown = m.scheduler.shutDown := by rw [hs]; rfl
      rw [hkeeps]
      exact h.called
    · intro pass hpass
      change m.shutdown = .releasing pass at hpass
      rw [hnotCalled] at hpass
      cases hpass
    · intro hcompleted
      change m.shutdown = .completed at hcompleted
      rw [hnotCalled] at hcompleted
      cases hcompleted
  | refuse _ => exact h.of_subset rfl (fun _ _ hp => hp) rfl id
  | setBudget hbudget =>
    refine h.of_subset ?_ (fun slot p hp => ?_) rfl id
    · rw [Scheduler.setBudget?_eq_some hbudget]
      rfl
    · rwa [← Scheduler.parkedAt_setBudget hbudget]
  | wake elapsed hidle =>
    exact h.of_subset rfl (fun _ _ hp => hp) rfl fun hgone => absurd hgone (not_gone (.inl hidle))
  | breakOff hidle _ =>
    exact h.of_subset rfl (fun _ _ hp => hp) rfl fun hgone => absurd hgone (not_gone (.inl hidle))
  | advance hloop hadvance =>
    obtain ⟨-, -, -, -, -, hshutDown⟩ := hadvance.frame
    exact h.of_subset hshutDown (fun _ _ => hadvance.parkedAt_subset) rfl fun hgone =>
      absurd hgone (not_gone (.inr ⟨_, hloop⟩))
  | settle hloop _ =>
    exact h.of_subset rfl (fun _ _ hp => hp) rfl fun hgone =>
      absurd hgone (not_gone (.inr ⟨_, hloop⟩))
  | stop hnotCalled =>
    -- every slot is still ahead of the pass that begins
    refine ⟨⟨fun _ => ?_, fun _ => rfl⟩, ?_, ?_⟩
    · simp
    · intro pass hpass
      obtain rfl : _ = pass := ShutdownState.releasing.inj hpass
      exact ⟨rfl, fun slot p hp => Scheduler.mem_slots_of_mem_parkedAt hp⟩
    · intro hcompleted
      cases hcompleted
  | @release pass pass' s e hreleasing hadvance =>
    obtain ⟨-, -, -, hpurpose, -, hshutDown⟩ := hadvance.frame
    obtain ⟨hrelease, hahead⟩ := h.behind pass hreleasing
    refine ⟨?_, ?_, ?_⟩
    · change s.shutDown = true ↔ ShutdownState.releasing pass' ≠ .notCalled
      rw [hshutDown, h.called, hreleasing]
      simp
    · intro other hother
      obtain rfl : pass' = other := ShutdownState.releasing.inj hother
      exact ⟨hpurpose.trans hrelease, fun slot p hp =>
        hadvance.mem_ahead hp (hahead slot p (hadvance.parkedAt_subset hp))⟩
    · intro hcompleted
      cases hcompleted
  | @complete pass hreleasing hended hgone =>
    -- no slot is ahead of a pass that is over, so that nothing waits in any
    obtain ⟨-, hahead⟩ := h.behind pass hreleasing
    refine ⟨?_, ?_, ?_⟩
    · change m.scheduler.shutDown = true ↔ _
      rw [h.called, hreleasing]
      simp
    · intro other hother
      cases hother
    · intro _
      refine ⟨fun slot => List.eq_nil_iff_forall_not_mem.mpr fun p hp => ?_, hgone⟩
      have hleft := hahead slot p hp
      rw [hended.1] at hleft
      cases hleft

/-- What a shutdown achieved in every reachable state. -/
theorem Reachable.stopped [Quantity α] {m : Machine α} (h : m.Reachable) : m.Stopped :=
  h.induct stopped_init fun _ _ => stopped_step

/-- A completed shutdown is not undone. -/
theorem completed_step [Quantity α] {m m' : Machine α} (h : m.shutdown = .completed)
    (hstep : Step m m') : m'.shutdown = .completed := by
  cases hstep with
  | stop hnotCalled => rw [hnotCalled] at h; cases h
  | release hreleasing _ => rw [hreleasing] at h; cases h
  | complete => rfl
  | _ => exact h

/-- Nothing undoes a completed shutdown. -/
theorem completed_reaches [Quantity α] {m m' : Machine α} (h : m.shutdown = .completed)
    (hreaches : Reaches m m') : m'.shutdown = .completed := by
  induction hreaches with
  | refl => exact h
  | tail _ hstep ih => exact completed_step ih hstep

/-! ## Passes of the loop -/

/-- A request in a slot does not outlast the first pass of the loop behind `begun` others. -/
structure Due (m : Machine α) (slot : Nat) (p : Parked α) (begun : Nat) : Prop where
  /-- While it waits, no such pass has ended. -/
  parked : p ∈ m.scheduler.parkedAt slot → m.log.ended ≤ begun
  /-- While it waits, such a pass is still to visit its slot. -/
  ahead : ∀ pass, p ∈ m.scheduler.parkedAt slot → m.loop = .passing pass →
    begun < m.log.begun → slot ∈ pass.ahead
  /-- While the loop holds it, no such pass has ended. -/
  held : ∀ pass batch, m.loop = .passing pass → pass.hand = some (slot, batch) → p ∈ batch →
    m.log.ended ≤ begun

/-- No request outlasts a pass of the loop that begins behind its acceptance. -/
structure Timely (m : Machine α) : Prop where
  /-- The loop makes one pass after another. -/
  balance : m.log.begun = m.log.ended + m.loop.underWay
  /-- A request is due behind the passes that began before its acceptance. -/
  due : ∀ pre post slot p, m.log = pre ++ .accepted slot p :: post →
    m.Due slot p (Log.begun pre)

/-- At the start nothing is due. -/
theorem timely_init (count : Nat) (looping : Bool) : (init count looping : Machine α).Timely := by
  have hlog : (init count looping : Machine α).log = [] := by cases looping <;> rfl
  refine ⟨?_, ?_⟩
  · cases looping <;> rfl
  · intro pre post slot p hsplit
    simp [hlog] at hsplit

section Steps

variable {m m' : Machine α} {slot begun : Nat} {p : Parked α}

/-- A step that neither begins nor ends a pass, and leaves the loop alone, keeps what is due. -/
theorem Due.of_subset (h : m.Due slot p begun)
    (hparked : p ∈ m'.scheduler.parkedAt slot → p ∈ m.scheduler.parkedAt slot)
    (hloop : m'.loop = m.loop) (hbegun : m'.log.begun = m.log.begun)
    (hended : m'.log.ended = m.log.ended) : m'.Due slot p begun := by
  refine ⟨?_, ?_, ?_⟩
  · intro hp
    rw [hended]
    exact h.parked (hparked hp)
  · intro pass hp hpass hbehind
    rw [hbegun] at hbehind
    exact h.ahead pass (hparked hp) (hloop ▸ hpass) hbehind
  · intro pass batch hpass hhand hp
    rw [hended]
    exact h.held pass batch (hloop ▸ hpass) hhand hp

/-- When the loop begins a pass, all that waits is ahead of it. -/
theorem Due.of_began (h : m.Due slot p begun) {pass : Pass α}
    (hscheduler : m'.scheduler = m.scheduler) (hloop : m'.loop = .passing pass)
    (hahead : pass.ahead = m.scheduler.slots) (hhand : pass.hand = none)
    (hended : m'.log.ended = m.log.ended) : m'.Due slot p begun := by
  refine ⟨?_, ?_, ?_⟩
  · intro hp
    rw [hended]
    exact h.parked (hscheduler ▸ hp)
  · intro other hp hother _
    obtain rfl : pass = other := LoopState.passing.inj (hloop.symm.trans hother)
    rw [hahead]
    exact Scheduler.mem_slots_of_mem_parkedAt (hscheduler ▸ hp)
  · intro other batch hother hsome
    obtain rfl : pass = other := LoopState.passing.inj (hloop.symm.trans hother)
    rw [hhand] at hsome
    cases hsome

/-- When the loop goes on with its pass, it holds what is no longer ahead. -/
theorem Due.of_advance [Quantity α] (h : m.Due slot p begun) {pass pass' : Pass α} {e : Event α}
    (hbefore : m.loop = .passing pass)
    (hadvance : pass.Advance m.scheduler pass' m'.scheduler e) (hloop : m'.loop = .passing pass')
    (hbegun : m'.log.begun = m.log.begun) (hended : m'.log.ended = m.log.ended) :
    m'.Due slot p begun := by
  refine ⟨?_, ?_, ?_⟩
  · intro hp
    rw [hended]
    exact h.parked (hadvance.parkedAt_subset hp)
  · intro other hp hother hbehind
    obtain rfl : pass' = other := LoopState.passing.inj (hloop.symm.trans hother)
    rw [hbegun] at hbehind
    exact hadvance.mem_ahead hp
      (h.ahead pass (hadvance.parkedAt_subset hp) hbefore hbehind)
  · intro other batch hother hhand hp
    obtain rfl : pass' = other := LoopState.passing.inj (hloop.symm.trans hother)
    -- what the loop holds now was waiting before the step
    rw [hadvance.hand_eq hhand] at hp
    rw [hended]
    exact h.parked hp

/-- When the loop ends a pass, nothing is left that was accepted before its beginning. -/
theorem Due.of_ended (h : m.Due slot p begun) {pass : Pass α} (hbefore : m.loop = .passing pass)
    (hahead : pass.ahead = []) (hscheduler : m'.scheduler = m.scheduler)
    (hloop : ∀ other, m'.loop ≠ .passing other) (hended : m'.log.ended = m.log.begun) :
    m'.Due slot p begun := by
  refine ⟨?_, ?_, ?_⟩
  · intro hp
    rw [hended]
    -- otherwise the pass that ends would still have to visit the slot
    refine Nat.le_of_not_lt fun hbehind => ?_
    have hmem := h.ahead pass (hscheduler ▸ hp) hbefore hbehind
    rw [hahead] at hmem
    cases hmem
  · intro other _ hother
    exact absurd hother (hloop other)
  · intro other _ hother
    exact absurd hother (hloop other)

/-- Every step keeps what is due, if the request does not come with it. -/
theorem due_step [Quantity α] (h : m.Due slot p begun)
    (hbalance : m.log.begun = m.log.ended + m.loop.underWay)
    (hticket : p.ticket < m.scheduler.nextTicket) (hstep : Step m m') : m'.Due slot p begun := by
  cases hstep with
  | @accept id request ticket s henqueue =>
    obtain ⟨-, -, hnext, -⟩ := Scheduler.enqueue?_eq_some henqueue
    refine h.of_subset (fun hp => ?_) rfl (by simp [note, Event.isBegan])
      (by simp [note, Event.isEnded])
    change p ∈ s.parkedAt slot at hp
    rw [Scheduler.parkedAt_enqueue henqueue] at hp
    split at hp
    · -- the request that comes with the step has a later ticket
      rcases List.mem_append.mp hp with hp | hnew
      · exact hp
      · have hsame : p.ticket = ticket := by rw [List.mem_singleton.mp hnew]
        omega
    · exact hp
  | refuse _ =>
    exact h.of_subset id rfl (by simp [note, Event.isBegan]) (by simp [note, Event.isEnded])
  | setBudget hbudget =>
    refine h.of_subset (fun hp => ?_) rfl rfl rfl
    rwa [← Scheduler.parkedAt_setBudget hbudget]
  | wake elapsed _ => exact h.of_began rfl rfl rfl rfl (by simp [note, Event.isEnded])
  | breakOff _ _ => exact h.of_began rfl rfl rfl rfl (by simp [note, Event.isEnded])
  | advance hloop hadvance =>
    obtain ⟨-, hbegan, hended, -⟩ := hadvance.frame
    exact h.of_advance hloop hadvance rfl (by simp [note, hbegan]) (by simp [note, hended])
  | @settle pass hloop hended =>
    refine h.of_ended hloop hended.1 rfl (fun other => ?_) ?_
    · change pass.purpose.next ≠ _
      cases pass.purpose <;> simp [Purpose.next]
    · rw [hbalance, hloop]
      simp [note, Event.isEnded, LoopState.underWay]
  | stop _ => exact h.of_subset id rfl rfl rfl
  | release _ hadvance =>
    obtain ⟨-, hbegan, hended, -⟩ := hadvance.frame
    exact h.of_subset hadvance.parkedAt_subset rfl (by simp [note, hbegan])
      (by simp [note, hended])
  | complete _ _ _ => exact h.of_subset id rfl rfl rfl

/-- Every step keeps the passes of the loop in turn. -/
theorem balance_step [Quantity α] (h : m.log.begun = m.log.ended + m.loop.underWay)
    (hstep : Step m m') : m'.log.begun = m'.log.ended + m'.loop.underWay := by
  cases hstep with
  | wake _ hidle => simpa [note, Event.isBegan, Event.isEnded, hidle, LoopState.underWay] using h
  | breakOff hidle _ =>
    simpa [note, Event.isBegan, Event.isEnded, hidle, LoopState.underWay] using h
  | advance hloop hadvance =>
    obtain ⟨-, hbegan, hended, -⟩ := hadvance.frame
    simpa [note, hbegan, hended, hloop, LoopState.underWay] using h
  | @settle pass hloop hended =>
    have hnext : pass.purpose.next.underWay = 0 := by cases pass.purpose <;> rfl
    have hone : m.loop.underWay = 1 := by rw [hloop, LoopState.underWay]
    rw [hone] at h
    simp only [note, Log.begun_append, Log.ended_append, Event.isBegan, Event.isEnded, hnext]
    exact h
  | release _ hadvance =>
    obtain ⟨-, hbegan, hended, -⟩ := hadvance.frame
    simpa [note, hbegan, hended] using h
  | _ => simpa [note, Event.isBegan, Event.isEnded] using h

/-- What a request that was just accepted is due behind. -/
theorem due_of_accepted (hbalance : m.log.begun = m.log.ended + m.loop.underWay)
    (hended : m'.log.ended = m.log.ended) (hbegun : m'.log.begun = m.log.begun) :
    m'.Due slot p m.log.begun := by
  refine ⟨fun _ => by omega, ?_, fun _ _ _ _ _ => by omega⟩
  intro pass _ _ hbehind
  rw [hbegun] at hbehind
  exact absurd hbehind (Nat.lt_irrefl _)

/-- Every step is in time. -/
theorem timely_step [Quantity α] (h : m.Timely) (haccounted : m.Accounted) (hstep : Step m m') :
    m'.Timely := by
  refine ⟨balance_step h.balance hstep, ?_⟩
  intro pre post slot p hsplit
  -- The request was accepted before, unless the step itself accepts it.
  have hbefore (post : Log α) (hsplit : m.log = pre ++ .accepted slot p :: post) :
      m'.Due slot p (Log.begun pre) := by
    have hmem : .accepted slot p ∈ m.log := by
      rw [hsplit]
      exact List.mem_append_right _ List.mem_cons_self
    exact due_step (h.due pre post slot p hsplit) h.balance (haccounted.ticket_lt hmem) hstep
  rcases hstep.log_cases with hlog | ⟨e, hlog⟩
  · rw [hlog] at hsplit
    exact hbefore post hsplit
  · rw [hlog] at hsplit
    rcases Log.append_eq_split hsplit with ⟨rfl, rfl, -⟩ | ⟨post', -, hsplit⟩
    · refine due_of_accepted h.balance ?_ ?_
      · simp [hlog, Event.isEnded]
      · simp [hlog, Event.isBegan]
    · exact hbefore post' hsplit

end Steps

/-- Every reachable state is in time. -/
theorem Reachable.timely [Quantity α] {m : Machine α} (h : m.Reachable) : m.Timely := by
  -- that a new request differs from those accepted before is a matter of the account
  have hboth : m.Accounted ∧ m.Timely := by
    refine Reachable.induct (P := fun m => m.Accounted ∧ m.Timely) h ?_ ?_
    · intro count looping
      exact ⟨accounted_init count looping, timely_init count looping⟩
    · rintro m m' ⟨haccounted, htimely⟩ hstep
      exact ⟨accounted_step haccounted hstep, timely_step htimely haccounted hstep⟩
  exact hboth.2

end Machine

end HttpRelay.Throttle
