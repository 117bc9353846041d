import HttpRelay.Proofs.Throttle.Accounting

/-!
# Tracing requests

What waits, is held or was answered in a reachable state can be traced back through the log to
the acceptance of the request, and an accepted request is found by the next drain of its slot.

* `Log.append_eq_split`: an event of a log that grew;
* `Reachable.traced`: the traces of every reachable state;
* `Accounted.accepted_unique`: a ticket stands for one request in one slot.
-/

namespace HttpRelay.Throttle

variable {α : Type}

namespace Log

/-- An event of a log that grew is the new one, or was in the log before. -/
theorem append_eq_split {log pre post : Log α} {e e' : Event α}
    (h : log ++ [e] = pre ++ e' :: post) :
    (pre = log ∧ e' = e ∧ post = []) ∨ ∃ post', post = post' ++ [e] ∧ log = pre ++ e' :: post' := by
  rcases List.eq_nil_or_concat post with rfl | ⟨post', last, rfl⟩
  · obtain ⟨hpre, hlast⟩ := List.append_inj' h rfl
    exact .inl ⟨hpre.symm, by simpa using hlast.symm, rfl⟩
  · rw [List.concat_eq_append, ← List.cons_append, ← List.append_assoc] at h
    obtain ⟨hpre, hlast⟩ := List.append_inj' h rfl
    obtain rfl : e = last := by simpa using hlast
    exact .inr ⟨post', List.concat_eq_append, hpre⟩

/-- What was accepted was parked. -/
theorem mem_parks {log : Log α} {slot : Nat} {p : Parked α} (h : .accepted slot p ∈ log) :
    p ∈ log.parks :=
  List.mem_flatMap.mpr ⟨_, h, List.mem_singleton_self p⟩

end Log

namespace Pass

/-- What a pass holds was taken from its slot. -/
def Traced (pass : Pass α) (log : Log α) : Prop :=
  ∀ slot batch, pass.hand = some (slot, batch) → .drained pass.purpose slot batch ∈ log

/-- A pass with empty hands holds nothing to be traced. -/
theorem traced_of_hand_none {pass : Pass α} (h : pass.hand = none) (log : Log α) :
    pass.Traced log := by
  intro slot batch hhand
  simp [h] at hhand

/-- What was traced stays so. -/
theorem Traced.append {pass : Pass α} {log : Log α} (h : pass.Traced log) (e : Event α) :
    pass.Traced (log ++ [e]) :=
  fun slot batch hhand => List.mem_append_left _ (h slot batch hhand)

namespace Advance

variable [Quantity α] {pass pass' : Pass α} {s s' : Scheduler α} {e : Event α}

/-- A pass that goes on holds what it takes. -/
theorem traced (h : pass.Advance s pass' s' e) (log : Log α) : pass'.Traced (log ++ [e]) := by
  cases h with
  | take =>
    intro slot batch hhand
    obtain ⟨rfl, rfl⟩ : _ = slot ∧ _ = batch := by simpa using hhand
    exact List.mem_append_right _ (List.mem_singleton_self _)
  | answer => exact traced_of_hand_none rfl _

/-- A step of a pass parks nothing. -/
theorem parkedAt_subset (h : pass.Advance s pass' s' e) {slot : Nat} {p : Parked α}
    (hp : p ∈ s'.parkedAt slot) : p ∈ s.parkedAt slot := by
  cases h with
  | @take _ taken =>
    -- the drained slot is empty, the others are as before
    rw [Scheduler.parkedAt_drain] at hp
    split at hp
    · cases hp
    · exact hp
  | answer => exact hp

/-- What is not taken stays in its slot. -/
theorem parkedAt_of_not_drained (h : pass.Advance s pass' s' e) {slot : Nat}
    (he : ∀ purpose batch, e ≠ .drained purpose slot batch) :
    s'.parkedAt slot = s.parkedAt slot := by
  cases h with
  | @take _ taken =>
    rw [Scheduler.parkedAt_drain, if_neg]
    rintro rfl
    exact he _ _ rfl
  | answer => rfl

/-- A batch is all that waits in its slot. -/
theorem drained {purpose : Purpose α} {slot : Nat} {batch : List (Parked α)}
    (h : pass.Advance s pass' s' (.drained purpose slot batch)) : batch = s.parkedAt slot := by
  cases h
  rfl

/-- What is answered was held, and is answered as planned. -/
theorem answered {purpose : Purpose α} {slot budget : Nat} {batch : List (Parked α)}
    {replies : List (Reply α)}
    (h : pass.Advance s pass' s' (.answered purpose slot budget batch replies)) :
    pass.purpose = purpose ∧ pass.hand = some (slot, batch) ∧
      replies = purpose.plan budget batch := by
  cases h
  exact ⟨rfl, rfl, purpose.replies_eq_plan s slot batch⟩

end Advance

end Pass

namespace Machine

/-- What is parked, held or answered can be traced back. -/
structure Traced [Quantity α] (m : Machine α) : Prop where
  /-- What waits in a slot was accepted for it. -/
  parked : ∀ slot, ∀ p ∈ m.scheduler.parkedAt slot, .accepted slot p ∈ m.log
  /-- What the loop holds was taken from its slot. -/
  loop : ∀ pass, m.loop = .passing pass → pass.Traced m.log
  /-- What a shutdown holds was taken from its slot. -/
  shutdown : ∀ pass, m.shutdown = .releasing pass → pass.Traced m.log
  /-- What was taken from a slot had been accepted for it. -/
  drained : ∀ pre post purpose slot batch, m.log = pre ++ .drained purpose slot batch :: post →
    ∀ p ∈ batch, .accepted slot p ∈ pre
  /-- What was accepted waits until its slot is drained. -/
  waits : ∀ pre post slot p, m.log = pre ++ .accepted slot p :: post →
    (∀ purpose batch, .drained purpose slot batch ∉ post) → p ∈ m.scheduler.parkedAt slot
  /-- What was accepted was taken by the next drain of its slot. -/
  swept : ∀ pre mid post purpose slot batch p,
    m.log = pre ++ .accepted slot p :: mid ++ .drained purpose slot batch :: post →
    (∀ purpose batch, .drained purpose slot batch ∉ mid) → p ∈ batch
  /-- What was answered had been taken, and was answered as planned. -/
  answered : ∀ purpose slot budget batch replies,
    .answered purpose slot budget batch replies ∈ m.log →
      .drained purpose slot batch ∈ m.log ∧ replies = purpose.plan budget batch

/-- Nothing is to be traced at the start. -/
theorem traced_init [Quantity α] (count : Nat) (looping : Bool) :
    (init count looping : Machine α).Traced := by
  have hlog : (init count looping : Machine α).log = [] := by cases looping <;> rfl
  have hparked (slot : Nat) :
      (init count looping : Machine α).scheduler.parkedAt slot = [] := by
    cases looping
    · exact Scheduler.parkedAt_ofCount count slot
    · exact Scheduler.parkedAt_ofCount count slot
  refine ⟨?_, ?_, ?_, ?_, ?_, ?_, ?_⟩
  · intro slot p hp
    simp [hparked] at hp
  · intro pass hloop
    cases looping <;> simp [init] at hloop
  · intro pass hshutdown
    cases looping <;> simp [init] at hshutdown
  all_goals simp [hlog]

section Steps

variable [Quantity α] {m m' : Machine α} {e : Event α}

/-- A step keeps the traces, if its event does. -/
theorem Traced.of_event (h : m.Traced) (hlog : m'.log = m.log ++ [e])
    (hparked : ∀ slot, ∀ p ∈ m'.scheduler.parkedAt slot, .accepted slot p ∈ m'.log)
    (hloop : ∀ pass, m'.loop = .passing pass → pass.Traced m'.log)
    (hshutdown : ∀ pass, m'.shutdown = .releasing pass → pass.Traced m'.log)
    (hstays : ∀ slot, (∀ purpose batch, e ≠ .drained purpose slot batch) →
      ∀ p ∈ m.scheduler.parkedAt slot, p ∈ m'.scheduler.parkedAt slot)
    (haccepted : ∀ slot p, e = .accepted slot p → p ∈ m'.scheduler.parkedAt slot)
    (hdrained : ∀ purpose slot batch, e = .drained purpose slot batch →
      batch = m.scheduler.parkedAt slot)
    (hanswered : ∀ purpose slot budget batch replies,
      e = .answered purpose slot budget batch replies →
        .drained purpose slot batch ∈ m.log ∧ replies = purpose.plan budget batch) :
    m'.Traced := by
  -- In each case the event in question is the new one, or lies in the log before it.
  refine ⟨hparked, hloop, hshutdown, ?_, ?_, ?_, ?_⟩
  · intro pre post purpose slot batch hsplit p hp
    rw [hlog] at hsplit
    rcases Log.append_eq_split hsplit with ⟨rfl, hlast, -⟩ | ⟨post', -, hsplit⟩
    · -- a batch taken now is all that waits, and what waits was accepted
      rw [hdrained _ _ _ hlast.symm] at hp
      exact h.parked slot p hp
    · exact h.drained pre post' purpose slot batch hsplit p hp
  · intro pre post slot p hsplit hquiet
    rw [hlog] at hsplit
    rcases Log.append_eq_split hsplit with ⟨-, hlast, -⟩ | ⟨post', rfl, hbefore⟩
    · exact haccepted slot p hlast.symm
    · -- it waited before, and the new event is no drain of its slot either
      refine hstays slot (fun purpose batch he => hquiet purpose batch ?_) p
        (h.waits pre post' slot p hbefore fun purpose batch hmem =>
          hquiet purpose batch (List.mem_append_left _ hmem))
      rw [he]
      exact List.mem_append_right _ (List.mem_singleton_self _)
  · intro pre mid post purpose slot batch p hsplit hquiet
    rw [hlog] at hsplit
    rcases Log.append_eq_split hsplit with ⟨hpre, hlast, -⟩ | ⟨post', -, hsplit⟩
    · -- until this drain nothing took it, so that it still waits
      rw [hdrained _ _ _ hlast.symm]
      exact h.waits pre mid slot p hpre.symm hquiet
    · exact h.swept pre mid post' purpose slot batch p hsplit hquiet
  · intro purpose slot budget batch replies hmem
    rw [hlog] at hmem ⊢
    rcases List.mem_append.mp hmem with hmem | hlast
    · obtain ⟨hdrained, hplan⟩ := h.answered purpose slot budget batch replies hmem
      exact ⟨List.mem_append_left _ hdrained, hplan⟩
    · obtain ⟨hdrained, hplan⟩ := hanswered _ _ _ _ _ (List.mem_singleton.mp hlast).symm
      exact ⟨List.mem_append_left _ hdrained, hplan⟩

/-- A step of a pass keeps the traces, whoever makes the pass. -/
theorem Traced.of_advance {pass pass' : Pass α} (h : m.Traced) (htraced : pass.Traced m.log)
    (hadvance : pass.Advance m.scheduler pass' m'.scheduler e) (hlog : m'.log = m.log ++ [e])
    (hloop : ∀ other, m'.loop = .passing other → other = pass' ∨ m.loop = .passing other)
    (hshutdown : ∀ other, m'.shutdown = .releasing other →
      other = pass' ∨ m.shutdown = .releasing other) : m'.Traced := by
  refine h.of_event hlog ?_ ?_ ?_ ?_ ?_ ?_ ?_
  · intro slot p hp
    rw [hlog]
    exact List.mem_append_left _ (h.parked slot p (hadvance.parkedAt_subset hp))
  · intro other hother
    rw [hlog]
    rcases hloop other hother with rfl | hbefore
    · exact hadvance.traced m.log
    · exact (h.loop other hbefore).append e
  · intro other hother
    rw [hlog]
    rcases hshutdown other hother with rfl | hbefore
    · exact hadvance.traced m.log
    · exact (h.shutdown other hbefore).append e
  · intro slot he p hp
    rwa [hadvance.parkedAt_of_not_drained he]
  · rintro slot p rfl
    obtain ⟨hparks, -⟩ := hadvance.frame
    cases hparks
  · rintro purpose slot batch rfl
    exact hadvance.drained
  · rintro purpose slot budget batch replies rfl
    obtain ⟨rfl, hhand, hplan⟩ := hadvance.answered
    exact ⟨htraced slot batch hhand, hplan⟩

/-- An event that moves no request keeps the traces. -/
theorem Traced.of_silent (h : m.Traced) (hlog : m'.log = m.log ++ [e])
    (he : e = .refused ∨ e = .began ∨ e = .ended) (hscheduler : m'.scheduler = m.scheduler)
    (hloop : ∀ pass, m'.loop = .passing pass → pass.hand = none ∨ m.loop = .passing pass)
    (hshutdown : m'.shutdown = m.shutdown) : m'.Traced := by
  refine h.of_event hlog ?_ ?_ ?_ ?_ ?_ ?_ ?_
  · intro slot p hp
    rw [hlog]
    exact List.mem_append_left _ (h.parked slot p (hscheduler ▸ hp))
  · intro pass hpass
    rcases hloop pass hpass with hnone | hbefore
    · exact Pass.traced_of_hand_none hnone _
    · rw [hlog]
      exact (h.loop pass hbefore).append e
  · intro pass hpass
    rw [hlog]
    exact (h.shutdown pass (hshutdown ▸ hpass)).append e
  · intro slot _ p hp
    rwa [hscheduler]
  all_goals rcases he with rfl | rfl | rfl <;> simp

/-- Every step keeps the traces. -/
theorem traced_step (h : m.Traced) (hstep : Step m m') : m'.Traced := by
  cases hstep with
  | @accept id request ticket s henqueue =>
    have hparkedAt := Scheduler.parkedAt_enqueue henqueue
    refine h.of_event rfl ?_ ?_ ?_ ?_ ?_ ?_ ?_
    · -- what waits behind the request is what waited before it, and the request
      intro slot p hp
      change p ∈ s.parkedAt slot at hp
      rw [hparkedAt] at hp
      by_cases hslot : slot = id.slot
      · rw [if_pos hslot] at hp
        rcases List.mem_append.mp hp with hp | hnew
        · exact List.mem_append_left _ (h.parked slot p hp)
        · rw [List.mem_singleton.mp hnew, hslot]
          exact List.mem_append_right _ (List.mem_singleton_self _)
      · rw [if_neg hslot] at hp
        exact List.mem_append_left _ (h.parked slot p hp)
    · exact fun pass hloop => (h.loop pass hloop).append _
    · exact fun pass hshutdown => (h.shutdown pass hshutdown).append _
    · intro slot _ p hp
      change p ∈ s.parkedAt slot
      rw [hparkedAt]
      split
      · exact List.mem_append_left _ hp
      · exact hp
    · intro slot p he
      obtain ⟨rfl, rfl⟩ : id.slot = slot ∧ _ = p := by simpa using he
      change _ ∈ s.parkedAt id.slot
      rw [hparkedAt, if_pos rfl]
      exact List.mem_append_right _ (List.mem_singleton_self _)
    · simp
    · simp
  | refuse _ => exact h.of_silent rfl (.inl rfl) rfl (fun _ => .inr) rfl
  | @setBudget id value s hbudget =>
    -- a budget is set without an event, and moves nothing
    have hparkedAt := Scheduler.parkedAt_setBudget hbudget
    refine ⟨?_, h.loop, h.shutdown, h.drained, ?_, h.swept, h.answered⟩
    · intro slot p hp
      exact h.parked slot p (hparkedAt slot ▸ hp)
    · intro pre post slot p hsplit hquiet
      change p ∈ s.parkedAt slot
      rw [hparkedAt]
      exact h.waits pre post slot p hsplit hquiet
  | wake elapsed _ =>
    refine h.of_silent rfl (.inr (.inl rfl)) rfl (fun pass hpass => .inl ?_) rfl
    obtain rfl : _ = pass := by simpa [note] using hpass
    rfl
  | breakOff _ _ =>
    refine h.of_silent rfl (.inr (.inl rfl)) rfl (fun pass hpass => .inl ?_) rfl
    obtain rfl : _ = pass := by simpa [note] using hpass
    rfl
  | @advance pass pass' s e hloop hadvance =>
    refine h.of_advance (h.loop pass hloop) hadvance rfl ?_ fun _ => .inr
    intro other hother
    exact .inl (LoopState.passing.inj hother).symm
  | @settle pass hloop hended =>
    refine h.of_silent rfl (.inr (.inr rfl)) rfl ?_ rfl
    intro other hother
    change pass.purpose.next = _ at hother
    cases hpurpose : pass.purpose <;> simp [hpurpose, Purpose.next] at hother
  | stop hshutdown =>
    -- the pass of the shutdown starts with empty hands
    refine ⟨h.parked, h.loop, ?_, h.drained, h.waits, h.swept, h.answered⟩
    intro pass hpass
    obtain rfl : _ = pass := ShutdownState.releasing.inj hpass
    exact Pass.traced_of_hand_none rfl _
  | @release pass pass' s e hshutdown hadvance =>
    refine h.of_advance (h.shutdown pass hshutdown) hadvance rfl (fun _ => .inr) ?_
    intro other hother
    exact .inl (ShutdownState.releasing.inj hother).symm
  | complete hshutdown _ _ =>
    refine ⟨h.parked, h.loop, ?_, h.drained, h.waits, h.swept, h.answered⟩
    intro pass hpass
    cases hpass

end Steps

/-- Every reachable state can be traced back. -/
theorem Reachable.traced [Quantity α] {m : Machine α} (h : m.Reachable) : m.Traced :=
  h.induct traced_init fun _ _ => traced_step

namespace Accounted

variable {m : Machine α} (h : m.Accounted)

include h

/-- A request has a ticket of its own among those accepted before and behind it. -/
theorem ticket_ne {pre post : Log α} {slot : Nat} {p p' : Parked α}
    (hsplit : m.log = pre ++ .accepted slot p :: post) (hp' : p' ∈ pre.parks ∨ p' ∈ post.parks) :
    p.ticket ≠ p'.ticket := by
  have hnodup := h.nodup_parks
  rw [hsplit] at hnodup
  simp only [ticketsOf, Log.parks, List.flatMap_append, List.flatMap_cons, Event.parks,
    List.map_append, List.singleton_append, List.map_cons] at hnodup
  -- no ticket is accepted twice: neither in what is before the request nor behind it
  obtain ⟨-, hbehind, hbefore⟩ := List.nodup_append.mp hnodup
  intro hticket
  rcases hp' with hp' | hp'
  · exact hbefore _ (List.mem_map_of_mem hp') _ List.mem_cons_self hticket.symm
  · exact (List.nodup_cons.mp hbehind).1 (hticket ▸ List.mem_map_of_mem hp')

/-- A ticket stands for one request in one slot. -/
theorem accepted_unique {slot slot' : Nat} {p p' : Parked α} (hp : .accepted slot p ∈ m.log)
    (hp' : .accepted slot' p' ∈ m.log) (hticket : p.ticket = p'.ticket) :
    slot = slot' ∧ p = p' := by
  obtain ⟨pre, post, hsplit⟩ := List.append_of_mem hp
  rw [hsplit] at hp'
  rcases List.mem_append.mp hp' with hbefore | hbehind
  · exact absurd hticket (h.ticket_ne hsplit (.inl (Log.mem_parks hbefore)))
  · rcases List.mem_cons.mp hbehind with hsame | hbehind
    · cases hsame
      exact ⟨rfl, rfl⟩
    · exact absurd hticket (h.ticket_ne hsplit (.inr (Log.mem_parks hbehind)))

/-- Only tickets that were given out are accepted. -/
theorem ticket_lt {slot : Nat} {p : Parked α} (hp : .accepted slot p ∈ m.log) :
    p.ticket < m.scheduler.nextTicket := by
  have hmem : p.ticket ∈ ticketsOf m.log.parks := List.mem_map_of_mem (Log.mem_parks hp)
  rwa [h.tickets, List.mem_range] at hmem

end Accounted

end Machine

end HttpRelay.Throttle
