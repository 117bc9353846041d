import HttpRelay.Throttle.Scheduler

/-!
# Queues of a scheduler

What waits in a scheduler, slot by slot (`Scheduler.parkedAt`) and in all (`Scheduler.waiting`),
and what each operation does to it.

* `parkedAt_enqueue`, `waiting_enqueue`: an accepted request joins the end of its queue;
* `parkedAt_drain`, `waiting_drain`: a drain takes one queue, and all of it;
* `length_planTick`: a plan answers every request of a batch.
-/

namespace HttpRelay.Throttle

/-- The elements gathered from a list, when one element of the list changes. -/
theorem flatMap_modify_perm {β γ : Type} (g : β → List γ) (f : β → β) {x y : List γ} {b : β}
    (hperm : (g (f b) ++ x).Perm (g b ++ y)) :
    ∀ {l : List β} {i : Nat}, l[i]? = some b →
      ((l.modify i f).flatMap g ++ x).Perm (l.flatMap g ++ y)
  | [], _, h => by simp at h
  | a :: l, 0, h => by
    -- the changed element is the head: what it gathers moves past the rest of the list
    obtain rfl : a = b := by simpa using h
    have hswap : (g (f a) ++ x ++ l.flatMap g).Perm (g a ++ y ++ l.flatMap g) :=
      hperm.append_right _
    simp only [List.modify_zero_cons, List.flatMap_cons, List.append_assoc] at hswap ⊢
    exact ((List.perm_append_comm.append_left _).trans hswap).trans
      (List.perm_append_comm.append_left _)
  | a :: l, i + 1, h => by
    have ih := flatMap_modify_perm g f hperm (l := l) (i := i) (by simpa using h)
    simp only [List.modify_succ_cons, List.flatMap_cons, List.append_assoc]
    exact ih.append_left _

/-- A plan grants something to every request, in order. -/
@[simp] theorem length_planTick {α : Type} [Quantity α] (budget : Nat) (elapsed : α)
    (requests : List (Request α)) :
    (planTick budget elapsed requests).length = requests.length := by
  unfold planTick
  split <;> simp

namespace Scheduler

variable {α : Type} (s : Scheduler α)

/-- What waits in a slot. -/
def parkedAt (slot : Nat) : List (Parked α) := ((s.ruleSets[slot]?).map RuleSet.parked).getD []

/-- What waits in any slot. -/
def waiting : List (Parked α) := s.ruleSets.flatMap RuleSet.parked

/-- What waits in a slot waits. -/
theorem mem_waiting_of_mem_parkedAt {slot : Nat} {p : Parked α} (hp : p ∈ s.parkedAt slot) :
    p ∈ s.waiting := by
  simp only [parkedAt] at hp
  cases hslot : s.ruleSets[slot]? with
  | none => simp [hslot] at hp
  | some r =>
    simp only [hslot, Option.map_some, Option.getD_some] at hp
    exact List.mem_flatMap.mpr ⟨r, List.mem_of_getElem? hslot, hp⟩

/-- What waits, waits in some slot. -/
theorem exists_mem_parkedAt {p : Parked α} (hp : p ∈ s.waiting) :
    ∃ slot < s.ruleSets.length, p ∈ s.parkedAt slot := by
  obtain ⟨r, hr, hp⟩ := List.mem_flatMap.mp hp
  obtain ⟨slot, hslot, rfl⟩ := List.mem_iff_getElem.mp hr
  exact ⟨slot, hslot, by simpa [parkedAt, hslot] using hp⟩

@[simp] theorem waiting_ofCount (count : Nat) : (ofCount count : Scheduler α).waiting = [] := by
  simp [waiting, ofCount]

@[simp] theorem parkedAt_ofCount (count slot : Nat) :
    (ofCount count : Scheduler α).parkedAt slot = [] := by
  rw [List.eq_nil_iff_forall_not_mem]
  intro p hp
  simpa using mem_waiting_of_mem_parkedAt _ hp

variable {s}

section Enqueue

variable {id : RuleSetId} {request : Request α} {ticket : Nat} {s' : Scheduler α}

/-- An accepted request gets the next ticket, from a scheduler that was not stopped, and joins the
queue of its slot. -/
theorem enqueue?_eq_some (h : s.enqueue? id request = some (ticket, s')) :
    s.shutDown = false ∧ id.slot < s.ruleSets.length ∧ ticket = s.nextTicket ∧
      s' = { s.modifySlot id.slot fun r => { r with parked := r.parked ++ [⟨ticket, request⟩] } with
        nextTicket := ticket + 1 } := by
  by_cases hthrottled : s.isThrottled id = true
  · rw [enqueue?, if_pos hthrottled] at h
    simp only [isThrottled, Bool.and_eq_true, Bool.not_eq_true'] at hthrottled
    obtain ⟨hrunning, hbudget⟩ := hthrottled
    simp only [Option.some.injEq, Prod.mk.injEq] at h
    obtain ⟨rfl, rfl⟩ := h
    -- a slot out of range has no budget, so that nothing is throttled there
    refine ⟨hrunning, Nat.lt_of_not_le fun hslot => ?_, rfl, rfl⟩
    simp [budget?, ruleSet?, List.getElem?_eq_none hslot] at hbudget
  · rw [enqueue?, if_neg hthrottled] at h
    simp at h

/-- A stopped scheduler parks nothing. -/
theorem enqueue?_of_shutDown (hstop : s.shutDown = true) (id : RuleSetId) (request : Request α) :
    s.enqueue? id request = none := by
  simp [enqueue?, isThrottled, hstop]

variable (h : s.enqueue? id request = some (ticket, s'))

include h

/-- An accepted request joins the end of its queue. -/
theorem parkedAt_enqueue (slot : Nat) :
    s'.parkedAt slot =
      if slot = id.slot then s.parkedAt slot ++ [⟨ticket, request⟩] else s.parkedAt slot := by
  obtain ⟨-, hslot, -, rfl⟩ := enqueue?_eq_some h
  by_cases hsame : slot = id.slot
  · subst hsame
    simp [parkedAt, modifySlot, hslot]
  · simp [parkedAt, modifySlot, hsame, Ne.symm hsame]

/-- An accepted request waits, and nothing else changes. -/
theorem waiting_enqueue : s'.waiting.Perm (s.waiting ++ [⟨ticket, request⟩]) := by
  obtain ⟨-, hslot, -, rfl⟩ := enqueue?_eq_some h
  have hperm := flatMap_modify_perm RuleSet.parked
    (fun r : RuleSet α => { r with parked := r.parked ++ [⟨ticket, request⟩] })
    (x := []) (y := [⟨ticket, request⟩]) (b := s.ruleSets[id.slot]) (by simp)
    (List.getElem?_eq_getElem hslot)
  simpa [waiting, modifySlot] using hperm

end Enqueue

section SetBudget

variable {id : RuleSetId} {value : Int} {s' : Scheduler α}
  (h : s.setBudget? id value = some s')

include h

/-- A budget set leaves everything but the budgets as it was. -/
theorem setBudget?_eq_some :
    s' = s.modifySlot id.slot fun r => { r with budget := value.toNat } := by
  simp only [setBudget?] at h
  split at h
  next => simpa using h.symm
  next => simp at h

/-- A budget set leaves the queues as they were. -/
theorem parkedAt_setBudget (slot : Nat) : s'.parkedAt slot = s.parkedAt slot := by
  rw [setBudget?_eq_some h]
  by_cases hsame : slot = id.slot
  · subst hsame
    cases hslot : s.ruleSets[id.slot]? <;>
      simp [parkedAt, modifySlot, hslot]
  · simp [parkedAt, modifySlot, Ne.symm hsame]

/-- A budget set leaves what waits as it was. -/
theorem waiting_setBudget : s'.waiting.Perm s.waiting := by
  rw [setBudget?_eq_some h]
  by_cases hslot : id.slot < s.ruleSets.length
  · have hperm := flatMap_modify_perm RuleSet.parked
      (fun r : RuleSet α => { r with budget := value.toNat })
      (x := []) (y := []) (b := s.ruleSets[id.slot]) (by simp) (List.getElem?_eq_getElem hslot)
    simpa [waiting, modifySlot] using hperm
  · -- out of range nothing is modified
    rw [waiting, modifySlot, List.modify_eq_self (Nat.le_of_not_lt hslot)]
    exact List.Perm.refl _

end SetBudget

section Drain

variable (s) (slot : Nat)

@[simp] theorem fst_drain : (s.drain slot).1 = s.parkedAt slot := rfl

/-- A drain leaves the slot empty, and the others as they were. -/
theorem parkedAt_drain (other : Nat) :
    (s.drain slot).2.parkedAt other = if other = slot then [] else s.parkedAt other := by
  by_cases hsame : other = slot
  · subst hsame
    cases hslot : s.ruleSets[other]? <;>
      simp [parkedAt, drain, modifySlot, hslot, RuleSet.drained]
  · simp [parkedAt, drain, modifySlot, hsame, Ne.symm hsame]

/-- What waits is what a drain takes and what it leaves. -/
theorem waiting_drain : s.waiting.Perm ((s.drain slot).2.waiting ++ s.parkedAt slot) := by
  by_cases hslot : slot < s.ruleSets.length
  · have hperm := flatMap_modify_perm RuleSet.parked RuleSet.drained
      (x := s.parkedAt slot) (y := []) (b := s.ruleSets[slot])
      (by simp [parkedAt, hslot, RuleSet.drained]) (List.getElem?_eq_getElem hslot)
    simpa [waiting, drain, modifySlot] using hperm.symm
  · -- out of range there is neither a queue nor anything to modify
    have hlength := Nat.le_of_not_lt hslot
    have hempty : s.parkedAt slot = [] := by
      simp [parkedAt, List.getElem?_eq_none hlength]
    rw [hempty, List.append_nil, waiting, waiting, drain, modifySlot,
      List.modify_eq_self hlength]

end Drain

end Scheduler

end HttpRelay.Throttle
