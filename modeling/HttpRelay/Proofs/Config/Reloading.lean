import HttpRelay.Proofs.Config.Reconciling
import Mathlib.Data.List.Induction

/-!
# Reloading in step

However often a running relay is reloaded, its slots keep the names that they started with, and
each slot has the budget of its own name in the latest configuration.

* `budget?_applyThrottle`: the budgets of a scheduler that is brought in line;
* `Live.InStep`: a running relay is in step with the latest configuration;
* `Live.InStep.update`: one reload keeps it in step;
* `Live.inStep_reloaded`: so does any number of them.
-/

namespace HttpRelay.Config

open HttpRelay.Throttle (Scheduler)

variable {α : Type}

/-- Setting the budget of a slot changes no other slot, and adds none. -/
theorem budget?_applyBudget (scheduler : Scheduler α) (slot other : Nat) (ruleSet : RuleSet) :
    (applyBudget scheduler slot ruleSet).budget? ⟨other⟩ =
      if slot = other then
        (scheduler.budget? ⟨other⟩).map fun _ => ruleSet.bytesPerSecond.toNat
      else scheduler.budget? ⟨other⟩ := by
  rw [applyBudget, Scheduler.setBudget?]
  split
  next hslot =>
    simp only [Option.getD_some, Scheduler.budget?, Scheduler.ruleSet?, Scheduler.modifySlot,
      List.getElem?_modify]
    split <;> simp [Function.comp_def]
  next hslot =>
    split
    next hsame =>
      subst hsame
      have hnone : scheduler.ruleSets[slot]? = none := by
        simpa using hslot
      simp [Scheduler.budget?, Scheduler.ruleSet?, hnone]
    next => rfl

@[simp] theorem burst_applyBudget (scheduler : Scheduler α) (slot : Nat) (ruleSet : RuleSet) :
    (applyBudget scheduler slot ruleSet).burst = scheduler.burst := by
  rw [applyBudget, Scheduler.setBudget?]
  split <;> rfl

/-- The budgets of rule sets, set slot by slot: each slot gets the budget of its own rule set. -/
theorem foldl_applyBudget (ruleSets : List RuleSet) (scheduler : Scheduler α) :
    let applied := ruleSets.zipIdx.foldl (fun s (ruleSet, slot) => applyBudget s slot ruleSet)
      scheduler
    applied.burst = scheduler.burst ∧
      ∀ slot, applied.budget? ⟨slot⟩ =
        (scheduler.budget? ⟨slot⟩).map
          (((ruleSets[slot]?).map (·.bytesPerSecond.toNat)).getD ·) := by
  -- from behind: the last rule set is set once those in front of it are
  induction ruleSets using List.reverseRecOn with
  | nil => simp
  | append_singleton ruleSets last ih =>
    obtain ⟨hburst, hbudgets⟩ := ih
    simp only [List.zipIdx_append, List.zipIdx_singleton, List.foldl_append, List.foldl_cons,
      List.foldl_nil, burst_applyBudget, budget?_applyBudget, Nat.zero_add]
    refine ⟨hburst, fun slot => ?_⟩
    rw [hbudgets]
    split
    next hslot =>
      subst hslot
      simp
    next hslot =>
      have hkept : (ruleSets ++ [last])[slot]? = ruleSets[slot]? := by
        rw [List.getElem?_append]
        split
        next => rfl
        next hbehind =>
          rw [List.getElem?_eq_none (by simp; omega), List.getElem?_eq_none (by omega)]
      rw [hkept]

theorem burst_applyThrottle (c : Config) (scheduler : Scheduler α) :
    (applyThrottle c scheduler).burst =
      max Scheduler.minBurst (min c.throttle.burst Scheduler.maxBurst) :=
  (foldl_applyBudget c.throttle.ruleSets (scheduler.setBurst c.throttle.burst)).1

/-- A scheduler with a slot for each rule set gets their budgets, negative ones as zero. -/
theorem budget?_applyThrottle {c : Config} {scheduler : Scheduler α}
    (hslots : ∀ slot, (scheduler.budget? ⟨slot⟩).isSome = (c.throttle.ruleSets[slot]?).isSome)
    (slot : Nat) :
    (applyThrottle c scheduler).budget? ⟨slot⟩ =
      (c.throttle.ruleSets[slot]?).map fun ruleSet => (max 0 ruleSet.bytesPerSecond).toNat := by
  refine ((foldl_applyBudget c.throttle.ruleSets (scheduler.setBurst c.throttle.burst)).2
    slot).trans ?_
  change (scheduler.budget? ⟨slot⟩).map _ = _
  have hslot := hslots slot
  cases hset : c.throttle.ruleSets[slot]? with
  | none =>
    rw [hset, Option.isSome_none, Option.isSome_eq_false_iff, Option.isNone_iff_eq_none] at hslot
    rw [hslot]
    rfl
  | some ruleSet =>
    rw [hset] at hslot
    obtain ⟨budget, hbudget⟩ := Option.isSome_iff_exists.mp hslot
    have hclamp : ruleSet.bytesPerSecond.toNat = (max 0 ruleSet.bytesPerSecond).toNat := by omega
    rw [hbudget]
    simp only [Option.map_some, Option.getD_some, hclamp]

theorem budget?_ofCount (count slot : Nat) :
    (Scheduler.ofCount (α := α) count).budget? ⟨slot⟩ =
      if slot < count then some 0 else none := by
  rw [Scheduler.budget?, Scheduler.ruleSet?, Scheduler.ofCount, List.getElem?_replicate]
  split <;> rfl

/-- The budget of a name in a throttle section: that of its entry, and zero without one. -/
def Throttle.Grants (t : Throttle) (name : String) (budget : Int) : Prop :=
  (∃ ruleSet ∈ t.ruleSets, ruleSet.name = name ∧ ruleSet.bytesPerSecond = budget) ∨
    (name ∉ t.names ∧ budget = 0)

/-- Where names occur once, each has one budget. -/
theorem Throttle.grants_iff {t : Throttle} (hnodup : t.names.Nodup) {name : String}
    {budget : Int} : t.Grants name budget ↔ budget = t.budgetOf name := by
  constructor
  · rintro (⟨ruleSet, hmem, rfl, rfl⟩ | ⟨hname, rfl⟩)
    · exact (budgetOf_of_mem hnodup hmem).symm
    · exact (budgetOf_of_not_mem hname).symm
  · rintro rfl
    by_cases hname : name ∈ t.names
    · obtain ⟨ruleSet, hmem, rfl⟩ := List.mem_map.mp hname
      exact .inl ⟨ruleSet, hmem, rfl, (budgetOf_of_mem hnodup hmem).symm⟩
    · exact .inr ⟨hname, budgetOf_of_not_mem hname⟩

namespace Live

/-- A running relay that started with one configuration is in step with the latest one. -/
structure InStep (startup latest : Config) (live : Live α) : Prop where
  /-- Its slots have the names that they started with. -/
  names : live.config.throttle.names = startup.throttle.names
  /-- A slot has the budget that the latest configuration grants its name. -/
  grants : ∀ ruleSet ∈ live.config.throttle.ruleSets,
    latest.throttle.Grants ruleSet.name ruleSet.bytesPerSecond
  /-- The scheduler has these slots with these budgets, negative ones as zero. -/
  scheduled : ∀ slot, live.scheduler.budget? ⟨slot⟩ =
    (live.config.throttle.ruleSets[slot]?).map fun ruleSet => (max 0 ruleSet.bytesPerSecond).toNat
  /-- The time between ticks is the latest one. -/
  burst : live.config.throttle.burst = latest.throttle.burst ∧
    live.scheduler.burst = latest.throttle.burst

/-- The slot that a name started with holds the budget of that name and of no other. -/
theorem InStep.budget?_of_indexOf? {startup latest : Config} {live : Live α}
    (h : live.InStep startup latest) {name : String} {slot : Nat}
    (hslot : startup.throttle.indexOf? name = some slot) :
    ∃ budget, latest.throttle.Grants name budget ∧
      live.scheduler.budget? ⟨slot⟩ = some (max 0 budget).toNat := by
  rw [Throttle.indexOf?_eq, ← h.names, Throttle.names, List.findIdx?_map,
    List.findIdx?_eq_some_iff_getElem] at hslot
  obtain ⟨hlt, hname, -⟩ := hslot
  have hmem := List.getElem_mem hlt
  refine ⟨_, eq_of_beq hname ▸ h.grants _ hmem, ?_⟩
  rw [h.scheduled, List.getElem?_eq_getElem hlt]
  rfl

/-- A configuration is in step with itself once a scheduler with its slots is brought in line. -/
theorem inStep_applyThrottle {startup latest c : Config} {scheduler : Scheduler α}
    (hvalid : latest.isValid = true) (hnames : c.throttle.names = startup.throttle.names)
    (hgrants : ∀ ruleSet ∈ c.throttle.ruleSets,
      latest.throttle.Grants ruleSet.name ruleSet.bytesPerSecond)
    (hburst : c.throttle.burst = latest.throttle.burst)
    (hslots : ∀ slot, (scheduler.budget? ⟨slot⟩).isSome = (c.throttle.ruleSets[slot]?).isSome) :
    Live.InStep startup latest { config := c, scheduler := applyThrottle c scheduler } := by
  have hbounds := Throttle.faults_eq_nil_iff.mp
    (faults_eq_nil_iff.mp (isValid_iff.mp hvalid)).2.2.1
  refine ⟨hnames, hgrants, budget?_applyThrottle hslots, hburst, ?_⟩
  -- a valid time between ticks is within the bounds of the scheduler already
  rw [burst_applyThrottle, hburst, Nat.min_eq_left hbounds.2.1, Nat.max_eq_right hbounds.1]

theorem inStep_start {startup : Config} (hvalid : startup.isValid = true) :
    (start startup startup.throttle.ruleSets.length : Live α).InStep startup startup := by
  refine inStep_applyThrottle hvalid rfl (fun ruleSet hmem => .inl ⟨ruleSet, hmem, rfl, rfl⟩) rfl
    fun slot => ?_
  rw [budget?_ofCount]
  split
  next hslot => rw [List.getElem?_eq_getElem hslot]; rfl
  next hslot => rw [List.getElem?_eq_none (Nat.le_of_not_lt hslot)]; rfl

/-- A reload keeps a relay in step. -/
theorem InStep.update {startup latest next : Config} {live : Live α}
    (h : live.InStep startup latest) (hvalid : next.isValid = true) :
    (live.update next).InStep startup next := by
  have hnodup := nodup_names_of_isValid hvalid
  have hkept := reconcile_eq live.config hnodup
  have hsets : (reconcile live.config next).throttle.ruleSets =
      live.config.throttle.rebudgeted next.throttle := by rw [hkept]
  refine inStep_applyThrottle hvalid ((names_reconcile _ _).trans h.names) ?_ (by rw [hkept]) ?_
  · intro ruleSet hmem
    rw [hsets] at hmem
    obtain ⟨slot, -, rfl⟩ := List.mem_map.mp hmem
    exact (Throttle.grants_iff hnodup).mpr rfl
  · intro slot
    rw [hsets, h.scheduled, Throttle.rebudgeted, List.getElem?_map, Option.isSome_map,
      Option.isSome_map]

/-- However often a relay is reloaded with valid configurations, it is in step with the latest
one, and the slot of a name holds the budget of that name. -/
theorem inStep_reloaded {startup : Config} (hstartup : startup.isValid = true)
    {updates : List Config} (hupdates : ∀ c ∈ updates, c.isValid = true) :
    let live : Live α :=
      updates.foldl update (start startup startup.throttle.ruleSets.length)
    let latest := updates.getLast?.getD startup
    live.InStep startup latest ∧
      ∀ name slot, startup.throttle.indexOf? name = some slot →
        ∃ budget, latest.throttle.Grants name budget ∧
          live.scheduler.budget? ⟨slot⟩ = some (max 0 budget).toNat := by
  intro live latest
  suffices h : live.InStep startup latest from ⟨h, fun _ _ => h.budget?_of_indexOf?⟩
  subst live latest
  induction updates using List.reverseRecOn with
  | nil => exact inStep_start hstartup
  | append_singleton updates last ih =>
    rw [List.foldl_append, List.getLast?_concat]
    have hbefore := ih fun c hc => hupdates c (List.mem_append_left _ hc)
    exact hbefore.update (hupdates last (List.mem_append_right _ (List.mem_singleton_self last)))

/-- Two rule sets that change places, and then the first of them is removed and another added. -/
theorem inStep_reloaded_moved_removed_added :
    let startup := ofRuleSets [⟨"up", 100⟩, ⟨"down", 200⟩]
    let moved := ofRuleSets [⟨"down", 20⟩, ⟨"up", 10⟩]
    let removed := ofRuleSets [⟨"extra", 5⟩, ⟨"down", -7⟩]
    let live (updates : List Config) : Live Nat := updates.foldl update (start startup 2)
    (startup.isValid = true ∧ ∀ c ∈ [moved, removed], c.isValid = true) ∧
      (live [moved, removed]).InStep startup removed ∧
      (live [moved]).scheduler.ruleSets.map (·.budget) = [10, 20] ∧
      (live [moved, removed]).config.throttle.ruleSets = [⟨"up", 0⟩, ⟨"down", -7⟩] ∧
      (live [moved, removed]).scheduler.ruleSets.map (·.budget) = [0, 0] := by
  intro startup moved removed live
  have hstartup : startup.isValid = true := by decide +kernel
  have hupdates : ∀ c ∈ [moved, removed], c.isValid = true := by decide +kernel
  exact ⟨⟨hstartup, hupdates⟩, (inStep_reloaded hstartup hupdates).1, by decide, by decide,
    by decide⟩

end Live

end HttpRelay.Config
