import HttpRelay.Config.Basic

/-!
# Reloading

The rule sets of a running relay keep their slots: a new configuration changes their budgets,
which are matched by name, and nothing else about them.
-/

namespace HttpRelay.Config

open HttpRelay.Throttle (RuleSetId Scheduler)

/-- Whether two throttle sections name the same rule sets in the same order. -/
def Throttle.sameLayout (a b : Throttle) : Bool :=
  a.ruleSets.map RuleSet.name == b.ruleSets.map RuleSet.name

/-- The budget of a name. A name without a rule set is not limited. -/
def Throttle.budgetOf (t : Throttle) (name : String) : Int :=
  ((t.ruleSets.find? (·.name == name)).map RuleSet.bytesPerSecond).getD 0

/-- The configuration that takes the place of a running one: that of `next`, in the slots of
`current`. -/
def reconcile (current next : Config) : Config :=
  if current.throttle.sameLayout next.throttle then next
  else
    let ruleSets := current.throttle.ruleSets.map fun slot =>
      { slot with bytesPerSecond := next.throttle.budgetOf slot.name }
    { next with throttle := { next.throttle with ruleSets } }

/-- Set the budget of a slot, if the scheduler has it. -/
def applyBudget {α : Type} (scheduler : Scheduler α) (slot : Nat) (ruleSet : RuleSet) :
    Scheduler α :=
  (scheduler.setBudget? ⟨slot⟩ ruleSet.bytesPerSecond).getD scheduler

/-- Bring a scheduler in line with a configuration. -/
def applyThrottle {α : Type} (c : Config) (scheduler : Scheduler α) : Scheduler α :=
  c.throttle.ruleSets.zipIdx.foldl (fun s (ruleSet, slot) => applyBudget s slot ruleSet)
    (scheduler.setBurst c.throttle.burst)

/-- A running relay's configuration and its scheduler. -/
structure Live (α : Type) where
  config : Config
  scheduler : Scheduler α

namespace Live

variable {α : Type}

/-- A relay that starts with a configuration and a scheduler of `slots` slots. -/
def start (config : Config) (slots : Nat) : Live α :=
  { config, scheduler := applyThrottle config (Scheduler.ofCount slots) }

/-- Put a reloaded configuration into use. -/
def update (live : Live α) (next : Config) : Live α :=
  let config := reconcile live.config next
  { config, scheduler := applyThrottle config live.scheduler }

end Live

end HttpRelay.Config
