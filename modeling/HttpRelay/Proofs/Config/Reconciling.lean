import HttpRelay.Config.Reload
import HttpRelay.Config.Validation
import Mathlib.Data.List.Nodup

/-!
# Reconciling configurations

What a reloaded configuration is made of: the layout of the running one, the budgets of the new
one by name, and everything else of the new one.

* `nodup_names_of_isValid`: a valid configuration names each rule set once;
* `reconcile_eq`: reconciling is the same whether the layouts agree or not;
* `indexOf?_reconcile`: a name keeps its slot;
* `isValid_reconcile_iff`: what is reconciled is valid exactly if no direction draws on a rule
  set that the running configuration lacks.
-/

namespace HttpRelay.Config

@[simp] theorem when_eq_nil {faulty : Bool} {fault : Fault} :
    when faulty fault = [] ↔ faulty = false := by
  cases faulty <;> simp [when]

theorem isValid_iff {c : Config} : c.isValid = true ↔ c.faults = [] := List.isEmpty_iff

theorem faults_eq_nil_iff {c : Config} :
    c.faults = [] ↔ c.listener.faults = [] ∧ c.server.faults = [] ∧ c.throttle.faults = [] ∧
      c.maxMessage ≠ 0 ∧ c.timeouts.faults = [] ∧ c.observability.faults = [] ∧
      c.admin.faults = [] := by
  simp [faults]

theorem duplicates_eq_nil_iff {names before : List String} :
    duplicates names before = [] ↔ names.Nodup ∧ ∀ name ∈ names, name ∉ before := by
  induction names generalizing before with
  | nil => simp [duplicates]
  | cons name names ih =>
    simp only [duplicates, List.append_eq_nil_iff, when_eq_nil, List.contains_eq_mem,
      decide_eq_false_iff_not, ih, List.nodup_cons, List.mem_cons, not_or, forall_eq_or_imp]
    constructor
    · rintro ⟨hname, hnodup, hfresh⟩
      exact ⟨⟨fun hmem => (hfresh name hmem).1 rfl, hnodup⟩, hname,
        fun other hmem => (hfresh other hmem).2⟩
    · rintro ⟨⟨hmem, hnodup⟩, hname, hfresh⟩
      refine ⟨hname, hnodup, fun other hother => ⟨?_, hfresh other hother⟩⟩
      rintro rfl
      exact hmem hother

namespace Throttle

/-- The names of the rule sets, slot by slot. -/
def names (t : Throttle) : List String := t.ruleSets.map RuleSet.name

theorem nameFaults_eq_nil_iff {t : Throttle} {field : String} {name : Option String} :
    t.nameFaults field name = [] ↔ ∀ n, name = some n → (t.indexOf? n).isSome = true := by
  cases name <;> simp [nameFaults]

/-- What makes the budgets of a configuration valid. -/
theorem faults_eq_nil_iff {t : Throttle} :
    t.faults = [] ↔
      HttpRelay.Throttle.Scheduler.minBurst ≤ t.burst ∧
        t.burst ≤ HttpRelay.Throttle.Scheduler.maxBurst ∧ t.names.Nodup ∧
        ∀ name, t.upload = some name ∨ t.download = some name →
          (t.indexOf? name).isSome = true := by
  simp only [faults, List.append_eq_nil_iff, when_eq_nil, duplicates_eq_nil_iff, names,
    nameFaults_eq_nil_iff, or_imp, forall_and]
  simp [and_assoc]

/-- The slots of names depend on the names only. -/
theorem indexOf?_eq (t : Throttle) (name : String) :
    t.indexOf? name = t.names.findIdx? (· == name) := by
  rw [indexOf?, names, List.findIdx?_map]
  rfl

theorem isSome_indexOf?_iff {t : Throttle} {name : String} :
    (t.indexOf? name).isSome = true ↔ name ∈ t.names := by
  rw [indexOf?_eq, List.findIdx?_isSome]
  simp

/-- Where names occur once, an entry is found under its name. -/
theorem budgetOf_of_mem {t : Throttle} (hnodup : t.names.Nodup) {ruleSet : RuleSet}
    (hmem : ruleSet ∈ t.ruleSets) : t.budgetOf ruleSet.name = ruleSet.bytesPerSecond := by
  have hfind : t.ruleSets.find? (·.name == ruleSet.name) = some ruleSet := by
    obtain ⟨found, hfound⟩ : ∃ found, t.ruleSets.find? (·.name == ruleSet.name) = some found := by
      refine Option.isSome_iff_exists.mp (List.find?_isSome.mpr ⟨ruleSet, hmem, ?_⟩)
      simp
    have hname : found.name = ruleSet.name := by simpa using List.find?_some hfound
    have hsame := List.inj_on_of_nodup_map hnodup (List.mem_of_find?_eq_some hfound) hmem hname
    rw [hfound, hsame]
  rw [budgetOf, hfind]
  rfl

theorem budgetOf_of_not_mem {t : Throttle} {name : String} (h : name ∉ t.names) :
    t.budgetOf name = 0 := by
  have hfind : t.ruleSets.find? (·.name == name) = none := by
    rw [List.find?_eq_none]
    intro ruleSet hmem hname
    refine h ?_
    rw [← eq_of_beq hname]
    exact List.mem_map_of_mem hmem
  rw [budgetOf, hfind]
  rfl

/-- The rule sets of `current`, each with the budget that its name has in `next`. -/
def rebudgeted (current next : Throttle) : List RuleSet :=
  current.ruleSets.map fun slot => { slot with bytesPerSecond := next.budgetOf slot.name }

/-- A section whose names occur once is put together from its names and their budgets. -/
theorem ruleSets_eq {t : Throttle} (hnodup : t.names.Nodup) :
    t.ruleSets = t.names.map fun name => { name, bytesPerSecond := t.budgetOf name } := by
  rw [names, List.map_map]
  refine (List.map_id _).symm.trans (List.map_congr_left fun ruleSet hmem => ?_)
  simp [budgetOf_of_mem hnodup hmem]

end Throttle

/-- A valid configuration names each rule set once. -/
theorem nodup_names_of_isValid {c : Config} (h : c.isValid = true) : c.throttle.names.Nodup :=
  (Throttle.faults_eq_nil_iff.mp (faults_eq_nil_iff.mp (isValid_iff.mp h)).2.2.1).2.2.1

/-- Configurations of the same layout are reconciled as any others are: to take the new one whole
is to take its budgets by name. -/
theorem reconcile_eq (current : Config) {next : Config} (hnodup : next.throttle.names.Nodup) :
    reconcile current next =
      { next with
        throttle := { next.throttle with
          ruleSets := current.throttle.rebudgeted next.throttle } } := by
  rw [reconcile]
  split
  next hsame =>
    have hnames : current.throttle.names = next.throttle.names := eq_of_beq hsame
    have hsets : next.throttle.ruleSets = current.throttle.rebudgeted next.throttle := by
      rw [Throttle.ruleSets_eq hnodup, ← hnames, Throttle.names, List.map_map]
      rfl
    rw [← hsets]
  next => rfl

theorem names_reconcile (current next : Config) :
    (reconcile current next).throttle.names = current.throttle.names := by
  rw [reconcile]
  split
  next hsame => exact (eq_of_beq hsame).symm
  next =>
    rw [Throttle.names, Throttle.names, List.map_map]
    rfl

/-- A name keeps the slot that it has in the running configuration. -/
theorem indexOf?_reconcile (current next : Config) (name : String) :
    (reconcile current next).throttle.indexOf? name = current.throttle.indexOf? name := by
  rw [Throttle.indexOf?_eq, names_reconcile, ← Throttle.indexOf?_eq]

/-- What is reconciled of two valid configurations is valid exactly if both directions of the new
one draw on rule sets of the running one. A rule set that is named there resolves to the slot that
it has in the running configuration, and any other to none. -/
theorem isValid_reconcile_iff {current next : Config} (hcurrent : current.isValid = true)
    (hnext : next.isValid = true) :
    ((reconcile current next).isValid = true ↔
      ∀ name, next.throttle.upload = some name ∨ next.throttle.download = some name →
        ∃ ruleSet ∈ current.throttle.ruleSets, ruleSet.name = name) ∧
    ∀ name, (reconcile current next).throttle.indexOf? name = current.throttle.indexOf? name := by
  refine ⟨?_, indexOf?_reconcile current next⟩
  have hnames := nodup_names_of_isValid hcurrent
  have hresolves (name : String) :
      ((reconcile current next).throttle.indexOf? name).isSome = true ↔
        ∃ ruleSet ∈ current.throttle.ruleSets, ruleSet.name = name := by
    rw [indexOf?_reconcile, Throttle.isSome_indexOf?_iff, Throttle.names, List.mem_map]
  have hkept := reconcile_eq current (nodup_names_of_isValid hnext)
  rw [isValid_iff, faults_eq_nil_iff, Throttle.faults_eq_nil_iff] at hnext ⊢
  obtain ⟨hlistener, hserver, ⟨hleast, hmost, -, -⟩, hrest⟩ := hnext
  -- all but the layout and the names that refer into it is that of the new configuration
  simp only [hresolves, names_reconcile]
  rw [hkept]
  constructor
  · rintro ⟨-, -, ⟨-, -, -, hreferences⟩, -⟩
    exact hreferences
  · intro hreferences
    exact ⟨hlistener, hserver, ⟨hleast, hmost, hnames, hreferences⟩, hrest⟩

/-- A configuration that sets its rule sets only, and the one that uploads draw on. -/
def ofRuleSets (ruleSets : List RuleSet) (upload : Option String := none) : Config where
  throttle := { ruleSets, upload }

/-- A direction that draws on a rule set of the running configuration keeps it. -/
theorem isValid_reconcile_kept_reference :
    let current := ofRuleSets [⟨"up", 100⟩]
    let next := ofRuleSets [⟨"down", 200⟩, ⟨"up", 300⟩] (some "up")
    current.isValid = true ∧ next.isValid = true ∧ (reconcile current next).isValid = true := by
  intro current next
  have hcurrent : current.isValid = true := by decide +kernel
  have hnext : next.isValid = true := by decide +kernel
  refine ⟨hcurrent, hnext, (isValid_reconcile_iff hcurrent hnext).1.mpr ?_⟩
  rintro name (hupload | hdownload)
  · exact ⟨⟨"up", 100⟩, List.mem_singleton_self _, Option.some.inj hupload⟩
  · cases hdownload

/-- A direction that draws on an added rule set is left without one, and what is reconciled is
not valid. -/
theorem not_isValid_reconcile_added_reference :
    let current := ofRuleSets [⟨"up", 100⟩]
    let next := ofRuleSets [⟨"down", 200⟩] (some "down")
    current.isValid = true ∧ next.isValid = true ∧
      (reconcile current next).isValid = false ∧
      (reconcile current next).throttle.upload = some "down" ∧
      (reconcile current next).throttle.indexOf? "down" = none ∧
      (reconcile current next).throttle.ruleSetOf (some "down") = .none := by
  decide +kernel

end HttpRelay.Config
