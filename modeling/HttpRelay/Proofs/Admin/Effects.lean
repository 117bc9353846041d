import HttpRelay.Proofs.Admin.StandardFramework
import Mathlib.Data.List.Basic

/-!
# What administrative requests change

One request changes the budget of one slot, or the time between ticks, or nothing. By induction, a
sequence of requests leaves every budget as the last request for it has set it. Every framework
with the documented behaviour will do.

* `LastSet`: a number as the last event that sets it leaves it;
* `State.putBudget_of_found`, `State.putBudget_of_missing`: a budget for a name, with a slot and
  without one;
* `State.handle_of_not_bears`, `State.handle_of_putsBudget`, `State.handle_of_putsBurst`,
  `State.handle_of_getsThrottle`: the answer to each kind of request;
* `State.handle_of_refusedBudget`, `State.handle_of_refusedBurst`: the answer to a body that the
  framework refuses;
* `State.handle_cases`: what a request changes, in three cases;
* `State.sameBeyond_handle`, `State.ruleSets_handle`, `State.burst_handle`: what a request leaves,
  and what it sets in a slot and of the time between ticks;
* `State.follows_after`: what a sequence of requests makes of a state;
* `State.requests_authorized_and_local`: the answers and the changes together.
-/

namespace HttpRelay.Admin

open Throttle (RuleSet)

/-- The number that the last of the events that set one has set, or the first number if none has. -/
def LastSet {ε : Type} (sets : ε → Nat → Prop) (first : Nat) (events : List ε) (n : Nat) : Prop :=
  (n = first ∧ ∀ e ∈ events, ∀ m, ¬ sets e m) ∨
    ∃ earlier e later, events = earlier ++ e :: later ∧ sets e n ∧ ∀ e' ∈ later, ∀ m, ¬ sets e' m

namespace LastSet

variable {ε : Type} {sets : ε → Nat → Prop} {first n : Nat} {events : List ε} {e : ε}

theorem nil : LastSet sets first [] first := .inl ⟨rfl, by simp⟩

theorem concat_of_sets (h : sets e n) : LastSet sets first (events ++ [e]) n :=
  .inr ⟨events, e, [], rfl, h, by simp⟩

theorem concat_of_not (h : LastSet sets first events n) (hnot : ∀ m, ¬ sets e m) :
    LastSet sets first (events ++ [e]) n := by
  have hbehind {later : List ε} (hlater : ∀ e' ∈ later, ∀ m, ¬ sets e' m) :
      ∀ e' ∈ later ++ [e], ∀ m, ¬ sets e' m := by
    intro e' he'
    rcases List.mem_append.mp he' with he' | he'
    · exact hlater e' he'
    · rw [List.mem_singleton.mp he']
      exact hnot
  rcases h with ⟨rfl, hnone⟩ | ⟨earlier, e', later, rfl, hset, hlater⟩
  · exact .inl ⟨rfl, hbehind hnone⟩
  · exact .inr ⟨earlier, e', later ++ [e], by simp, hset, hbehind hlater⟩

end LastSet

section Settings

variable (config : Config) (f : Framework)

/-- A request sets the budget of a slot to a number of bytes per second. -/
def SetsBudget (slot : Nat) (r : Request) (n : Nat) : Prop :=
  r.Bears config.admin.apiKey ∧ ∃ name value, r.PutsBudget f name value ∧
    config.throttle.indexOf? name = some slot ∧ n = (max 0 value.toInt).toNat

/-- A request sets the time between ticks to a number of milliseconds. -/
def SetsBurst (r : Request) (n : Nat) : Prop :=
  r.Bears config.admin.apiKey ∧ ∃ ms, r.PutsBurst f ms ∧ n = max 1 (min ms.toNat 1000)

end Settings

namespace State

variable {α : Type} {s : State α} {r : Request} {name : String} {slot : Nat}
  {ruleSet : RuleSet α}

section Slots

variable {value : Int}

/-- What is reported of a slot. -/
def report (name : String) (slot : Nat) (ruleSet : RuleSet α) : Json.Value :=
  .object [
    ("name", .text name),
    ("index", .count slot),
    ("bytes_per_second", .count ruleSet.budget),
    ("pending_requests", .count ruleSet.parked.length)]

theorem slotJson?_eq (s : State α) (slot : Nat) (name : String) :
    s.slotJson? slot name = (s.scheduler.ruleSets[slot]?).map (report name slot) := by
  simp only [slotJson?, Throttle.Scheduler.budget?, Throttle.Scheduler.pending?,
    Throttle.Scheduler.ruleSet?]
  cases s.scheduler.ruleSets[slot]? <;> rfl

/-- The state with another rule set in a slot. -/
def withRuleSet (s : State α) (slot : Nat) (ruleSet : RuleSet α) : State α :=
  { s with scheduler := { s.scheduler with ruleSets := s.scheduler.ruleSets.set slot ruleSet } }

/-- The state with another time between ticks. -/
def withBurst (s : State α) (ms : Nat) : State α :=
  { s with scheduler := { s.scheduler with burst := ms } }

/-- The budget of a name with a slot is set there, and the slot is reported as it is then. -/
theorem putBudget_of_found (hname : s.config.throttle.indexOf? name = some slot)
    (hslot : s.scheduler.ruleSets[slot]? = some ruleSet) :
    s.putBudget name value =
      ({ status := 200,
         body := some (report name slot { ruleSet with budget := (max 0 value).toNat }) },
       s.withRuleSet slot { ruleSet with budget := (max 0 value).toNat }) := by
  obtain ⟨hlt, -⟩ := List.getElem?_eq_some_iff.mp hslot
  have hbudget : (max 0 value).toNat = value.toNat := by omega
  have hset : s.scheduler.setBudget? ⟨slot⟩ value =
      some (s.withRuleSet slot { ruleSet with budget := value.toNat }).scheduler := by
    rw [Throttle.Scheduler.setBudget?, if_pos hlt, Throttle.Scheduler.modifySlot,
      List.modify_eq_set_getElem?, hslot]
    rfl
  rw [hbudget, putBudget, hname]
  dsimp only
  rw [hset]
  dsimp only
  rw [slotJson?_eq]
  simp [withRuleSet, hlt]

theorem putBudget_of_missing
    (h : ∀ slot, s.config.throttle.indexOf? name = some slot → s.scheduler.ruleSets[slot]? = none) :
    s.putBudget name value = ({ status := 404 }, s) := by
  rw [putBudget]
  cases hname : s.config.throttle.indexOf? name with
  | none => rfl
  | some slot =>
    have hle := List.getElem?_eq_none_iff.mp (h slot hname)
    dsimp only
    rw [Throttle.Scheduler.setBudget?, if_neg (Nat.not_lt.mpr hle)]

theorem putBudget_unchanged_or (s : State α) (name : String) (value : Int) :
    (s.putBudget name value).2 = s ∨ ∃ slot ruleSet, s.config.throttle.indexOf? name = some slot ∧
      s.scheduler.ruleSets[slot]? = some ruleSet := by
  by_cases h : ∃ slot ruleSet, s.config.throttle.indexOf? name = some slot ∧
      s.scheduler.ruleSets[slot]? = some ruleSet
  · exact .inr h
  · have hmissing : ∀ slot, s.config.throttle.indexOf? name = some slot →
        s.scheduler.ruleSets[slot]? = none := by
      intro slot hname
      exact Option.eq_none_iff_forall_ne_some.mpr fun ruleSet hslot =>
        h ⟨slot, ruleSet, hname, hslot⟩
    rw [putBudget_of_missing hmissing]
    exact .inl rfl

theorem putBurstInterval_eq (s : State α) (ms : Nat) :
    s.putBurstInterval ms =
      ({ status := 200, body := some (.object [("ms", .count (max 1 (min ms 1000)))]) },
       s.withBurst (max 1 (min ms 1000))) := rfl

end Slots

section Frames

/-- Beyond the rule sets and the time between ticks, two states are the same, and they have as many
rule sets. -/
structure SameBeyond (s now : State α) : Prop where
  frame : now = { s with scheduler := { s.scheduler with
    ruleSets := now.scheduler.ruleSets, burst := now.scheduler.burst } }
  slots : now.scheduler.ruleSets.length = s.scheduler.ruleSets.length

theorem SameBeyond.config_eq {now : State α} (h : SameBeyond s now) : now.config = s.config := by
  rw [h.frame]

theorem SameBeyond.trans {now next : State α} (h : SameBeyond s now) (h' : SameBeyond now next) :
    SameBeyond s next := by
  refine ⟨?_, h'.slots.trans h.slots⟩
  rw [h'.frame, h.frame]

end Frames

section Lawful

variable {f : Framework} (hf : f.Lawful)

include hf

section Answers

theorem handle_of_not_bears (h : ¬ r.Bears s.config.admin.apiKey) :
    s.handle f r = ({ status := 401 }, s) := by
  have hrefused : (!f.isAuthorized s.config.admin.apiKey r) = true := by
    rwa [Bool.not_eq_true', ← Bool.not_eq_true, hf.isAuthorized_iff]
  rw [handle, if_pos hrefused]

section Authorized

variable (hkey : r.Bears s.config.admin.apiKey)

include hkey

theorem handle_of_bears :
    s.handle f r =
      match f.route r with
      | .error status => ({ status }, s)
      | .ok route => s.serve f route r := by
  have hauthorized : ¬ (!f.isAuthorized s.config.admin.apiKey r) = true := by
    rwa [Bool.not_eq_true', Bool.not_eq_false, hf.isAuthorized_iff]
  rw [handle]
  exact if_neg hauthorized

/-- With the key, a request is served on the route that it asks for. -/
theorem handle_of_asks {route : Route} (h : r.Asks route) : s.handle f r = s.serve f route r := by
  rw [handle_of_bears hf hkey, (hf.route r route).mpr h]

theorem handle_of_putsBudget {value : Int64} (h : r.PutsBudget f name value) :
    s.handle f r = s.putBudget name value.toInt := by
  obtain ⟨encoded, hasks, hname⟩ := h.toNamesBudget.asks
  rw [handle_of_asks hf hkey hasks, serve, hname]
  dsimp only
  rw [h.body]

theorem handle_of_putsBurst {ms : UInt64} (h : r.PutsBurst f ms) :
    s.handle f r = s.putBurstInterval ms.toNat := by
  rw [handle_of_asks hf hkey h.toNamesBurst.asks, serve, h.body]

section Refusals

variable {status : Nat}

theorem handle_of_refusedBudget (h : r.NamesBudget f name) (hbody : f.budget r = .error status) :
    s.handle f r = ({ status }, s) := by
  obtain ⟨encoded, hasks, hname⟩ := h.asks
  rw [handle_of_asks hf hkey hasks, serve, hname]
  dsimp only
  rw [hbody]

theorem handle_of_refusedBurst (h : r.NamesBurst) (hbody : f.burst r = .error status) :
    s.handle f r = ({ status }, s) := by
  rw [handle_of_asks hf hkey h.asks, serve, hbody]

end Refusals

theorem handle_of_getsThrottle (h : r.GetsThrottle) :
    s.handle f r = ({ status := 200, body := some s.throttleJson }, s) := by
  have hhead : ¬ r.method = "HEAD" := by
    rw [h.method]
    decide
  rw [handle_of_asks hf hkey h.asks, serve]
  dsimp only
  rw [if_neg hhead]

end Authorized

/-- A request changes nothing, unless it bears the key and asks for a route. -/
theorem handle_unchanged_or (s : State α) (r : Request) :
    (s.handle f r).2 = s ∨ r.Bears s.config.admin.apiKey ∧ ∃ route, r.Asks route := by
  by_cases hkey : r.Bears s.config.admin.apiKey
  swap
  · rw [handle_of_not_bears hf hkey]
    exact .inl rfl
  rw [handle_of_bears hf hkey]
  cases hroute : f.route r with
  | error status => exact .inl rfl
  | ok route => exact .inr ⟨hkey, route, (hf.route r route).mp hroute⟩

end Answers

section Changes

variable {n : Nat}

theorem handle_of_setsBudget (h : SetsBudget s.config f slot r n)
    (hslot : s.scheduler.ruleSets[slot]? = some ruleSet) :
    (s.handle f r).2 = s.withRuleSet slot { ruleSet with budget := n } := by
  obtain ⟨hkey, name, value, hputs, hname, rfl⟩ := h
  rw [handle_of_putsBudget hf hkey hputs, putBudget_of_found hname hslot]

theorem handle_of_setsBurst (h : SetsBurst s.config f r n) :
    (s.handle f r).2 = s.withBurst n := by
  obtain ⟨hkey, ms, hputs, rfl⟩ := h
  rw [handle_of_putsBurst hf hkey hputs, putBurstInterval_eq]

/-- What a request changes: nothing, or what it sets. -/
theorem handle_cases (s : State α) (r : Request) :
    (s.handle f r).2 = s ∨
      (∃ slot ruleSet n, SetsBudget s.config f slot r n ∧
        s.scheduler.ruleSets[slot]? = some ruleSet ∧
        (s.handle f r).2 = s.withRuleSet slot { ruleSet with budget := n }) ∨
      ∃ n, SetsBurst s.config f r n ∧ (s.handle f r).2 = s.withBurst n := by
  obtain hsame | ⟨hkey, route, hasks⟩ := handle_unchanged_or hf s r
  · exact .inl hsame
  have hserve := handle_of_asks hf hkey hasks
  -- What is read stays as it is. What is written to takes the number of its body, if it gets one.
  cases route with
  | status | throttle | sessions =>
    rw [hserve]
    exact .inl rfl
  | budget encoded =>
    cases hsegment : f.segment encoded with
    | error status =>
      rw [hserve, serve, hsegment]
      exact .inl rfl
    | ok name =>
      have hnames : r.NamesBudget f name :=
        ⟨beq_iff_eq.mp hasks.allowed, encoded, hasks.proper, hasks.path, hsegment⟩
      cases hbody : f.budget r with
      | error status =>
        rw [handle_of_refusedBudget hf hkey hnames hbody]
        exact .inl rfl
      | ok value =>
        have hputs : r.PutsBudget f name value := ⟨hnames, hbody⟩
        obtain hsame | ⟨slot, ruleSet, hname, hslot⟩ := putBudget_unchanged_or s name value.toInt
        · rw [handle_of_putsBudget hf hkey hputs]
          exact .inl hsame
        · have hsets : SetsBudget s.config f slot r (max 0 value.toInt).toNat :=
            ⟨hkey, name, value, hputs, hname, rfl⟩
          exact .inr (.inl ⟨slot, ruleSet, _, hsets, hslot, handle_of_setsBudget hf hsets hslot⟩)
  | burstInterval =>
    have hnames : r.NamesBurst := ⟨beq_iff_eq.mp hasks.allowed, hasks.path⟩
    cases hbody : f.burst r with
    | error status =>
      rw [handle_of_refusedBurst hf hkey hnames hbody]
      exact .inl rfl
    | ok ms =>
      have hsets : SetsBurst s.config f r (max 1 (min ms.toNat 1000)) :=
        ⟨hkey, ms, ⟨hnames, hbody⟩, rfl⟩
      exact .inr (.inr ⟨_, hsets, handle_of_setsBurst hf hsets⟩)

/-- Reading changes nothing. -/
theorem handle_of_get (h : r.method = "GET") : (s.handle f r).2 = s := by
  rcases handle_cases hf s r with hsame | ⟨_, _, _, ⟨-, _, _, hputs, -⟩, -⟩ |
    ⟨_, ⟨-, _, hputs, -⟩, -⟩
  · exact hsame
  · exact absurd (h.symm.trans hputs.method) (by decide)
  · exact absurd (h.symm.trans hputs.method) (by decide)

theorem sameBeyond_handle (s : State α) (r : Request) : SameBeyond s (s.handle f r).2 := by
  rcases handle_cases hf s r with hsame | ⟨slot, ruleSet, n, -, -, hset⟩ | ⟨n, -, hset⟩
  · rw [hsame]
    exact ⟨rfl, rfl⟩
  · rw [hset]
    exact ⟨rfl, List.length_set⟩
  · rw [hset]
    exact ⟨rfl, rfl⟩

/-- In a slot, a request sets the budget, if it is one that does, and nothing otherwise. -/
theorem ruleSets_handle (r : Request) (hslot : s.scheduler.ruleSets[slot]? = some ruleSet) :
    (∃ n, SetsBudget s.config f slot r n ∧
      (s.handle f r).2.scheduler.ruleSets[slot]? = some { ruleSet with budget := n }) ∨
    (∀ n, ¬ SetsBudget s.config f slot r n) ∧
      (s.handle f r).2.scheduler.ruleSets[slot]? = some ruleSet := by
  by_cases h : ∃ n, SetsBudget s.config f slot r n
  · obtain ⟨n, hsets⟩ := h
    obtain ⟨hlt, -⟩ := List.getElem?_eq_some_iff.mp hslot
    refine .inl ⟨n, hsets, ?_⟩
    rw [handle_of_setsBudget hf hsets hslot]
    exact List.getElem?_set_self hlt
  · have hnot : ∀ n, ¬ SetsBudget s.config f slot r n := not_exists.mp h
    refine .inr ⟨hnot, ?_⟩
    rcases handle_cases hf s r with hsame | ⟨other, ruleSet', n, hsets, -, hset⟩ | ⟨n, -, hset⟩
    · rw [hsame, hslot]
    · -- the slot that was set is another one, since nothing sets this one
      have hother : other ≠ slot := by
        rintro rfl
        exact hnot n hsets
      rw [hset]
      exact (List.getElem?_set_ne hother).trans hslot
    · rw [hset]
      exact hslot

theorem burst_handle (s : State α) (r : Request) :
    (∃ n, SetsBurst s.config f r n ∧ (s.handle f r).2.scheduler.burst = n) ∨
    (∀ n, ¬ SetsBurst s.config f r n) ∧ (s.handle f r).2.scheduler.burst = s.scheduler.burst := by
  by_cases h : ∃ n, SetsBurst s.config f r n
  · obtain ⟨n, hsets⟩ := h
    refine .inl ⟨n, hsets, ?_⟩
    rw [handle_of_setsBurst hf hsets]
    rfl
  · have hnot : ∀ n, ¬ SetsBurst s.config f r n := not_exists.mp h
    refine .inr ⟨hnot, ?_⟩
    rcases handle_cases hf s r with hsame | ⟨_, _, _, -, -, hset⟩ | ⟨n, hsets, -⟩
    · rw [hsame]
    · rw [hset]
      rfl
    · exact absurd hsets (hnot n)

end Changes

end Lawful

section Histories

/-- The state behind a sequence of requests. -/
def after (f : Framework) (s : State α) (history : List Request) : State α :=
  history.foldl (fun s r => (s.handle f r).2) s

/-- What a sequence of requests makes of a state: every budget, and the time between ticks, is as
the last request for it has set it. Nothing else changes. -/
structure Follows (f : Framework) (s : State α) (history : List Request) (now : State α) : Prop
    extends SameBeyond s now where
  budget : ∀ slot ruleSet, s.scheduler.ruleSets[slot]? = some ruleSet →
    ∃ n, LastSet (SetsBudget s.config f slot) ruleSet.budget history n ∧
      now.scheduler.ruleSets[slot]? = some { ruleSet with budget := n }
  burst : LastSet (SetsBurst s.config f) s.scheduler.burst history now.scheduler.burst

variable {f : Framework}

theorem after_concat (s : State α) (history : List Request) (r : Request) :
    s.after f (history ++ [r]) = ((s.after f history).handle f r).2 := List.foldl_concat ..

variable (hf : f.Lawful)

include hf

theorem follows_handle {history : List Request} {now : State α} (h : Follows f s history now)
    (r : Request) : Follows f s (history ++ [r]) (now.handle f r).2 := by
  -- what a request sets is told by the configuration, which stays
  have hconfig := h.config_eq
  refine ⟨h.trans (sameBeyond_handle hf now r), fun slot ruleSet hslot => ?_, ?_⟩
  · obtain ⟨n, hlast, hnow⟩ := h.budget slot ruleSet hslot
    rcases ruleSets_handle hf r hnow with ⟨m, hsets, hnext⟩ | ⟨hnot, hnext⟩
    · rw [hconfig] at hsets
      exact ⟨m, .concat_of_sets hsets, hnext⟩
    · rw [hconfig] at hnot
      exact ⟨n, hlast.concat_of_not hnot, hnext⟩
  · rcases burst_handle hf now r with ⟨m, hsets, hnext⟩ | ⟨hnot, hnext⟩
    · rw [hconfig] at hsets
      rw [hnext]
      exact .concat_of_sets hsets
    · rw [hconfig] at hnot
      rw [hnext]
      exact h.burst.concat_of_not hnot

/-- Any sequence of requests leaves the budgets, and the time between ticks, as they were set
last. -/
theorem follows_after (s : State α) (history : List Request) :
    Follows f s history (s.after f history) := by
  induction history using List.reverseRecOn with
  | nil => exact ⟨⟨rfl, rfl⟩, fun slot ruleSet hslot => ⟨ruleSet.budget, .nil, hslot⟩, .nil⟩
  | append_singleton history r ih =>
    rw [after_concat]
    exact follows_handle hf ih r

end Histories

section Listings

/-- What is reported of the slots from one of them on. -/
theorem filterMap_slotJson? (s : State α) (configured : List Config.RuleSet) (start : Nat) :
    ((configured.zipIdx start).filterMap fun (c, slot) => s.slotJson? slot c.name) =
      ((configured.zip (s.scheduler.ruleSets.drop start)).zipIdx start).map
        fun ((c, ruleSet), slot) => report c.name slot ruleSet := by
  induction configured generalizing start with
  | nil => rfl
  | cons c configured ih =>
    rw [List.zipIdx_cons, List.filterMap_cons, ih]
    dsimp only
    rw [slotJson?_eq]
    -- the slots have no gaps: behind the first one that is missing there is none
    cases hslot : s.scheduler.ruleSets[start]? with
    | none =>
      have hle := List.getElem?_eq_none_iff.mp hslot
      simp [List.drop_eq_nil_of_le hle, List.drop_eq_nil_of_le (Nat.le_succ_of_le hle)]
    | some ruleSet =>
      obtain ⟨hlt, rfl⟩ := List.getElem?_eq_some_iff.mp hslot
      rw [List.drop_eq_getElem_cons hlt]
      rfl

/-- A list holds what is reported of every configured rule set that has a slot, in its place and
under its own name, and nothing else. -/
structure Lists (s : State α) (entries : List Json.Value) : Prop where
  length : entries.length = min s.config.throttle.ruleSets.length s.scheduler.ruleSets.length
  entry : ∀ slot configured ruleSet, s.config.throttle.ruleSets[slot]? = some configured →
    s.scheduler.ruleSets[slot]? = some ruleSet →
    entries[slot]? = some (report configured.name slot ruleSet)

theorem throttleJson_eq (s : State α) :
    ∃ entries, s.Lists entries ∧ s.throttleJson = .object
      [("burst_interval_ms", .count s.scheduler.burst), ("rule_sets", .array entries)] := by
  refine ⟨_, ⟨?_, fun slot configured ruleSet hconfigured hslot => ?_⟩, rfl⟩
  · rw [filterMap_slotJson?]
    simp
  · have hzip : (s.config.throttle.ruleSets.zip s.scheduler.ruleSets)[slot]? =
        some (configured, ruleSet) := List.getElem?_zip_eq_some.mpr ⟨hconfigured, hslot⟩
    rw [filterMap_slotJson?]
    simp [hzip]

/-- In the slot of a name, a rule set of that name is configured. -/
theorem name_of_indexOf? {t : Config.Throttle} (h : t.indexOf? name = some slot) :
    ∃ configured, t.ruleSets[slot]? = some configured ∧ configured.name = name := by
  obtain ⟨hlt, hname, -⟩ := List.findIdx?_eq_some_iff_getElem.mp h
  exact ⟨_, List.getElem?_eq_getElem hlt, beq_iff_eq.mp hname⟩

end Listings

/-- A request without the key gets 401. One with the key sets the budget of the slot of a name, the
negative ones counting as zero, or the time between ticks, from 1 to 1000, and gets what it has
set; an unknown name, or one without a slot, gets 404, and a body that the framework refuses the
status of the refusal. Behind any sequence of requests every budget is the one that was set last,
and is reported under the name of its rule set. Nothing else changes. -/
theorem requests_authorized_and_local {f : Framework} (hf : f.Lawful) (s : State α)
    (history : List Request) (r : Request) :
    let now := s.after f history
    let key := s.config.admin.apiKey
    Follows f s history now ∧
    (¬ r.Bears key → now.handle f r = ({ status := 401 }, now)) ∧
    (∀ name value, r.Bears key → r.PutsBudget f name value →
      (∀ slot ruleSet, s.config.throttle.indexOf? name = some slot →
        now.scheduler.ruleSets[slot]? = some ruleSet →
        let changed := { ruleSet with budget := (max 0 value.toInt).toNat }
        now.handle f r = ({ status := 200, body := some (report name slot changed) },
          now.withRuleSet slot changed) ∧
        ∃ configured, s.config.throttle.ruleSets[slot]? = some configured ∧
          configured.name = name) ∧
      ((∀ slot, s.config.throttle.indexOf? name = some slot →
          now.scheduler.ruleSets[slot]? = none) →
        now.handle f r = ({ status := 404 }, now))) ∧
    (∀ ms, r.Bears key → r.PutsBurst f ms →
      let burst := max 1 (min ms.toNat 1000)
      now.handle f r = ({ status := 200, body := some (.object [("ms", .count burst)]) },
        now.withBurst burst)) ∧
    (∀ status, r.Bears key →
      (∃ name, r.NamesBudget f name ∧ f.budget r = .error status) ∨
        r.NamesBurst ∧ f.burst r = .error status →
      now.handle f r = ({ status }, now)) ∧
    (r.method = "GET" → (now.handle f r).2 = now) ∧
    (r.Bears key → r.GetsThrottle → ∃ entries, now.Lists entries ∧
      now.handle f r = ({ status := 200, body := some (.object
        [("burst_interval_ms", .count now.scheduler.burst), ("rule_sets", .array entries)]) },
        now)) ∧
    (key ≠ "" → (∀ b ∈ Bytes.ofText key, Request.IsPlain b) →
      (∀ name value, name ≠ "" →
        (Request.budgetPut key name value).Bears key ∧
          (Request.budgetPut key name value).PutsBudget f name value) ∧
      ∀ ms, (Request.burstPut key ms).Bears key ∧ (Request.burstPut key ms).PutsBurst f ms) := by
  intro now key
  have hfollows : Follows f s history now := follows_after hf s history
  have hconfig : now.config = s.config := hfollows.config_eq
  have hnow (h : r.Bears key) : r.Bears now.config.admin.apiKey := by rwa [hconfig]
  refine ⟨hfollows, fun hnot => ?_, fun name value hbears hputs => ?_,
    fun ms hbears hputs => handle_of_putsBurst hf (hnow hbears) hputs,
    fun status hbears hrefused => ?_, handle_of_get hf, fun hbears hgets => ?_,
    fun hne hplain => ?_⟩
  · refine handle_of_not_bears hf ?_
    rwa [hconfig]
  · rw [handle_of_putsBudget hf (hnow hbears) hputs, ← hconfig]
    exact ⟨fun slot ruleSet hname hslot => ⟨putBudget_of_found hname hslot, name_of_indexOf? hname⟩,
      putBudget_of_missing⟩
  · rcases hrefused with ⟨name, hnames, hbody⟩ | ⟨hnames, hbody⟩
    · exact handle_of_refusedBudget hf (hnow hbears) hnames hbody
    · exact handle_of_refusedBurst hf (hnow hbears) hnames hbody
  · obtain ⟨entries, hlists, hjson⟩ := throttleJson_eq now
    exact ⟨entries, hlists, by rw [handle_of_getsThrottle hf (hnow hbears) hgets, hjson]⟩
  · exact ⟨fun name value hname =>
        ⟨Request.bears_put hne hplain, Request.putsBudget_budgetPut hf hname value⟩,
      fun ms => ⟨Request.bears_put hne hplain, Request.putsBurst_burstPut hf ms⟩⟩

/-- Two rule sets, of which one has a slot, behind a request that set its budget and another one
without the key. The body that is refused is one octet too long. -/
theorem answers_of_two_names_one_slot :
    let config : Config :=
      { admin := { apiKey := "key" },
        throttle := { ruleSets := [{ name := "up" }, { name := "down" }] } }
    let s : State Nat := { config, scheduler := .ofCount 1 }
    let json := ("Content-Type", Bytes.ofText "application/json")
    let headers := [("Authorization", Bytes.ofText "Bearer key"), json]
    let put (path body : String) : Request :=
      { method := "PUT", path, headers, body := Bytes.ofText body }
    let up := put "/admin/throttle/up" "\x7b\"bytes_per_second\": 7000\x7d"
    let down := put "/admin/throttle/down" "\x7b\"bytes_per_second\": -1\x7d"
    let burst := put "/admin/burst-interval" "\x7b\"ms\": 5000\x7d"
    let long := { up with body := List.replicate 2097153 0x20 }
    let keyless := { up with headers := [json] }
    let get : Request := { method := "GET", path := "/admin/throttle", headers }
    let history := [put "/admin/throttle/up" "\x7b\"bytes_per_second\": 5000\x7d", keyless]
    let now := s.after .standard history
    Framework.standard.Lawful ∧ now.scheduler.ruleSets = [{ budget := 5000 }] ∧
    (¬ keyless.Bears "key" ∧ now.handle .standard keyless = ({ status := 401 }, now)) ∧
    (up.Bears "key" ∧ up.PutsBudget .standard "up" 7000 ∧
      now.handle .standard up =
        ({ status := 200, body := some (.object [("name", .text "up"), ("index", .count 0),
            ("bytes_per_second", .count 7000), ("pending_requests", .count 0)]) },
          now.withRuleSet 0 { budget := 7000 })) ∧
    (down.Bears "key" ∧ down.PutsBudget .standard "down" (-1) ∧
      now.handle .standard down = ({ status := 404 }, now)) ∧
    (burst.Bears "key" ∧ burst.PutsBurst .standard 5000 ∧
      now.handle .standard burst =
        ({ status := 200, body := some (.object [("ms", .count 1000)]) }, now.withBurst 1000)) ∧
    (long.Bears "key" ∧ long.NamesBudget .standard "up" ∧
      now.handle .standard long = ({ status := 413 }, now)) ∧
    (get.Bears "key" ∧ get.GetsThrottle ∧
      now.handle .standard get =
        ({ status := 200, body := some (.object [("burst_interval_ms", .count 100),
            ("rule_sets", .array [.object [("name", .text "up"), ("index", .count 0),
              ("bytes_per_second", .count 5000), ("pending_requests", .count 0)]])]) },
          now)) := by
  intro config s json headers put up down burst long keyless get history now
  -- Only the first of the two requests of the history bears the key.
  have hslots : now.scheduler.ruleSets = [{ budget := 5000 }] := by decide +kernel
  have hbetween : now.scheduler.burst = 100 := by decide +kernel
  have hbears (r : Request) (h : r.headers = headers) : r.Bears "key" :=
    ⟨by decide, [], "Authorization", [json], h, by decide, by simp,
      List.all_iff_forall_prop.mp (by decide)⟩
  have hkeyless : ¬ keyless.Bears "key" := by
    rintro ⟨-, h⟩
    exact absurd ((Framework.standard_lawful.field keyless _ _).mpr h) (by decide)
  have hup : up.PutsBudget .standard "up" 7000 :=
    ⟨⟨rfl, "up", ⟨by decide, by decide⟩,
      Request.isFor_self (List.all_iff_forall_prop.mp (by decide)), by decide +kernel⟩,
      by decide +kernel⟩
  have hdown : down.PutsBudget .standard "down" (-1) :=
    ⟨⟨rfl, "down", ⟨by decide, by decide⟩,
      Request.isFor_self (List.all_iff_forall_prop.mp (by decide)), by decide +kernel⟩,
      by decide +kernel⟩
  have hburst : burst.PutsBurst .standard 5000 :=
    ⟨⟨rfl, Request.isFor_self (List.all_iff_forall_prop.mp (by decide))⟩, by decide +kernel⟩
  have hnames : long.NamesBudget .standard "up" := ⟨rfl, hup.path⟩
  have hlong : Framework.standard.budget long = .error 413 := by
    have hjson : long.IsJson := ⟨[("Authorization", Bytes.ofText "Bearer key")], "Content-Type", [],
      rfl, by decide, by decide, List.all_iff_forall_prop.mp (by decide)⟩
    have hlength : long.body.length = 2097153 := List.length_replicate
    exact (Framework.standard_lawful.oversized long ⟨hjson, by rw [hlength]; decide⟩).1
  have hget : get.GetsThrottle :=
    ⟨rfl, Request.isFor_self (List.all_iff_forall_prop.mp (by decide))⟩
  -- One request at a time, all behind the same history.
  have hall := requests_authorized_and_local Framework.standard_lawful s history
  obtain ⟨-, hrefused, -⟩ := hall keyless
  obtain ⟨-, -, hset, -⟩ := hall up
  obtain ⟨-, -, hmissing, -⟩ := hall down
  obtain ⟨-, -, -, hclamped, -⟩ := hall burst
  obtain ⟨-, -, -, -, hcut, -⟩ := hall long
  obtain ⟨hfollows, -, -, -, -, -, hlisted, -⟩ := hall get
  refine ⟨Framework.standard_lawful, hslots, ⟨hkeyless, hrefused hkeyless⟩,
    ⟨hbears up rfl, hup, ?_⟩, ⟨hbears down rfl, hdown, ?_⟩, ⟨hbears burst rfl, hburst, ?_⟩,
    ⟨hbears long rfl, hnames, ?_⟩, hbears get rfl, hget, ?_⟩
  · exact ((hset "up" 7000 (hbears up rfl) hup).1 0 { budget := 5000 } (by decide)
      (by rw [hslots]; rfl)).1
  · refine (hmissing "down" (-1) (hbears down rfl) hdown).2 fun slot hslot => ?_
    obtain rfl : 1 = slot := Option.some.inj hslot
    rw [hslots]
    rfl
  · exact hclamped 5000 (hbears burst rfl) hburst
  · exact hcut 413 (hbears long rfl) (.inl ⟨"up", hnames, hlong⟩)
  · obtain ⟨entries, ⟨hlength, hentry⟩, hanswer⟩ := hlisted (hbears get rfl) hget
    have hone : entries.length = 1 := by
      rw [hlength, hfollows.config_eq, hslots]
      rfl
    obtain ⟨entry, rfl⟩ := List.length_eq_one_iff.mp hone
    have hreport := hentry 0 { name := "up" } { budget := 5000 } (by rw [hfollows.config_eq]; rfl)
      (by rw [hslots]; rfl)
    rw [Option.some.inj hreport, hbetween] at hanswer
    exact hanswer

end State

end HttpRelay.Admin
