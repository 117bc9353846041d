import HttpRelay.Admin.Framework
import HttpRelay.Config.Basic
import HttpRelay.Json.Value
import HttpRelay.Service.Registry

/-!
# Administrative Interface

The relay can be looked at and its budgets changed while it runs. Every request must bear the
configured key; reading changes nothing, and writing changes one setting of the scheduler.
-/

namespace HttpRelay.Admin

open Throttle (RuleSetId Scheduler)

/-- An answer. Only those with status 200 have a body. -/
structure Response where
  status : Nat
  body : Option Json.Value := none

/-- What the interface looks at and changes. -/
structure State (α : Type) where
  config : Config
  scheduler : Scheduler α
  sessions : Service.Registry := {}
  /-- Seconds since the start. -/
  uptime : Nat := 0

/-- Whether a request bears a key. An empty key lets no one in. -/
def Framework.isAuthorized (f : Framework) (apiKey : String) (r : Request) : Bool :=
  !apiKey.isEmpty && f.field? r "authorization" == some ("Bearer " ++ apiKey)

namespace State

variable {α : Type}

/-- The general state of the relay. -/
def statusJson (s : State α) : Json.Value :=
  .object [
    ("version", .text "0.1.0"),
    ("status", .text (if s.scheduler.shutDown then "stopping" else "operational")),
    ("uptime_secs", .count s.uptime),
    ("active_sessions", .count s.sessions.size),
    ("throttler_running", .boolean !s.scheduler.shutDown)]

/-- The state of a slot, if the scheduler has it. -/
def slotJson? (s : State α) (slot : Nat) (name : String) : Option Json.Value := do
  return .object [
    ("name", .text name),
    ("index", .count slot),
    ("bytes_per_second", .count (← s.scheduler.budget? ⟨slot⟩)),
    ("pending_requests", .count (← s.scheduler.pending? ⟨slot⟩))]

/-- The state of the scheduler. -/
def throttleJson (s : State α) : Json.Value :=
  .object [
    ("burst_interval_ms", .count s.scheduler.burst),
    ("rule_sets", .array (s.config.throttle.ruleSets.zipIdx.filterMap fun (ruleSet, slot) =>
      s.slotJson? slot ruleSet.name))]

/-- The open sessions. -/
def sessionsJson (s : State α) : Json.Value :=
  .array (s.sessions.snapshot.map fun info => .object [
    ("id", .text info.id),
    ("peer", .text info.peer.display),
    ("tls", .boolean info.tls),
    ("opened_at_ms", .count info.openedAt),
    ("requests", .count info.requests),
    ("websocket", .boolean info.isWebSocket)])

/-- Set the budget of a named rule set. -/
def putBudget (s : State α) (name : String) (budget : Int) : Response × State α :=
  match s.config.throttle.indexOf? name with
  | none => ({ status := 404 }, s)
  | some slot =>
    match s.scheduler.setBudget? ⟨slot⟩ budget with
    | none => ({ status := 404 }, s)
    | some scheduler =>
      let s := { s with scheduler }
      ({ status := 200, body := s.slotJson? slot name }, s)

/-- Set the time between ticks. -/
def putBurstInterval (s : State α) (ms : Nat) : Response × State α :=
  let s := { s with scheduler := s.scheduler.setBurst ms }
  ({ status := 200, body := some (.object [("ms", .count s.scheduler.burst)]) }, s)

/-- Serve an authorized request on its route. -/
def serve (f : Framework) (s : State α) (route : Route) (r : Request) : Response × State α :=
  let shown (body : Json.Value) : Response × State α :=
    ({ status := 200, body := if r.method = "HEAD" then none else some body }, s)
  match route with
  | .status => shown s.statusJson
  | .throttle => shown s.throttleJson
  | .sessions => shown s.sessionsJson
  | .budget encoded =>
    match f.segment encoded with
    | .error status => ({ status }, s)
    | .ok name =>
      match f.budget r with
      | .error status => ({ status }, s)
      | .ok budget => s.putBudget name budget.toInt
  | .burstInterval =>
    match f.burst r with
    | .error status => ({ status }, s)
    | .ok ms => s.putBurstInterval ms.toNat

/-- Answer a request. -/
def handle (f : Framework) (s : State α) (r : Request) : Response × State α :=
  if !f.isAuthorized s.config.admin.apiKey r then ({ status := 401 }, s)
  else
    match f.route r with
    | .error status => ({ status }, s)
    | .ok route => s.serve f route r

end State

end HttpRelay.Admin
