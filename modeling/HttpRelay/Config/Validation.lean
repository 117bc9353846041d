import HttpRelay.Config.Basic
import HttpRelay.Net.Address
import HttpRelay.Text.Quoted

/-!
# Valid Configurations

What a configuration must satisfy beyond its form. Every fault is reported, in the order of the
sections.
-/

namespace HttpRelay.Config

/-- What is wrong with a configuration. -/
inductive Fault where
  | invalidAddress (field value : String)
  | zero (field : String)
  | noCertificates
  | multipleDefaultCertificates
  /-- The first delay is longer than the longest. -/
  | backoffRange (base max : Nat)
  | burstInterval (ms : Nat)
  | duplicateRuleSet (name : String)
  | unknownRuleSet (field name : String)
  | missingApiKey
  deriving DecidableEq, Repr

/-- The text shown for a fault. -/
def Fault.message : Fault → String
  | invalidAddress field value => field ++ ": invalid socket address " ++ Text.quoted value
  | zero field => field ++ " must be greater than zero"
  | noCertificates => "listener.tls has no certificates"
  | multipleDefaultCertificates => "listener.tls declares more than one default certificate"
  | backoffRange base max =>
    s!"retries.base_delay_ms ({base}) exceeds retries.max_delay_ms ({max})"
  | burstInterval ms => s!"throttle.burst_interval_ms must be within 1..=1000, got {ms}"
  | duplicateRuleSet name => "duplicate rule set name " ++ Text.quoted name
  | unknownRuleSet field name => field ++ " names unknown rule set " ++ Text.quoted name
  | missingApiKey => "admin.api_key must be set when the admin API is enabled"

/-- A fault, if there is one. -/
def when (faulty : Bool) (fault : Fault) : List Fault := if faulty then [fault] else []

/-- The fault of a text that is no socket address. -/
def addressFaults (field value : String) : List Fault :=
  when (Net.SocketAddress.parse? value).isNone (.invalidAddress field value)

/-- The faults of a listener's certificates. -/
def Tls.faults (t : Tls) : List Fault :=
  when t.certificates.isEmpty .noCertificates
    ++ when (1 < t.certificates.countP (·.serverName.isNone)) .multipleDefaultCertificates

/-- The faults of a listener. -/
def Listener.faults (l : Listener) : List Fault :=
  addressFaults "listener.bind_address" l.address
    ++ when (l.maxConnections = 0) (.zero "listener.max_connections")
    ++ (match l.tls with
      | some t => t.faults
      | none => [])

/-- The faults of the server. Its address may name a host, so it need only be there. -/
def Server.faults (s : Server) : List Fault :=
  when s.address.isEmpty (.invalidAddress "upstream.address" "")
    ++ when (s.retries.maxAttempts = 0) (.zero "upstream.retries.max_attempts")
    ++ when (s.retries.maxDelay < s.retries.baseDelay)
      (.backoffRange s.retries.baseDelay s.retries.maxDelay)

/-- The faults of names, each of which occurs among those before it. -/
def duplicates : (names : List String) → (before : List String) → List Fault
  | [], _ => []
  | name :: names, before =>
    when (before.contains name) (.duplicateRuleSet name) ++ duplicates names (name :: before)

/-- The fault of a direction whose rule set does not exist. -/
def Throttle.nameFaults (t : Throttle) (field : String) (name : Option String) : List Fault :=
  match name with
  | some name => when (t.indexOf? name).isNone (.unknownRuleSet field name)
  | none => []

/-- The faults of the budgets. -/
def Throttle.faults (t : Throttle) : List Fault :=
  when (!(HttpRelay.Throttle.Scheduler.minBurst ≤ t.burst
      && t.burst ≤ HttpRelay.Throttle.Scheduler.maxBurst)) (.burstInterval t.burst)
    ++ duplicates (t.ruleSets.map RuleSet.name) []
    ++ t.nameFaults "throttle.upload_rule_set" t.upload
    ++ t.nameFaults "throttle.download_rule_set" t.download

/-- The faults of the times to wait. -/
def Timeouts.faults (t : Timeouts) : List Fault :=
  when (t.connect = 0) (.zero "timeouts.connect_secs")
    ++ when (t.head = 0) (.zero "timeouts.head_secs")
    ++ when (t.idle = 0) (.zero "timeouts.idle_secs")

/-- The faults of the metrics. -/
def Observability.faults (o : Observability) : List Fault :=
  if o.metricsEnabled then addressFaults "observability.metrics_address" o.metricsAddress else []

/-- The faults of the administrative interface. -/
def Admin.faults (a : Admin) : List Fault :=
  if a.enabled then
    addressFaults "admin.bind_address" a.address ++ when a.apiKey.isEmpty .missingApiKey
  else []

/-- The faults of a configuration. -/
def faults (c : Config) : List Fault :=
  c.listener.faults ++ c.server.faults ++ c.throttle.faults
    ++ when (c.maxMessage = 0) (.zero "websocket.max_message_size")
    ++ c.timeouts.faults ++ c.observability.faults ++ c.admin.faults

/-- Whether a configuration is fit for use. -/
def isValid (c : Config) : Bool := c.faults.isEmpty

end HttpRelay.Config
