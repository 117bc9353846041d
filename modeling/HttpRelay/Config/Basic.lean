import HttpRelay.Throttle.Scheduler
import HttpRelay.Tls.CertificateStore
import HttpRelay.WebSocket.Endpoint

/-!
# Configuration

What the relay is told: where it listens, where it forwards to, and within which limits.
-/

namespace HttpRelay.Config

/-- The certificates of a listener. -/
structure Tls where
  certificates : List HttpRelay.Tls.CertificateStore.Source
  deriving DecidableEq, Repr

/-- Where connections are accepted. -/
structure Listener where
  address : String := "0.0.0.0:8080"
  tls : Option Tls := none
  /-- Most connections at one time. -/
  maxConnections : Nat := 10000
  deriving DecidableEq, Repr

/-- How often and how soon connecting is tried again. Delays are in milliseconds. -/
structure Retries where
  /-- Most attempts, the first one included. -/
  maxAttempts : Nat := 3
  baseDelay : Nat := 100
  maxDelay : Nat := 2000
  deriving DecidableEq, Repr

/-- The server that requests are forwarded to. -/
structure Server where
  address : String := "127.0.0.1:3000"
  retries : Retries := {}
  deriving DecidableEq, Repr

/-- A named budget. -/
structure RuleSet where
  name : String
  /-- Without limit unless positive. -/
  bytesPerSecond : Int := 0
  deriving DecidableEq, Repr

/-- The budgets, and which of them each direction draws on. -/
structure Throttle where
  /-- Milliseconds between ticks. -/
  burst : Nat := 100
  ruleSets : List RuleSet := []
  upload : Option String := none
  download : Option String := none
  deriving DecidableEq, Repr

/-- The slot of a rule set. -/
def Throttle.indexOf? (t : Throttle) (name : String) : Option Nat :=
  t.ruleSets.findIdx? (·.name == name)

/-- The rule set that a direction draws on. -/
def Throttle.ruleSetOf (t : Throttle) (name : Option String) : HttpRelay.Throttle.RuleSetId :=
  ((name.bind t.indexOf?).map .mk).getD .none

/-- What is recorded. -/
structure Recording where
  enabled : Bool := false
  /-- Most bytes shown of a payload. -/
  maxPayload : Nat := 256
  deriving DecidableEq, Repr

/-- How long to wait, in seconds. -/
structure Timeouts where
  connect : Nat := 5
  head : Nat := 30
  idle : Nat := 60
  deriving DecidableEq, Repr

/-- What is logged and measured. -/
structure Observability where
  logLevel : String := "info"
  metricsEnabled : Bool := true
  metricsAddress : String := "0.0.0.0:9090"
  deriving DecidableEq, Repr

/-- The administrative interface. -/
structure Admin where
  enabled : Bool := false
  apiKey : String := "CHANGE_ME_IN_PRODUCTION"
  address : String := "127.0.0.1:8081"
  deriving DecidableEq, Repr

end HttpRelay.Config

namespace HttpRelay

/-- A configuration. -/
structure Config where
  listener : Config.Listener := {}
  server : Config.Server := {}
  throttle : Config.Throttle := {}
  /-- Longest message of a WebSocket. -/
  maxMessage : Nat := WebSocket.defaultLimit
  recording : Config.Recording := {}
  timeouts : Config.Timeouts := {}
  observability : Config.Observability := {}
  admin : Config.Admin := {}
  deriving DecidableEq, Repr

end HttpRelay
