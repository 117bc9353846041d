import HttpRelay.Config.Basic
import HttpRelay.Toml.Value

/-!
# Configurations in Files

Each section is a record. What is missing takes its default, unknown keys are passed over, and a
value of the wrong kind spoils the whole.
-/

namespace HttpRelay.Config

open Toml (Value)

/-- A count of 64 bits. -/
def count : Value → Option Nat := Value.natural? UInt64.size

/-- A certificate with its key. -/
def certificate? (v : Value) : Option HttpRelay.Tls.CertificateStore.Source := do
  let r ← v.record?
  return {
    serverName := ← r.get? 0 "server_name" Value.text?
    certificatePath := ← r.require 1 "cert_path" Value.text?
    keyPath := ← r.require 2 "key_path" Value.text? }

/-- The certificates of a listener. -/
def tls? (v : Value) : Option Tls := do
  let r ← v.record?
  return { certificates := ← r.require 0 "certificates" (Value.list? certificate?) }

/-- Where connections are accepted. -/
def listener? (v : Value) : Option Listener := do
  let r ← v.record?
  let d : Listener := {}
  return {
    address := ← r.getD 0 "bind_address" Value.text? d.address
    tls := ← r.get? 1 "tls" tls?
    maxConnections := ← r.getD 2 "max_connections" count d.maxConnections }

/-- How connecting is tried again. -/
def retries? (v : Value) : Option Retries := do
  let r ← v.record?
  let d : Retries := {}
  return {
    maxAttempts := ← r.getD 0 "max_attempts" (Value.natural? UInt32.size) d.maxAttempts
    baseDelay := ← r.getD 1 "base_delay_ms" count d.baseDelay
    maxDelay := ← r.getD 2 "max_delay_ms" count d.maxDelay }

/-- The server that requests are forwarded to. -/
def server? (v : Value) : Option Server := do
  let r ← v.record?
  let d : Server := {}
  return {
    address := ← r.getD 0 "address" Value.text? d.address
    retries := ← r.getD 1 "retries" retries? d.retries }

/-- A named budget. -/
def ruleSet? (v : Value) : Option RuleSet := do
  let r ← v.record?
  return {
    name := ← r.require 0 "name" Value.text?
    bytesPerSecond := ← r.getD 1 "bytes_per_second" Value.integer? 0 }

/-- The budgets. -/
def throttle? (v : Value) : Option Throttle := do
  let r ← v.record?
  let d : Throttle := {}
  return {
    burst := ← r.getD 0 "burst_interval_ms" count d.burst
    ruleSets := ← r.getD 1 "rule_sets" (Value.list? ruleSet?) d.ruleSets
    upload := ← r.get? 2 "upload_rule_set" Value.text?
    download := ← r.get? 3 "download_rule_set" Value.text? }

/-- The longest message of a WebSocket. -/
def maxMessage? (v : Value) : Option Nat := do
  (← v.record?).getD 0 "max_message_size" count WebSocket.defaultLimit

/-- What is recorded. -/
def recording? (v : Value) : Option Recording := do
  let r ← v.record?
  let d : Recording := {}
  return {
    enabled := ← r.getD 0 "enabled" Value.boolean? d.enabled
    maxPayload := ← r.getD 1 "max_payload_bytes" count d.maxPayload }

/-- How long to wait. -/
def timeouts? (v : Value) : Option Timeouts := do
  let r ← v.record?
  let d : Timeouts := {}
  return {
    connect := ← r.getD 0 "connect_secs" count d.connect
    head := ← r.getD 1 "head_secs" count d.head
    idle := ← r.getD 2 "idle_secs" count d.idle }

/-- What is logged and measured. -/
def observability? (v : Value) : Option Observability := do
  let r ← v.record?
  let d : Observability := {}
  return {
    logLevel := ← r.getD 0 "log_level" Value.text? d.logLevel
    metricsEnabled := ← r.getD 1 "metrics_enabled" Value.boolean? d.metricsEnabled
    metricsAddress := ← r.getD 2 "metrics_address" Value.text? d.metricsAddress }

/-- The administrative interface. -/
def admin? (v : Value) : Option Admin := do
  let r ← v.record?
  let d : Admin := {}
  return {
    enabled := ← r.getD 0 "enabled" Value.boolean? d.enabled
    apiKey := ← r.getD 1 "api_key" Value.text? d.apiKey
    address := ← r.getD 2 "bind_address" Value.text? d.address }

/-- The configuration that a document spells. -/
def ofToml? (v : Value) : Option Config := do
  let r ← v.record?
  let d : Config := {}
  return {
    listener := ← r.getD 0 "listener" listener? d.listener
    server := ← r.getD 1 "upstream" server? d.server
    throttle := ← r.getD 2 "throttle" throttle? d.throttle
    maxMessage := ← r.getD 3 "websocket" maxMessage? d.maxMessage
    recording := ← r.getD 4 "recording" recording? d.recording
    timeouts := ← r.getD 5 "timeouts" timeouts? d.timeouts
    observability := ← r.getD 6 "observability" observability? d.observability
    admin := ← r.getD 7 "admin" admin? d.admin }

end HttpRelay.Config
