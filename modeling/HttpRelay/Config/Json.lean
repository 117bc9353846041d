import HttpRelay.Config.Basic
import HttpRelay.Json.Value

/-!
# Configurations as JSON

A configuration is shown under the names that files use. What is not set is null.
-/

namespace HttpRelay.Config

/-- The certificates of a listener. -/
def Tls.toJson (t : Tls) : Json.Value :=
  .object [("certificates", .array (t.certificates.map fun c => .object [
    ("server_name", .orNull .text c.serverName),
    ("cert_path", .text c.certificatePath),
    ("key_path", .text c.keyPath)]))]

/-- The throttle section. -/
def Throttle.toJson (t : Throttle) : Json.Value :=
  .object [
    ("burst_interval_ms", .count t.burst),
    ("rule_sets", .array (t.ruleSets.map fun r => .object [
      ("name", .text r.name),
      ("bytes_per_second", .number r.bytesPerSecond)])),
    ("upload_rule_set", .orNull .text t.upload),
    ("download_rule_set", .orNull .text t.download)]

/-- A whole configuration. -/
def toJson (c : Config) : Json.Value :=
  .object [
    ("listener", .object [
      ("bind_address", .text c.listener.address),
      ("tls", .orNull Tls.toJson c.listener.tls),
      ("max_connections", .count c.listener.maxConnections)]),
    ("upstream", .object [
      ("address", .text c.server.address),
      ("retries", .object [
        ("max_attempts", .count c.server.retries.maxAttempts),
        ("base_delay_ms", .count c.server.retries.baseDelay),
        ("max_delay_ms", .count c.server.retries.maxDelay)])]),
    ("throttle", c.throttle.toJson),
    ("websocket", .object [("max_message_size", .count c.maxMessage)]),
    ("recording", .object [
      ("enabled", .boolean c.recording.enabled),
      ("max_payload_bytes", .count c.recording.maxPayload)]),
    ("timeouts", .object [
      ("connect_secs", .count c.timeouts.connect),
      ("head_secs", .count c.timeouts.head),
      ("idle_secs", .count c.timeouts.idle)]),
    ("observability", .object [
      ("log_level", .text c.observability.logLevel),
      ("metrics_enabled", .boolean c.observability.metricsEnabled),
      ("metrics_address", .text c.observability.metricsAddress)]),
    ("admin", .object [
      ("enabled", .boolean c.admin.enabled),
      ("api_key", .text c.admin.apiKey),
      ("bind_address", .text c.admin.address)])]

end HttpRelay.Config
