import ProxyKeeper.Rule.Basic

/-!
# Rules as records

The written form of a rule: a record with every field, absent options as `null`. Reading fills in
the defaults of the fields that are not given; only the id must be.

## Main Definitions

* `Rule.encode?`: the record of a rule.
* `Rule.decode`: the rule of a record.
-/

namespace ProxyKeeper

open Decode (Result Fields)

/-- The protocols by the names they are read under. -/
def Protocol.names : List (String × Protocol) :=
  [("http", .http), ("https", .https), ("tcp", .tcp),
   ("HTTP", .http), ("HTTPS", .https), ("TCP", .tcp)]

/-- The written form of a protocol. -/
def Protocol.encode (protocol : Protocol) : Json :=
  .string protocol.name

/-- The name of a load balancing method. -/
def LoadBalancingMethod.name : LoadBalancingMethod → String
  | .roundRobin => "round_robin"
  | .leastConnections => "least_conn"
  | .ipHash => "ip_hash"

/-- The load balancing methods by their names. -/
def LoadBalancingMethod.names : List (String × LoadBalancingMethod) :=
  [.roundRobin, .leastConnections, .ipHash].map fun m => (m.name, m)

/-- The written form of a load balancing method. -/
def LoadBalancingMethod.encode (method : LoadBalancingMethod) : Json :=
  .string method.name

/-- The flags by their names. -/
def RewriteFlag.names : List (String × RewriteFlag) :=
  [.last, .break, .redirect, .permanent].map fun f => (f.name, f)

/-- The written form of a flag. -/
def RewriteFlag.encode (flag : RewriteFlag) : Json :=
  .string flag.name

namespace LoadBalancingTarget

/-- The record of a target. -/
def encode (target : LoadBalancingTarget) : Json :=
  .object
    [("container", .string target.container), ("port", .ofNat target.port.toNat),
     ("weight", .ofNat target.weight.toNat)]

/-- The target of a record. -/
def decode (d : Dialect) (value : Json) : Result LoadBalancingTarget := do
  let given ← Decode.fields d ["container", "port", "weight"] value
  let container ← given.required "container" Decode.string
  let port ← given.required "port" Decode.uint16
  let weight ← given.withDefault "weight" 1 Decode.uint32
  .ok { container, port, weight }

end LoadBalancingTarget

namespace HealthCheck

/-- The record of a health check. -/
def encode (check : HealthCheck) : Json :=
  .object
    [("path", .string check.path), ("interval", .ofNat check.interval.toNat),
     ("success_codes", .array (check.successCodes.map fun code => .ofNat code.toNat)),
     ("timeout", .ofNat check.timeout.toNat), ("retries", .ofNat check.retries.toNat)]

/-- The health check of a record. -/
def decode (d : Dialect) (value : Json) : Result HealthCheck := do
  let given ← Decode.fields d ["path", "interval", "success_codes", "timeout", "retries"] value
  let path ← given.withDefault "path" "/" Decode.string
  let interval ← given.withDefault "interval" 30 Decode.uint64
  let successCodes ← given.withDefault "success_codes" [200] (Decode.list Decode.uint16)
  let timeout ← given.withDefault "timeout" 5 Decode.uint64
  let retries ← given.withDefault "retries" 3 Decode.uint32
  .ok { path, interval, successCodes, timeout, retries }

end HealthCheck

namespace ProxyBuffers

/-- The record of buffers. -/
def encode (buffers : ProxyBuffers) : Json :=
  .object [("number", .ofNat buffers.number.toNat), ("size", .string buffers.size)]

/-- The buffers of a record. -/
def decode (d : Dialect) (value : Json) : Result ProxyBuffers := do
  let given ← Decode.fields d ["number", "size"] value
  let number ← given.required "number" Decode.uint32
  let size ← given.required "size" Decode.string
  .ok { number, size }

end ProxyBuffers

namespace CacheConfig

/-- The settings that are in force when nothing is said of caching. -/
def off : CacheConfig where
  enabled := false
  duration := 0

/-- The record of cache settings. -/
def encode (cache : CacheConfig) : Json :=
  .object [("enabled", .bool cache.enabled), ("duration", .ofNat cache.duration.toNat)]

/-- The cache settings of a record; ten minutes when no duration is given. -/
def decode (d : Dialect) (value : Json) : Result CacheConfig := do
  let given ← Decode.fields d ["enabled", "duration"] value
  let enabled ← given.withDefault "enabled" false Decode.bool
  let duration ← given.withDefault "duration" 600 Decode.uint64
  .ok { enabled, duration }

end CacheConfig

namespace CorsConfig

/-- The record of the answers to other origins. -/
def encode (cors : CorsConfig) : Json :=
  .object
    [("enabled", .bool cors.enabled), ("allow_origin", .string cors.allowOrigin),
     ("allow_methods", .string cors.allowMethods), ("allow_headers", .string cors.allowHeaders),
     ("allow_credentials", .bool cors.allowCredentials)]

/-- The answers to other origins of a record. -/
def decode (d : Dialect) (value : Json) : Result CorsConfig := do
  let given ← Decode.fields d
    ["enabled", "allow_origin", "allow_methods", "allow_headers", "allow_credentials"] value
  let usual : CorsConfig := {}
  let enabled ← given.withDefault "enabled" usual.enabled Decode.bool
  let allowOrigin ← given.withDefault "allow_origin" usual.allowOrigin Decode.string
  let allowMethods ← given.withDefault "allow_methods" usual.allowMethods Decode.string
  let allowHeaders ← given.withDefault "allow_headers" usual.allowHeaders Decode.string
  let allowCredentials ← given.withDefault "allow_credentials" usual.allowCredentials Decode.bool
  .ok { enabled, allowOrigin, allowMethods, allowHeaders, allowCredentials }

end CorsConfig

namespace RateLimit

/-- The record of a rate limit. -/
def encode (limit : RateLimit) : Json :=
  .object
    [("enabled", .bool limit.enabled),
     ("requests_per_second", .ofNat limit.requestsPerSecond.toNat),
     ("burst_size", .ofNat limit.burstSize.toNat), ("nodelay", .bool limit.noDelay),
     ("per_ip", .bool limit.perIp)]

/-- The rate limit of a record. -/
def decode (d : Dialect) (value : Json) : Result RateLimit := do
  let given ← Decode.fields d
    ["enabled", "requests_per_second", "burst_size", "nodelay", "per_ip"] value
  let enabled ← given.withDefault "enabled" false Decode.bool
  let requestsPerSecond ← given.withDefault "requests_per_second" 10 Decode.uint32
  let burstSize ← given.withDefault "burst_size" 0 Decode.uint32
  let noDelay ← given.withDefault "nodelay" false Decode.bool
  let perIp ← given.withDefault "per_ip" true Decode.bool
  .ok { enabled, requestsPerSecond, burstSize, noDelay, perIp }

end RateLimit

namespace RewriteRule

/-- The record of a rewrite rule. -/
def encode (rewrite : RewriteRule) : Json :=
  .object
    [("pattern", .string rewrite.pattern), ("replacement", .string rewrite.replacement),
     ("flag", rewrite.flag.encode)]

/-- The rewrite rule of a record. -/
def decode (d : Dialect) (value : Json) : Result RewriteRule := do
  let given ← Decode.fields d ["pattern", "replacement", "flag"] value
  let pattern ← given.required "pattern" Decode.string
  let replacement ← given.required "replacement" Decode.string
  let flag ← given.withDefault "flag" .last (Decode.variant d RewriteFlag.names)
  .ok { pattern, replacement, flag }

end RewriteRule

namespace AdvancedConfig

/-- The record of the advanced settings. -/
def encode (settings : AdvancedConfig) : Json :=
  let time := Json.ofOption fun n : UInt64 => .ofNat n.toNat
  .object
    [("proxy_connect_timeout", time settings.proxyConnectTimeout),
     ("proxy_send_timeout", time settings.proxySendTimeout),
     ("proxy_read_timeout", time settings.proxyReadTimeout),
     ("proxy_buffer_size", .ofOption .string settings.proxyBufferSize),
     ("proxy_buffers", .ofOption ProxyBuffers.encode settings.proxyBuffers),
     ("client_max_body_size", .ofOption .string settings.clientMaxBodySize),
     ("cache", .ofOption CacheConfig.encode settings.cache),
     ("cors", .ofOption CorsConfig.encode settings.cors),
     ("rate_limit", .ofOption RateLimit.encode settings.rateLimit),
     ("rewrite_rules", .array (settings.rewriteRules.map RewriteRule.encode))]

/-- The fields of the advanced settings. -/
def fieldNames : List String :=
  ["proxy_connect_timeout", "proxy_send_timeout", "proxy_read_timeout", "proxy_buffer_size",
   "proxy_buffers", "client_max_body_size", "cache", "cors", "rate_limit", "rewrite_rules"]

/-- The advanced settings of a record. -/
def decode (d : Dialect) (value : Json) : Result AdvancedConfig := do
  let given ← Decode.fields d fieldNames value
  let option {α : Type} (name : String) (item : Json → Result α) : Result (Option α) :=
    given.withDefault name none (Decode.option item)
  let proxyConnectTimeout ← option "proxy_connect_timeout" Decode.uint64
  let proxySendTimeout ← option "proxy_send_timeout" Decode.uint64
  let proxyReadTimeout ← option "proxy_read_timeout" Decode.uint64
  let proxyBufferSize ← option "proxy_buffer_size" Decode.string
  let proxyBuffers ← option "proxy_buffers" (ProxyBuffers.decode d)
  let clientMaxBodySize ← option "client_max_body_size" Decode.string
  let cache ← option "cache" (CacheConfig.decode d)
  let cors ← option "cors" (CorsConfig.decode d)
  let rateLimit ← option "rate_limit" (RateLimit.decode d)
  let rewriteRules ← given.withDefault "rewrite_rules" [] (Decode.list (RewriteRule.decode d))
  .ok
    { proxyConnectTimeout, proxySendTimeout, proxyReadTimeout, proxyBufferSize, proxyBuffers,
      clientMaxBodySize, cache, cors, rateLimit, rewriteRules }

end AdvancedConfig

/-- The table of a header map. -/
def HeaderMap.encode (headers : HeaderMap) : Json :=
  .object (headers.entries.map fun (name, value) => (name, .string value))

/-- The header map of a table. -/
def HeaderMap.decode (value : Json) : Result HeaderMap :=
  (Decode.stringTable value).map HeaderMap.ofList

namespace Rule

/-- The fields of a rule. -/
def fieldNames : List String :=
  ["id", "name", "source_host", "source_path", "target_container", "target_port",
   "backend_https", "load_balancing_targets", "load_balancing_method", "protocol", "ssl_enabled",
   "ssl_cert_path", "ssl_key_path", "domain", "headers", "response_headers", "health_check",
   "advanced_config", "enabled", "created"]

/-- The record of a rule; one that was created before the epoch has none. -/
def encode? (rule : Rule) : Option Json :=
  rule.created.encode?.map fun created => .object
    [("id", .string rule.id), ("name", .string rule.name),
     ("source_host", .string rule.sourceHost), ("source_path", .string rule.sourcePath),
     ("target_container", .string rule.targetContainer),
     ("target_port", .ofNat rule.targetPort.toNat),
     ("backend_https", .bool rule.backendHttps),
     ("load_balancing_targets", .array (rule.targets.map LoadBalancingTarget.encode)),
     ("load_balancing_method", rule.method.encode),
     ("protocol", rule.protocol.encode),
     ("ssl_enabled", .bool rule.sslEnabled),
     ("ssl_cert_path", .ofOption .string rule.sslCertPath),
     ("ssl_key_path", .ofOption .string rule.sslKeyPath),
     ("domain", .string rule.domain),
     ("headers", rule.headers.encode),
     ("response_headers", rule.responseHeaders.encode),
     ("health_check", .ofOption HealthCheck.encode rule.healthCheck),
     ("advanced_config", .ofOption AdvancedConfig.encode rule.advanced),
     ("enabled", .bool rule.enabled),
     ("created", created)]

/-- The rule of a record, created `now` unless the record says when. -/
def decode (d : Dialect) (now : Timestamp) (value : Json) : Result Rule := do
  let given ← Decode.fields d fieldNames value
  let text (name : String) : Result String := given.withDefault name "" Decode.string
  let flag (name : String) (usual : Bool) : Result Bool := given.withDefault name usual Decode.bool
  let option {α : Type} (name : String) (item : Json → Result α) : Result (Option α) :=
    given.withDefault name none (Decode.option item)
  let id ← given.required "id" Decode.string
  let name ← text "name"
  let sourceHost ← text "source_host"
  let sourcePath ← text "source_path"
  let targetContainer ← text "target_container"
  let targetPort ← given.withDefault "target_port" 0 Decode.uint16
  let backendHttps ← flag "backend_https" false
  let targets ← given.withDefault "load_balancing_targets" []
    (Decode.list (LoadBalancingTarget.decode d))
  let method ← given.withDefault "load_balancing_method" .roundRobin
    (Decode.variant d LoadBalancingMethod.names)
  let protocol ← given.withDefault "protocol" .http (Decode.variant d Protocol.names)
  let sslEnabled ← flag "ssl_enabled" false
  let sslCertPath ← option "ssl_cert_path" Decode.string
  let sslKeyPath ← option "ssl_key_path" Decode.string
  let domain ← text "domain"
  let headers ← given.withDefault "headers" .empty HeaderMap.decode
  let responseHeaders ← given.withDefault "response_headers" .empty HeaderMap.decode
  let healthCheck ← option "health_check" (HealthCheck.decode d)
  let advanced ← option "advanced_config" (AdvancedConfig.decode d)
  let enabled ← flag "enabled" true
  let created ← given.withDefault "created" now (Timestamp.decode d)
  .ok
    { id, name, sourceHost, sourcePath, targetContainer, targetPort, backendHttps, targets,
      method, protocol, sslEnabled, sslCertPath, sslKeyPath, domain, headers, responseHeaders,
      healthCheck, advanced, enabled, created }

end Rule

end ProxyKeeper
