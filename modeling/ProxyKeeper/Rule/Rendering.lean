import ProxyKeeper.Rule.Basic
import ProxyKeeper.Nginx.Document

/-!
# The configuration of a rule

A rule becomes a document of its own: a comment that names it, the declarations it needs in front,
and one server. HTTP and HTTPS rules make a server with one location, TCP rules a server that
passes connections on.

Several targets, or a health check, call for a group of servers (an upstream); otherwise requests
go to the single container.

## Main Definitions

* `RenderOptions`: the names shared with the main configuration.
* `CompileFault`: why a rule has no document.
* `Rule.document`: the document of a rule.
* `Rule.render`: its text.
-/

namespace ProxyKeeper

open Nginx (Node Document)

/-- The names that the documents share with the main configuration. -/
structure RenderOptions where
  cacheZone : String := "dockgate_cache"
  rateLimitZone : String := "one"
  /-- Requests per second of the shared zone. -/
  rateLimitZoneRps : UInt32 := 10
  /-- What the names of the groups of servers begin with. -/
  upstreamStem : String := "backend"
deriving DecidableEq

/-- Why a rule has no document. -/
inductive CompileFault where
  | noTarget
  | noListenPort
deriving DecidableEq

/-- The fault in words. -/
def CompileFault.reason : CompileFault → String
  | .noTarget => "rule has no target"
  | .noListenPort => "tcp rule has no port to listen on"

/-- A number of seconds. -/
def seconds (n : UInt64) : String :=
  toString n.toNat ++ "s"

/-- A container with its port. -/
def address (container : String) (port : UInt16) : String :=
  container ++ ":" ++ toString port.toNat

/-- A setting of a directive, by name. -/
def setting (name value : String) : String :=
  name ++ "=" ++ value

/-- A directive for an optional setting. -/
def optionalDirective (name : String) (args : α → List String) : Option α → List Node
  | none => []
  | some a => [.directive name (args a)]

namespace Rule

/-- The name of a rule's group of servers. -/
def upstreamName (rule : Rule) (options : RenderOptions) : String :=
  options.upstreamStem ++ "_" ++ rule.id

/-- Whether a rule has a group of servers. A health check needs one even for a single container,
for the state of the servers is kept in the memory of the group. -/
def needsUpstream (rule : Rule) : Bool :=
  rule.usesUpstream || rule.healthCheck.isSome

/-- The single container of a rule. -/
def singleAddress (rule : Rule) : String :=
  address rule.targetContainer rule.targetPort

/-- The directive of a load balancing method; the one by turns is the default of nginx. -/
def methodNodes : LoadBalancingMethod → List Node
  | .roundRobin => []
  | .leastConnections => [.directive "least_conn" []]
  | .ipHash => [.directive "ip_hash" []]

/-- The servers of a rule's group. -/
def serverNodes (rule : Rule) : List Node :=
  if rule.usesUpstream then
    rule.targets.map fun target =>
      .directive "server"
        [address target.container target.port, setting "weight" (toString target.weight.toNat)]
  else [.directive "server" [rule.singleAddress]]

/-- The group of servers of a rule. -/
def upstreamNode (rule : Rule) (options : RenderOptions) : Node :=
  let name := rule.upstreamName options
  .block "upstream" [name]
    ((if rule.healthCheck.isSome then [.directive "zone" [name, "64k"]] else []) ++
      methodNodes rule.method ++ rule.serverNodes)

/-- The group of servers of a rule that needs one. -/
def upstreamNodes (rule : Rule) (options : RenderOptions) : List Node :=
  if rule.needsUpstream then [rule.upstreamNode options] else []

/-- The rate limit of a rule, when it is enabled. -/
def rateLimit? (rule : Rule) : Option RateLimit :=
  (rule.advanced.bind (·.rateLimit)).filter (·.enabled)

/-- Whether a rate limit is the one that the shared zone has: per client, at the shared rate. -/
def usesSharedZone (limit : RateLimit) (options : RenderOptions) : Bool :=
  limit.perIp && limit.requestsPerSecond == options.rateLimitZoneRps

/-- The name of a rule's own rate limit zone. -/
def ownZone (rule : Rule) : String :=
  "rl_" ++ rule.id

/-- The zone that a rule's rate limit refers to. -/
def rateLimitZone (rule : Rule) (options : RenderOptions) (limit : RateLimit) : String :=
  if usesSharedZone limit options then options.rateLimitZone else rule.ownZone

/-- The declaration of a rule's own rate limit zone, unless it uses the shared one. -/
def rateLimitZoneNodes (rule : Rule) (options : RenderOptions) : List Node :=
  match rule.rateLimit? with
  | none => []
  | some limit =>
    if usesSharedZone limit options then []
    else
      [.directive "limit_req_zone"
        [if limit.perIp then "$binary_remote_addr" else "$server_name",
         setting "zone" (rule.ownZone ++ ":10m"),
         setting "rate" (toString limit.requestsPerSecond.toNat ++ "r/s")]]

/-- The name of the condition that a rule's health check refers to. -/
def matchName (rule : Rule) : String :=
  "hc_" ++ rule.id

/-- The condition on the answers to health checks. -/
def matchNodes (rule : Rule) : List Node :=
  match rule.healthCheck with
  | none => []
  | some check =>
    [.block "match" [rule.matchName]
      [.directive "status" (check.successCodes.map fun code => toString code.toNat)]]

/-- Where an HTTP server listens, under which name, and with which certificate. -/
def listenNodes (rule : Rule) : List Node :=
  .directive "listen" (if rule.isTls then ["443", "ssl"] else ["80"]) ::
  .directive "server_name" [rule.serverName] ::
  (if rule.isTls then
    optionalDirective "ssl_certificate" (fun path => [path]) rule.sslCertPath ++
      optionalDirective "ssl_certificate_key" (fun path => [path]) rule.sslKeyPath
  else [])

/-- The settings of sizes and buffers. -/
def bufferNodes (settings : AdvancedConfig) : List Node :=
  optionalDirective "client_max_body_size" (fun size => [size]) settings.clientMaxBodySize ++
  optionalDirective "proxy_buffer_size" (fun size => [size]) settings.proxyBufferSize ++
  optionalDirective "proxy_buffers" (fun buffers => [toString buffers.number.toNat, buffers.size])
    settings.proxyBuffers

/-- The timeouts that are set. -/
def timeoutNodes (settings : AdvancedConfig) : List Node :=
  optionalDirective "proxy_connect_timeout" (fun n => [seconds n]) settings.proxyConnectTimeout ++
  optionalDirective "proxy_send_timeout" (fun n => [seconds n]) settings.proxySendTimeout ++
  optionalDirective "proxy_read_timeout" (fun n => [seconds n]) settings.proxyReadTimeout

/-- Caching, when it is enabled. -/
def cacheNodes (options : RenderOptions) (settings : AdvancedConfig) : List Node :=
  match settings.cache.filter (·.enabled) with
  | none => []
  | some cache =>
    [.directive "proxy_cache" [options.cacheZone],
     .directive "proxy_cache_valid" ["200", "302", seconds cache.duration]]

/-- The answers to other origins, when they are enabled. -/
def corsNodes (settings : AdvancedConfig) : List Node :=
  match settings.cors.filter (·.enabled) with
  | none => []
  | some cors =>
    [.directive "add_header" ["Access-Control-Allow-Origin", cors.allowOrigin, "always"],
     .directive "add_header" ["Access-Control-Allow-Methods", cors.allowMethods, "always"],
     .directive "add_header" ["Access-Control-Allow-Headers", cors.allowHeaders, "always"]] ++
    (if cors.allowCredentials then
      [.directive "add_header" ["Access-Control-Allow-Credentials", "true", "always"]]
    else []) ++
    [.block "if" ["($request_method", "=", "OPTIONS)"] [.directive "return" ["204"]]]

/-- The rate limit of a location. -/
def limitNodes (rule : Rule) (options : RenderOptions) : List Node :=
  match rule.rateLimit? with
  | none => []
  | some limit =>
    [.directive "limit_req"
      ([setting "zone" (rule.rateLimitZone options limit),
        setting "burst" (toString limit.burstSize.toNat)] ++
        if limit.noDelay then ["nodelay"] else [])]

/-- The rewrite rules, in their order. -/
def rewriteNodes (settings : AdvancedConfig) : List Node :=
  settings.rewriteRules.map fun rewrite =>
    .directive "rewrite" [rewrite.pattern, rewrite.replacement, rewrite.flag.name]

/-- The health check of a location. Its requests obey the timeouts of the location, which it sets
where the rule does not. -/
def healthNodes (rule : Rule) : List Node :=
  match rule.healthCheck with
  | none => []
  | some check =>
    [.directive "health_check"
      [setting "uri" check.path, setting "interval" (seconds check.interval),
       setting "fails" (toString check.retries.toNat), "passes=1",
       setting "match" rule.matchName]] ++
    (if (rule.advanced.bind (·.proxyConnectTimeout)).isSome then []
     else [.directive "proxy_connect_timeout" [seconds check.timeout]]) ++
    (if (rule.advanced.bind (·.proxyReadTimeout)).isSome then []
     else [.directive "proxy_read_timeout" [seconds check.timeout]])

/-- Where the requests of a location go. -/
def httpPass (rule : Rule) (options : RenderOptions) : String :=
  (if rule.backendHttps then "https" else "http") ++ "://" ++
    if rule.needsUpstream then rule.upstreamName options else rule.singleAddress

/-- The content of an HTTP rule's location. -/
def locationNodes (rule : Rule) (options : RenderOptions) : List Node :=
  .directive "proxy_pass" [rule.httpPass options] ::
  rule.headers.entries.map (fun (name, value) => .directive "proxy_set_header" [name, value]) ++
  rule.responseHeaders.entries.map (fun (name, value) => .directive "add_header" [name, value]) ++
  rule.advanced.elim [] (fun settings =>
    timeoutNodes settings ++ cacheNodes options settings ++ corsNodes settings) ++
  rule.limitNodes options ++
  rule.advanced.elim [] rewriteNodes ++
  rule.healthNodes

/-- What follows the comment in the document of an HTTP rule. -/
def httpNodes (rule : Rule) (options : RenderOptions) : List Node :=
  rule.rateLimitZoneNodes options ++ rule.matchNodes ++ rule.upstreamNodes options ++
  [.blank,
   .block "server" []
    (rule.listenNodes ++ rule.advanced.elim [] bufferNodes ++
      [.block "location" [rule.effectivePath] (rule.locationNodes options)])]

/-- Where a TCP rule listens. -/
def streamListen (rule : Rule) (port : UInt16) : String :=
  if rule.sourceHost.isEmpty then toString port.toNat else address rule.sourceHost port

/-- Where the connections of a TCP rule go. -/
def streamPass (rule : Rule) (options : RenderOptions) : String :=
  if rule.needsUpstream then rule.upstreamName options else rule.singleAddress

/-- The timeouts of a TCP rule that are set. -/
def streamTimeoutNodes (settings : AdvancedConfig) : List Node :=
  optionalDirective "proxy_connect_timeout" (fun n => [seconds n]) settings.proxyConnectTimeout ++
  optionalDirective "proxy_timeout" (fun n => [seconds n]) settings.proxyReadTimeout

/-- The health check of a TCP rule. -/
def streamHealthNodes (rule : Rule) : List Node :=
  match rule.healthCheck with
  | none => []
  | some check =>
    [.directive "health_check"
      [setting "interval" (seconds check.interval),
       setting "fails" (toString check.retries.toNat), "passes=1"],
     .directive "health_check_timeout" [seconds check.timeout]]

/-- What follows the comment in the document of a TCP rule that listens on a port. -/
def streamNodes (rule : Rule) (options : RenderOptions) (port : UInt16) : List Node :=
  rule.upstreamNodes options ++
  [.blank,
   .block "server" []
    ([.directive "listen" [rule.streamListen port],
      .directive "proxy_pass" [rule.streamPass options]] ++
      rule.advanced.elim [] streamTimeoutNodes ++ rule.streamHealthNodes)]

/-- The comment that names a rule. -/
def titleNode (rule : Rule) : Node :=
  .comment ((if rule.name.isEmpty then "" else rule.name ++ " ") ++ "(" ++ rule.id ++ ")")

/-- The document of a rule. A valid rule has one. -/
def document (rule : Rule) (options : RenderOptions) : Except CompileFault Document :=
  if !rule.usesUpstream && !rule.hasSingleTarget then .error .noTarget
  else match rule.protocol with
    | .http => .ok (rule.titleNode :: rule.httpNodes options)
    | .https => .ok (rule.titleNode :: rule.httpNodes options)
    | .tcp =>
      match rule.listenPort? with
      | none => .error .noListenPort
      | some port => .ok (rule.titleNode :: rule.streamNodes options port)

/-- The text of a rule's document. -/
def render (rule : Rule) (options : RenderOptions) : Except CompileFault String :=
  (rule.document options).map Document.render

end Rule

end ProxyKeeper
