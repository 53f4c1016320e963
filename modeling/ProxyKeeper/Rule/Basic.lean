import ProxyKeeper.Rule.HeaderMap
import ProxyKeeper.Rule.Timestamp

/-!
# Rules

A rule is one intention of routing: requests for a host and path, or connections to a port, go to
a container or to several. Rules are complete values; a change is a new rule with the same id.

## Main Definitions

* `Rule`: the rules, with their parts `LoadBalancingTarget`, `HealthCheck`, `AdvancedConfig`.
* `Rule.isTls`, `Rule.serverName`, `Rule.effectivePath`, `Rule.listenPort?`: what follows from the
  fields.
* `Rule.context`: the part of the nginx configuration a rule belongs to.
-/

namespace ProxyKeeper

/-- How clients speak to the proxy. -/
inductive Protocol where
  | http
  /-- HTTP over TLS that ends at the proxy. -/
  | https
  /-- Plain connections. -/
  | tcp
deriving DecidableEq, Inhabited

/-- The name of a protocol. -/
def Protocol.name : Protocol → String
  | .http => "http"
  | .https => "https"
  | .tcp => "tcp"

/-- The parts of the nginx configuration that hold rules. -/
inductive Context where
  | http
  | stream
deriving DecidableEq, Inhabited

/-- The name of a context. -/
def Context.name : Context → String
  | .http => "http"
  | .stream => "stream"

/-- The other context. -/
def Context.other : Context → Context
  | .http => .stream
  | .stream => .http

/-- One of several containers that share the load. -/
structure LoadBalancingTarget where
  container : String
  port : UInt16
  weight : UInt32 := 1
deriving DecidableEq

/-- How the load is shared. -/
inductive LoadBalancingMethod where
  /-- In turn, by weight. -/
  | roundRobin
  /-- To the container with the fewest connections. -/
  | leastConnections
  /-- By the address of the client; for HTTP only. -/
  | ipHash
deriving DecidableEq, Inhabited

/-- How the state of the containers is probed. Times are in seconds. -/
structure HealthCheck where
  path : String := "/"
  interval : UInt64 := 30
  /-- The status codes that count as success. -/
  successCodes : List UInt16 := [200]
  timeout : UInt64 := 5
  /-- How many failures in a row make a container unfit. -/
  retries : UInt32 := 3
deriving DecidableEq

/-- Number and size of the buffers for a response. -/
structure ProxyBuffers where
  number : UInt32
  size : String
deriving DecidableEq

/-- Caching of responses, for a number of seconds. -/
structure CacheConfig where
  enabled : Bool
  duration : UInt64
deriving DecidableEq

/-- The answers to requests from other origins. -/
structure CorsConfig where
  enabled : Bool := false
  allowOrigin : String := "*"
  allowMethods : String := "GET, POST, PUT, DELETE, OPTIONS"
  allowHeaders : String := "Content-Type, Authorization"
  allowCredentials : Bool := false
deriving DecidableEq

/-- A limit on requests, for each client address or for the server as a whole. -/
structure RateLimit where
  enabled : Bool := false
  requestsPerSecond : UInt32 := 10
  burstSize : UInt32 := 0
  /-- Whether requests within the burst go through at once. -/
  noDelay : Bool := false
  perIp : Bool := true
deriving DecidableEq

/-- What happens after a path was rewritten. -/
inductive RewriteFlag where
  | last
  | break
  | redirect
  | permanent
deriving DecidableEq, Inhabited

/-- The name of a flag, as nginx writes it. -/
def RewriteFlag.name : RewriteFlag → String
  | .last => "last"
  | .break => "break"
  | .redirect => "redirect"
  | .permanent => "permanent"

/-- A change of the path of a request. -/
structure RewriteRule where
  pattern : String
  replacement : String
  flag : RewriteFlag := .last
deriving DecidableEq

/-- Settings that most rules leave alone; each one that is given becomes a directive. -/
structure AdvancedConfig where
  proxyConnectTimeout : Option UInt64 := none
  proxySendTimeout : Option UInt64 := none
  proxyReadTimeout : Option UInt64 := none
  proxyBufferSize : Option String := none
  proxyBuffers : Option ProxyBuffers := none
  clientMaxBodySize : Option String := none
  cache : Option CacheConfig := none
  cors : Option CorsConfig := none
  rateLimit : Option RateLimit := none
  rewriteRules : List RewriteRule := []
deriving DecidableEq

/-- A routing rule. -/
structure Rule where
  /-- The name of the rule's file. -/
  id : String
  /-- For display. -/
  name : String := ""
  /-- The host of a request, or the address a TCP rule listens on. -/
  sourceHost : String := ""
  sourcePath : String := ""
  targetContainer : String := ""
  /-- Zero when it is not set. -/
  targetPort : UInt16 := 0
  /-- Whether the container expects TLS. -/
  backendHttps : Bool := false
  /-- Containers in the place of the single one. -/
  targets : List LoadBalancingTarget := []
  method : LoadBalancingMethod := .roundRobin
  protocol : Protocol := .http
  sslEnabled : Bool := false
  sslCertPath : Option String := none
  sslKeyPath : Option String := none
  domain : String := ""
  /-- Headers of the request to the container. -/
  headers : HeaderMap := .empty
  /-- Headers of the response to the client. -/
  responseHeaders : HeaderMap := .empty
  healthCheck : Option HealthCheck := none
  advanced : Option AdvancedConfig := none
  /-- A rule that is not enabled is kept out of the configuration. -/
  enabled : Bool := true
  created : Timestamp
deriving DecidableEq

namespace Rule

/-- The empty rule with an id. -/
def withId (id : String) (created : Timestamp) : Rule where
  id := id
  created := created

/-- Whether TLS ends at the proxy. -/
def isTls (rule : Rule) : Bool :=
  rule.protocol == .https || rule.sslEnabled

/-- Whether several containers share the load. -/
def usesUpstream (rule : Rule) : Bool :=
  !rule.targets.isEmpty

/-- Whether a single container is given, with its port. -/
def hasSingleTarget (rule : Rule) : Bool :=
  !rule.targetContainer.isEmpty && rule.targetPort != 0

/-- The path of the requests; the root when none is given. -/
def effectivePath (rule : Rule) : String :=
  if rule.sourcePath.isEmpty then "/" else rule.sourcePath

/-- The name of the virtual server: the domain, else the host, else the one that matches none. -/
def serverName (rule : Rule) : String :=
  if !rule.domain.isEmpty then rule.domain
  else if !rule.sourceHost.isEmpty then rule.sourceHost
  else "_"

/-- The port a TCP rule listens on: that of the single container, else that of the first of
several. -/
def listenPort? (rule : Rule) : Option UInt16 :=
  if rule.targetPort != 0 then some rule.targetPort else rule.targets.head?.map (·.port)

/-- The context a rule belongs to. -/
def context (rule : Rule) : Context :=
  match rule.protocol with
  | .tcp => .stream
  | .http => .http
  | .https => .http

end Rule

end ProxyKeeper
