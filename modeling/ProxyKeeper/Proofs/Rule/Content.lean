import ProxyKeeper.Rule.Rendering

/-!
# The effective content of a rule

Much of a rule has no effect on the configuration: when it was created, whether it is enabled,
sections that are switched off, settings of the other protocol. What is left is its effective
content.

## Main Definitions

* `Backend` — where the requests of a rule go
* `HttpContent`, `StreamContent` — what has an effect for HTTP and for connections
* `Rule.content` — the effective content of a rule
-/

namespace ProxyKeeper

/-- Where the requests of a rule go: to several containers, in their order, or to a single one. -/
inductive Backend where
  | several (targets : List LoadBalancingTarget)
  | single (container : String) (port : UInt16)
deriving DecidableEq

/-- The effective content of a health check for HTTP. Its timeout has no effect when the rule sets
both timeouts that it stands for. -/
structure HttpCheck where
  path : String
  interval : UInt64
  retries : UInt32
  successCodes : List UInt16
  timeout : Option UInt64
deriving DecidableEq

/-- The effective content of a health check for connections. -/
structure StreamCheck where
  interval : UInt64
  retries : UInt32
  timeout : UInt64
deriving DecidableEq

/-- The effective content of an HTTP or HTTPS rule. -/
structure HttpContent where
  id : String
  name : String
  isTls : Bool
  certificate : Option String
  key : Option String
  serverName : String
  path : String
  backendHttps : Bool
  backend : Backend
  /-- Absent when there is no group of servers. -/
  method : Option LoadBalancingMethod
  headers : HeaderMap
  responseHeaders : HeaderMap
  connectTimeout : Option UInt64
  sendTimeout : Option UInt64
  readTimeout : Option UInt64
  clientMaxBodySize : Option String
  proxyBufferSize : Option String
  proxyBuffers : Option ProxyBuffers
  cacheDuration : Option UInt64
  cors : Option CorsConfig
  rateLimit : Option RateLimit
  rewriteRules : List RewriteRule
  check : Option HttpCheck
deriving DecidableEq

/-- The effective content of a TCP rule. -/
structure StreamContent where
  id : String
  name : String
  sourceHost : String
  listenPort : Option UInt16
  backend : Backend
  /-- Absent when there is no group of servers. -/
  method : Option LoadBalancingMethod
  connectTimeout : Option UInt64
  readTimeout : Option UInt64
  check : Option StreamCheck
deriving DecidableEq

/-- The effective content of a rule. -/
inductive Content where
  | http (content : HttpContent)
  | stream (content : StreamContent)
deriving DecidableEq

namespace Rule

/-- The targets of a rule, or its single container when there are none. -/
def backend (rule : Rule) : Backend :=
  if rule.usesUpstream then .several rule.targets
  else .single rule.targetContainer rule.targetPort

/-- The method of balancing, when there is a group of servers. -/
def groupMethod (rule : Rule) : Option LoadBalancingMethod :=
  if rule.needsUpstream then some rule.method else none

/-- The path of the certificate, when TLS ends at the proxy. -/
def certificate (rule : Rule) : Option String :=
  if rule.isTls then rule.sslCertPath else none

/-- The path of the key, when TLS ends at the proxy. -/
def key (rule : Rule) : Option String :=
  if rule.isTls then rule.sslKeyPath else none

def connectTimeout (rule : Rule) : Option UInt64 :=
  rule.advanced.bind (·.proxyConnectTimeout)

def sendTimeout (rule : Rule) : Option UInt64 :=
  rule.advanced.bind (·.proxySendTimeout)

def readTimeout (rule : Rule) : Option UInt64 :=
  rule.advanced.bind (·.proxyReadTimeout)

/-- How long answers are cached, when they are. -/
def cacheDuration (rule : Rule) : Option UInt64 :=
  ((rule.advanced.bind (·.cache)).filter (·.enabled)).map (·.duration)

/-- The answers to other origins, when they are enabled. -/
def cors (rule : Rule) : Option CorsConfig :=
  (rule.advanced.bind (·.cors)).filter (·.enabled)

/-- The rewrite rules of a rule. -/
def rewriteRules (rule : Rule) : List RewriteRule :=
  rule.advanced.elim [] (·.rewriteRules)

/-- The effective content of a health check for HTTP. -/
def httpCheck (rule : Rule) : Option HttpCheck :=
  rule.healthCheck.map fun check =>
    { path := check.path, interval := check.interval, retries := check.retries,
      successCodes := check.successCodes,
      timeout :=
        if rule.connectTimeout.isSome && rule.readTimeout.isSome then none
        else some check.timeout }

/-- The effective content of a health check for connections. -/
def streamCheck (rule : Rule) : Option StreamCheck :=
  rule.healthCheck.map fun check => ⟨check.interval, check.retries, check.timeout⟩

/-- The effective content of a rule for HTTP. -/
def httpContent (rule : Rule) : HttpContent where
  id := rule.id
  name := rule.name
  isTls := rule.isTls
  certificate := rule.certificate
  key := rule.key
  serverName := rule.serverName
  path := rule.effectivePath
  backendHttps := rule.backendHttps
  backend := rule.backend
  method := rule.groupMethod
  headers := rule.headers
  responseHeaders := rule.responseHeaders
  connectTimeout := rule.connectTimeout
  sendTimeout := rule.sendTimeout
  readTimeout := rule.readTimeout
  clientMaxBodySize := rule.advanced.bind (·.clientMaxBodySize)
  proxyBufferSize := rule.advanced.bind (·.proxyBufferSize)
  proxyBuffers := rule.advanced.bind (·.proxyBuffers)
  cacheDuration := rule.cacheDuration
  cors := rule.cors
  rateLimit := rule.rateLimit?
  rewriteRules := rule.rewriteRules
  check := rule.httpCheck

/-- The effective content of a rule for connections. -/
def streamContent (rule : Rule) : StreamContent where
  id := rule.id
  name := rule.name
  sourceHost := rule.sourceHost
  listenPort := rule.listenPort?
  backend := rule.backend
  method := rule.groupMethod
  connectTimeout := rule.connectTimeout
  readTimeout := rule.readTimeout
  check := rule.streamCheck

/-- The effective content of a rule. -/
def content (rule : Rule) : Content :=
  match rule.context with
  | .http => .http rule.httpContent
  | .stream => .stream rule.streamContent

end Rule

end ProxyKeeper
