import ProxyKeeper.Rule.Basic
import ProxyKeeper.Text.Blank
import ProxyKeeper.Text.Decimal
import ProxyKeeper.Text.Replace

/-!
# Valid rules

The strings of a rule become words of the nginx configuration, and its id becomes the name of a
file. A rule is valid when all its requirements hold; a requirement carries the fault that is
reported when it is the first one that does not.

## Main Definitions

* `isRuleId`, `isSafeName`, `isDomain`, `isSafePath`, `isHeaderName`, `isSize`, `isOneLine`: the
  forms of strings.
* `RuleFault`: the faults, with `RuleFault.field` and `RuleFault.reason`.
* `Rule.requirements`: what a valid rule meets, in the order of the checks.
* `Rule.fault?`: the first fault; a rule without one `Rule.isValid`.

## Main Results

* `Rule.isValid_iff`: a rule is valid when all its requirements hold.
-/

namespace ProxyKeeper

/-- ASCII letters and digits. -/
def isAlphanumeric (c : Char) : Bool :=
  ('a' ≤ c && c ≤ 'z') || ('A' ≤ c && c ≤ 'Z') || ('0' ≤ c && c ≤ '9')

/-- The characters of ids and header names. -/
def isIdCharacter (c : Char) : Bool :=
  isAlphanumeric c || c == '-' || c == '_'

/-- The characters of host names and container names. -/
def isNameCharacter (c : Char) : Bool :=
  isAlphanumeric c || c == '.' || c == '-' || c == '_'

/-- The largest number of characters of an id. -/
def maximalIdLength : Nat := 128

/-- Rule ids: they are the names of files, so they hold no separator and no dot. -/
def isRuleId (id : String) : Bool :=
  !id.isEmpty && id.toList.length ≤ maximalIdLength && id.toList.all isIdCharacter

/-- Names of hosts and containers. -/
def isSafeName (s : String) : Bool :=
  !s.isEmpty && s.toList.all isNameCharacter

/-- Names of hosts, with `*.` in front for all hosts below. -/
def isDomain (s : String) : Bool :=
  match Text.stripLead? ['*', '.'] s.toList with
  | some rest => !rest.isEmpty && rest.all isNameCharacter
  | none => isSafeName s

/-- The characters a path must not hold, for nginx gives them a meaning. -/
def isPathBreaker (c : Char) : Bool :=
  Text.isBlank c || c == ';' || c == '{' || c == '}' || c == '#' || c == '"' || c == '\'' ||
    c == '\\'

/-- Paths of requests: from the root, of ordinary characters. -/
def isSafePath (s : String) : Bool :=
  s.toList.head? == some '/' && !s.toList.any isPathBreaker

/-- Names of headers. -/
def isHeaderName (s : String) : Bool :=
  !s.isEmpty && s.toList.all isIdCharacter

/-- The letters that stand for units of size. -/
def isUnit (c : Char) : Bool :=
  c == 'k' || c == 'K' || c == 'm' || c == 'M' || c == 'g' || c == 'G'

/-- Sizes: digits, with at most one unit behind. -/
def isSize (s : String) : Bool :=
  let reversed := s.toList.reverse
  let digits := reversed.dropWhile isUnit
  (reversed.takeWhile isUnit).length ≤ 1 && !digits.isEmpty && digits.all Text.isDigit

/-- The characters that end a line or a text. -/
def isLineBreaker (c : Char) : Bool :=
  c == '\n' || c == '\r' || c == '\x00'

/-- Free text, which must stay on its line. -/
def isOneLine (s : String) : Bool :=
  !s.toList.any isLineBreaker

/-- The two header maps of a rule. -/
inductive HeaderSide where
  | request
  | response
deriving DecidableEq

/-- The three timeouts of a rule. -/
inductive ProxyTimeout where
  | connect
  | send
  | read
deriving DecidableEq

/-- The two settings of a rule that are sizes. -/
inductive SizeSetting where
  | proxyBuffer
  | clientMaxBody
deriving DecidableEq

/-- The three texts of the answers to other origins. -/
inductive CorsText where
  | origin
  | methods
  | headers
deriving DecidableEq

/-- What can be wrong with a rule. -/
inductive RuleFault where
  | id
  | nameBreaksLine
  | sourceHost
  | domain
  | sourcePath
  | noTarget
  | targetContainer
  | balancedContainer (index : Nat)
  | balancedPort (index : Nat)
  | balancedWeight (index : Nat)
  | ipHashOverTcp
  | tlsOverTcp
  | certificateMissing
  | keyMissing
  | certificateBreaksLine
  | keyBreaksLine
  | certificateWithoutTls
  | headerName (side : HeaderSide) (name : String)
  | headerBreaksLine (side : HeaderSide)
  | healthPath
  | healthInterval
  | healthTimeout
  | healthRetries
  | noSuccessCode
  | successCode (code : UInt16)
  | timeout (which : ProxyTimeout)
  | size (which : SizeSetting) (text : String)
  | buffers
  | cacheDuration
  | corsBreaksLine (which : CorsText)
  | requestRate
  | rewriteEmpty (index : Nat)
  | rewriteBreaksLine (index : Nat)
deriving DecidableEq

/-- A numbered field. -/
def indexed (field : String) (index : Nat) : String :=
  field ++ "[" ++ toString index ++ "]"

/-- The field of a rule that a fault is in. -/
def RuleFault.field : RuleFault → String
  | .id => "id"
  | .nameBreaksLine => "name"
  | .sourceHost => "source_host"
  | .domain => "domain"
  | .sourcePath => "source_path"
  | .noTarget => "target"
  | .targetContainer => "target_container"
  | .balancedContainer i => indexed "load_balancing_targets" i
  | .balancedPort i => indexed "load_balancing_targets" i
  | .balancedWeight i => indexed "load_balancing_targets" i
  | .ipHashOverTcp => "load_balancing_method"
  | .tlsOverTcp => "ssl_enabled"
  | .certificateMissing => "ssl_cert_path"
  | .keyMissing => "ssl_key_path"
  | .certificateBreaksLine => "ssl_cert_path"
  | .keyBreaksLine => "ssl_key_path"
  | .certificateWithoutTls => "ssl_enabled"
  | .headerName .request _ => "headers"
  | .headerName .response _ => "response_headers"
  | .headerBreaksLine .request => "headers"
  | .headerBreaksLine .response => "response_headers"
  | .healthPath => "health_check.path"
  | .healthInterval => "health_check.interval"
  | .healthTimeout => "health_check.timeout"
  | .healthRetries => "health_check.retries"
  | .noSuccessCode => "health_check.success_codes"
  | .successCode _ => "health_check.success_codes"
  | .timeout .connect => "advanced_config.proxy_connect_timeout"
  | .timeout .send => "advanced_config.proxy_send_timeout"
  | .timeout .read => "advanced_config.proxy_read_timeout"
  | .size .proxyBuffer _ => "advanced_config.proxy_buffer_size"
  | .size .clientMaxBody _ => "advanced_config.client_max_body_size"
  | .buffers => "advanced_config.proxy_buffers"
  | .cacheDuration => "advanced_config.cache.duration"
  | .corsBreaksLine .origin => "advanced_config.cors.allow_origin"
  | .corsBreaksLine .methods => "advanced_config.cors.allow_methods"
  | .corsBreaksLine .headers => "advanced_config.cors.allow_headers"
  | .requestRate => "advanced_config.rate_limit.requests_per_second"
  | .rewriteEmpty i => indexed "advanced_config.rewrite_rules" i
  | .rewriteBreaksLine i => indexed "advanced_config.rewrite_rules" i

/-- What is said of free text that breaks its line. -/
def lineBreakReason : String := "must not contain line breaks or NUL"

/-- What a fault says about its field. -/
def RuleFault.reason : RuleFault → String
  | .id => "must be 1-128 characters of [A-Za-z0-9_-]"
  | .nameBreaksLine => lineBreakReason
  | .sourceHost => "must contain only [A-Za-z0-9._-]"
  | .domain => "must be a hostname, optionally prefixed with '*.'"
  | .sourcePath =>
    "must start with '/' and contain no whitespace, ';', '\x7b', '\x7d', '#' or quotes"
  | .noTarget => "either target_container/target_port or load_balancing_targets must be set"
  | .targetContainer => "must contain only [A-Za-z0-9._-]"
  | .balancedContainer _ => "container must be non-empty and contain only [A-Za-z0-9._-]"
  | .balancedPort _ => "port must be 1-65535"
  | .balancedWeight _ => "weight must be at least 1"
  | .ipHashOverTcp => "ip_hash is only available for http rules"
  | .tlsOverTcp => "tls termination is not supported for tcp rules"
  | .certificateMissing => "required when tls is enabled"
  | .keyMissing => "required when tls is enabled"
  | .certificateBreaksLine => lineBreakReason
  | .keyBreaksLine => lineBreakReason
  | .certificateWithoutTls => "ssl_cert_path/ssl_key_path given but tls is not enabled"
  | .headerName _ name => "invalid header name '" ++ name ++ "'"
  | .headerBreaksLine _ => lineBreakReason
  | .healthPath => "must start with '/' and contain no whitespace or config metacharacters"
  | .healthInterval => "must be at least 1 second"
  | .healthTimeout => "must be at least 1 second"
  | .healthRetries => "must be at least 1"
  | .noSuccessCode => "must not be empty"
  | .successCode code => "invalid status code " ++ toString code.toNat
  | .timeout _ => "must be at least 1 second"
  | .size _ text => "invalid size '" ++ text ++ "', expected e.g. 4k, 10m"
  | .buffers => "number must be at least 1 and size like 4k"
  | .cacheDuration => "must be at least 1 second"
  | .corsBreaksLine _ => lineBreakReason
  | .requestRate => "must be at least 1"
  | .rewriteEmpty _ => "pattern and replacement must not be empty"
  | .rewriteBreaksLine _ => lineBreakReason

/-- Something a valid rule meets, with the fault of a rule that does not. -/
structure Requirement where
  holds : Bool
  fault : RuleFault

/-- What the target at a place in the list of targets meets. -/
def LoadBalancingTarget.requirements (index : Nat) (target : LoadBalancingTarget) :
    List Requirement :=
  [⟨isSafeName target.container, .balancedContainer index⟩,
   ⟨target.port != 0, .balancedPort index⟩,
   ⟨target.weight != 0, .balancedWeight index⟩]

/-- What the headers of one side meet. -/
def HeaderMap.requirements (side : HeaderSide) (headers : HeaderMap) : List Requirement :=
  headers.entries.flatMap fun (name, value) =>
    [⟨isHeaderName name, .headerName side name⟩, ⟨isOneLine value, .headerBreaksLine side⟩]

/-- What a health check meets. -/
def HealthCheck.requirements (check : HealthCheck) : List Requirement :=
  [⟨isSafePath check.path, .healthPath⟩,
   ⟨check.interval != 0, .healthInterval⟩,
   ⟨check.timeout != 0, .healthTimeout⟩,
   ⟨check.retries != 0, .healthRetries⟩,
   ⟨!check.successCodes.isEmpty, .noSuccessCode⟩] ++
  check.successCodes.map fun code => ⟨100 ≤ code && code ≤ 599, .successCode code⟩

/-- What the rewrite rule at a place in the list of rewrite rules meets. -/
def RewriteRule.requirements (index : Nat) (rewrite : RewriteRule) : List Requirement :=
  [⟨!rewrite.pattern.isEmpty && !rewrite.replacement.isEmpty, .rewriteEmpty index⟩,
   ⟨isOneLine rewrite.pattern, .rewriteBreaksLine index⟩,
   ⟨isOneLine rewrite.replacement, .rewriteBreaksLine index⟩]

/-- Whether an optional setting is absent or meets a condition. -/
def absentOr (condition : α → Bool) : Option α → Bool
  | none => true
  | some a => condition a

/-- What the advanced settings meet. -/
def AdvancedConfig.requirements (settings : AdvancedConfig) : List Requirement :=
  [⟨absentOr (· != 0) settings.proxyConnectTimeout, .timeout .connect⟩,
   ⟨absentOr (· != 0) settings.proxySendTimeout, .timeout .send⟩,
   ⟨absentOr (· != 0) settings.proxyReadTimeout, .timeout .read⟩,
   ⟨absentOr isSize settings.proxyBufferSize,
     .size .proxyBuffer (settings.proxyBufferSize.getD "")⟩,
   ⟨absentOr isSize settings.clientMaxBodySize,
     .size .clientMaxBody (settings.clientMaxBodySize.getD "")⟩,
   ⟨absentOr (fun b => b.number != 0 && isSize b.size) settings.proxyBuffers, .buffers⟩,
   ⟨absentOr (fun c => !c.enabled || c.duration != 0) settings.cache, .cacheDuration⟩,
   ⟨absentOr (fun c => isOneLine c.allowOrigin) settings.cors, .corsBreaksLine .origin⟩,
   ⟨absentOr (fun c => isOneLine c.allowMethods) settings.cors, .corsBreaksLine .methods⟩,
   ⟨absentOr (fun c => isOneLine c.allowHeaders) settings.cors, .corsBreaksLine .headers⟩,
   ⟨absentOr (fun r => !r.enabled || r.requestsPerSecond != 0) settings.rateLimit,
     .requestRate⟩] ++
  (settings.rewriteRules.mapIdx RewriteRule.requirements).flatten

namespace Rule

/-- Whether an optional path is given and not empty. -/
def isGiven (path : Option String) : Bool :=
  !absentOr (·.isEmpty) path

/-- What the targets of a rule meet. -/
def targetRequirements (rule : Rule) : List Requirement :=
  [⟨!rule.targets.isEmpty || rule.hasSingleTarget, .noTarget⟩,
   ⟨rule.targetContainer.isEmpty || isSafeName rule.targetContainer, .targetContainer⟩] ++
  (rule.targets.mapIdx LoadBalancingTarget.requirements).flatten ++
  [⟨!(rule.protocol == .tcp && rule.method == .ipHash), .ipHashOverTcp⟩]

/-- What the TLS settings of a rule meet: a certificate and a key with TLS, and neither without. -/
def tlsRequirements (rule : Rule) : List Requirement :=
  if rule.isTls then
    [⟨rule.protocol != .tcp, .tlsOverTcp⟩,
     ⟨isGiven rule.sslCertPath, .certificateMissing⟩,
     ⟨isGiven rule.sslKeyPath, .keyMissing⟩,
     ⟨absentOr isOneLine rule.sslCertPath, .certificateBreaksLine⟩,
     ⟨absentOr isOneLine rule.sslKeyPath, .keyBreaksLine⟩]
  else
    [⟨!isGiven rule.sslCertPath && !isGiven rule.sslKeyPath, .certificateWithoutTls⟩]

/-- What a valid rule meets, in the order in which faults are reported. -/
def requirements (rule : Rule) : List Requirement :=
  [⟨isRuleId rule.id, .id⟩,
   ⟨isOneLine rule.name, .nameBreaksLine⟩,
   ⟨rule.sourceHost.isEmpty || isSafeName rule.sourceHost, .sourceHost⟩,
   ⟨rule.domain.isEmpty || isDomain rule.domain, .domain⟩,
   ⟨rule.sourcePath.isEmpty || isSafePath rule.sourcePath, .sourcePath⟩] ++
  rule.targetRequirements ++ rule.tlsRequirements ++
  rule.headers.requirements .request ++ rule.responseHeaders.requirements .response ++
  rule.healthCheck.elim [] HealthCheck.requirements ++
  rule.advanced.elim [] AdvancedConfig.requirements

/-- The first fault of a rule. -/
def fault? (rule : Rule) : Option RuleFault :=
  (rule.requirements.find? (!·.holds)).map (·.fault)

/-- Whether a rule has no fault. -/
def isValid (rule : Rule) : Bool :=
  rule.fault?.isNone

theorem isValid_iff {rule : Rule} :
    rule.isValid = true ↔ ∀ r ∈ rule.requirements, r.holds = true := by
  simp [isValid, fault?, List.find?_eq_none]

end Rule

end ProxyKeeper
