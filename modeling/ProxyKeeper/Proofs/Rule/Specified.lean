import Mathlib.Data.List.Basic
import Mathlib.Tactic.Common
import ProxyKeeper.Proofs.Rule.Forms
import ProxyKeeper.Proofs.Rule.Valid

/-!
# What validation accepts

A rule is checked against a list of requirements, one after another. This module says what the
requirements come to: which rules are accepted, part by part, in terms of the forms of their
strings and of what is given together with what.

## Main Definitions

* `Rule.IsSpecified`: the rules as they are specified, with `IsSpecified` for each of their parts

## Main Results

* `Rule.isSpecified_iff_holds` — the requirements hold for exactly the specified rules, put together
  from one such equivalence for each part
* `Rule.validate_eq_ok_iff_isSpecified` — validation accepts exactly the specified rules
-/

namespace ProxyKeeper

/-! ## The specification -/

/-- One of several targets has a name, a port and a weight. -/
structure LoadBalancingTarget.IsSpecified (target : LoadBalancingTarget) : Prop where
  container : Form.Name target.container
  port : target.port ≠ 0
  weight : target.weight ≠ 0

/-- Headers have names and stay on their lines. -/
def HeaderMap.IsSpecified (headers : HeaderMap) : Prop :=
  ∀ header ∈ headers.entries, Form.Header header.1 ∧ Form.Line header.2

/-- A health check asks at a path, in time, for some of the status codes there are. -/
structure HealthCheck.IsSpecified (check : HealthCheck) : Prop where
  path : Form.Path check.path
  interval : check.interval ≠ 0
  timeout : check.timeout ≠ 0
  retries : check.retries ≠ 0
  some_code : check.successCodes ≠ []
  successCodes : ∀ code ∈ check.successCodes, 100 ≤ code ∧ code ≤ 599

/-- A rewrite rule has two texts, each on one line. -/
structure RewriteRule.IsSpecified (rewrite : RewriteRule) : Prop where
  some_text : rewrite.pattern ≠ "" ∧ rewrite.replacement ≠ ""
  pattern : Form.Line rewrite.pattern
  replacement : Form.Line rewrite.replacement

/-- Advanced settings are absent or of use: no timeout is nought, and what is switched on has a
measure. -/
structure AdvancedConfig.IsSpecified (settings : AdvancedConfig) : Prop where
  proxyConnectTimeout : settings.proxyConnectTimeout ≠ some 0
  proxySendTimeout : settings.proxySendTimeout ≠ some 0
  proxyReadTimeout : settings.proxyReadTimeout ≠ some 0
  proxyBufferSize : ∀ size ∈ settings.proxyBufferSize, Form.Size size
  clientMaxBodySize : ∀ size ∈ settings.clientMaxBodySize, Form.Size size
  proxyBuffers : ∀ buffers ∈ settings.proxyBuffers, buffers.number ≠ 0 ∧ Form.Size buffers.size
  cache : ∀ cache ∈ settings.cache, cache.enabled = true → cache.duration ≠ 0
  allowOrigin : ∀ cors ∈ settings.cors, Form.Line cors.allowOrigin
  allowMethods : ∀ cors ∈ settings.cors, Form.Line cors.allowMethods
  allowHeaders : ∀ cors ∈ settings.cors, Form.Line cors.allowHeaders
  rateLimit : ∀ limit ∈ settings.rateLimit, limit.enabled = true → limit.requestsPerSecond ≠ 0
  rewriteRules : ∀ rewrite ∈ settings.rewriteRules, rewrite.IsSpecified

namespace Rule

/-- Whether TLS ends at the proxy. -/
def UsesTls (rule : Rule) : Prop :=
  rule.protocol = .https ∨ rule.sslEnabled = true

/-- With TLS there are a certificate and a key, and without it neither. -/
structure IsTlsSpecified (rule : Rule) : Prop where
  protocol : rule.UsesTls → rule.protocol ≠ .tcp
  certificate : rule.UsesTls → ∃ path ∈ rule.sslCertPath, path ≠ "" ∧ Form.Line path
  key : rule.UsesTls → ∃ path ∈ rule.sslKeyPath, path ≠ "" ∧ Form.Line path
  neither : ¬ rule.UsesTls →
    (∀ path ∈ rule.sslCertPath, path = "") ∧ ∀ path ∈ rule.sslKeyPath, path = ""

/-- A rule goes somewhere: to one container at a port or to several that are in order. -/
structure IsTargetSpecified (rule : Rule) : Prop where
  some_target : rule.targets ≠ [] ∨ rule.targetContainer ≠ "" ∧ rule.targetPort ≠ 0
  targetContainer : rule.targetContainer = "" ∨ Form.Name rule.targetContainer
  targets : ∀ target ∈ rule.targets, target.IsSpecified
  method : ¬ (rule.protocol = .tcp ∧ rule.method = .ipHash)

/-- The rules as they are specified. -/
structure IsSpecified (rule : Rule) : Prop where
  id : Form.Id rule.id
  name : Form.Line rule.name
  sourceHost : rule.sourceHost = "" ∨ Form.Name rule.sourceHost
  domain : rule.domain = "" ∨ Form.Domain rule.domain
  sourcePath : rule.sourcePath = "" ∨ Form.Path rule.sourcePath
  target : rule.IsTargetSpecified
  tls : rule.IsTlsSpecified
  headers : rule.headers.IsSpecified
  responseHeaders : rule.responseHeaders.IsSpecified
  healthCheck : ∀ check ∈ rule.healthCheck, check.IsSpecified
  advanced : ∀ settings ∈ rule.advanced, settings.IsSpecified

end Rule

/-! ## The requirements hold for the specified rules -/

theorem absentOr_eq_true {α : Type} {condition : α → Bool} {a? : Option α} :
    absentOr condition a? = true ↔ ∀ a ∈ a?, condition a = true := by
  cases a? with
  | none => simp [absentOr]
  | some a => simp [absentOr]

theorem absentOr_eq_false {α : Type} {condition : α → Bool} {a? : Option α} :
    absentOr condition a? = false ↔ ∃ a ∈ a?, condition a = false := by
  cases a? with
  | none => simp [absentOr]
  | some a => simp [absentOr]

/-- What is asked of all items of a list by their places is asked of each item at its own. -/
theorem forall_mem_flatten_mapIdx {α β : Type} {f : Nat → α → List β} {as : List α}
    {p : β → Prop} :
    (∀ b ∈ (as.mapIdx f).flatten, p b) ↔ ∀ i a, as[i]? = some a → ∀ b ∈ f i a, p b := by
  simp only [List.mem_flatten, List.mem_mapIdx]
  constructor
  · rintro every i a at_i b inside
    obtain ⟨below, rfl⟩ := List.getElem?_eq_some_iff.1 at_i
    exact every b ⟨_, ⟨i, below, rfl⟩, inside⟩
  · rintro every b ⟨_, ⟨i, below, rfl⟩, inside⟩
    exact every i as[i] (List.getElem?_eq_getElem below) b inside

/-- What holds of the item at each place holds of all items. -/
theorem forall_getElem?_iff {α : Type} {as : List α} {p : α → Prop} :
    (∀ (i : Nat) a, as[i]? = some a → p a) ↔ ∀ a ∈ as, p a := by
  simp only [List.mem_iff_getElem?]
  exact ⟨fun every a ⟨i, at_i⟩ => every i a at_i, fun every i a at_i => every a ⟨i, at_i⟩⟩

theorem LoadBalancingTarget.isSpecified_iff_holds {target : LoadBalancingTarget} {i : Nat} :
    target.IsSpecified ↔ ∀ r ∈ target.requirements i, r.holds = true := by
  simp only [requirements, List.forall_mem_cons, List.not_mem_nil, false_imp_iff, implies_true,
    and_true, isSafeName_iff, bne_iff_ne]
  exact ⟨fun spec => ⟨spec.container, spec.port, spec.weight⟩,
    fun ⟨container, port, weight⟩ => ⟨container, port, weight⟩⟩

theorem HeaderMap.isSpecified_iff_holds {headers : HeaderMap} {side : HeaderSide} :
    headers.IsSpecified ↔ ∀ r ∈ headers.requirements side, r.holds = true := by
  simp only [requirements, List.forall_mem_flatMap, List.forall_mem_cons, List.not_mem_nil,
    false_imp_iff, implies_true, and_true, isHeaderName_iff, isOneLine_iff]
  rfl

theorem HealthCheck.isSpecified_iff_holds {check : HealthCheck} :
    check.IsSpecified ↔ ∀ r ∈ check.requirements, r.holds = true := by
  simp only [requirements, List.forall_mem_append, List.forall_mem_cons, List.forall_mem_map,
    List.not_mem_nil, false_imp_iff, implies_true, and_true, isSafePath_iff, bne_iff_ne,
    Bool.not_eq_true', List.isEmpty_eq_false_iff, Bool.and_eq_true, decide_eq_true_iff]
  constructor
  · intro spec
    exact ⟨⟨spec.path, spec.interval, spec.timeout, spec.retries, spec.some_code⟩,
      spec.successCodes⟩
  · rintro ⟨⟨path, interval, timeout, retries, some_code⟩, successCodes⟩
    exact ⟨path, interval, timeout, retries, some_code, successCodes⟩

theorem RewriteRule.isSpecified_iff_holds {rewrite : RewriteRule} {i : Nat} :
    rewrite.IsSpecified ↔ ∀ r ∈ rewrite.requirements i, r.holds = true := by
  simp only [requirements, List.forall_mem_cons, List.not_mem_nil, false_imp_iff, implies_true,
    and_true, isOneLine_iff, Bool.not_eq_true', String.isEmpty_eq_false_iff, Bool.and_eq_true]
  exact ⟨fun spec => ⟨spec.some_text, spec.pattern, spec.replacement⟩,
    fun ⟨some_text, pattern, replacement⟩ => ⟨some_text, pattern, replacement⟩⟩

theorem AdvancedConfig.isSpecified_iff_holds {settings : AdvancedConfig} :
    settings.IsSpecified ↔ ∀ r ∈ settings.requirements, r.holds = true := by
  have timeout {n? : Option UInt64} : (∀ n ∈ n?, n ≠ 0) ↔ n? ≠ some 0 := by
    cases n? with
    | none => simp
    | some n => simp
  simp only [requirements, List.forall_mem_append, List.forall_mem_cons, List.not_mem_nil,
    false_imp_iff, implies_true, and_true, absentOr_eq_true, forall_mem_flatten_mapIdx,
    ← RewriteRule.isSpecified_iff_holds, forall_getElem?_iff, bne_iff_ne, timeout, isSize_iff,
    isOneLine_iff, Bool.and_eq_true, Bool.or_eq_true, Bool.not_eq_true',
    ← imp_iff_not_or, ← Bool.not_eq_true]
  constructor
  · intro spec
    exact ⟨⟨spec.proxyConnectTimeout, spec.proxySendTimeout, spec.proxyReadTimeout,
      spec.proxyBufferSize, spec.clientMaxBodySize, spec.proxyBuffers, spec.cache,
      spec.allowOrigin, spec.allowMethods, spec.allowHeaders, spec.rateLimit⟩, spec.rewriteRules⟩
  · rintro ⟨⟨connect, send, read, bufferSize, bodySize, buffers, cache, origin, methods, headers,
      rate⟩, rewrites⟩
    exact ⟨connect, send, read, bufferSize, bodySize, buffers, cache, origin, methods, headers,
      rate, rewrites⟩

namespace Rule

variable {rule : Rule}

theorem isTls_iff : rule.isTls = true ↔ rule.UsesTls := by
  rw [isTls, Bool.or_eq_true, beq_iff_eq]
  rfl

theorem isGiven_iff {path : Option String} : isGiven path = true ↔ ∃ s ∈ path, s ≠ "" := by
  cases path with
  | none => simp [isGiven, absentOr]
  | some s => simp [isGiven, absentOr]

theorem isTargetSpecified_iff_holds :
    rule.IsTargetSpecified ↔ ∀ r ∈ rule.targetRequirements, r.holds = true := by
  simp only [targetRequirements, List.forall_mem_append, List.forall_mem_cons,
    List.not_mem_nil, false_imp_iff, implies_true, and_true, forall_mem_flatten_mapIdx,
    ← LoadBalancingTarget.isSpecified_iff_holds, forall_getElem?_iff, isSafeName_iff,
    hasSingleTarget, Bool.or_eq_true, Bool.and_eq_true, Bool.not_eq_true',
    List.isEmpty_eq_false_iff, String.isEmpty_eq_false_iff, String.isEmpty_iff, bne_iff_ne,
    Bool.and_eq_false_iff, beq_eq_false_iff_ne, ← not_and_or]
  constructor
  · intro spec
    exact ⟨⟨⟨spec.some_target, spec.targetContainer⟩, spec.targets⟩, spec.method⟩
  · rintro ⟨⟨⟨some_target, container⟩, targets⟩, method⟩
    exact ⟨some_target, container, targets, method⟩

theorem isTlsSpecified_iff_holds :
    rule.IsTlsSpecified ↔ ∀ r ∈ rule.tlsRequirements, r.holds = true := by
  rw [tlsRequirements]
  split
  next tls =>
    rw [isTls_iff] at tls
    simp only [List.forall_mem_cons, List.not_mem_nil, false_imp_iff, implies_true, and_true,
      bne_iff_ne, isGiven_iff, absentOr_eq_true, isOneLine_iff]
    constructor
    · intro spec
      obtain ⟨certificate, given, some_path, line⟩ := spec.certificate tls
      obtain ⟨key, given', some_path', line'⟩ := spec.key tls
      refine ⟨spec.protocol tls, ⟨certificate, given, some_path⟩, ⟨key, given', some_path'⟩, ?_, ?_⟩
      · rintro path same
        rwa [← Option.mem_unique given same]
      · rintro path same
        rwa [← Option.mem_unique given' same]
    · rintro ⟨protocol, ⟨certificate, given, some_path⟩, ⟨key, given', some_path'⟩, line, line'⟩
      exact ⟨fun _ => protocol, fun _ => ⟨certificate, given, some_path, line _ given⟩,
        fun _ => ⟨key, given', some_path', line' _ given'⟩, fun plain => absurd tls plain⟩
  next plain =>
    rw [isTls_iff] at plain
    simp only [List.forall_mem_cons, List.not_mem_nil, false_imp_iff, implies_true, and_true,
      Bool.and_eq_true, Bool.not_eq_true', ← Bool.not_eq_true, isGiven_iff]
    push Not
    exact ⟨fun spec => spec.neither plain, fun neither =>
      ⟨(absurd · plain), (absurd · plain), (absurd · plain), fun _ => neither⟩⟩

theorem isSpecified_iff_holds :
    rule.IsSpecified ↔ ∀ r ∈ rule.requirements, r.holds = true := by
  have healthCheck : (∀ r ∈ rule.healthCheck.elim [] HealthCheck.requirements, r.holds = true) ↔
      ∀ check ∈ rule.healthCheck, check.IsSpecified := by
    cases rule.healthCheck with
    | none => simp
    | some check => simp [HealthCheck.isSpecified_iff_holds]
  have advanced : (∀ r ∈ rule.advanced.elim [] AdvancedConfig.requirements, r.holds = true) ↔
      ∀ settings ∈ rule.advanced, settings.IsSpecified := by
    cases rule.advanced with
    | none => simp
    | some settings => simp [AdvancedConfig.isSpecified_iff_holds]
  simp only [requirements, List.forall_mem_append, List.forall_mem_cons, List.not_mem_nil,
    false_imp_iff, implies_true, and_true, ← isTargetSpecified_iff_holds,
    ← isTlsSpecified_iff_holds, ← HeaderMap.isSpecified_iff_holds, healthCheck, advanced,
    isRuleId_iff, isOneLine_iff, Bool.or_eq_true, String.isEmpty_iff, isSafeName_iff,
    isDomain_iff, isSafePath_iff]
  constructor
  · intro spec
    exact ⟨⟨⟨⟨⟨⟨⟨spec.id, spec.name, spec.sourceHost, spec.domain, spec.sourcePath⟩, spec.target⟩,
      spec.tls⟩, spec.headers⟩, spec.responseHeaders⟩, spec.healthCheck⟩, spec.advanced⟩
  · rintro ⟨⟨⟨⟨⟨⟨⟨id, name, host, domain, path⟩, target⟩, tls⟩, headers⟩, responseHeaders⟩, check⟩,
      settings⟩
    exact ⟨id, name, host, domain, path, target, tls, headers, responseHeaders, check, settings⟩

/-- Validation accepts exactly the specified rules. -/
theorem validate_eq_ok_iff_isSpecified : rule.validate = .ok () ↔ rule.IsSpecified := by
  rw [validate_eq_ok_iff, isValid_iff, isSpecified_iff_holds]

end Rule

end ProxyKeeper
