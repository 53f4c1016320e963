import Mathlib.Tactic.Common
import ProxyKeeper.Proofs.Rule.Specified

/-!
# The faults that are reported

A rule that is refused is refused for one fault, and the report names a field and says what is wrong
with it. Here every fault is given its meaning for the rule, and the one that is reported is shown
to be real: the rule is as the report says.

## Main Definitions

* `Rule.Suffers`: what is wrong with a rule that has a fault

## Main Results

* `Rule.suffers_of_fails` — the fault of a requirement that fails is real
* `Rule.isSpecified_iff_not_suffers` — the faults are the ways in which a rule is not as specified
* `Rule.validate_specified` — validation accepts exactly the specified rules and blames a real fault
-/

namespace ProxyKeeper

namespace Rule

/-- The headers of one side. -/
def headersOf (rule : Rule) : HeaderSide → HeaderMap
  | .request => rule.headers
  | .response => rule.responseHeaders

end Rule

namespace AdvancedConfig

/-- One of the three timeouts. -/
def timeoutOf (settings : AdvancedConfig) : ProxyTimeout → Option UInt64
  | .connect => settings.proxyConnectTimeout
  | .send => settings.proxySendTimeout
  | .read => settings.proxyReadTimeout

/-- One of the two sizes. -/
def sizeOf (settings : AdvancedConfig) : SizeSetting → Option String
  | .proxyBuffer => settings.proxyBufferSize
  | .clientMaxBody => settings.clientMaxBodySize

end AdvancedConfig

/-- One of the three texts of the answers to other origins. -/
def CorsConfig.textOf (cors : CorsConfig) : CorsText → String
  | .origin => cors.allowOrigin
  | .methods => cors.allowMethods
  | .headers => cors.allowHeaders

namespace Rule

/-- What is wrong with a rule that has the fault. -/
def Suffers (rule : Rule) : RuleFault → Prop
  | .id => ¬ Form.Id rule.id
  | .nameBreaksLine => ¬ Form.Line rule.name
  | .sourceHost => rule.sourceHost ≠ "" ∧ ¬ Form.Name rule.sourceHost
  | .domain => rule.domain ≠ "" ∧ ¬ Form.Domain rule.domain
  | .sourcePath => rule.sourcePath ≠ "" ∧ ¬ Form.Path rule.sourcePath
  | .noTarget => rule.targets = [] ∧ (rule.targetContainer = "" ∨ rule.targetPort = 0)
  | .targetContainer => rule.targetContainer ≠ "" ∧ ¬ Form.Name rule.targetContainer
  | .balancedContainer i => ∃ target, rule.targets[i]? = some target ∧ ¬ Form.Name target.container
  | .balancedPort i => ∃ target, rule.targets[i]? = some target ∧ target.port = 0
  | .balancedWeight i => ∃ target, rule.targets[i]? = some target ∧ target.weight = 0
  | .ipHashOverTcp => rule.protocol = .tcp ∧ rule.method = .ipHash
  | .tlsOverTcp => rule.UsesTls ∧ rule.protocol = .tcp
  | .certificateMissing => rule.UsesTls ∧ ∀ path ∈ rule.sslCertPath, path = ""
  | .keyMissing => rule.UsesTls ∧ ∀ path ∈ rule.sslKeyPath, path = ""
  | .certificateBreaksLine => rule.UsesTls ∧ ∃ path ∈ rule.sslCertPath, ¬ Form.Line path
  | .keyBreaksLine => rule.UsesTls ∧ ∃ path ∈ rule.sslKeyPath, ¬ Form.Line path
  | .certificateWithoutTls => ¬ rule.UsesTls ∧
    ((∃ path ∈ rule.sslCertPath, path ≠ "") ∨ ∃ path ∈ rule.sslKeyPath, path ≠ "")
  | .headerName side name =>
    ∃ value, (name, value) ∈ (rule.headersOf side).entries ∧ ¬ Form.Header name
  | .headerBreaksLine side => ∃ header ∈ (rule.headersOf side).entries, ¬ Form.Line header.2
  | .healthPath => ∃ check ∈ rule.healthCheck, ¬ Form.Path check.path
  | .healthInterval => ∃ check ∈ rule.healthCheck, check.interval = 0
  | .healthTimeout => ∃ check ∈ rule.healthCheck, check.timeout = 0
  | .healthRetries => ∃ check ∈ rule.healthCheck, check.retries = 0
  | .noSuccessCode => ∃ check ∈ rule.healthCheck, check.successCodes = []
  | .successCode code =>
    ∃ check ∈ rule.healthCheck, code ∈ check.successCodes ∧ ¬ (100 ≤ code ∧ code ≤ 599)
  | .timeout which => ∃ settings ∈ rule.advanced, settings.timeoutOf which = some 0
  | .size which text =>
    ∃ settings ∈ rule.advanced, settings.sizeOf which = some text ∧ ¬ Form.Size text
  | .buffers => ∃ settings ∈ rule.advanced, ∃ buffers ∈ settings.proxyBuffers,
    buffers.number = 0 ∨ ¬ Form.Size buffers.size
  | .cacheDuration => ∃ settings ∈ rule.advanced, ∃ cache ∈ settings.cache,
    cache.enabled = true ∧ cache.duration = 0
  | .corsBreaksLine which => ∃ settings ∈ rule.advanced, ∃ cors ∈ settings.cors,
    ¬ Form.Line (cors.textOf which)
  | .requestRate => ∃ settings ∈ rule.advanced, ∃ limit ∈ settings.rateLimit,
    limit.enabled = true ∧ limit.requestsPerSecond = 0
  | .rewriteEmpty i => ∃ settings ∈ rule.advanced, ∃ rewrite,
    settings.rewriteRules[i]? = some rewrite ∧ (rewrite.pattern = "" ∨ rewrite.replacement = "")
  | .rewriteBreaksLine i => ∃ settings ∈ rule.advanced, ∃ rewrite,
    settings.rewriteRules[i]? = some rewrite ∧
      ¬ (Form.Line rewrite.pattern ∧ Form.Line rewrite.replacement)

variable {rule : Rule}

/-! ## The faults are real -/

theorem suffers_of_targetRequirements :
    ∀ r ∈ rule.targetRequirements, r.holds = false → rule.Suffers r.fault := by
  simp only [targetRequirements, List.forall_mem_append, List.forall_mem_cons, List.not_mem_nil,
    false_imp_iff, implies_true, and_true, forall_mem_flatten_mapIdx,
    LoadBalancingTarget.requirements, Suffers]
  refine ⟨⟨⟨fun failed => ?_, fun failed => ?_⟩, fun i target listed =>
    ⟨fun failed => ?_, fun failed => ?_, fun failed => ?_⟩⟩, fun failed => ?_⟩
  · simpa [hasSingleTarget, imp_iff_not_or] using failed
  · simpa [← isSafeName_iff] using failed
  · exact ⟨target, listed, by simpa [← isSafeName_iff] using failed⟩
  · exact ⟨target, listed, by simpa using failed⟩
  · exact ⟨target, listed, by simpa using failed⟩
  · simpa using failed

theorem suffers_of_tlsRequirements :
    ∀ r ∈ rule.tlsRequirements, r.holds = false → rule.Suffers r.fault := by
  rw [tlsRequirements]
  split
  next tls =>
    rw [isTls_iff] at tls
    simp only [List.forall_mem_cons, List.not_mem_nil, false_imp_iff, implies_true, and_true,
      Suffers, tls, true_and, ← Bool.not_eq_true, isGiven_iff, absentOr_eq_true, isOneLine_iff]
    push Not
    simp
  next plain =>
    rw [isTls_iff] at plain
    simp only [List.forall_mem_cons, List.not_mem_nil, false_imp_iff, implies_true, and_true,
      Suffers, plain, not_false_eq_true, true_and, isGiven_iff, Bool.and_eq_false_iff,
      Bool.not_eq_false', imp_self]

theorem suffers_of_headers (side : HeaderSide) :
    ∀ r ∈ (rule.headersOf side).requirements side, r.holds = false → rule.Suffers r.fault := by
  simp only [HeaderMap.requirements, List.forall_mem_flatMap, List.forall_mem_cons,
    List.not_mem_nil, false_imp_iff, implies_true, and_true, Suffers, ← Bool.not_eq_true,
    isHeaderName_iff, isOneLine_iff]
  rintro ⟨name, value⟩ listed
  exact ⟨fun failed => ⟨value, listed, failed⟩, fun failed => ⟨_, listed, failed⟩⟩

theorem suffers_of_healthCheck {check : HealthCheck} (given : check ∈ rule.healthCheck) :
    ∀ r ∈ check.requirements, r.holds = false → rule.Suffers r.fault := by
  simp only [HealthCheck.requirements, List.forall_mem_append, List.forall_mem_cons,
    List.forall_mem_map, List.not_mem_nil, false_imp_iff, implies_true, and_true, Suffers,
    ← Bool.not_eq_true, isSafePath_iff, Bool.not_eq_true', bne_iff_ne, not_not,
    List.isEmpty_iff, Bool.and_eq_true, decide_eq_true_iff]
  refine ⟨⟨?_, ?_, ?_, ?_, ?_⟩, fun code listed failed => ⟨check, given, listed, failed⟩⟩
  all_goals exact fun failed => ⟨check, given, failed⟩

theorem suffers_of_advanced {settings : AdvancedConfig} (given : settings ∈ rule.advanced) :
    ∀ r ∈ settings.requirements, r.holds = false → rule.Suffers r.fault := by
  have timeout (which : ProxyTimeout)
      (failed : absentOr (· != 0) (settings.timeoutOf which) = false) :
      rule.Suffers (.timeout which) := by
    obtain ⟨n, set, nought⟩ := absentOr_eq_false.1 failed
    exact ⟨settings, given, by simpa [show n = 0 by simpa using nought] using set⟩
  have size (which : SizeSetting) (failed : absentOr isSize (settings.sizeOf which) = false) :
      rule.Suffers (.size which ((settings.sizeOf which).getD "")) := by
    obtain ⟨text, set, malformed⟩ := absentOr_eq_false.1 failed
    rw [Option.mem_def] at set
    rw [← Bool.not_eq_true, isSize_iff] at malformed
    rw [set]
    exact ⟨settings, given, set, malformed⟩
  have text (which : CorsText)
      (failed : absentOr (fun cors => isOneLine (cors.textOf which)) settings.cors = false) :
      rule.Suffers (.corsBreaksLine which) := by
    obtain ⟨cors, set, broken⟩ := absentOr_eq_false.1 failed
    rw [← Bool.not_eq_true, isOneLine_iff] at broken
    exact ⟨settings, given, cors, set, broken⟩
  simp only [AdvancedConfig.requirements, List.forall_mem_append, List.forall_mem_cons,
    forall_mem_flatten_mapIdx, RewriteRule.requirements, List.not_mem_nil, false_imp_iff,
    implies_true, and_true]
  refine ⟨⟨timeout .connect, timeout .send, timeout .read, size .proxyBuffer, size .clientMaxBody,
    fun failed => ?_, fun failed => ?_, text .origin, text .methods, text .headers,
    fun failed => ?_⟩, fun i rewrite listed =>
    ⟨fun failed => ?_, fun failed => ?_, fun failed => ?_⟩⟩
  · obtain ⟨buffers, set, wrong⟩ := absentOr_eq_false.1 failed
    exact ⟨settings, given, buffers, set, by simpa [← isSize_iff, imp_iff_not_or] using wrong⟩
  · obtain ⟨cache, set, wrong⟩ := absentOr_eq_false.1 failed
    exact ⟨settings, given, cache, set, by simpa using wrong⟩
  · obtain ⟨limit, set, wrong⟩ := absentOr_eq_false.1 failed
    exact ⟨settings, given, limit, set, by simpa using wrong⟩
  · exact ⟨settings, given, rewrite, listed, by simpa [imp_iff_not_or] using failed⟩
  · rw [← Bool.not_eq_true, isOneLine_iff] at failed
    exact ⟨settings, given, rewrite, listed, fun lines => failed lines.1⟩
  · rw [← Bool.not_eq_true, isOneLine_iff] at failed
    exact ⟨settings, given, rewrite, listed, fun lines => failed lines.2⟩

/-- The fault of a requirement that fails is real. -/
theorem suffers_of_fails :
    ∀ r ∈ rule.requirements, r.holds = false → rule.Suffers r.fault := by
  have healthCheck : ∀ r ∈ rule.healthCheck.elim [] HealthCheck.requirements,
      r.holds = false → rule.Suffers r.fault := by
    cases given : rule.healthCheck with
    | none => simp
    | some check => exact suffers_of_healthCheck given
  have advanced : ∀ r ∈ rule.advanced.elim [] AdvancedConfig.requirements,
      r.holds = false → rule.Suffers r.fault := by
    cases given : rule.advanced with
    | none => simp
    | some settings => exact suffers_of_advanced given
  simp only [requirements, List.forall_mem_append, List.forall_mem_cons, List.not_mem_nil,
    false_imp_iff, implies_true, and_true]
  refine ⟨⟨⟨⟨⟨⟨⟨?_, ?_, ?_, ?_, ?_⟩, suffers_of_targetRequirements⟩, suffers_of_tlsRequirements⟩,
    suffers_of_headers .request⟩, suffers_of_headers .response⟩, healthCheck⟩, advanced⟩
  · simp [Suffers, ← isRuleId_iff]
  · simp [Suffers, ← isOneLine_iff]
  · simp [Suffers, ← isSafeName_iff]
  · simp [Suffers, ← isDomain_iff]
  · simp [Suffers, ← isSafePath_iff]

/-- The faults are the ways in which a rule is not as specified. -/
theorem isSpecified_iff_not_suffers :
    rule.IsSpecified ↔ ∀ fault, ¬ rule.Suffers fault := by
  constructor
  · intro spec fault
    have listed {α : Type} {as : List α} {i : Nat} {a : α} (at_i : as[i]? = some a) : a ∈ as :=
      List.mem_of_getElem? at_i
    cases fault with
    | id => exact fun bad => bad spec.id
    | nameBreaksLine => exact fun bad => bad spec.name
    | sourceHost => exact fun bad => spec.sourceHost.elim bad.1 bad.2
    | domain => exact fun bad => spec.domain.elim bad.1 bad.2
    | sourcePath => exact fun bad => spec.sourcePath.elim bad.1 bad.2
    | noTarget => exact fun bad => spec.target.some_target.elim (· bad.1) fun single =>
        bad.2.elim single.1 single.2
    | targetContainer => exact fun bad => spec.target.targetContainer.elim bad.1 bad.2
    | balancedContainer i =>
      exact fun ⟨target, at_i, bad⟩ => bad (spec.target.targets target (listed at_i)).container
    | balancedPort i =>
      exact fun ⟨target, at_i, bad⟩ => (spec.target.targets target (listed at_i)).port bad
    | balancedWeight i =>
      exact fun ⟨target, at_i, bad⟩ => (spec.target.targets target (listed at_i)).weight bad
    | ipHashOverTcp => exact spec.target.method
    | tlsOverTcp => exact fun bad => spec.tls.protocol bad.1 bad.2
    | certificateMissing =>
      rintro ⟨tls, bad⟩
      obtain ⟨path, given, some_path, -⟩ := spec.tls.certificate tls
      exact some_path (bad path given)
    | keyMissing =>
      rintro ⟨tls, bad⟩
      obtain ⟨path, given, some_path, -⟩ := spec.tls.key tls
      exact some_path (bad path given)
    | certificateBreaksLine =>
      rintro ⟨tls, path, given, bad⟩
      obtain ⟨path', given', -, line⟩ := spec.tls.certificate tls
      exact bad (Option.mem_unique given' given ▸ line)
    | keyBreaksLine =>
      rintro ⟨tls, path, given, bad⟩
      obtain ⟨path', given', -, line⟩ := spec.tls.key tls
      exact bad (Option.mem_unique given' given ▸ line)
    | certificateWithoutTls =>
      rintro ⟨plain, ⟨path, given, bad⟩ | ⟨path, given, bad⟩⟩
      · exact bad ((spec.tls.neither plain).1 path given)
      · exact bad ((spec.tls.neither plain).2 path given)
    | headerName side name =>
      rintro ⟨value, listed, bad⟩
      cases side with
      | request => exact bad (spec.headers _ listed).1
      | response => exact bad (spec.responseHeaders _ listed).1
    | headerBreaksLine side =>
      rintro ⟨header, listed, bad⟩
      cases side with
      | request => exact bad (spec.headers _ listed).2
      | response => exact bad (spec.responseHeaders _ listed).2
    | healthPath => exact fun ⟨check, given, bad⟩ => bad (spec.healthCheck check given).path
    | healthInterval => exact fun ⟨check, given, bad⟩ => (spec.healthCheck check given).interval bad
    | healthTimeout => exact fun ⟨check, given, bad⟩ => (spec.healthCheck check given).timeout bad
    | healthRetries => exact fun ⟨check, given, bad⟩ => (spec.healthCheck check given).retries bad
    | noSuccessCode =>
      exact fun ⟨check, given, bad⟩ => (spec.healthCheck check given).some_code bad
    | successCode code =>
      exact fun ⟨check, given, listed, bad⟩ =>
        bad ((spec.healthCheck check given).successCodes code listed)
    | timeout which =>
      rintro ⟨settings, given, bad⟩
      have advanced := spec.advanced settings given
      cases which with
      | connect => exact advanced.proxyConnectTimeout bad
      | send => exact advanced.proxySendTimeout bad
      | read => exact advanced.proxyReadTimeout bad
    | size which text =>
      rintro ⟨settings, given, set, bad⟩
      have advanced := spec.advanced settings given
      cases which with
      | proxyBuffer => exact bad (advanced.proxyBufferSize text set)
      | clientMaxBody => exact bad (advanced.clientMaxBodySize text set)
    | buffers =>
      rintro ⟨settings, given, buffers, set, bad⟩
      have good := (spec.advanced settings given).proxyBuffers buffers set
      exact bad.elim good.1 fun malformed => malformed good.2
    | cacheDuration =>
      rintro ⟨settings, given, cache, set, enabled, bad⟩
      exact (spec.advanced settings given).cache cache set enabled bad
    | corsBreaksLine which =>
      rintro ⟨settings, given, cors, set, bad⟩
      have advanced := spec.advanced settings given
      cases which with
      | origin => exact bad (advanced.allowOrigin cors set)
      | methods => exact bad (advanced.allowMethods cors set)
      | headers => exact bad (advanced.allowHeaders cors set)
    | requestRate =>
      rintro ⟨settings, given, limit, set, enabled, bad⟩
      exact (spec.advanced settings given).rateLimit limit set enabled bad
    | rewriteEmpty i =>
      rintro ⟨settings, given, rewrite, at_i, bad⟩
      have good := (spec.advanced settings given).rewriteRules rewrite (listed at_i)
      exact bad.elim good.some_text.1 good.some_text.2
    | rewriteBreaksLine i =>
      rintro ⟨settings, given, rewrite, at_i, bad⟩
      have good := (spec.advanced settings given).rewriteRules rewrite (listed at_i)
      exact bad ⟨good.pattern, good.replacement⟩
  · intro sound
    refine isSpecified_iff_holds.2 fun r listed => ?_
    by_contra failed
    exact sound r.fault (suffers_of_fails r listed (Bool.not_eq_true _ ▸ failed))

/-- Validation accepts exactly the specified rules, and of any other one it names a field and says
of it what is wrong with the rule. -/
theorem validate_specified (rule : Rule) :
    (rule.validate = .ok () ↔ rule.IsSpecified) ∧
      ∀ error, rule.validate = .error error →
        ∃ fault, rule.Suffers fault ∧ error = .validation rule.id fault.field fault.reason := by
  constructor
  · exact validate_eq_ok_iff_isSpecified
  · intro error refused
    rw [validate, fault?] at refused
    cases failing : rule.requirements.find? (!·.holds) with
    | none => simp [failing] at refused
    | some r =>
      have failed : r.holds = false := by simpa using List.find?_some failing
      refine ⟨r.fault, suffers_of_fails r (List.mem_of_find?_eq_some failing) failed, ?_⟩
      simp only [failing, Option.map_some, Except.error.injEq] at refused
      exact refused.symm

/-- A rule that asks for TLS on plain connections, and would lack its key too. -/
def securedStream : Rule where
  id := "db"
  targetContainer := "db"
  targetPort := 5432
  protocol := .tcp
  sslEnabled := true
  created := .epoch

theorem validate_specified_securedStream :
    securedStream.validate = .error (.validation "db" "ssl_enabled"
        "tls termination is not supported for tcp rules") ∧
      (securedStream.validate = .ok () ↔ securedStream.IsSpecified) ∧
      ∃ fault, securedStream.Suffers fault ∧
        .validation "db" "ssl_enabled" "tls termination is not supported for tcp rules" =
          OperationError.validation securedStream.id fault.field fault.reason :=
  have refused : securedStream.validate = .error (.validation "db" "ssl_enabled"
      "tls termination is not supported for tcp rules") := by rfl
  ⟨refused, (validate_specified securedStream).1, (validate_specified securedStream).2 _ refused⟩

end Rule

end ProxyKeeper
