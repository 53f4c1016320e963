import Mathlib.Tactic.Common
import ProxyKeeper.Error
import ProxyKeeper.Manager

/-!
# What validity gives

A valid rule meets each of its requirements, and a valid configuration each of its checks. Proofs
about valid rules go through the facts of this module, one for each part of a rule, and do not open
the list of requirements again.

## Main Results

* `Rule.holds_of_validate`, `ManagerConfig.holds_of_validate` — every requirement is met
* `Rule.isRuleId_of_validate` and the facts after it — what that says of each part
-/

namespace ProxyKeeper

namespace Rule

variable {rule : Rule}

/-- Validation passes exactly the valid rules. -/
theorem validate_eq_ok_iff : rule.validate = .ok () ↔ rule.isValid = true := by
  rw [validate, isValid]
  cases rule.fault? with
  | none => simp
  | some fault => simp

/-- A rule that passed validation meets all its requirements. -/
theorem holds_of_validate (valid : rule.validate = .ok ()) (r : Requirement)
    (hr : r ∈ rule.requirements) : r.holds = true :=
  isValid_iff.1 (validate_eq_ok_iff.1 valid) r hr

theorem isRuleId_of_validate (valid : rule.validate = .ok ()) : isRuleId rule.id = true :=
  holds_of_validate valid ⟨isRuleId rule.id, .id⟩ (by simp [requirements])

/-- The title stays on its line. -/
theorem isOneLine_name_of_validate (valid : rule.validate = .ok ()) :
    isOneLine rule.name = true :=
  holds_of_validate valid ⟨isOneLine rule.name, .nameBreaksLine⟩ (by simp [requirements])

theorem sourceHost_of_validate (valid : rule.validate = .ok ()) :
    rule.sourceHost.isEmpty = true ∨ isSafeName rule.sourceHost = true := by
  have met := holds_of_validate valid
    ⟨rule.sourceHost.isEmpty || isSafeName rule.sourceHost, .sourceHost⟩ (by simp [requirements])
  exact Bool.or_eq_true_iff.1 met

theorem domain_of_validate (valid : rule.validate = .ok ()) :
    rule.domain.isEmpty = true ∨ isDomain rule.domain = true := by
  have met := holds_of_validate valid
    ⟨rule.domain.isEmpty || isDomain rule.domain, .domain⟩ (by simp [requirements])
  exact Bool.or_eq_true_iff.1 met

theorem sourcePath_of_validate (valid : rule.validate = .ok ()) :
    rule.sourcePath.isEmpty = true ∨ isSafePath rule.sourcePath = true := by
  have met := holds_of_validate valid
    ⟨rule.sourcePath.isEmpty || isSafePath rule.sourcePath, .sourcePath⟩ (by simp [requirements])
  exact Bool.or_eq_true_iff.1 met

/-- A valid rule says where its requests go. -/
theorem hasTarget_of_validate (valid : rule.validate = .ok ()) :
    rule.usesUpstream = true ∨ rule.hasSingleTarget = true := by
  have met := holds_of_validate valid ⟨!rule.targets.isEmpty || rule.hasSingleTarget, .noTarget⟩
    (by simp [requirements, targetRequirements])
  exact Bool.or_eq_true_iff.1 met

theorem targetContainer_of_validate (valid : rule.validate = .ok ()) :
    rule.targetContainer.isEmpty = true ∨ isSafeName rule.targetContainer = true := by
  have met := holds_of_validate valid
    ⟨rule.targetContainer.isEmpty || isSafeName rule.targetContainer, .targetContainer⟩
    (by simp [requirements, targetRequirements])
  exact Bool.or_eq_true_iff.1 met

/-- Each of several containers has a safe name. -/
theorem isSafeName_of_mem_targets (valid : rule.validate = .ok ()) {target : LoadBalancingTarget}
    (listed : target ∈ rule.targets) : isSafeName target.container = true := by
  obtain ⟨i, inside, rfl⟩ := List.mem_iff_getElem.1 listed
  refine holds_of_validate valid ⟨_, .balancedContainer i⟩ ?_
  have block : LoadBalancingTarget.requirements i rule.targets[i] ∈
      rule.targets.mapIdx LoadBalancingTarget.requirements :=
    List.mem_mapIdx.2 ⟨i, inside, rfl⟩
  have inBlock := List.mem_flatten_of_mem block (List.mem_cons_self ..)
  simp only [requirements, targetRequirements, List.mem_append]
  tauto

/-- Only requests are spread by the addresses of their clients. -/
theorem method_ne_ipHash_of_validate (valid : rule.validate = .ok ())
    (stream : rule.context = .stream) : rule.method ≠ .ipHash := by
  have met := holds_of_validate valid ⟨!(rule.protocol == .tcp && rule.method == .ipHash),
    .ipHashOverTcp⟩ (by simp [requirements, targetRequirements])
  have tcp : rule.protocol = .tcp := by
    rw [context] at stream
    cases protocol : rule.protocol <;> simp [protocol] at stream
    rfl
  rintro chosen
  simp [tcp, chosen] at met

/-- A rule with TLS has a certificate and a key. -/
theorem paths_of_validate (valid : rule.validate = .ok ()) (tls : rule.isTls = true) :
    rule.sslCertPath.isSome = true ∧ rule.sslKeyPath.isSome = true := by
  have certificate := holds_of_validate valid ⟨isGiven rule.sslCertPath, .certificateMissing⟩
    (by simp [requirements, tlsRequirements, tls])
  have key := holds_of_validate valid ⟨isGiven rule.sslKeyPath, .keyMissing⟩
    (by simp [requirements, tlsRequirements, tls])
  constructor
  · cases given : rule.sslCertPath with
    | none => simp [given, isGiven, absentOr] at certificate
    | some path => rfl
  · cases given : rule.sslKeyPath with
    | none => simp [given, isGiven, absentOr] at key
    | some path => rfl

theorem isHeaderName_of_mem_headers (valid : rule.validate = .ok ()) {name value : String}
    (listed : (name, value) ∈ rule.headers.entries) : isHeaderName name = true := by
  refine holds_of_validate valid ⟨isHeaderName name, .headerName .request name⟩ ?_
  have required : (⟨isHeaderName name, .headerName .request name⟩ : Requirement) ∈
      rule.headers.requirements .request :=
    List.mem_flatMap.2 ⟨_, listed, by simp⟩
  simp only [requirements, List.mem_append]
  tauto

theorem isHeaderName_of_mem_responseHeaders (valid : rule.validate = .ok ())
    {name value : String} (listed : (name, value) ∈ rule.responseHeaders.entries) :
    isHeaderName name = true := by
  refine holds_of_validate valid ⟨isHeaderName name, .headerName .response name⟩ ?_
  have required : (⟨isHeaderName name, .headerName .response name⟩ : Requirement) ∈
      rule.responseHeaders.requirements .response :=
    List.mem_flatMap.2 ⟨_, listed, by simp⟩
  simp only [requirements, List.mem_append]
  tauto

theorem isSafePath_of_healthCheck (valid : rule.validate = .ok ()) {check : HealthCheck}
    (given : rule.healthCheck = some check) : isSafePath check.path = true := by
  refine holds_of_validate valid ⟨isSafePath check.path, .healthPath⟩ ?_
  simp [requirements, given, HealthCheck.requirements]

/-- What is asked of the settings is asked of the rule. -/
theorem mem_requirements_of_advanced {settings : AdvancedConfig}
    (given : rule.advanced = some settings) {r : Requirement} (hr : r ∈ settings.requirements) :
    r ∈ rule.requirements := by
  rw [requirements, given]
  exact List.mem_append_right _ hr

theorem isSize_of_clientMaxBodySize (valid : rule.validate = .ok ()) {settings : AdvancedConfig}
    (given : rule.advanced = some settings) {size : String}
    (set : settings.clientMaxBodySize = some size) : isSize size = true := by
  refine holds_of_validate valid ⟨isSize size, .size .clientMaxBody size⟩ ?_
  refine mem_requirements_of_advanced given ?_
  simp [AdvancedConfig.requirements, set, absentOr]

theorem isSize_of_proxyBufferSize (valid : rule.validate = .ok ()) {settings : AdvancedConfig}
    (given : rule.advanced = some settings) {size : String}
    (set : settings.proxyBufferSize = some size) : isSize size = true := by
  refine holds_of_validate valid ⟨isSize size, .size .proxyBuffer size⟩ ?_
  refine mem_requirements_of_advanced given ?_
  simp [AdvancedConfig.requirements, set, absentOr]

theorem isSize_of_proxyBuffers (valid : rule.validate = .ok ()) {settings : AdvancedConfig}
    (given : rule.advanced = some settings) {buffers : ProxyBuffers}
    (set : settings.proxyBuffers = some buffers) : isSize buffers.size = true := by
  have met := holds_of_validate valid ⟨buffers.number != 0 && isSize buffers.size, .buffers⟩
    (mem_requirements_of_advanced given (by simp [AdvancedConfig.requirements, set, absentOr]))
  exact (Bool.and_eq_true_iff.1 met).2

/-- A valid rule has a port it could listen on, for every one that names several containers names a
first one. -/
theorem exists_listenPort_of_validate (valid : rule.validate = .ok ()) :
    ∃ port, rule.listenPort? = some port := by
  rw [listenPort?]
  split_ifs with single
  · exact ⟨_, rfl⟩
  · rcases hasTarget_of_validate valid with several | single'
    · rw [usesUpstream] at several
      cases listed : rule.targets with
      | nil => simp [listed] at several
      | cons target targets => exact ⟨target.port, rfl⟩
    · rw [hasSingleTarget, Bool.and_eq_true] at single'
      exact absurd single'.2 single

/-- The document of a valid rule, by its context. -/
theorem document_of_validate (valid : rule.validate = .ok ()) (options : RenderOptions) :
    rule.context = .http ∧ rule.document options = .ok (rule.titleNode :: rule.httpNodes options) ∨
      rule.context = .stream ∧ ∃ port, rule.listenPort? = some port ∧
        rule.document options = .ok (rule.titleNode :: rule.streamNodes options port) := by
  obtain ⟨port, listens⟩ := exists_listenPort_of_validate valid
  have target : (!rule.usesUpstream && !rule.hasSingleTarget) = false := by
    rcases hasTarget_of_validate valid with h | h <;> simp [h]
  rw [document, if_neg (by simp [target]), context]
  cases rule.protocol with
  | http => exact .inl ⟨rfl, rfl⟩
  | https => exact .inl ⟨rfl, rfl⟩
  | tcp =>
    refine .inr ⟨rfl, port, listens, ?_⟩
    simp only [listens]

/-- What the document of a valid rule is, by its context. -/
theorem eq_of_document (valid : rule.validate = .ok ()) {options : RenderOptions}
    {document : Nginx.Document} (made : rule.document options = .ok document) :
    rule.context = .http ∧ document = rule.titleNode :: rule.httpNodes options ∨
      rule.context = .stream ∧ ∃ port, rule.listenPort? = some port ∧
        document = rule.titleNode :: rule.streamNodes options port := by
  rcases document_of_validate valid options with ⟨context, http⟩ | ⟨context, port, listens, stream⟩
  · exact .inl ⟨context, Except.ok.inj (made.symm.trans http)⟩
  · exact .inr ⟨context, port, listens, Except.ok.inj (made.symm.trans stream)⟩

/-- A valid rule is compiled, to the text of its document. -/
theorem exists_document_of_validate (valid : rule.validate = .ok ()) (options : RenderOptions) :
    ∃ document, rule.document options = .ok document ∧
      rule.compile options = .ok document.render := by
  have some_document : ∃ document, rule.document options = .ok document := by
    rcases document_of_validate valid options with ⟨_, made⟩ | ⟨_, _, _, made⟩
    · exact ⟨_, made⟩
    · exact ⟨_, made⟩
  obtain ⟨document, made⟩ := some_document
  refine ⟨document, made, ?_⟩
  rw [compile, render, made]
  rfl

end Rule

namespace ManagerConfig

variable {config : ManagerConfig}

/-- A configuration that passed validation meets all its checks. -/
theorem holds_of_validate (valid : config.validate = .ok ()) (check : Check)
    (listed : check ∈ config.checks) : check.holds = true := by
  rw [validate] at valid
  cases failed : Check.firstFailed? config.checks with
  | none => exact Check.firstFailed?_eq_none_iff.1 failed check listed
  | some check => simp [failed] at valid

theorem activeDir_ne_empty (valid : config.validate = .ok ()) : config.activeDir.text ≠ "" := by
  have given := holds_of_validate valid (pathCheck "active_dir" config.activeDir) (by simp [checks])
  simpa [pathCheck] using given

theorem isIdentifier_cacheZone (valid : config.validate = .ok ()) :
    isIdentifier config.cacheZone = true :=
  holds_of_validate valid (nameCheck "cache_zone" config.cacheZone) (by simp [checks])

theorem isIdentifier_rateLimitZone (valid : config.validate = .ok ()) :
    isIdentifier config.rateLimitZone = true :=
  holds_of_validate valid (nameCheck "rate_limit_zone" config.rateLimitZone) (by simp [checks])

theorem isIdentifier_upstreamStem (valid : config.validate = .ok ()) :
    isIdentifier config.upstreamStem = true :=
  holds_of_validate valid (nameCheck "upstream_prefix" config.upstreamStem) (by simp [checks])

end ManagerConfig

end ProxyKeeper
