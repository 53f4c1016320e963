import ProxyKeeper.Proofs.Nginx.Numbers
import ProxyKeeper.Proofs.Rule.Specified

/-!
# The numbers of a rule

Node group by node group: nginx takes every number in the document of a valid rule, wherever the
rule has it from, but for one. The burst of a rate limit is not checked, and it is nought unless it
is given; nginx refuses to load a configuration with such a limit.

## Main Definitions

* `Rule.limits` — the rate limits that the document of a rule sets

## Main Results

* `Rule.takes_document` — nginx takes the numbers of a valid rule's document, bursts left open
* `Rule.numerals_compile` — it takes them all exactly when no burst is nought
* `Rule.not_numerals_compile` — a valid rule with a burst of nought
-/

namespace ProxyKeeper

open Nginx

/-- The rate limits that the document of a rule sets. -/
def Rule.limits (rule : Rule) : List RateLimit :=
  match rule.context with
  | .http => rule.rateLimit?.toList
  | .stream => []

/-- The numerals of their bursts. -/
def burstsOf (limits : List RateLimit) : List Numeral :=
  counts "burst" "" (limits.map fun limit => toString limit.burstSize.toNat)

/-! ## Numbers that validation lets through -/

theorem admits_port {port : UInt16} (some_port : port ≠ 0) :
    Measure.port.admits port.toNat = true := by
  have positive : port.toNat ≠ 0 := fun zero => some_port (UInt16.toNat_inj.1 zero)
  have below := port.toNat_lt
  simp only [Measure.admits, Bool.and_eq_true, decide_eq_true_eq]
  omega

theorem admits_statusCode {code : UInt16} (between : 100 ≤ code ∧ code ≤ 599) :
    Measure.statusCode.admits code.toNat = true := by
  rw [Measure.admits, Bool.and_eq_true, decide_eq_true_eq, decide_eq_true_eq]
  exact between

theorem admits_count {n : Nat} : Measure.count.admits n = true ↔ n ≠ 0 := by
  rw [Measure.admits, decide_eq_true_eq, Nat.one_le_iff_ne_zero]

theorem admits_count_of_uint32 {n : UInt32} (some_number : n ≠ 0) :
    Measure.count.admits n.toNat = true :=
  admits_count.2 fun zero => some_number (UInt32.toNat_inj.1 zero)

theorem admits_count_of_uint64 {n : UInt64} (some_number : n ≠ 0) :
    Measure.count.admits n.toNat = true :=
  admits_count.2 fun zero => some_number (UInt64.toNat_inj.1 zero)

theorem isAccepted_seconds {place : String} {n : UInt64} (some_seconds : n ≠ 0) :
    (⟨place, .count, "s", seconds n⟩ : Numeral).isAccepted = true :=
  Numeral.isAccepted_append (admits_count_of_uint64 some_seconds)

/-- A directive for a number of seconds. -/
theorem takes_seconds {name : String} (timed : ∀ args, numeralsIn name args = counts name "s" args)
    {n : UInt64} (some_seconds : n ≠ 0) : Takes [.directive name [seconds n]] [] := by
  refine .directive ?_
  rw [timed]
  exact List.forall_mem_singleton.2 (isAccepted_seconds some_seconds)

/-- A timeout that is not set to nought. -/
theorem takes_timeout {name : String} (timed : ∀ args, numeralsIn name args = counts name "s" args)
    {timeout : Option UInt64} (set : timeout ≠ some 0) :
    Takes (optionalDirective name (fun n => [seconds n]) timeout) [] := by
  refine .optional fun n given => takes_seconds timed ?_
  rintro rfl
  exact set given

namespace Rule

variable {rule : Rule} {options : RenderOptions}

/-! ## Ports -/

/-- The single container of a rule without several has a port. -/
theorem targetPort_ne_zero (spec : rule.IsSpecified) (single : rule.usesUpstream = false) :
    rule.targetPort ≠ 0 := by
  rw [usesUpstream, Bool.not_eq_false', List.isEmpty_iff] at single
  exact (spec.target.some_target.resolve_left (absurd single)).2

theorem listenPort_ne_zero (spec : rule.IsSpecified) {port : UInt16}
    (listens : rule.listenPort? = some port) : port ≠ 0 := by
  rw [listenPort?] at listens
  split at listens
  next given =>
    cases listens
    exact bne_iff_ne.1 given
  next =>
    obtain ⟨target, first, rfl⟩ := Option.map_eq_some_iff.1 listens
    exact (spec.target.targets target (List.mem_of_head? first)).port

theorem accepted_address (place : String) (container : String) {port : UInt16}
    (some_port : port ≠ 0) :
    ∀ numeral ∈ ports place ([address container port].filterMap portOf?),
      numeral.isAccepted = true := by
  rw [List.filterMap_cons, portOf?_address]
  exact List.forall_mem_singleton.2 (Numeral.isAccepted_number (admits_port some_port))

/-- The name of a group of servers is no address. -/
theorem notMem_upstreamName (valid : rule.validate = .ok ())
    (stem : isIdentifier options.upstreamStem = true) {c : Char} (mark : c ∈ [':', '/']) :
    c ∉ (rule.upstreamName options).toList := by
  rw [isIdentifier, Bool.and_eq_true] at stem
  have other : isIdentifierCharacter c = false ∧ c ∉ "_".toList ∧ isIdCharacter c = false := by
    rcases List.mem_pair.1 mark with rfl | rfl <;> decide
  obtain ⟨inStem, between, inId⟩ := other
  rw [upstreamName, String.toList_append, String.toList_append, List.mem_append, List.mem_append]
  rintro ((stemmed | joined) | named)
  · rw [List.all_eq_true.1 stem.2 c stemmed] at inStem
    cases inStem
  · exact between joined
  · exact Store.notMem_of_isRuleId (isRuleId_of_validate valid) inId named

theorem slash_notMem_singleAddress (valid : rule.validate = .ok ()) :
    '/' ∉ rule.singleAddress.toList := by
  have container : '/' ∉ rule.targetContainer.toList := by
    rcases targetContainer_of_validate valid with empty | name
    · rw [String.isEmpty_iff.1 empty]
      exact List.not_mem_nil
    · rw [isSafeName, Bool.and_eq_true] at name
      intro inside
      exact absurd (List.all_eq_true.1 name.2 _ inside) (by decide)
  rw [singleAddress, address, String.toList_append, String.toList_append, List.mem_append,
    List.mem_append]
  rintro ((inContainer | colon) | digits)
  · exact container inContainer
  · exact absurd colon (by decide)
  · exact notMem_number (by decide) _ digits

/-- Where connections go is an address with a port, or the name of a group. -/
theorem accepted_streamPass (valid : rule.validate = .ok ())
    (stem : isIdentifier options.upstreamStem = true) (place : String) :
    ∀ numeral ∈ ports place ([rule.streamPass options].filterMap portOf?),
      numeral.isAccepted = true := by
  rw [streamPass]
  split
  next =>
    rw [List.filterMap_cons, portOf?_of_notMem (notMem_upstreamName valid stem (by decide))]
    exact List.forall_mem_nil _
  next single =>
    rw [needsUpstream, Bool.or_eq_true, not_or, Bool.not_eq_true] at single
    exact accepted_address place rule.targetContainer
      (targetPort_ne_zero (validate_eq_ok_iff_isSpecified.1 valid) single.1)

theorem takes_streamPass (valid : rule.validate = .ok ())
    (stem : isIdentifier options.upstreamStem = true) :
    Takes [.directive "proxy_pass" [rule.streamPass options]] [] := by
  have slash : '/' ∉ (rule.streamPass options).toList := by
    rw [streamPass]
    split
    · exact notMem_upstreamName valid stem (by decide)
    · exact slash_notMem_singleAddress valid
  refine .directive ?_
  rw [numeralsIn_proxyPass, withoutScheme_of_notMem slash]
  exact accepted_streamPass valid stem _

/-- Requests go where connections do, with a scheme in front. -/
theorem takes_httpPass (valid : rule.validate = .ok ())
    (stem : isIdentifier options.upstreamStem = true) :
    Takes [.directive "proxy_pass" [rule.httpPass options]] [] := by
  have scheme : withoutScheme (rule.httpPass options) = rule.streamPass options := by
    rw [httpPass]
    cases rule.backendHttps with
    | false => exact withoutScheme_http _
    | true => exact withoutScheme_https _
  refine .directive ?_
  rw [numeralsIn_proxyPass, scheme]
  exact accepted_streamPass valid stem _

theorem takes_streamListen (spec : rule.IsSpecified) {port : UInt16}
    (listens : rule.listenPort? = some port) :
    Takes [.directive "listen" [rule.streamListen port]] [] := by
  have bare : portOf? (toString port.toNat) = none := portOf?_of_notMem (colon_notMem_number _)
  have read : (portOf? (rule.streamListen port)).getD (rule.streamListen port) =
      toString port.toNat := by
    rw [streamListen]
    split
    · rw [bare, Option.getD_none]
    · rw [portOf?_address, Option.getD_some]
  refine .directive ?_
  rw [numeralsIn_listen, read]
  exact List.forall_mem_singleton.2
    (Numeral.isAccepted_number (admits_port (listenPort_ne_zero spec listens)))

/-! ## In front of the server -/

theorem takes_rateLimitZoneNodes (spec : rule.IsSpecified) :
    Takes (rule.rateLimitZoneNodes options) [] := by
  rw [rateLimitZoneNodes]
  cases limited : rule.rateLimit? with
  | none => exact .nil
  | some limit =>
    have rate : limit.requestsPerSecond ≠ 0 := by
      obtain ⟨given, enabled⟩ := Option.filter_eq_some_iff.1 limited
      obtain ⟨settings, advanced, given⟩ := Option.bind_eq_some_iff.1 given
      exact (spec.advanced settings advanced).rateLimit limit given enabled
    have found (zone : String) (rate : String) :
        settingsOf "rate" [setting "zone" zone, setting "rate" rate] = [rate] := by
      simp (disch := decide) only [settingsOf_cons, settingsOf_nil, String.reduceEq, if_false,
        if_true, List.nil_append, List.append_nil]
    by_cases shared : usesSharedZone limit options = true
    · simp only [shared, if_true]
      exact .nil
    · simp only [shared]
      refine .directive ?_
      rw [numeralsIn_limitReqZone, found]
      exact List.forall_mem_singleton.2
        (Numeral.isAccepted_append (admits_count_of_uint32 rate))

theorem takes_matchNodes (spec : rule.IsSpecified) : Takes rule.matchNodes [] := by
  rw [matchNodes]
  cases given : rule.healthCheck with
  | none => exact .nil
  | some check =>
    refine .block (.directive ?_)
    rw [numeralsIn_status, codes, List.map_map, List.forall_mem_map]
    intro code listed
    exact Numeral.isAccepted_number
      (admits_statusCode ((spec.healthCheck check given).successCodes code listed))

theorem takes_serverNodes (spec : rule.IsSpecified) : Takes rule.serverNodes [] := by
  rw [serverNodes]
  split
  next =>
    refine .map fun target listed => .directive ?_
    have specified := spec.target.targets target listed
    have weight (weight : String) : settingsOf "weight" [setting "weight" weight] = [weight] :=
      settingsOf_setting _ _ _
    rw [numeralsIn_server, weight, List.forall_mem_append]
    exact ⟨accepted_address _ target.container specified.port,
      List.forall_mem_singleton.2
        (Numeral.isAccepted_number (admits_count_of_uint32 specified.weight))⟩
  next single =>
    refine .directive ?_
    rw [numeralsIn_server, List.forall_mem_append]
    exact ⟨accepted_address _ rule.targetContainer
      (targetPort_ne_zero spec (Bool.eq_false_iff.2 single)), List.forall_mem_nil _⟩

theorem takes_upstreamNodes (spec : rule.IsSpecified) : Takes (rule.upstreamNodes options) [] := by
  have zone : Takes (if rule.healthCheck.isSome
      then [.directive "zone" [rule.upstreamName options, "64k"]] else []) [] := by
    split
    · exact .plain rfl
    · exact .nil
  have method : Takes (methodNodes rule.method) [] := by
    cases rule.method with
    | roundRobin => exact .nil
    | leastConnections => exact .plain rfl
    | ipHash => exact .plain rfl
  rw [upstreamNodes]
  split
  · exact .block ((zone.append_left method).append_left (takes_serverNodes spec))
  · exact .nil

/-! ## The server of an HTTP rule -/

theorem takes_listenNodes (rule : Rule) : Takes rule.listenNodes [] := by
  have listen : Takes [.directive "listen" (if rule.isTls then ["443", "ssl"] else ["80"])] [] := by
    split <;> exact .directive (by decide)
  have server : Takes [.directive "server_name" [rule.serverName]] [] := .plain rfl
  have paths : Takes
      (if rule.isTls then
        optionalDirective "ssl_certificate" (fun path => [path]) rule.sslCertPath ++
          optionalDirective "ssl_certificate_key" (fun path => [path]) rule.sslKeyPath
      else []) [] := by
    split
    · exact (Takes.optional fun _ _ => .plain rfl).append_left (.optional fun _ _ => .plain rfl)
    · exact .nil
  exact listen.append_left (server.append_left paths)

theorem takes_bufferNodes (spec : rule.IsSpecified) :
    Takes (rule.advanced.elim [] bufferNodes) [] := by
  cases given : rule.advanced with
  | none => exact .nil
  | some settings =>
    refine ((Takes.optional fun _ _ => .plain rfl).append_left
      (.optional fun _ _ => .plain rfl)).append_left (.optional fun buffers set => .directive ?_)
    have number := ((spec.advanced settings given).proxyBuffers buffers set).1
    exact List.forall_mem_singleton.2 (Numeral.isAccepted_number (admits_count_of_uint32 number))

theorem takes_timeoutNodes {settings : AdvancedConfig} (spec : settings.IsSpecified) :
    Takes (timeoutNodes settings) [] :=
  ((takes_timeout (fun _ => rfl) spec.proxyConnectTimeout).append_left
    (takes_timeout (fun _ => rfl) spec.proxySendTimeout)).append_left
      (takes_timeout (fun _ => rfl) spec.proxyReadTimeout)

theorem takes_cacheNodes {settings : AdvancedConfig} (spec : settings.IsSpecified) :
    Takes (cacheNodes options settings) [] := by
  rw [cacheNodes]
  cases cached : settings.cache.filter (·.enabled) with
  | none => exact .nil
  | some cache =>
    obtain ⟨given, enabled⟩ := Option.filter_eq_some_iff.1 cached
    have zone : Takes [.directive "proxy_cache" [options.cacheZone]] [] := .plain rfl
    have times : Takes
        [.directive "proxy_cache_valid" ["200", "302", seconds cache.duration]] [] := by
      have listed : ∀ numeral ∈ codes "proxy_cache_valid" ["200", "302"],
          numeral.isAccepted = true := by decide
      exact .directive (List.forall_mem_append.2 ⟨listed,
        List.forall_mem_singleton.2 (isAccepted_seconds (spec.cache cache given enabled))⟩)
    exact zone.append_left times

theorem takes_corsNodes (settings : AdvancedConfig) : Takes (corsNodes settings) [] := by
  rw [corsNodes]
  cases settings.cors.filter (·.enabled) with
  | none => exact .nil
  | some cors =>
    have answer (field value : String) :
        Takes [.directive "add_header" [field, value, "always"]] [] := .plain rfl
    have credentials : Takes (if cors.allowCredentials then
        [.directive "add_header" ["Access-Control-Allow-Credentials", "true", "always"]]
        else []) [] := by
      split
      · exact answer _ _
      · exact .nil
    have preflight : Takes [.block "if" ["($request_method", "=", "OPTIONS)"]
        [.directive "return" ["204"]]] [] :=
      .block (.directive (by decide))
    have allowed := (answer "Access-Control-Allow-Origin" cors.allowOrigin).append_left
      ((answer "Access-Control-Allow-Methods" cors.allowMethods).append_left
        (answer "Access-Control-Allow-Headers" cors.allowHeaders))
    exact (allowed.append_left credentials).append_left preflight

/-- Nothing is known of the burst of a rate limit. -/
theorem takes_limitNodes (rule : Rule) (options : RenderOptions) :
    Takes (rule.limitNodes options) (burstsOf rule.rateLimit?.toList) := by
  rw [limitNodes]
  cases rule.rateLimit? with
  | none => exact .nil
  | some limit =>
    have found (zone burst : String) (delay : Bool) :
        settingsOf "burst" ([setting "zone" zone, setting "burst" burst] ++
          if delay then ["nodelay"] else []) = [burst] := by
      have others : settingsOf "burst" (if delay then ["nodelay"] else []) = [] := by
        cases delay <;> decide
      simp (disch := decide) only [settingsOf_append, others, settingsOf_cons, settingsOf_nil,
        String.reduceEq, if_false, if_true, List.nil_append, List.append_nil]
    refine .unchecked ?_
    rw [numeralsIn_limitReq, found]
    rfl

theorem takes_rewriteNodes (settings : AdvancedConfig) : Takes (rewriteNodes settings) [] :=
  .map fun _ _ => .plain rfl

/-- The probe of a health check, with settings around those that it has in all documents. -/
theorem takes_probe {check : HealthCheck} (spec : check.IsSpecified) (front back : List String)
    (apart : ∀ name ∈ ["interval", "fails", "passes"],
      settingsOf name front = [] ∧ settingsOf name back = []) :
    Takes [.directive "health_check" (front ++
      [setting "interval" (seconds check.interval),
       setting "fails" (toString check.retries.toNat), "passes=1"] ++ back)] [] := by
  have inside (name : String) (listed : name ∈ ["interval", "fails", "passes"]) :
      settingsOf name (front ++ [setting "interval" (seconds check.interval),
        setting "fails" (toString check.retries.toNat), "passes=1"] ++ back) =
      settingsOf name [setting "interval" (seconds check.interval),
        setting "fails" (toString check.retries.toNat), setting "passes" "1"] := by
    rw [settingsOf_append, settingsOf_append, (apart name listed).1, (apart name listed).2,
      List.nil_append, List.append_nil]
    rfl
  refine .directive ?_
  rw [numeralsIn_healthCheck, inside _ (by decide), inside _ (by decide), inside _ (by decide)]
  simp (disch := decide) only [settingsOf_cons, settingsOf_nil, String.reduceEq, if_false, if_true,
    List.nil_append, List.append_nil, List.forall_mem_append]
  refine ⟨⟨?_, ?_⟩, by decide⟩
  · exact List.forall_mem_singleton.2 (isAccepted_seconds spec.interval)
  · exact List.forall_mem_singleton.2
      (Numeral.isAccepted_number (admits_count_of_uint32 spec.retries))

theorem takes_healthNodes (spec : rule.IsSpecified) : Takes rule.healthNodes [] := by
  rw [healthNodes]
  cases given : rule.healthCheck with
  | none => exact .nil
  | some check =>
    have specified := spec.healthCheck check given
    have apart : ∀ name ∈ ["interval", "fails", "passes"],
        settingsOf name [setting "uri" check.path] = [] ∧
          settingsOf name [setting "match" rule.matchName] = [] := by
      simp (disch := decide) [settingsOf_cons, settingsOf_nil]
    have probe := takes_probe specified _ _ apart
    have timeout {name : String} (timed : ∀ args, numeralsIn name args = counts name "s" args)
        (own : Bool) :
        Takes (if own then [] else [.directive name [seconds check.timeout]]) [] := by
      split
      · exact .nil
      · exact takes_seconds timed specified.timeout
    exact (probe.append_left (timeout (fun _ => rfl) _)).append_left (timeout (fun _ => rfl) _)

/-- The headers of one side hold no numerals. -/
theorem takes_headers (name : String) (none : ∀ args, numeralsIn name args = [])
    (headers : HeaderMap) :
    Takes (headers.entries.map fun (field, value) => .directive name [field, value]) [] :=
  .map fun _ _ => .plain (none _)

theorem takes_locationNodes (valid : rule.validate = .ok ())
    (stem : isIdentifier options.upstreamStem = true) :
    Takes (rule.locationNodes options) (burstsOf rule.rateLimit?.toList) := by
  have spec := validate_eq_ok_iff_isSpecified.1 valid
  have settings : Takes
      (rule.advanced.elim [] fun settings =>
        timeoutNodes settings ++ cacheNodes options settings ++ corsNodes settings) [] := by
    cases given : rule.advanced with
    | none => exact .nil
    | some settings =>
      have specified := spec.advanced settings given
      exact ((takes_timeoutNodes specified).append_left (takes_cacheNodes specified)).append_left
        (takes_corsNodes settings)
  have rewrites : Takes (rule.advanced.elim [] rewriteNodes) [] := by
    cases rule.advanced with
    | none => exact .nil
    | some settings => exact takes_rewriteNodes settings
  -- the order is that of the directives in the location
  have front := (((takes_httpPass valid stem).append_left
    (takes_headers "proxy_set_header" (fun _ => rfl) rule.headers)).append_left
      (takes_headers "add_header" (fun _ => rfl) rule.responseHeaders)).append_left settings
  exact ((front.append_left (takes_limitNodes rule options)).append_right rewrites).append_right
    (takes_healthNodes spec)

/-! ## The document of a rule -/

theorem takes_httpNodes (valid : rule.validate = .ok ())
    (stem : isIdentifier options.upstreamStem = true) :
    Takes (rule.httpNodes options) (burstsOf rule.rateLimit?.toList) := by
  have spec := validate_eq_ok_iff_isSpecified.1 valid
  have front : Takes (rule.rateLimitZoneNodes options ++ rule.matchNodes ++
      rule.upstreamNodes options) [] :=
    ((takes_rateLimitZoneNodes spec).append_left (takes_matchNodes spec)).append_left
      (takes_upstreamNodes spec)
  have location : Takes [.block "location" [rule.effectivePath] (rule.locationNodes options)]
      (burstsOf rule.rateLimit?.toList) :=
    .block (takes_locationNodes valid stem)
  have server :=
    ((takes_listenNodes rule).append_left (takes_bufferNodes spec)).append_left location
  exact front.append_left (Takes.blank.append_left server.block)

theorem takes_streamNodes (valid : rule.validate = .ok ())
    (stem : isIdentifier options.upstreamStem = true) {port : UInt16}
    (listens : rule.listenPort? = some port) : Takes (rule.streamNodes options port) [] := by
  have spec := validate_eq_ok_iff_isSpecified.1 valid
  have timeouts : Takes (rule.advanced.elim [] streamTimeoutNodes) [] := by
    cases given : rule.advanced with
    | none => exact .nil
    | some settings =>
      have specified := spec.advanced settings given
      exact (takes_timeout (fun _ => rfl) specified.proxyConnectTimeout).append_left
        (takes_timeout (fun _ => rfl) specified.proxyReadTimeout)
  have health : Takes rule.streamHealthNodes [] := by
    rw [streamHealthNodes]
    cases given : rule.healthCheck with
    | none => exact .nil
    | some check =>
      have specified := spec.healthCheck check given
      have probe := takes_probe specified [] [] (by decide)
      exact probe.append_left (takes_seconds (fun _ => rfl) specified.timeout)
  have server := (((takes_streamListen spec listens).append_left
    (takes_streamPass valid stem)).append_left timeouts).append_left health
  exact (takes_upstreamNodes spec).append_left (Takes.blank.append_left server.block)

/-- The numerals in the document of a valid rule are accepted, but for the bursts of rate limits. -/
theorem takes_document (valid : rule.validate = .ok ())
    (stem : isIdentifier options.upstreamStem = true) {document : Document}
    (made : rule.document options = .ok document) : Takes document (burstsOf rule.limits) := by
  have title : Takes [rule.titleNode] [] := .comment _
  rcases eq_of_document valid made with ⟨http, rfl⟩ | ⟨stream, port, listens, rfl⟩
  · rw [limits, http]
    exact title.append_left (takes_httpNodes valid stem)
  · rw [limits, stream]
    exact title.append_left (takes_streamNodes valid stem listens)

/-- The numeral of a burst of nought. -/
def emptyBurst : Numeral :=
  ⟨"burst", .count, "", "0"⟩

/-- A burst is accepted unless it is nought. -/
theorem isAccepted_burst_iff {n : UInt32} :
    (⟨"burst", .count, "", toString n.toNat⟩ : Numeral).isAccepted = true ↔ n ≠ 0 := by
  constructor
  · rintro accepted rfl
    exact absurd accepted (by decide)
  · intro some_number
    exact Numeral.isAccepted_number (admits_count_of_uint32 some_number)

/-- A valid rule is compiled under a valid configuration. Every numeral of its document is accepted
or is the numeral of a burst of nought, and all are accepted exactly when no rate limit that the
document sets has such a burst. -/
theorem numerals_compile (rule : Rule) (config : ManagerConfig) (validRule : rule.validate = .ok ())
    (validConfig : config.validate = .ok ()) :
    ∃ document, rule.document config.renderOptions = .ok document ∧
      rule.compile config.renderOptions = .ok document.render ∧
      (∀ numeral ∈ numerals document, numeral.isAccepted = true ∨ numeral = emptyBurst) ∧
      ((∀ numeral ∈ numerals document, numeral.isAccepted = true) ↔
        ∀ limit ∈ rule.limits, limit.burstSize ≠ 0) := by
  obtain ⟨document, made, compiled⟩ := exists_document_of_validate validRule config.renderOptions
  have takes := takes_document validRule (ManagerConfig.isIdentifier_upstreamStem validConfig) made
  refine ⟨document, made, compiled, fun numeral listed => ?_, ?_⟩
  -- the numerals that are left open are those of bursts
  · refine (takes.others numeral listed).elim .inl fun burst => ?_
    obtain ⟨_, word, rfl⟩ := List.mem_map.1 burst
    obtain ⟨limit, _, rfl⟩ := List.mem_map.1 word
    by_cases nought : limit.burstSize = 0
    · rw [nought]
      exact .inr rfl
    · exact .inl (isAccepted_burst_iff.2 nought)
  · rw [takes.forall_iff fun _ accepted => accepted, burstsOf, counts, List.map_map,
      List.forall_mem_map]
    exact forall₂_congr fun _ _ => isAccepted_burst_iff

/-- A rule with several targets, a health check and numbers in all advanced settings. -/
theorem numerals_compile_full :
    let rule : Rule :=
      { id := "web", targets := [{ container := "a", port := 65535, weight := 3 },
          { container := "b", port := 1 }],
        healthCheck := some { successCodes := [100, 599] },
        advanced := some
          { proxyConnectTimeout := some 1, proxyReadTimeout := some 60,
            proxyBuffers := some { number := 8, size := "4k" },
            cache := some { enabled := true, duration := 300 },
            rateLimit := some { enabled := true, requestsPerSecond := 7, burstSize := 20 } },
        created := .epoch }
    let config : ManagerConfig := {}
    rule.validate = .ok () ∧ config.validate = .ok () ∧
      ∃ document, rule.document config.renderOptions = .ok document ∧
        rule.compile config.renderOptions = .ok document.render ∧
        (∀ numeral ∈ numerals document, numeral.isAccepted = true ∨ numeral = emptyBurst) ∧
        ((∀ numeral ∈ numerals document, numeral.isAccepted = true) ↔
          ∀ limit ∈ rule.limits, limit.burstSize ≠ 0) :=
  ⟨by decide, by decide, numerals_compile _ _ (by decide) (by decide)⟩

/-- A rate limit that is switched on and left at its defaults passes validation, with a burst that
is not accepted. -/
theorem not_numerals_compile :
    let rule : Rule :=
      { id := "web", targetContainer := "web", targetPort := 80,
        advanced := some { rateLimit := some { enabled := true } }, created := .epoch }
    let config : ManagerConfig := {}
    rule.validate = .ok () ∧ config.validate = .ok () ∧
      ∃ document, rule.document config.renderOptions = .ok document ∧
        rule.compile config.renderOptions = .ok document.render ∧
        emptyBurst ∈ numerals document ∧ emptyBurst.isAccepted = false :=
  ⟨by decide, by decide, _, rfl, rfl, by decide, by decide⟩

end Rule

end ProxyKeeper
