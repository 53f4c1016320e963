import ProxyKeeper.Proofs.Nginx.Parts
import ProxyKeeper.Proofs.Rule.Content
import ProxyKeeper.Proofs.Rule.References
import ProxyKeeper.Proofs.Rule.Words

/-!
# What the parts of a document tell

Part by part, the document of a rule says just what the part is about: two rules have the same lines
for it exactly when they have the same content there. Where a declaration and the reference to it
stand in different places, both together tell what they are about.

## Main Results

* `Rule.server_inj`, `Rule.location_inj`, `Rule.streamServer_inj` — servers and locations
* `Rule.limit_inj`, `Rule.check_inj`, `Rule.group_inj` — declarations with their references
-/

namespace ProxyKeeper

open Nginx

namespace Rule

variable {rule other : Rule} {options : RenderOptions}

/-! ## Optional parts -/

/-- The part that belongs to something optional tells what it belongs to. -/
theorem elim_inj {α β : Type*} {f : α → List β} {o o' : Option α} (some_ne : ∀ a, f a ≠ [])
    (inj : ∀ a ∈ o, ∀ b ∈ o', f a = f b → a = b) : o.elim [] f = o'.elim [] f ↔ o = o' := by
  cases o with
  | none =>
    cases o' with
    | none => exact iff_of_true rfl rfl
    | some b => exact iff_of_false (some_ne b).symm (by simp)
  | some a =>
    cases o' with
    | none => exact iff_of_false (some_ne a) (by simp)
    | some b =>
      constructor
      · intro same
        rw [inj a rfl b rfl same]
      · intro same
        rw [Option.some.inj same]

theorem optionalDirective_eq {α : Type} (name : String) (args : α → List String) (o : Option α) :
    optionalDirective name args o = o.elim [] fun a => [.directive name (args a)] := by
  cases o <;> rfl

theorem optionalDirective_inj {α : Type} {name : String} {args : α → List String}
    (inj : Function.Injective args) {o o' : Option α} :
    optionalDirective name args o = optionalDirective name args o' ↔ o = o' := by
  rw [optionalDirective_eq, optionalDirective_eq]
  refine elim_inj (fun _ => List.cons_ne_nil _ _) fun a _ b _ same => inj ?_
  rw [List.singleton_inj, Node.directive.injEq] at same
  exact same.2

theorem ofKinds_optional {α : Type} {kinds : List (String × Nat)} {name : String}
    {args : α → List String} (h : ∀ a, (name, (args a).length) ∈ kinds) (o : Option α) :
    OfKinds kinds (optionalDirective name args o) := by
  rw [optionalDirective_eq]
  exact .elim (fun a => .singleton (h a)) o

/-! ## The server of an HTTP rule -/

theorem words_injective : Function.Injective fun word : String => [word] :=
  fun _ _ => List.singleton_inj.1

theorem seconds_injective : Function.Injective fun n : UInt64 => [seconds n] :=
  fun _ _ same => seconds_inj.1 (List.singleton_inj.1 same)

theorem buffers_injective :
    Function.Injective fun buffers : ProxyBuffers =>
      [toString buffers.number.toNat, buffers.size] := by
  intro buffers others same
  rw [List.cons.injEq, List.singleton_inj, number_inj, UInt32.toNat_inj] at same
  obtain ⟨number, size⟩ := buffers
  rw [ProxyBuffers.mk.injEq]
  exact same

/-- The parts of the server of an HTTP rule. -/
def serverParts (rule : Rule) (options : RenderOptions) : List (List Node) :=
  [[.directive "listen" (if rule.isTls then ["443", "ssl"] else ["80"])],
   [.directive "server_name" [rule.serverName]],
   optionalDirective "ssl_certificate" (fun path => [path]) rule.certificate,
   optionalDirective "ssl_certificate_key" (fun path => [path]) rule.key,
   optionalDirective "client_max_body_size" (fun size => [size])
     (rule.advanced.bind (·.clientMaxBodySize)),
   optionalDirective "proxy_buffer_size" (fun size => [size])
     (rule.advanced.bind (·.proxyBufferSize)),
   optionalDirective "proxy_buffers" (fun buffers => [toString buffers.number.toNat, buffers.size])
     (rule.advanced.bind (·.proxyBuffers)),
   [.block "location" [rule.effectivePath] (rule.locationNodes options)]]

/-- What the nodes of a server are, part by part. -/
def serverKinds : List (List (String × Nat)) :=
  [[("listen", 1), ("listen", 2)], [("server_name", 1)], [("ssl_certificate", 1)],
   [("ssl_certificate_key", 1)], [("client_max_body_size", 1)], [("proxy_buffer_size", 1)],
   [("proxy_buffers", 2)], [("location", 1)]]

theorem ofKinds_serverParts (rule : Rule) (options : RenderOptions) :
    List.Forall₂ OfKinds serverKinds (rule.serverParts options) := by
  have listen : (Node.directive "listen" (if rule.isTls then ["443", "ssl"] else ["80"])).kind ∈
      [("listen", 1), ("listen", 2)] := by
    split
    · exact List.mem_cons_of_mem _ (List.mem_cons_self ..)
    · exact List.mem_cons_self ..
  have one (name : String) (arg : String) : (name, [arg].length) ∈ [(name, 1)] :=
    List.mem_cons_self ..
  have two (buffers : ProxyBuffers) :
      ("proxy_buffers", [toString buffers.number.toNat, buffers.size].length) ∈
        [("proxy_buffers", 2)] :=
    List.mem_cons_self ..
  simp only [serverKinds, serverParts, List.forall₂_cons, List.Forall₂.nil, and_true]
  exact ⟨.singleton listen, .singleton (one _ _), ofKinds_optional (one _) _,
    ofKinds_optional (one _) _, ofKinds_optional (one _) _, ofKinds_optional (one _) _,
    ofKinds_optional two _, .singleton (one _ _)⟩

theorem flatten_serverParts (rule : Rule) (options : RenderOptions) :
    rule.listenNodes ++ rule.advanced.elim [] bufferNodes ++
        [.block "location" [rule.effectivePath] (rule.locationNodes options)] =
      (rule.serverParts options).flatten := by
  rw [serverParts, listenNodes, certificate, key]
  cases rule.advanced <;> cases rule.isTls <;> simp [bufferNodes, optionalDirective]

/-- Equal servers. -/
theorem server_inj :
    (rule.serverParts options).flatten = (other.serverParts options).flatten ↔
      rule.isTls = other.isTls ∧ rule.serverName = other.serverName ∧
        rule.certificate = other.certificate ∧ rule.key = other.key ∧
        rule.advanced.bind (·.clientMaxBodySize) = other.advanced.bind (·.clientMaxBodySize) ∧
        rule.advanced.bind (·.proxyBufferSize) = other.advanced.bind (·.proxyBufferSize) ∧
        rule.advanced.bind (·.proxyBuffers) = other.advanced.bind (·.proxyBuffers) ∧
        rule.effectivePath = other.effectivePath ∧
        rule.locationNodes options = other.locationNodes options := by
  rw [flatten_inj (by decide) (ofKinds_serverParts rule options)
    (ofKinds_serverParts other options)]
  have ports : ["443", "ssl"] ≠ ["80"] := by decide
  simp only [serverParts, List.cons.injEq, Node.directive.injEq, Node.block.injEq, true_and,
    and_true, choice_inj ports, optionalDirective_inj words_injective,
    optionalDirective_inj buffers_injective]

/-! ## The location of an HTTP rule -/

/-- The lines of a cache. -/
def cacheLines (options : RenderOptions) (duration : UInt64) : List Node :=
  [.directive "proxy_cache" [options.cacheZone],
   .directive "proxy_cache_valid" ["200", "302", seconds duration]]

/-- The line of a rewrite rule. -/
def rewriteLine (rewrite : RewriteRule) : Node :=
  .directive "rewrite" [rewrite.pattern, rewrite.replacement, rewrite.flag.name]

/-- The lines of answers to other origins that are enabled. -/
def originLines (cors : CorsConfig) : List Node :=
  [.directive "add_header" ["Access-Control-Allow-Origin", cors.allowOrigin, "always"],
   .directive "add_header" ["Access-Control-Allow-Methods", cors.allowMethods, "always"],
   .directive "add_header" ["Access-Control-Allow-Headers", cors.allowHeaders, "always"]] ++
  (if cors.allowCredentials then
    [.directive "add_header" ["Access-Control-Allow-Credentials", "true", "always"]]
  else []) ++
  [.block "if" ["($request_method", "=", "OPTIONS)"] [.directive "return" ["204"]]]

/-- The parts of the location of an HTTP rule in front of its health check. -/
def locationParts (rule : Rule) (options : RenderOptions) : List (List Node) :=
  [[.directive "proxy_pass" [rule.httpPass options]],
   rule.headers.entries.map fun (name, value) => .directive "proxy_set_header" [name, value],
   rule.responseHeaders.entries.map fun (name, value) => .directive "add_header" [name, value],
   optionalDirective "proxy_connect_timeout" (fun n => [seconds n]) rule.connectTimeout,
   optionalDirective "proxy_send_timeout" (fun n => [seconds n]) rule.sendTimeout,
   optionalDirective "proxy_read_timeout" (fun n => [seconds n]) rule.readTimeout,
   rule.cacheDuration.elim [] (cacheLines options),
   rule.cors.elim [] originLines,
   rule.limitNodes options,
   rule.rewriteRules.map rewriteLine]

/-- What the nodes of a location are, part by part. Headers that a rule gives differ from those of
the answers to other origins in the number of arguments. -/
def locationKinds : List (List (String × Nat)) :=
  [[("proxy_pass", 1)], [("proxy_set_header", 2)], [("add_header", 2)],
   [("proxy_connect_timeout", 1)], [("proxy_send_timeout", 1)], [("proxy_read_timeout", 1)],
   [("proxy_cache", 1), ("proxy_cache_valid", 3)], [("add_header", 3), ("if", 3)],
   [("limit_req", 2), ("limit_req", 3)], [("rewrite", 3)]]

theorem cacheNodes_eq (options : RenderOptions) (settings : AdvancedConfig) :
    cacheNodes options settings =
      ((settings.cache.filter (·.enabled)).map (·.duration)).elim [] (cacheLines options) := by
  rw [cacheNodes]
  cases settings.cache.filter (·.enabled) <;> rfl

theorem corsNodes_eq (settings : AdvancedConfig) :
    corsNodes settings = (settings.cors.filter (·.enabled)).elim [] originLines := by
  rw [corsNodes]
  cases settings.cors.filter (·.enabled) <;> rfl

theorem ofKinds_originLines (cors : CorsConfig) :
    OfKinds [("add_header", 3), ("if", 3)] (originLines cors) := by
  have header (name value : String) :
      (Node.directive "add_header" [name, value, "always"]).kind ∈
        [("add_header", 3), ("if", 3)] :=
    List.mem_cons_self ..
  rw [originLines]
  refine .append (.append (.cons (header _ _) (.cons (header _ _) (.singleton (header _ _)))) ?_)
    (.singleton (List.mem_cons_of_mem _ (List.mem_cons_self ..)))
  split
  · exact .singleton (header _ _)
  · exact .nil

theorem ofKinds_limitNodes (rule : Rule) (options : RenderOptions) :
    OfKinds [("limit_req", 2), ("limit_req", 3)] (rule.limitNodes options) := by
  rw [limitNodes]
  split
  · exact .nil
  · refine .singleton ?_
    split
    · exact List.mem_cons_of_mem _ (List.mem_cons_self ..)
    · exact List.mem_cons_self ..

theorem ofKinds_locationParts (rule : Rule) (options : RenderOptions) :
    List.Forall₂ OfKinds locationKinds (rule.locationParts options) := by
  have timeout (name : String) (n : UInt64) : (name, [seconds n].length) ∈ [(name, 1)] :=
    List.mem_cons_self ..
  have header (name : String) (entry : String × String) :
      (Node.directive name [entry.1, entry.2]).kind ∈ [(name, 2)] :=
    List.mem_cons_self ..
  have cache (duration : UInt64) :
      OfKinds [("proxy_cache", 1), ("proxy_cache_valid", 3)] (cacheLines options duration) :=
    .cons (List.mem_cons_self ..) (.singleton (List.mem_cons_of_mem _ (List.mem_cons_self ..)))
  have rewrite (rewrite : RewriteRule) : (rewriteLine rewrite).kind ∈ [("rewrite", 3)] :=
    List.mem_cons_self ..
  simp only [locationKinds, locationParts, List.forall₂_cons, List.Forall₂.nil, and_true]
  exact ⟨.singleton (List.mem_cons_self ..), .map (header _) _, .map (header _) _,
    ofKinds_optional (timeout _) _, ofKinds_optional (timeout _) _, ofKinds_optional (timeout _) _,
    .elim cache _, .elim ofKinds_originLines _, ofKinds_limitNodes rule options, .map rewrite _⟩

theorem flatten_locationParts (rule : Rule) (options : RenderOptions) :
    rule.locationNodes options = (rule.locationParts options).flatten ++ rule.healthNodes := by
  rw [locationNodes, locationParts, connectTimeout, sendTimeout, readTimeout, cacheDuration, cors,
    rewriteRules]
  cases rule.advanced with
  | none => simp [optionalDirective]
  | some settings =>
    have rewrites : rewriteNodes settings = settings.rewriteRules.map rewriteLine := rfl
    simp [timeoutNodes, cacheNodes_eq, corsNodes_eq, rewrites]

theorem headers_inj {headers others : HeaderMap} (name : String) :
    (headers.entries.map fun (header, value) => Node.directive name [header, value]) =
        (others.entries.map fun (header, value) => Node.directive name [header, value]) ↔
      headers = others := by
  have inj : Function.Injective fun (entry : String × String) =>
      Node.directive name [entry.1, entry.2] := by
    intro entry entry' same
    rw [Node.directive.injEq, List.cons.injEq, List.singleton_inj] at same
    exact Prod.ext same.2.1 same.2.2
  obtain ⟨entries, _⟩ := headers
  obtain ⟨others, _⟩ := others
  rw [HeaderMap.mk.injEq]
  exact List.map_inj_right fun _ _ => @inj _ _

theorem rewriteLine_injective : Function.Injective rewriteLine := by
  intro rewrite rewrite' same
  obtain ⟨pattern, replacement, flag⟩ := rewrite
  obtain ⟨pattern', replacement', flag'⟩ := rewrite'
  have flags : flag.name = flag'.name → flag = flag' := by
    cases flag <;> cases flag' <;> simp [RewriteFlag.name]
  simp only [rewriteLine, Node.directive.injEq, List.cons.injEq, and_true, true_and] at same
  rw [RewriteRule.mk.injEq]
  exact ⟨same.1, same.2.1, flags same.2.2⟩

theorem cacheLines_inj {duration duration' : UInt64} :
    cacheLines options duration = cacheLines options duration' ↔ duration = duration' := by
  simp only [cacheLines, List.cons.injEq, Node.directive.injEq, true_and, and_true, seconds_inj]

/-- The lines of answers that are enabled tell all about them. -/
theorem originLines_inj {cors cors' : CorsConfig} (enabled : cors.enabled = cors'.enabled)
    (same : originLines cors = originLines cors') : cors = cors' := by
  obtain ⟨_, origin, methods, headers, credentials⟩ := cors
  obtain ⟨_, origin', methods', headers', credentials'⟩ := cors'
  simp only [originLines, List.cons_append, List.nil_append, List.cons.injEq, Node.directive.injEq,
    true_and, and_true, List.append_cancel_right_eq] at same
  rw [CorsConfig.mk.injEq]
  exact ⟨enabled, same.1, same.2.1, same.2.2.1, (choice_inj (List.cons_ne_nil _ _)).1 same.2.2.2⟩

/-- A setting that passed a filter meets its condition. -/
theorem enabled_of_cors {given : CorsConfig} (h : given ∈ rule.cors) : given.enabled = true :=
  (Option.mem_filter_iff.1 h).2

theorem enabled_of_rateLimit {limit : RateLimit} (h : limit ∈ rule.rateLimit?) :
    limit.enabled = true :=
  (Option.mem_filter_iff.1 h).2

/-- A health check begins with a line that is not among those in front of it. -/
theorem head?_healthNodes (rule : Rule) :
    ∀ node ∈ rule.healthNodes.head?, ¬ node.kind ≠ ("health_check", 5) := by
  intro node first
  rw [healthNodes] at first
  cases checked : rule.healthCheck with
  | none =>
    rw [checked] at first
    cases first
  | some check =>
    rw [checked] at first
    obtain rfl := Option.some.inj first
    exact not_not_intro rfl

theorem kind_ne_of_mem_locationParts {node : Node}
    (listed : node ∈ (rule.locationParts options).flatten) : node.kind ≠ ("health_check", 5) := by
  obtain ⟨kinds, inKinds, here⟩ :=
    exists_kinds_of_mem_flatten (ofKinds_locationParts rule options) listed
  intro same
  rw [same] at here
  revert kinds
  decide

/-- Equal locations. -/
theorem location_inj :
    rule.locationNodes options = other.locationNodes options ↔
      rule.httpPass options = other.httpPass options ∧ rule.headers = other.headers ∧
        rule.responseHeaders = other.responseHeaders ∧
        rule.connectTimeout = other.connectTimeout ∧ rule.sendTimeout = other.sendTimeout ∧
        rule.readTimeout = other.readTimeout ∧ rule.cacheDuration = other.cacheDuration ∧
        rule.cors = other.cors ∧ rule.limitNodes options = other.limitNodes options ∧
        rule.rewriteRules = other.rewriteRules ∧ rule.healthNodes = other.healthNodes := by
  have caches : rule.cacheDuration.elim [] (cacheLines options) =
      other.cacheDuration.elim [] (cacheLines options) ↔
        rule.cacheDuration = other.cacheDuration :=
    elim_inj (fun _ => List.cons_ne_nil _ _) fun _ _ _ _ => cacheLines_inj.1
  have origins : rule.cors.elim [] originLines = other.cors.elim [] originLines ↔
      rule.cors = other.cors :=
    elim_inj (fun _ => List.cons_ne_nil _ _) fun given h given' h' =>
      originLines_inj ((enabled_of_cors h).trans (enabled_of_cors h').symm)
  -- timeouts that are set stand in front of the line of the check, those it brings along behind it
  rw [flatten_locationParts, flatten_locationParts,
    Text.append_inj_of_head (fun _ => kind_ne_of_mem_locationParts)
      (fun _ => kind_ne_of_mem_locationParts) (head?_healthNodes rule) (head?_healthNodes other),
    flatten_inj (by decide) (ofKinds_locationParts rule options)
      (ofKinds_locationParts other options)]
  simp only [locationParts, List.cons.injEq, Node.directive.injEq, true_and, and_true, headers_inj,
    optionalDirective_inj seconds_injective, caches, origins,
    List.map_inj_right rewriteLine_injective, and_assoc]

/-! ## Declarations and references -/

/-- The declaration of a zone. -/
def zoneLine (zone : String) (limit : RateLimit) : Node :=
  .directive "limit_req_zone"
    [if limit.perIp then "$binary_remote_addr" else "$server_name",
     setting "zone" (zone ++ ":10m"),
     setting "rate" (toString limit.requestsPerSecond.toNat ++ "r/s")]

/-- A limit that refers to a zone. -/
def limitLine (zone : String) (limit : RateLimit) : Node :=
  .directive "limit_req"
    ([setting "zone" zone, setting "burst" (toString limit.burstSize.toNat)] ++
      if limit.noDelay then ["nodelay"] else [])

/-- A zone that is declared, or that is the shared one, tells what it counts and its rate. -/
theorem zoneLine_inj {zone : String} {limit limit' : RateLimit}
    (same : (if usesSharedZone limit options then [] else [zoneLine zone limit]) =
      if usesSharedZone limit' options then [] else [zoneLine zone limit']) :
    limit.perIp = limit'.perIp ∧ limit.requestsPerSecond = limit'.requestsPerSecond := by
  split_ifs at same with shared shared'
  · rw [usesSharedZone, Bool.and_eq_true, beq_iff_eq] at shared shared'
    exact ⟨shared.1.trans shared'.1.symm, shared.2.trans shared'.2.symm⟩
  · rw [List.singleton_inj, zoneLine, zoneLine, Node.directive.injEq] at same
    have keys : "$binary_remote_addr" ≠ "$server_name" := by decide
    simpa only [List.cons.injEq, and_true, true_and, setting_inj, String.append_left_inj,
      number_inj, UInt32.toNat_inj, choice_inj keys] using same

theorem limitLine_inj {zone zone' : String} {limit limit' : RateLimit}
    (same : limitLine zone limit = limitLine zone' limit') :
    limit.burstSize = limit'.burstSize ∧ limit.noDelay = limit'.noDelay := by
  rw [limitLine, limitLine, Node.directive.injEq] at same
  simp only [List.cons_append, List.nil_append, List.cons.injEq, true_and, setting_inj, number_inj,
    UInt32.toNat_inj] at same
  exact ⟨same.2.1, (choice_inj (List.cons_ne_nil _ _)).1 same.2.2⟩

theorem rateLimitZoneNodes_eq (rule : Rule) (options : RenderOptions) :
    rule.rateLimitZoneNodes options = rule.rateLimit?.elim [] fun limit =>
      if usesSharedZone limit options then [] else [zoneLine rule.ownZone limit] := by
  rw [rateLimitZoneNodes]
  cases rule.rateLimit? <;> rfl

theorem limitNodes_eq (rule : Rule) (options : RenderOptions) :
    rule.limitNodes options = rule.rateLimit?.elim [] fun limit =>
      [limitLine (rule.rateLimitZone options limit) limit] := by
  rw [limitNodes]
  cases rule.rateLimit? <;> rfl

/-- The lines of a limit tell it, with the zone that it refers to. -/
theorem limit_inj (ids : rule.id = other.id) :
    rule.rateLimitZoneNodes options = other.rateLimitZoneNodes options ∧
        rule.limitNodes options = other.limitNodes options ↔
      rule.rateLimit? = other.rateLimit? := by
  have zones : rule.ownZone = other.ownZone := congrArg ("rl_" ++ ·) ids
  rw [rateLimitZoneNodes_eq, rateLimitZoneNodes_eq, limitNodes_eq, limitNodes_eq, zones]
  constructor
  · rintro ⟨declarations, limits⟩
    cases mine : rule.rateLimit? with
    | none =>
      cases its : other.rateLimit? with
      | none => rfl
      | some limit' => simp [mine, its] at limits
    | some limit =>
      cases its : other.rateLimit? with
      | none => simp [mine, its] at limits
      | some limit' =>
        rw [mine, its] at declarations limits
        have enabled := (enabled_of_rateLimit mine).trans (enabled_of_rateLimit its).symm
        -- the declaration tells key and rate, also where there is none: then they are the shared ones
        obtain ⟨perIp, rate⟩ := zoneLine_inj declarations
        obtain ⟨burst, noDelay⟩ := limitLine_inj (List.singleton_inj.1 limits)
        obtain ⟨⟩ := limit
        obtain ⟨⟩ := limit'
        rw [Option.some.injEq, RateLimit.mk.injEq]
        exact ⟨enabled, rate, burst, noDelay, perIp⟩
  · intro same
    simp only [same, rateLimitZone, zones, and_self]

/-- The condition on answers to health checks. -/
def statusBlock (name : String) (codes : List UInt16) : Node :=
  .block "match" [name] [.directive "status" (codes.map fun code => toString code.toNat)]

/-- The lines of a health check, where timeouts are set or not. -/
def checkLines (name : String) (connect read : Bool) (check : HealthCheck) : List Node :=
  [.directive "health_check"
    [setting "uri" check.path, setting "interval" (seconds check.interval),
     setting "fails" (toString check.retries.toNat), "passes=1", setting "match" name]] ++
  (if connect then [] else [.directive "proxy_connect_timeout" [seconds check.timeout]]) ++
  (if read then [] else [.directive "proxy_read_timeout" [seconds check.timeout]])

theorem statusBlock_inj {name : String} {codes codes' : List UInt16} :
    statusBlock name codes = statusBlock name codes' ↔ codes = codes' := by
  have numbers : Function.Injective fun code : UInt16 => toString code.toNat :=
    fun _ _ same => UInt16.toNat_inj.1 (number_inj.1 same)
  simp only [statusBlock, Node.block.injEq, List.cons.injEq, Node.directive.injEq, true_and,
    and_true, List.map_inj_right numbers]

theorem checkLines_inj {name : String} {connect read : Bool} {check check' : HealthCheck} :
    checkLines name connect read check = checkLines name connect read check' ↔
      check.path = check'.path ∧ check.interval = check'.interval ∧
        check.retries = check'.retries ∧
        (if connect && read then none else some check.timeout) =
          if connect && read then none else some check'.timeout := by
  cases connect <;> cases read <;>
    simp only [checkLines, List.cons_append, List.nil_append, List.cons.injEq,
      Node.directive.injEq, setting_inj, seconds_inj, number_inj, UInt32.toNat_inj, true_and,
      and_true, and_self, and_assoc, Bool.and_self, Bool.and_true, Bool.and_false, if_true,
      if_false, Bool.false_eq_true, Option.some.injEq]

theorem matchNodes_eq (rule : Rule) :
    rule.matchNodes = rule.healthCheck.elim [] fun check =>
      [statusBlock rule.matchName check.successCodes] := by
  rw [matchNodes]
  cases rule.healthCheck <;> rfl

theorem healthNodes_eq (rule : Rule) :
    rule.healthNodes = rule.healthCheck.elim []
      (checkLines rule.matchName rule.connectTimeout.isSome rule.readTimeout.isSome) := by
  rw [healthNodes]
  cases rule.healthCheck <;> rfl

/-- The lines of a health check, with its condition, tell it. -/
theorem check_inj (ids : rule.id = other.id) (connect : rule.connectTimeout = other.connectTimeout)
    (read : rule.readTimeout = other.readTimeout) :
    rule.matchNodes = other.matchNodes ∧ rule.healthNodes = other.healthNodes ↔
      rule.httpCheck = other.httpCheck := by
  have names : rule.matchName = other.matchName := congrArg ("hc_" ++ ·) ids
  rw [matchNodes_eq, matchNodes_eq, healthNodes_eq, healthNodes_eq, httpCheck, httpCheck, names,
    connect, read]
  cases rule.healthCheck with
  | none => cases other.healthCheck <;> simp
  | some check =>
    cases other.healthCheck with
    | none => simp
    | some check' =>
      simp only [Option.elim_some, List.singleton_inj, statusBlock_inj, checkLines_inj,
        Option.map_some, Option.some.injEq, HttpCheck.mk.injEq]
      tauto

/-- The line of a server with its weight. -/
def serverLine (target : LoadBalancingTarget) : Node :=
  .directive "server"
    [address target.container target.port, setting "weight" (toString target.weight.toNat)]

theorem serverLine_injective : Function.Injective serverLine := by
  intro target target' same
  obtain ⟨container, port, weight⟩ := target
  obtain ⟨container', port', weight'⟩ := target'
  simp only [serverLine, Node.directive.injEq, List.cons.injEq, true_and, and_true, address_inj,
    setting_inj, number_inj, UInt32.toNat_inj] at same
  rw [LoadBalancingTarget.mk.injEq, ← and_assoc]
  exact same

/-- A server that has a weight is not a single container. -/
theorem map_serverLine_ne (targets : List LoadBalancingTarget) (address : String) :
    targets.map serverLine ≠ [.directive "server" [address]] := by
  intro same
  obtain ⟨target, _, line⟩ := List.map_eq_singleton_iff.1 same
  rw [serverLine, Node.directive.injEq, List.cons.injEq] at line
  exact List.cons_ne_nil _ _ line.2.2

/-- The servers of a group tell where the requests go. -/
theorem serverNodes_inj : rule.serverNodes = other.serverNodes ↔ rule.backend = other.backend := by
  rw [serverNodes, serverNodes, backend, backend]
  split_ifs
  · rw [Backend.several.injEq]
    exact List.map_inj_right fun _ _ => @serverLine_injective _ _
  · exact iff_of_false (map_serverLine_ne _ _) (by simp)
  · exact iff_of_false (map_serverLine_ne _ _).symm (by simp)
  · rw [List.singleton_inj, Node.directive.injEq, List.singleton_inj, Backend.single.injEq,
      and_iff_right rfl, singleAddress, singleAddress, address_inj]

theorem methodNodes_injective : Function.Injective methodNodes := by
  intro method method' same
  cases method <;> cases method' <;> first | rfl | simp [methodNodes] at same

/-- What the nodes of a group of servers are, part by part. -/
def groupKinds : List (List (String × Nat)) :=
  [[("zone", 2)], [("least_conn", 0), ("ip_hash", 0)], [("server", 1), ("server", 2)]]

/-- The parts of a group of servers. -/
def groupParts (rule : Rule) (options : RenderOptions) : List (List Node) :=
  [if rule.healthCheck.isSome then [.directive "zone" [rule.upstreamName options, "64k"]] else [],
   methodNodes rule.method, rule.serverNodes]

theorem flatten_groupParts (rule : Rule) (options : RenderOptions) :
    rule.groupNodes options = (rule.groupParts options).flatten := by
  simp only [groupNodes, groupParts, List.flatten_cons, List.flatten_nil, List.append_nil,
    List.append_assoc]

theorem ofKinds_groupParts (rule : Rule) (options : RenderOptions) :
    List.Forall₂ OfKinds groupKinds (rule.groupParts options) := by
  refine .cons ?_ (.cons ?_ (.cons ?_ .nil))
  · split
    · exact .singleton (List.mem_cons_self ..)
    · exact .nil
  · cases rule.method with
    | roundRobin => exact .nil
    | leastConnections => exact .singleton (List.mem_cons_self ..)
    | ipHash => exact .singleton (List.mem_cons_of_mem _ (List.mem_cons_self ..))
  · rw [serverNodes]
    split
    · have line (target : LoadBalancingTarget) :
          (serverLine target).kind ∈ [("server", 1), ("server", 2)] :=
        List.mem_cons_of_mem _ (List.mem_cons_self ..)
      exact .map line _
    · exact .singleton (List.mem_cons_self ..)

theorem groupNodes_inj (names : rule.upstreamName options = other.upstreamName options) :
    rule.groupNodes options = other.groupNodes options ↔
      rule.healthCheck.isSome = other.healthCheck.isSome ∧ rule.method = other.method ∧
        rule.backend = other.backend := by
  rw [flatten_groupParts, flatten_groupParts,
    flatten_inj (by decide) (ofKinds_groupParts rule options) (ofKinds_groupParts other options)]
  simp only [groupParts, names, List.cons.injEq, and_true, choice_inj (List.cons_ne_nil _ _),
    methodNodes_injective.eq_iff, serverNodes_inj]

/-- Without a group of servers there is a single container that is not checked. -/
theorem backend_of_not_needsUpstream (alone : ¬ rule.needsUpstream = true) :
    rule.backend = .single rule.targetContainer rule.targetPort ∧
      rule.healthCheck.isSome = false := by
  rw [needsUpstream, Bool.or_eq_true, not_or, Bool.not_eq_true, Bool.not_eq_true] at alone
  exact ⟨if_neg (by rw [alone.1]; decide), alone.2⟩

/-- The group of servers and the reference to what takes the requests tell where these go. -/
theorem group_inj (ids : rule.id = other.id) :
    rule.upstreamNodes options = other.upstreamNodes options ∧
        rule.streamPass options = other.streamPass options ↔
      rule.backend = other.backend ∧ rule.groupMethod = other.groupMethod ∧
        rule.healthCheck.isSome = other.healthCheck.isSome := by
  have names : rule.upstreamName options = other.upstreamName options :=
    congrArg (options.upstreamStem ++ "_" ++ ·) ids
  have blocks (rule : Rule) : rule.upstreamNode options =
      .block "upstream" [rule.upstreamName options] (rule.groupNodes options) := rfl
  rw [upstreamNodes, upstreamNodes, streamPass, streamPass, groupMethod, groupMethod, blocks,
    blocks]
  split_ifs with needs needs' needs'
  · rw [List.singleton_inj, Node.block.injEq, groupNodes_inj names, names, Option.some.injEq]
    tauto
  · simp
  · simp
  · obtain ⟨single, unchecked⟩ := backend_of_not_needsUpstream needs
    obtain ⟨single', unchecked'⟩ := backend_of_not_needsUpstream needs'
    rw [single, single', unchecked, unchecked', Backend.single.injEq, singleAddress,
      singleAddress, address_inj]
    simp

/-- The target of requests over HTTP tells whether they are sent over TLS. -/
theorem httpPass_inj :
    rule.httpPass options = other.httpPass options ↔
      rule.backendHttps = other.backendHttps ∧
        rule.streamPass options = other.streamPass options := by
  have pass (rule : Rule) : rule.httpPass options =
      (if rule.backendHttps then "https" else "http") ++ "://" ++ rule.streamPass options := rfl
  have colon (tls : Bool) : ':' ∉ (if tls then "https" else "http").toList := by
    cases tls <;> decide
  have between : "://".toList = ':' :: ['/', '/'] := rfl
  have schemes : "https" ≠ "http" := by decide
  rw [pass, pass, ← String.toList_inj]
  simp only [String.toList_append, List.append_assoc, between, List.cons_append]
  rw [Text.append_cons_inj (colon _) (colon _), String.toList_inj, choice_inj schemes,
    List.cons.injEq, List.cons.injEq, List.nil_append, List.nil_append, String.toList_inj]
  simp only [true_and]

/-! ## The server of a TCP rule -/

/-- What a server listens on tells the host and the port. -/
theorem streamListen_inj {port port' : UInt16} :
    rule.streamListen port = other.streamListen port' ↔
      rule.sourceHost = other.sourceHost ∧ port = port' := by
  have number_ne (n : Nat) (host : String) (port : UInt16) : toString n ≠ address host port := by
    intro same
    have colon : ':' ∈ (address host port).toList := by simp [address]
    exact colon_notMem_number n (same ▸ colon)
  rw [streamListen, streamListen]
  split_ifs with empty empty' empty'
  · rw [number_inj, UInt16.toNat_inj, String.isEmpty_iff.1 empty, String.isEmpty_iff.1 empty',
      and_iff_right rfl]
  · refine iff_of_false (number_ne _ _ _) fun same => ?_
    rw [← same.1] at empty'
    exact empty' empty
  · refine iff_of_false (number_ne _ _ _).symm fun same => ?_
    rw [same.1] at empty
    exact empty empty'
  · exact address_inj

/-- The lines of a health check for connections. -/
def streamCheckLines (check : HealthCheck) : List Node :=
  [.directive "health_check"
    [setting "interval" (seconds check.interval),
     setting "fails" (toString check.retries.toNat), "passes=1"],
   .directive "health_check_timeout" [seconds check.timeout]]

theorem streamHealthNodes_eq (rule : Rule) :
    rule.streamHealthNodes = rule.healthCheck.elim [] streamCheckLines := by
  rw [streamHealthNodes]
  cases rule.healthCheck <;> rfl

theorem streamHealthNodes_inj :
    rule.streamHealthNodes = other.streamHealthNodes ↔ rule.streamCheck = other.streamCheck := by
  rw [streamHealthNodes_eq, streamHealthNodes_eq, streamCheck, streamCheck]
  cases rule.healthCheck with
  | none => cases other.healthCheck <;> simp [streamCheckLines]
  | some check =>
    cases other.healthCheck with
    | none => simp [streamCheckLines]
    | some check' =>
      simp only [Option.elim_some, streamCheckLines, List.cons.injEq, Node.directive.injEq,
        true_and, and_true, setting_inj, seconds_inj, number_inj, UInt32.toNat_inj,
        Option.map_some, Option.some.injEq, StreamCheck.mk.injEq, and_assoc]

/-- The parts of the server of a TCP rule. -/
def streamParts (rule : Rule) (options : RenderOptions) (port : UInt16) : List (List Node) :=
  [[.directive "listen" [rule.streamListen port],
    .directive "proxy_pass" [rule.streamPass options]],
   optionalDirective "proxy_connect_timeout" (fun n => [seconds n]) rule.connectTimeout,
   optionalDirective "proxy_timeout" (fun n => [seconds n]) rule.readTimeout,
   rule.streamHealthNodes]

/-- What the nodes of a server for connections are, part by part. -/
def streamKinds : List (List (String × Nat)) :=
  [[("listen", 1), ("proxy_pass", 1)], [("proxy_connect_timeout", 1)], [("proxy_timeout", 1)],
   [("health_check", 3), ("health_check_timeout", 1)]]

theorem ofKinds_streamParts (rule : Rule) (options : RenderOptions) (port : UInt16) :
    List.Forall₂ OfKinds streamKinds (rule.streamParts options port) := by
  have timeout (name : String) (n : UInt64) : (name, [seconds n].length) ∈ [(name, 1)] :=
    List.mem_cons_self ..
  have check (check : HealthCheck) :
      OfKinds [("health_check", 3), ("health_check_timeout", 1)] (streamCheckLines check) :=
    .cons (List.mem_cons_self ..) (.singleton (List.mem_cons_of_mem _ (List.mem_cons_self ..)))
  refine .cons ?_ (.cons (ofKinds_optional (timeout _) _)
    (.cons (ofKinds_optional (timeout _) _) (.cons ?_ .nil)))
  · exact .cons (List.mem_cons_self ..)
      (.singleton (List.mem_cons_of_mem _ (List.mem_cons_self ..)))
  · rw [streamHealthNodes_eq]
    exact .elim check _

theorem flatten_streamParts (rule : Rule) (options : RenderOptions) (port : UInt16) :
    [.directive "listen" [rule.streamListen port],
        .directive "proxy_pass" [rule.streamPass options]] ++
        rule.advanced.elim [] streamTimeoutNodes ++ rule.streamHealthNodes =
      (rule.streamParts options port).flatten := by
  rw [streamParts, connectTimeout, readTimeout]
  cases rule.advanced <;> simp [streamTimeoutNodes, optionalDirective]

/-- Equal servers for connections. -/
theorem streamServer_inj {port port' : UInt16} :
    (rule.streamParts options port).flatten = (other.streamParts options port').flatten ↔
      rule.sourceHost = other.sourceHost ∧ port = port' ∧
        rule.streamPass options = other.streamPass options ∧
        rule.connectTimeout = other.connectTimeout ∧ rule.readTimeout = other.readTimeout ∧
        rule.streamCheck = other.streamCheck := by
  rw [flatten_inj (by decide) (ofKinds_streamParts rule options port)
    (ofKinds_streamParts other options port')]
  simp only [streamParts, List.cons.injEq, Node.directive.injEq, true_and, and_true,
    streamListen_inj, optionalDirective_inj seconds_injective, streamHealthNodes_inj, and_assoc]

/-! ## Documents -/

/-- The parts of the document of an HTTP rule, behind the comment in front. -/
def httpParts (rule : Rule) (options : RenderOptions) : List (List Node) :=
  [rule.rateLimitZoneNodes options, rule.matchNodes, rule.upstreamNodes options,
   [.blank, .block "server" [] (rule.serverParts options).flatten]]

/-- What the nodes of the document of an HTTP rule are, part by part. -/
def httpKinds : List (List (String × Nat)) :=
  [[("limit_req_zone", 3)], [("match", 1)], [("upstream", 1)], [("", 0), ("server", 0)]]

theorem flatten_httpParts (rule : Rule) (options : RenderOptions) :
    rule.httpNodes options = (rule.httpParts options).flatten := by
  rw [httpNodes, flatten_serverParts, httpParts]
  simp only [List.flatten_cons, List.flatten_nil, List.append_nil, List.append_assoc]

theorem ofKinds_upstreamNodes (rule : Rule) (options : RenderOptions) :
    OfKinds [("upstream", 1)] (rule.upstreamNodes options) := by
  rw [upstreamNodes]
  split
  · exact .singleton (List.mem_cons_self ..)
  · exact .nil

/-- The server of a rule, behind an empty line. -/
theorem ofKinds_server (nodes : List Node) :
    OfKinds [("", 0), ("server", 0)] [.blank, .block "server" [] nodes] :=
  .cons (List.mem_cons_self ..) (.singleton (List.mem_cons_of_mem _ (List.mem_cons_self ..)))

theorem ofKinds_httpParts (rule : Rule) (options : RenderOptions) :
    List.Forall₂ OfKinds httpKinds (rule.httpParts options) := by
  refine .cons ?_ (.cons ?_ (.cons (ofKinds_upstreamNodes rule options)
    (.cons (ofKinds_server _) .nil)))
  · rw [rateLimitZoneNodes_eq]
    refine .elim (fun limit => ?_) _
    split
    · exact .nil
    · exact .singleton (List.mem_cons_self ..)
  · have block (check : HealthCheck) :
        (statusBlock rule.matchName check.successCodes).kind ∈ [("match", 1)] :=
      List.mem_cons_self ..
    rw [matchNodes_eq]
    exact .elim (fun check => .singleton (block check)) _

/-- Equal documents for HTTP, apart from the comments in front. -/
theorem httpNodes_inj :
    rule.httpNodes options = other.httpNodes options ↔
      rule.rateLimitZoneNodes options = other.rateLimitZoneNodes options ∧
        rule.matchNodes = other.matchNodes ∧
        rule.upstreamNodes options = other.upstreamNodes options ∧
        (rule.serverParts options).flatten = (other.serverParts options).flatten := by
  rw [flatten_httpParts, flatten_httpParts,
    flatten_inj (by decide) (ofKinds_httpParts rule options) (ofKinds_httpParts other options)]
  simp only [httpParts, List.cons.injEq, Node.block.injEq, true_and, and_true]

/-- The document of a TCP rule, behind the comment in front. -/
theorem flatten_streamNodes (rule : Rule) (options : RenderOptions) (port : UInt16) :
    rule.streamNodes options port =
      [rule.upstreamNodes options,
        [.blank, .block "server" [] (rule.streamParts options port).flatten]].flatten := by
  rw [streamNodes, flatten_streamParts]
  simp only [List.flatten_cons, List.flatten_nil, List.append_nil]

/-- Equal documents for connections, apart from the comments in front. -/
theorem streamNodes_inj {port port' : UInt16} :
    rule.streamNodes options port = other.streamNodes options port' ↔
      rule.upstreamNodes options = other.upstreamNodes options ∧
        (rule.streamParts options port).flatten = (other.streamParts options port').flatten := by
  have ofKinds (rule : Rule) (port : UInt16) :
      List.Forall₂ OfKinds [[("upstream", 1)], [("", 0), ("server", 0)]]
        [rule.upstreamNodes options,
          [.blank, .block "server" [] (rule.streamParts options port).flatten]] :=
    .cons (ofKinds_upstreamNodes rule options) (.cons (ofKinds_server _) .nil)
  rw [flatten_streamNodes, flatten_streamNodes,
    flatten_inj (by decide) (ofKinds rule port) (ofKinds other port')]
  simp only [List.cons.injEq, Node.block.injEq, true_and, and_true]

/-- No document is one for HTTP and for connections: the server of one is named, that of the other
passes on at once. -/
theorem httpNodes_ne_streamNodes {port : UInt16} :
    rule.httpNodes options ≠ other.streamNodes options port := by
  intro same
  rw [httpNodes, streamNodes] at same
  have servers := List.append_inj_right' same rfl
  simp [listenNodes] at servers

end Rule

end ProxyKeeper
