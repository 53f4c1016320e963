import Mathlib.Data.List.Nodup
import ProxyKeeper.Proofs.Nginx.Directives
import ProxyKeeper.Proofs.Rule.Valid
import ProxyKeeper.Proofs.Store.FileNames

/-!
# References between directives

A document declares groups of servers, conditions and zones at its top and refers to them by name
further down. The names hold the id of the rule, so the documents of rules with different ids do not
get in each other's way, and each reference leads to one declaration in the document it stands in.

## Main Definitions

* `Rule.nodesOf` — the nodes of the documents of some rules
* `Rule.DeclaresOnce` — one block of a name among all of them, and it is in the own document
* `Rule.Resolves` — what the references in the document of a rule lead to

## Main Results

* `Rule.references_resolve` — references lead to one declaration
-/

namespace ProxyKeeper

open Nginx

namespace Rule

variable {rule other : Rule} {options : RenderOptions}

/-! ## What the parts of a document use -/

theorem only_optional {α : Type} {name : String} {names : List String} (allowed : name ∈ names)
    (args : α → List String) (setting : Option α) :
    Only names (optionalDirective name args setting) := by
  cases setting with
  | none => exact .nil
  | some a => exact .directive allowed _

theorem only_rateLimitZoneNodes (rule : Rule) (options : RenderOptions) :
    Only ["limit_req_zone"] (rule.rateLimitZoneNodes options) := by
  rw [rateLimitZoneNodes]
  split
  · exact .nil
  · split
    · exact .nil
    · exact .directive (by decide) _

theorem only_matchNodes (rule : Rule) : Only ["match", "status"] rule.matchNodes := by
  rw [matchNodes]
  split
  · exact .nil
  · exact .block (by decide) _ (.directive (by decide) _)

theorem only_serverNodes (rule : Rule) : Only ["server"] rule.serverNodes := by
  rw [serverNodes]
  split
  · refine .of_directives fun node listed => ?_
    obtain ⟨target, _, rfl⟩ := List.mem_map.1 listed
    exact ⟨"server", List.mem_singleton_self _, _, rfl⟩
  · exact .directive (by decide) _

theorem only_methodNodes (method : LoadBalancingMethod) :
    Only ["least_conn", "ip_hash"] (methodNodes method) := by
  cases method with
  | roundRobin => exact .nil
  | leastConnections => exact .directive (by decide) _
  | ipHash => exact .directive (by decide) _

theorem only_upstreamNodes (rule : Rule) (options : RenderOptions) :
    Only ["upstream", "zone", "least_conn", "ip_hash", "server"] (rule.upstreamNodes options) := by
  rw [upstreamNodes]
  split
  · refine .block (by decide) _ (.append (.append ?_ ?_) ?_)
    · split
      · exact .directive (by decide) _
      · exact .nil
    · exact (only_methodNodes _).mono (by decide)
    · exact (only_serverNodes rule).mono (by decide)
  · exact .nil

theorem only_listenNodes (rule : Rule) :
    Only ["listen", "server_name", "ssl_certificate", "ssl_certificate_key"] rule.listenNodes := by
  have certificate : Only
      ["listen", "server_name", "ssl_certificate", "ssl_certificate_key"]
      (if rule.isTls then
        optionalDirective "ssl_certificate" (fun path => [path]) rule.sslCertPath ++
          optionalDirective "ssl_certificate_key" (fun path => [path]) rule.sslKeyPath
      else []) := by
    split
    · exact (only_optional (by decide) _ _).append (only_optional (by decide) _ _)
    · exact .nil
  exact .append (.directive (by decide) _) (.append (.directive (by decide) _) certificate)

/-- Settings that are not given use nothing. -/
theorem only_elim {names : List String} {settings : Option AdvancedConfig}
    {nodes : AdvancedConfig → List Node} (h : ∀ given, Only names (nodes given)) :
    Only names (settings.elim [] nodes) := by
  cases settings with
  | none => exact .nil
  | some given => exact h given

theorem only_bufferNodes (settings : AdvancedConfig) :
    Only ["client_max_body_size", "proxy_buffer_size", "proxy_buffers"] (bufferNodes settings) :=
  ((only_optional (by decide) _ _).append (only_optional (by decide) _ _)).append
    (only_optional (by decide) _ _)

theorem only_timeoutNodes (settings : AdvancedConfig) :
    Only ["proxy_connect_timeout", "proxy_send_timeout", "proxy_read_timeout"]
      (timeoutNodes settings) :=
  ((only_optional (by decide) _ _).append (only_optional (by decide) _ _)).append
    (only_optional (by decide) _ _)

theorem only_cacheNodes (options : RenderOptions) (settings : AdvancedConfig) :
    Only ["proxy_cache", "proxy_cache_valid"] (cacheNodes options settings) := by
  rw [cacheNodes]
  split
  · exact .nil
  · exact .append (.directive (by decide) _) (.directive (by decide) _)

theorem only_corsNodes (settings : AdvancedConfig) :
    Only ["add_header", "if", "return"] (corsNodes settings) := by
  rw [corsNodes]
  split
  · exact .nil
  · refine .append (.append ?_ ?_) (.block (by decide) _ (.directive (by decide) _))
    · exact .append (.directive (by decide) _)
        (.append (.directive (by decide) _) (.directive (by decide) _))
    · split
      · exact .directive (by decide) _
      · exact .nil

theorem only_limitNodes (rule : Rule) (options : RenderOptions) :
    Only ["limit_req"] (rule.limitNodes options) := by
  rw [limitNodes]
  split
  · exact .nil
  · exact .directive (by decide) _

theorem only_rewriteNodes (settings : AdvancedConfig) :
    Only ["rewrite"] (rewriteNodes settings) := by
  refine .of_directives fun node listed => ?_
  obtain ⟨rewrite, _, rfl⟩ := List.mem_map.1 listed
  exact ⟨"rewrite", List.mem_singleton_self _, _, rfl⟩

theorem only_healthNodes (rule : Rule) :
    Only ["health_check", "proxy_connect_timeout", "proxy_read_timeout"] rule.healthNodes := by
  rw [healthNodes]
  split
  · exact .nil
  · refine .append (.append (.directive (by decide) _) ?_) ?_
    · split
      · exact .nil
      · exact .directive (by decide) _
    · split
      · exact .nil
      · exact .directive (by decide) _

/-- Headers use the name of their directive. -/
theorem only_headers (name : String) (headers : HeaderMap) :
    Only [name] (headers.entries.map fun (header, value) => .directive name [header, value]) := by
  refine .of_directives fun node listed => ?_
  obtain ⟨header, _, rfl⟩ := List.mem_map.1 listed
  exact ⟨name, List.mem_singleton_self _, _, rfl⟩

theorem only_streamTimeoutNodes (settings : AdvancedConfig) :
    Only ["proxy_connect_timeout", "proxy_timeout"] (streamTimeoutNodes settings) :=
  (only_optional (by decide) _ _).append (only_optional (by decide) _ _)

theorem only_streamHealthNodes (rule : Rule) :
    Only ["health_check", "health_check_timeout"] rule.streamHealthNodes := by
  rw [streamHealthNodes]
  split
  · exact .nil
  · exact .append (.directive (by decide) _) (.directive (by decide) _)

/-! ## What a document says about references -/

/-- The names under which an HTTP document neither declares anything nor refers to a declaration. -/
def settingNames : List String :=
  ["listen", "server_name", "ssl_certificate", "ssl_certificate_key", "client_max_body_size",
   "proxy_buffer_size", "proxy_buffers", "proxy_set_header", "add_header", "proxy_connect_timeout",
   "proxy_send_timeout", "proxy_read_timeout", "proxy_cache", "proxy_cache_valid", "if", "return",
   "rewrite"]

/-- The settings of a server. -/
theorem only_serverSettings (rule : Rule) :
    Only settingNames (rule.listenNodes ++ rule.advanced.elim [] bufferNodes) :=
  ((only_listenNodes rule).mono (by decide)).append
    (only_elim fun given => (only_bufferNodes given).mono (by decide))

/-- The settings of a location in front of its limit. -/
def locationSettings (rule : Rule) (options : RenderOptions) : List Node :=
  rule.headers.entries.map (fun (name, value) => .directive "proxy_set_header" [name, value]) ++
    rule.responseHeaders.entries.map (fun (name, value) => .directive "add_header" [name, value]) ++
    rule.advanced.elim [] fun settings =>
      timeoutNodes settings ++ cacheNodes options settings ++ corsNodes settings

/-- The content of a location, by what refers to declarations and what does not. -/
theorem locationNodes_eq (rule : Rule) (options : RenderOptions) :
    rule.locationNodes options = [.directive "proxy_pass" [rule.httpPass options]] ++
      rule.locationSettings options ++ rule.limitNodes options ++
      rule.advanced.elim [] rewriteNodes ++ rule.healthNodes := by
  simp only [locationNodes, locationSettings, List.cons_append, List.nil_append, List.append_assoc]

theorem only_locationSettings (rule : Rule) (options : RenderOptions) :
    Only settingNames (rule.locationSettings options) :=
  (((only_headers _ _).mono (by decide)).append ((only_headers _ _).mono (by decide))).append
    (only_elim fun given =>
      (((only_timeoutNodes given).mono (by decide)).append
        ((only_cacheNodes options given).mono (by decide))).append
        ((only_corsNodes given).mono (by decide)))

theorem only_rewriteSettings (rule : Rule) :
    Only settingNames (rule.advanced.elim [] rewriteNodes) :=
  only_elim fun given => (only_rewriteNodes given).mono (by decide)

/-- What the document of an HTTP rule says under the name of a reference. -/
theorem directives_http {name : String} (other : name ∉ settingNames) :
    directives name (rule.titleNode :: rule.httpNodes options) =
      directives name (rule.rateLimitZoneNodes options) ++ directives name rule.matchNodes ++
        directives name (rule.upstreamNodes options) ++
        ((if "proxy_pass" = name then [[rule.httpPass options]] else []) ++
          directives name (rule.limitNodes options) ++ directives name rule.healthNodes) := by
  have server := (only_serverSettings rule).directives other
  have location := (only_locationSettings rule options).directives other
  have rewrites := (only_rewriteSettings rule).directives other
  have inLocation : directives name (rule.locationNodes options) =
      (if "proxy_pass" = name then [[rule.httpPass options]] else []) ++
        directives name (rule.limitNodes options) ++ directives name rule.healthNodes := by
    rw [locationNodes_eq, directives_append, directives_append, directives_append,
      directives_append, location, rewrites, directives_directive, directives_nil]
    simp only [List.append_nil]
  rw [titleNode, httpNodes, directives_comment, directives_append, directives_append,
    directives_append, directives_blank, directives_block, directives_append, server,
    directives_block, inLocation]
  simp only [directives_nil, List.append_nil, List.nil_append]

/-- The names that are used in a location. -/
theorem only_locationNodes (rule : Rule) (options : RenderOptions) :
    Only (settingNames ++ ["proxy_pass", "limit_req", "health_check"])
      (rule.locationNodes options) := by
  have inFront := List.subset_append_left settingNames ["proxy_pass", "limit_req", "health_check"]
  rw [locationNodes_eq]
  exact ((((Only.directive (by decide) _).append
    ((only_locationSettings rule options).mono inFront)).append
    ((only_limitNodes rule options).mono (by decide))).append
    ((only_rewriteSettings rule).mono inFront)).append
    ((only_healthNodes rule).mono (by decide))

/-- The blocks of the document of an HTTP rule, apart from its server and location. -/
theorem blocks_http {name : String}
    (unused : name ∉ settingNames ++ ["proxy_pass", "limit_req", "health_check", "limit_req_zone"])
    (other : name ≠ "server" ∧ name ≠ "location") :
    blocks name (rule.titleNode :: rule.httpNodes options) =
      blocks name rule.matchNodes ++ blocks name (rule.upstreamNodes options) := by
  have server := ((only_serverSettings rule).mono
    (List.subset_append_left settingNames _)).blocks unused
  have location := ((only_locationNodes rule options).mono (by decide)).blocks unused
  have zone := ((only_rateLimitZoneNodes rule options).mono (by decide)).blocks unused
  rw [titleNode, httpNodes, blocks_comment, blocks_append, blocks_append, blocks_append, zone,
    blocks_blank, blocks_block, if_neg (Ne.symm other.1), blocks_append, server,
    blocks_block, if_neg (Ne.symm other.2), location]
  simp only [blocks_nil, List.append_nil, List.nil_append]

/-- What the document of a TCP rule says under the name of a reference. -/
theorem directives_stream {name : String} {port : UInt16}
    (other : name ∉ ["listen", "proxy_connect_timeout", "proxy_timeout"]) :
    directives name (rule.titleNode :: rule.streamNodes options port) =
      directives name (rule.upstreamNodes options) ++
        ((if "proxy_pass" = name then [[rule.streamPass options]] else []) ++
          directives name rule.streamHealthNodes) := by
  have timeouts := ((only_elim only_streamTimeoutNodes : Only _
    (rule.advanced.elim [] streamTimeoutNodes)).mono (by decide)).directives other
  have listen : "listen" ≠ name := by
    rintro rfl
    exact other (by decide)
  rw [titleNode, streamNodes, directives_comment, directives_append, directives_blank,
    directives_block, directives_append, directives_append, timeouts, directives_directive,
    if_neg listen, directives_directive]
  simp only [directives_nil, List.append_nil, List.nil_append]

/-- The blocks of the document of a TCP rule, apart from its server. -/
theorem blocks_stream {name : String} {port : UInt16}
    (unused : name ∉
      ["proxy_connect_timeout", "proxy_timeout", "health_check", "health_check_timeout"])
    (other : name ≠ "server") :
    blocks name (rule.titleNode :: rule.streamNodes options port) =
      blocks name (rule.upstreamNodes options) := by
  have timeouts := ((only_elim only_streamTimeoutNodes : Only _
    (rule.advanced.elim [] streamTimeoutNodes)).mono (by decide)).blocks unused
  have health := ((only_streamHealthNodes rule).mono (by decide)).blocks unused
  rw [titleNode, streamNodes, blocks_comment, blocks_append, blocks_blank, blocks_block,
    if_neg (Ne.symm other), blocks_append, blocks_append, timeouts, health]
  simp only [blocks_directive, blocks_nil, List.append_nil]

/-! ## Declarations -/

/-- The content of a rule's group of servers. -/
def groupNodes (rule : Rule) (options : RenderOptions) : List Node :=
  (if rule.healthCheck.isSome then [.directive "zone" [rule.upstreamName options, "64k"]]
    else []) ++
    methodNodes rule.method ++ rule.serverNodes

theorem blocks_upstreamNodes (rule : Rule) (options : RenderOptions) :
    blocks "upstream" (rule.upstreamNodes options) =
      if rule.needsUpstream then [([rule.upstreamName options], rule.groupNodes options)]
      else [] := by
  have inside : blocks "upstream" (rule.groupNodes options) = [] := by
    rw [groupNodes, blocks_append, blocks_append,
      (only_methodNodes _).blocks (by decide : "upstream" ∉ _),
      (only_serverNodes rule).blocks (by decide : "upstream" ∉ _)]
    split <;> rfl
  rw [upstreamNodes]
  split
  · rw [show rule.upstreamNode options =
        .block "upstream" [rule.upstreamName options] (rule.groupNodes options) from rfl,
      blocks_block, if_pos rfl, inside]
    rfl
  · rfl

/-- The groups of servers in the document of a valid rule. -/
theorem blocks_upstream_document (valid : rule.validate = .ok ()) {own : Document}
    (made : rule.document options = .ok own) :
    blocks "upstream" own =
      if rule.needsUpstream then [([rule.upstreamName options], rule.groupNodes options)]
      else [] := by
  rw [← blocks_upstreamNodes]
  rcases eq_of_document valid made with ⟨_, rfl⟩ | ⟨_, port, _, rfl⟩
  · rw [blocks_http (by decide) (by decide),
      (only_matchNodes rule).blocks (by decide : "upstream" ∉ _), List.nil_append]
  · exact blocks_stream (by decide) (by decide)

/-- The conditions on answers in the document of a valid rule. -/
theorem blocks_match_document (valid : rule.validate = .ok ()) {own : Document}
    (made : rule.document options = .ok own) :
    blocks "match" own =
      match rule.context, rule.healthCheck with
      | .http, some check =>
        [([rule.matchName],
          [.directive "status" (check.successCodes.map fun code => toString code.toNat)])]
      | _, _ => [] := by
  have groups := (only_upstreamNodes rule options).blocks (by decide : "match" ∉ _)
  rcases eq_of_document valid made with ⟨context, rfl⟩ | ⟨context, port, _, rfl⟩
  · rw [blocks_http (by decide) (by decide), groups, List.append_nil, context, matchNodes]
    cases rule.healthCheck with
    | none => rfl
    | some check =>
      rw [blocks_block, if_pos rfl]
      rfl
  · rw [blocks_stream (by decide) (by decide), groups, context]

/-! ## All documents together -/

/-- The nodes of the documents of some rules, all together. -/
def nodesOf (options : RenderOptions) (rules : List Rule) : List Node :=
  rules.flatMap fun rule => (rule.document options).toOption.getD []

/-- Whether among the nodes of all documents there is one block of a name with some arguments, and
it is in the document at hand. -/
structure DeclaresOnce (name : String) (args : List String) (content all own : List Node) :
    Prop where
  once : (blocks name all).filter (·.1 = args) = [(args, content)]
  here : (args, content) ∈ blocks name own

theorem nodesOf_append (options : RenderOptions) (front back : List Rule) :
    nodesOf options (front ++ back) = nodesOf options front ++ nodesOf options back :=
  List.flatMap_append

/-- What no document of some rules has, they do not have together. -/
theorem filter_blocks_eq_nil {rules : List Rule} {name : String} {args : List String}
    (h : ∀ rule ∈ rules, ∀ own, rule.document options = .ok own →
      ∀ block ∈ blocks name own, block.1 ≠ args) :
    (blocks name (nodesOf options rules)).filter (·.1 = args) = [] := by
  induction rules with
  | nil => rfl
  | cons rule rules ih =>
    obtain ⟨mine, others⟩ := List.forall_mem_cons.1 h
    rw [nodesOf, List.flatMap_cons, blocks_append, List.filter_append, ← nodesOf, ih others,
      List.append_nil]
    cases made : rule.document options with
    | error fault => rfl
    | ok own =>
      refine List.filter_eq_nil_iff.2 fun block inside => ?_
      simpa using mine own made block inside

/-- A block that only the own document has is declared once by all of them. -/
theorem declaresOnce {rules : List Rule} (nodup : (rules.map Rule.id).Nodup) (listed : rule ∈ rules)
    {name : String} {args : List String} {content : List Node} {own : Document}
    (made : rule.document options = .ok own) (here : blocks name own = [(args, content)])
    (elsewhere : ∀ other ∈ rules, other.id ≠ rule.id → ∀ own, other.document options = .ok own →
      ∀ block ∈ blocks name own, block.1 ≠ args) :
    DeclaresOnce name args content (nodesOf options rules) own := by
  refine ⟨?_, here ▸ List.mem_singleton_self _⟩
  obtain ⟨front, back, rfl⟩ := List.append_of_mem listed
  rw [List.map_append, List.map_cons, List.nodup_middle, List.nodup_cons, ← List.map_append]
    at nodup
  have apart {other : Rule} (inRules : other ∈ front ++ back) : other.id ≠ rule.id :=
    fun same => nodup.1 (List.mem_map.2 ⟨other, inRules, same⟩)
  have before := filter_blocks_eq_nil fun other (inFront : other ∈ front) =>
    elsewhere other (by simp [inFront]) (apart (List.mem_append_left _ inFront))
  have behind := filter_blocks_eq_nil fun other (inBack : other ∈ back) =>
    elsewhere other (by simp [inBack]) (apart (List.mem_append_right _ inBack))
  rw [nodesOf_append, blocks_append, List.filter_append, before, nodesOf, List.flatMap_cons,
    blocks_append, List.filter_append, ← nodesOf, behind, made]
  show [] ++ ((blocks name own).filter (·.1 = args) ++ []) = _
  rw [here]
  simp

/-! ## Names -/

theorem id_eq_of_upstreamName (same : other.upstreamName options = rule.upstreamName options) :
    other.id = rule.id :=
  (String.append_right_inj _).1 same

theorem id_eq_of_matchName (same : other.matchName = rule.matchName) : other.id = rule.id :=
  (String.append_right_inj _).1 same

/-- A container with its port is no name of a group, for it holds a colon. -/
theorem singleAddress_ne_upstreamName (valid : rule.validate = .ok ())
    (stem : isIdentifier options.upstreamStem = true) :
    rule.singleAddress ≠ rule.upstreamName options := by
  intro same
  have colon : ':' ∈ (rule.upstreamName options).toList := by
    rw [← same, singleAddress, address]
    simp
  rw [upstreamName, String.toList_append, String.toList_append, List.mem_append,
    List.mem_append] at colon
  rcases colon with (inStem | between) | inId
  · rw [isIdentifier, Bool.and_eq_true] at stem
    exact absurd (List.all_eq_true.1 stem.2 _ inStem) (by decide)
  · exact absurd between (by decide)
  · exact Store.notMem_of_isRuleId (isRuleId_of_validate valid) (by decide) inId

/-! ## References -/

/-- What stands in front of the target of a rule's requests. -/
def passScheme (rule : Rule) : String :=
  match rule.context with
  | .http => if rule.backendHttps then "https://" else "http://"
  | .stream => ""

/-- What the references in the document of a rule lead to, when it stands among others. -/
structure Resolves (rule : Rule) (options : RenderOptions) (all own : List Node) : Prop where
  /-- Requests go to the group of servers or to the single container. -/
  pass : ∃ target, directives "proxy_pass" own = [[rule.passScheme ++ target]] ∧
    (target = options.upstreamStem ++ "_" ++ rule.id ↔
      rule.targets ≠ [] ∨ rule.healthCheck ≠ none) ∧
    (rule.targets = [] → rule.healthCheck = none →
      target = rule.targetContainer ++ ":" ++ toString rule.targetPort.toNat)
  /-- The group of servers is declared once and has servers. -/
  group : rule.targets ≠ [] ∨ rule.healthCheck ≠ none → ∃ content,
    DeclaresOnce "upstream" [options.upstreamStem ++ "_" ++ rule.id] content all own ∧
      directives "server" content ≠ [] ∧
      (rule.healthCheck ≠ none → (directives "zone" content).length = 1)
  /-- There is a health check in the document when the rule has one. -/
  checks : directives "health_check" own ≠ [] ↔ rule.healthCheck ≠ none
  /-- The condition of a health check for HTTP is declared once. -/
  condition : rule.context = .http → ∀ args ∈ directives "health_check" own,
    setting "match" ("hc_" ++ rule.id) ∈ args ∧
      ∃ content, DeclaresOnce "match" ["hc_" ++ rule.id] content all own
  /-- The document of an HTTP rule has a limit when the rule has one that is enabled. -/
  limits : rule.context = .http → (directives "limit_req" own ≠ [] ↔ rule.rateLimit? ≠ none)
  /-- The zone of a limit is the shared one or is declared once in front of the server. -/
  zone : ∀ args ∈ directives "limit_req" own, ∃ limit zone, rule.rateLimit? = some limit ∧
    args.head? = some (setting "zone" zone) ∧
    (zone = options.rateLimitZone ∧ limit.perIp = true ∧
        limit.requestsPerSecond = options.rateLimitZoneRps ∨
      zone = "rl_" ++ rule.id ∧ ∃ declaration front server,
        directives "limit_req_zone" own = [declaration] ∧
        own = front ++ [.block "server" [] server] ∧
        .directive "limit_req_zone" declaration ∈ front ∧
        declaration = [if limit.perIp then "$binary_remote_addr" else "$server_name",
          setting "zone" ("rl_" ++ rule.id ++ ":10m"),
          setting "rate" (toString limit.requestsPerSecond.toNat ++ "r/s")])

theorem needsUpstream_iff :
    rule.needsUpstream = true ↔ rule.targets ≠ [] ∨ rule.healthCheck ≠ none := by
  rw [needsUpstream, usesUpstream, Bool.or_eq_true, Bool.not_eq_true', List.isEmpty_eq_false_iff,
    Option.isSome_iff_ne_none]

/-- The target of the requests of a valid rule. -/
theorem proxyPass_document (valid : rule.validate = .ok ()) {own : Document}
    (made : rule.document options = .ok own) :
    directives "proxy_pass" own =
      [[rule.passScheme ++
        if rule.needsUpstream then rule.upstreamName options else rule.singleAddress]] := by
  have groups := (only_upstreamNodes rule options).directives (by decide : "proxy_pass" ∉ _)
  rcases eq_of_document valid made with ⟨context, rfl⟩ | ⟨context, port, _, rfl⟩
  · have pass : rule.httpPass options = rule.passScheme ++
        if rule.needsUpstream then rule.upstreamName options else rule.singleAddress := by
      rw [httpPass, passScheme, context]
      cases rule.backendHttps <;> rfl
    rw [directives_http (by decide), groups, if_pos rfl, pass,
      (only_rateLimitZoneNodes rule options).directives (by decide),
      (only_matchNodes rule).directives (by decide),
      (only_limitNodes rule options).directives (by decide),
      (only_healthNodes rule).directives (by decide)]
    rfl
  · have pass : rule.streamPass options = rule.passScheme ++
        if rule.needsUpstream then rule.upstreamName options else rule.singleAddress := by
      rw [streamPass, passScheme, context, String.empty_append]
    rw [directives_stream (by decide), groups, if_pos rfl, pass,
      (only_streamHealthNodes rule).directives (by decide)]
    rfl

/-- The health check in the document of a valid rule is that of its server or location. -/
theorem healthCheck_document (valid : rule.validate = .ok ()) {own : Document}
    (made : rule.document options = .ok own) :
    directives "health_check" own =
      match rule.context with
      | .http => directives "health_check" rule.healthNodes
      | .stream => directives "health_check" rule.streamHealthNodes := by
  have groups := (only_upstreamNodes rule options).directives (by decide : "health_check" ∉ _)
  rcases eq_of_document valid made with ⟨context, rfl⟩ | ⟨context, port, _, rfl⟩
  · rw [directives_http (by decide), groups, if_neg (by decide), context,
      (only_rateLimitZoneNodes rule options).directives (by decide),
      (only_matchNodes rule).directives (by decide),
      (only_limitNodes rule options).directives (by decide)]
    rfl
  · rw [directives_stream (by decide), groups, if_neg (by decide), context]
    rfl

/-- A rule has a group of servers that no other rule has, with a server and, for a health check, a
zone. -/
theorem declares_group {rules : List Rule} (valid : ∀ rule ∈ rules, rule.validate = .ok ())
    (nodup : (rules.map Rule.id).Nodup) (listed : rule ∈ rules) {own : Document}
    (made : rule.document options = .ok own) (needs : rule.needsUpstream = true) :
    DeclaresOnce "upstream" [rule.upstreamName options] (rule.groupNodes options)
      (nodesOf options rules) own := by
  refine declaresOnce nodup listed made ?_ ?_
  · rw [blocks_upstream_document (valid rule listed) made, if_pos needs]
  · intro other inRules ne its itsMade block inside same
    rw [blocks_upstream_document (valid other inRules) itsMade] at inside
    split at inside
    · obtain rfl := List.mem_singleton.1 inside
      exact ne (id_eq_of_upstreamName (List.singleton_inj.1 same))
    · cases inside

/-- A rule has a condition on answers that no other rule has. -/
theorem declares_condition {rules : List Rule} (valid : ∀ rule ∈ rules, rule.validate = .ok ())
    (nodup : (rules.map Rule.id).Nodup) (listed : rule ∈ rules) {own : Document}
    (made : rule.document options = .ok own) (context : rule.context = .http) {check : HealthCheck}
    (checked : rule.healthCheck = some check) :
    ∃ content, DeclaresOnce "match" [rule.matchName] content (nodesOf options rules) own := by
  have mine := blocks_match_document (valid rule listed) made
  rw [context, checked] at mine
  refine ⟨_, declaresOnce nodup listed made mine ?_⟩
  · intro other inRules ne its itsMade block inside same
    rw [blocks_match_document (valid other inRules) itsMade] at inside
    split at inside
    · obtain rfl := List.mem_singleton.1 inside
      exact ne (id_eq_of_matchName (List.singleton_inj.1 same))
    · cases inside

theorem server_groupNodes (rule : Rule) (options : RenderOptions) :
    directives "server" (rule.groupNodes options) ≠ [] := by
  have servers : directives "server" rule.serverNodes ≠ [] := by
    rw [serverNodes]
    split
    next several =>
      cases listed : rule.targets with
      | nil => simp [usesUpstream, listed] at several
      | cons target targets => simp
    next => simp
  rw [groupNodes, directives_append]
  exact List.append_ne_nil_of_right_ne_nil _ servers

theorem zone_groupNodes (checked : rule.healthCheck ≠ none) :
    directives "zone" (rule.groupNodes options) = [[rule.upstreamName options, "64k"]] := by
  rw [groupNodes, if_pos (Option.isSome_iff_ne_none.2 checked), directives_append,
    directives_append, (only_methodNodes _).directives (by decide),
    (only_serverNodes rule).directives (by decide), directives_directive, if_pos rfl]
  rfl

/-- The limit in the document of a valid rule is that of its location. -/
theorem limit_document (valid : rule.validate = .ok ()) {own : Document}
    (made : rule.document options = .ok own) :
    directives "limit_req" own =
      match rule.context with
      | .http => directives "limit_req" (rule.limitNodes options)
      | .stream => [] := by
  have groups := (only_upstreamNodes rule options).directives (by decide : "limit_req" ∉ _)
  rcases eq_of_document valid made with ⟨context, rfl⟩ | ⟨context, port, _, rfl⟩
  · rw [directives_http (by decide), groups, if_neg (by decide), context,
      (only_rateLimitZoneNodes rule options).directives (by decide),
      (only_matchNodes rule).directives (by decide),
      (only_healthNodes rule).directives (by decide)]
    exact List.append_nil _
  · rw [directives_stream (by decide), groups, if_neg (by decide), context,
      (only_streamHealthNodes rule).directives (by decide)]
    rfl

/-- The zones of limits that are declared in the document of a valid HTTP rule. -/
theorem limitZone_document (valid : rule.validate = .ok ()) (context : rule.context = .http)
    {own : Document} (made : rule.document options = .ok own) :
    directives "limit_req_zone" own =
        directives "limit_req_zone" (rule.rateLimitZoneNodes options) ∧
      ∃ front server, own = front ++ [.block "server" [] server] ∧
        rule.rateLimitZoneNodes options ⊆ front := by
  rcases eq_of_document valid made with ⟨_, rfl⟩ | ⟨stream, _⟩
  · refine ⟨?_, rule.titleNode :: (rule.rateLimitZoneNodes options ++ rule.matchNodes ++
      rule.upstreamNodes options ++ [.blank]),
      rule.listenNodes ++ rule.advanced.elim [] bufferNodes ++
        [.block "location" [rule.effectivePath] (rule.locationNodes options)], ?_, ?_⟩
    · rw [directives_http (by decide), if_neg (by decide),
        (only_matchNodes rule).directives (by decide),
        (only_upstreamNodes rule options).directives (by decide),
        (only_limitNodes rule options).directives (by decide),
        (only_healthNodes rule).directives (by decide)]
      simp only [List.append_nil]
    · simp only [httpNodes, List.cons_append, List.append_assoc, List.nil_append]
    · intro node listed
      simp [listed]
  · rw [context] at stream
    cases stream

/-- A health check for HTTP refers to the condition of its rule. -/
theorem match_of_mem_healthNodes {args : List String}
    (said : args ∈ directives "health_check" rule.healthNodes) :
    ∃ check, rule.healthCheck = some check ∧ setting "match" rule.matchName ∈ args := by
  rw [healthNodes] at said
  cases checked : rule.healthCheck with
  | none =>
    rw [checked] at said
    cases said
  | some check =>
    have timeouts : ∀ (set : Bool) (name : String) (args : List String), name ≠ "health_check" →
        directives "health_check" (if set then [] else [.directive name args]) = [] := by
      intro set name args other
      cases set <;> simp [other]
    rw [checked] at said
    simp only [directives_append, timeouts, ne_eq, String.reduceEq, not_false_eq_true] at said
    rw [directives_directive, if_pos rfl] at said
    obtain rfl := List.mem_singleton.1 said
    exact ⟨check, rfl, by simp⟩

/-- A limit refers to a zone. -/
theorem zone_of_mem_limitNodes {args : List String}
    (said : args ∈ directives "limit_req" (rule.limitNodes options)) :
    ∃ limit, rule.rateLimit? = some limit ∧
      args.head? = some (setting "zone" (rule.rateLimitZone options limit)) := by
  rw [limitNodes] at said
  cases limited : rule.rateLimit? with
  | none =>
    rw [limited] at said
    cases said
  | some limit =>
    rw [limited, directives_directive, if_pos rfl] at said
    obtain rfl := List.mem_singleton.1 said
    exact ⟨limit, rfl, rfl⟩

/-- Among the documents of valid rules with different ids, under the names of a valid configuration,
each reference leads to one declaration, in the document that it stands in. -/
theorem references_resolve {config : ManagerConfig} (validConfig : config.validate = .ok ())
    {rules : List Rule} (valid : ∀ rule ∈ rules, rule.validate = .ok ())
    (nodup : (rules.map Rule.id).Nodup) {rule : Rule} (listed : rule ∈ rules) :
    ∃ own, rule.document config.renderOptions = .ok own ∧
      rule.Resolves config.renderOptions (nodesOf config.renderOptions rules) own := by
  have validRule := valid rule listed
  obtain ⟨own, made, _⟩ := exists_document_of_validate validRule config.renderOptions
  have stem : isIdentifier config.renderOptions.upstreamStem = true :=
    ManagerConfig.isIdentifier_upstreamStem validConfig
  refine ⟨own, made, ?_, ?_, ?_, ?_, ?_, ?_⟩
  · refine ⟨_, proxyPass_document validRule made, ?_, ?_⟩
    · rw [← needsUpstream_iff]
      split
      next needs => exact iff_of_true rfl needs
      next alone => exact iff_of_false (singleAddress_ne_upstreamName validRule stem) alone
    · intro none unchecked
      have alone : ¬ rule.needsUpstream = true := by
        rw [needsUpstream_iff, none, unchecked]
        simp
      rw [if_neg alone]
      rfl
  · intro needs
    exact ⟨_, declares_group valid nodup listed made (needsUpstream_iff.2 needs),
      server_groupNodes rule _, fun checked => by rw [zone_groupNodes checked]; rfl⟩
  · rw [healthCheck_document validRule made, healthNodes, streamHealthNodes]
    cases rule.context <;> cases rule.healthCheck <;> simp
  · intro context args said
    rw [healthCheck_document validRule made, context] at said
    obtain ⟨check, checked, refers⟩ := match_of_mem_healthNodes said
    exact ⟨refers, declares_condition valid nodup listed made context checked⟩
  · intro context
    rw [limit_document validRule made, context, limitNodes]
    cases rule.rateLimit? <;> simp
  · intro args said
    rw [limit_document validRule made] at said
    cases context : rule.context with
    | stream => simp [context] at said
    | http =>
      rw [context] at said
      obtain ⟨limit, limited, refers⟩ := zone_of_mem_limitNodes said
      refine ⟨limit, _, limited, refers, ?_⟩
      obtain ⟨zones, front, server, split, declared⟩ := limitZone_document validRule context made
      rw [rateLimitZoneNodes, limited] at zones declared
      rw [rateLimitZone]
      cases shared : usesSharedZone limit config.renderOptions with
      | true =>
        rw [usesSharedZone, Bool.and_eq_true, beq_iff_eq] at shared
        exact .inl ⟨rfl, shared⟩
      | false =>
        simp only [shared] at zones declared
        exact .inr ⟨rfl, _, front, server, zones, split, declared (List.mem_singleton_self _), rfl⟩

/-- A rule for two containers with a health check and a limit of its own, next to a rule for
connections to one container. -/
theorem references_resolve_pair :
    let shop : Rule :=
      { id := "shop", targets := [⟨"shop-a", 80, 1⟩, ⟨"shop-b", 80, 2⟩], healthCheck := some {},
        advanced := some { rateLimit := some { enabled := true, perIp := false } },
        created := .epoch }
    let mail : Rule :=
      { id := "mail", protocol := .tcp, targetContainer := "mail", targetPort := 25,
        created := .epoch }
    let config : ManagerConfig := {}
    config.validate = .ok () ∧ (∀ rule ∈ [shop, mail], rule.validate = .ok ()) ∧
      ([shop, mail].map Rule.id).Nodup ∧ ∀ rule ∈ [shop, mail],
        ∃ own, rule.document config.renderOptions = .ok own ∧
          rule.Resolves config.renderOptions (nodesOf config.renderOptions [shop, mail]) own := by
  intro shop mail config
  have validConfig : config.validate = .ok () := by decide
  have valid : ∀ rule ∈ [shop, mail], rule.validate = .ok () := by decide
  have nodup : ([shop, mail].map Rule.id).Nodup := by decide
  exact ⟨validConfig, valid, nodup,
    fun _ listed => references_resolve validConfig valid nodup listed⟩

end Rule

end ProxyKeeper
