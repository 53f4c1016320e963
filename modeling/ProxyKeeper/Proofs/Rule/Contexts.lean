import ProxyKeeper.Proofs.Nginx.Contexts
import ProxyKeeper.Proofs.Rule.Lines
import ProxyKeeper.Proofs.Rule.References

/-!
# The contexts of a rule's document

The document of a valid rule holds in each of its blocks what nginx allows there, and what may stand
once stands once. Two settings can ask for the same directive: a health check sets the timeouts of
its location, and the rule may set them as well. The quotas say that only one of them does.

## Main Definitions

* `Rule.topQuotas`, `Rule.quotasOf` — what stands at the top of a document and in its blocks
* `Rule.KeepsContexts` — a document that respects the contexts of nginx

## Main Results

* `Rule.fits_locationNodes`, `Rule.fits_serverParts`, `Rule.fits_streamParts` — block by block
* `Rule.keepsContexts_of_document` — the document of a valid rule
-/

namespace ProxyKeeper

open Nginx

namespace Rule

variable {rule : Rule} {options : RenderOptions}

/-- What stands at the top of a document. -/
def topQuotas (rule : Rule) : Quotas :=
  match rule.context with
  | .http =>
    [(.comment, .times 1), (.directive "limit_req_zone", .atMost 1), (.block "match", .atMost 1),
     (.block "upstream", .atMost 1), (.blank, .times 1), (.block "server", .times 1)]
  | .stream =>
    [(.comment, .times 1), (.block "upstream", .atMost 1), (.blank, .times 1),
     (.block "server", .times 1)]

/-- What stands in the server of a document. -/
def serverQuotas (rule : Rule) : Quotas :=
  match rule.context with
  | .http =>
    [(.directive "listen", .times 1), (.directive "server_name", .times 1),
     (.directive "ssl_certificate", .times rule.isTls.toNat),
     (.directive "ssl_certificate_key", .times rule.isTls.toNat),
     (.directive "client_max_body_size", .atMost 1), (.directive "proxy_buffer_size", .atMost 1),
     (.directive "proxy_buffers", .atMost 1), (.block "location", .times 1)]
  | .stream =>
    [(.directive "listen", .times 1), (.directive "proxy_pass", .times 1),
     (.directive "proxy_connect_timeout", .atMost 1), (.directive "proxy_timeout", .atMost 1),
     (.directive "health_check", .atMost 1), (.directive "health_check_timeout", .atMost 1)]

/-- What stands in the location of an HTTP document. -/
def locationQuotas (rule : Rule) : Quotas :=
  [(.directive "proxy_pass", .times 1),
   (.directive "proxy_set_header", .times rule.headers.entries.length),
   (.directive "add_header", .any), (.block "if", .atMost 1),
   (.directive "proxy_connect_timeout", .atMost 1), (.directive "proxy_send_timeout", .atMost 1),
   (.directive "proxy_read_timeout", .atMost 1), (.directive "health_check", .atMost 1),
   (.directive "proxy_cache", .atMost 1), (.directive "proxy_cache_valid", .atMost 1),
   (.directive "limit_req", .atMost 1), (.directive "rewrite", .any)]

/-- How many servers are in a group of servers. -/
def groupSize (rule : Rule) : Nat :=
  if rule.usesUpstream then rule.targets.length else 1

/-- What stands in a group of servers. Connections are not spread by their addresses. -/
def groupQuotas (rule : Rule) : Quotas :=
  match rule.context with
  | .http =>
    [(.directive "zone", .atMost 1), (.directive "least_conn", .atMost 1),
     (.directive "ip_hash", .atMost 1), (.directive "server", .times rule.groupSize)]
  | .stream =>
    [(.directive "zone", .atMost 1), (.directive "least_conn", .atMost 1),
     (.directive "server", .times rule.groupSize)]

/-- What stands in the blocks of a document, by their names. -/
def quotasOf (rule : Rule) : String → Quotas
  | "server" => rule.serverQuotas
  | "location" => rule.locationQuotas
  | "upstream" => rule.groupQuotas
  | "match" => [(.directive "status", .times 1)]
  | "if" => [(.directive "return", .times 1)]
  | _ => []

theorem labels_optionalDirective {α : Type} (name : String) (args : α → List String)
    (o : Option α) :
    labels (optionalDirective name args o) = if o.isSome then [.directive name] else [] := by
  cases o <;> rfl

theorem fits_optionalDirective {α : Type} (name : String) (args : α → List String) (o : Option α) :
    Fits [(.directive name, .atMost 1)] (labels (optionalDirective name args o)) :=
  labels_optionalDirective name args o ▸ .optional _ _

theorem obeys_optionalDirective {α : Type} (name : String) (args : α → List String)
    (o : Option α) : Obeys rule.quotasOf (optionalDirective name args o) :=
  .of_fits (fits_optionalDirective name args o) (by simp)

/-! ## Groups of servers and conditions -/

theorem labels_serverNodes (rule : Rule) :
    labels rule.serverNodes = List.replicate rule.groupSize (.directive "server") := by
  rw [serverNodes, groupSize]
  split
  · rw [labels, List.map_map]
    exact List.map_eq_replicate_iff.2 fun _ _ => rfl
  · rfl

theorem fits_groupNodes (valid : rule.validate = .ok ()) (options : RenderOptions) :
    Fits rule.groupQuotas (labels (rule.groupNodes options)) := by
  have zone := Fits.optional rule.healthCheck.isSome (.directive "zone")
  have servers := Fits.replicate rule.groupSize (.directive "server")
  rw [groupNodes, labels_append, labels_append, labels_serverNodes, labels_optional, groupQuotas]
  cases context : rule.context with
  | http =>
    have method : Fits [(.directive "least_conn", .atMost 1), (.directive "ip_hash", .atMost 1)]
        (labels (methodNodes rule.method)) := by
      cases rule.method <;> decide
    exact (zone.append method (by decide)).append servers (by simp)
  | stream =>
    have method : Fits [(.directive "least_conn", .atMost 1)]
        (labels (methodNodes rule.method)) := by
      cases chosen : rule.method with
      | ipHash => exact absurd chosen (method_ne_ipHash_of_validate valid context)
      | _ => decide
    exact (zone.append method (by decide)).append servers (by simp)

theorem obeys_matchNodes (rule : Rule) : Obeys rule.quotasOf rule.matchNodes := by
  rw [matchNodes]
  split
  · exact .nil
  · exact .block (.replicate 1 _) (.of_plain fun _ listed => by simp [Node.label] at listed)

theorem obeys_upstreamNodes (valid : rule.validate = .ok ()) (options : RenderOptions) :
    Obeys rule.quotasOf (rule.upstreamNodes options) := by
  have fits := fits_groupNodes valid options
  rw [upstreamNodes]
  split
  · refine .block fits (.of_plain fun name listed => ?_)
    have known := fits.known _ listed
    rw [groupQuotas] at known
    cases context : rule.context <;> simp [context] at known
  · exact .nil

/-! ## The server of an HTTP rule -/

theorem isSome_certificate (valid : rule.validate = .ok ()) :
    rule.certificate.isSome = rule.isTls := by
  rw [certificate]
  split
  next tls => rw [tls, (paths_of_validate valid tls).1]
  next plain => rw [Bool.eq_false_iff.2 plain, Option.isSome_none]

theorem isSome_key (valid : rule.validate = .ok ()) : rule.key.isSome = rule.isTls := by
  rw [key]
  split
  next tls => rw [tls, (paths_of_validate valid tls).2]
  next plain => rw [Bool.eq_false_iff.2 plain, Option.isSome_none]

theorem fits_serverParts (valid : rule.validate = .ok ()) (http : rule.context = .http)
    (options : RenderOptions) :
    Fits rule.serverQuotas (labels (rule.serverParts options).flatten) := by
  have certificate : Fits [(.directive "ssl_certificate", .times rule.isTls.toNat)]
      (labels (optionalDirective "ssl_certificate" (fun path => [path]) rule.certificate)) := by
    rw [labels_optionalDirective, isSome_certificate valid]
    exact .times _ _
  have key : Fits [(.directive "ssl_certificate_key", .times rule.isTls.toNat)]
      (labels (optionalDirective "ssl_certificate_key" (fun path => [path]) rule.key)) := by
    rw [labels_optionalDirective, isSome_key valid]
    exact .times _ _
  have parts : List.Forall₂ Fits
      [[(.directive "listen", .times 1)], [(.directive "server_name", .times 1)],
       [(.directive "ssl_certificate", .times rule.isTls.toNat)],
       [(.directive "ssl_certificate_key", .times rule.isTls.toNat)],
       [(.directive "client_max_body_size", .atMost 1)],
       [(.directive "proxy_buffer_size", .atMost 1)], [(.directive "proxy_buffers", .atMost 1)],
       [(.block "location", .times 1)]] ((rule.serverParts options).map labels) :=
    .cons (.replicate 1 _) <| .cons (.replicate 1 _) <| .cons certificate <| .cons key <|
      .cons (fits_optionalDirective _ _ _) <| .cons (fits_optionalDirective _ _ _) <|
      .cons (fits_optionalDirective _ _ _) <| .cons (.replicate 1 _) .nil
  rw [labels_flatten, serverQuotas, http]
  exact .flatten parts (by simp)

/-! ## The location of an HTTP rule -/

theorem labels_headers (name : String) (headers : HeaderMap) :
    labels (headers.entries.map fun (header, value) => .directive name [header, value]) =
      List.replicate headers.entries.length (.directive name) := by
  rw [labels, List.map_map]
  exact List.map_eq_replicate_iff.2 fun _ _ => rfl

/-- Answers to other origins are headers and one condition. -/
theorem exists_labels_origins (rule : Rule) :
    ∃ n, labels (rule.cors.elim [] originLines) =
      List.replicate n (.directive "add_header") ++
        if rule.cors.isSome then [.block "if"] else [] := by
  cases rule.cors with
  | none => exact ⟨0, rfl⟩
  | some cors =>
    cases credentials : cors.allowCredentials with
    | false => exact ⟨3, by simp [originLines, credentials, Node.label, List.replicate]⟩
    | true => exact ⟨4, by simp [originLines, credentials, Node.label, List.replicate]⟩

/-- A health check sets the timeouts that the rule does not set. -/
theorem labels_healthNodes (rule : Rule) :
    labels rule.healthNodes =
      (if rule.healthCheck.isSome then [.directive "health_check"] else []) ++
      (if rule.healthCheck.isSome && rule.connectTimeout.isNone then
        [.directive "proxy_connect_timeout"] else []) ++
      (if rule.healthCheck.isSome && rule.readTimeout.isNone then
        [.directive "proxy_read_timeout"] else []) := by
  rw [healthNodes, connectTimeout, readTimeout]
  cases rule.healthCheck with
  | none => rfl
  | some check =>
    cases rule.advanced.bind (·.proxyConnectTimeout) <;>
      cases rule.advanced.bind (·.proxyReadTimeout) <;> rfl

/-- A timeout that has two sources comes from one of them. -/
theorem fits_timeout {α : Type} (name : String) (args : α → List String) (o : Option α)
    (checked : Bool) :
    Fits [(.directive name, .atMost 1)]
      (labels (optionalDirective name args o) ++
        if checked && o.isNone then [.directive name] else []) := by
  rw [labels_optionalDirective]
  cases o with
  | none => simpa using Fits.optional checked (.directive name)
  | some a => simpa using Fits.optional true (.directive name)

theorem fits_cacheLines (rule : Rule) (options : RenderOptions) :
    Fits [(.directive "proxy_cache", .atMost 1), (.directive "proxy_cache_valid", .atMost 1)]
      (labels (rule.cacheDuration.elim [] (cacheLines options))) := by
  cases rule.cacheDuration with
  | none => exact of_decide_eq_true rfl
  | some duration => exact of_decide_eq_true rfl

theorem fits_limitNodes (rule : Rule) (options : RenderOptions) :
    Fits [(.directive "limit_req", .atMost 1)] (labels (rule.limitNodes options)) := by
  rw [limitNodes]
  cases rule.rateLimit? with
  | none => exact .optional false _
  | some limit => exact .optional true _

theorem fits_rewrites (rule : Rule) :
    Fits [(.directive "rewrite", .any)] (labels (rule.rewriteRules.map rewriteLine)) := by
  refine .any fun label listed => ?_
  rw [labels, List.map_map] at listed
  obtain ⟨rewrite, _, rfl⟩ := List.mem_map.1 listed
  rfl

theorem fits_locationNodes (rule : Rule) (options : RenderOptions) :
    Fits rule.locationQuotas (labels (rule.locationNodes options)) := by
  obtain ⟨n, origins⟩ := exists_labels_origins rule
  have headers : Fits [(.directive "add_header", .any)]
      (List.replicate rule.responseHeaders.entries.length (.directive "add_header") ++
        List.replicate n (.directive "add_header")) := by
    rw [← List.replicate_add]
    exact .any fun _ => List.eq_of_mem_replicate
  -- the nodes by their names: the timeouts of the health check stand with those of the rule
  have parts := Fits.flatten (.cons (.replicate 1 (.directive "proxy_pass")) <|
    .cons (.replicate rule.headers.entries.length (.directive "proxy_set_header")) <|
    .cons headers <| .cons (.optional rule.cors.isSome (.block "if")) <|
    .cons (fits_timeout "proxy_connect_timeout" (fun n => [seconds n]) rule.connectTimeout
      rule.healthCheck.isSome) <|
    .cons (fits_optionalDirective "proxy_send_timeout" (fun n => [seconds n]) rule.sendTimeout) <|
    .cons (fits_timeout "proxy_read_timeout" (fun n => [seconds n]) rule.readTimeout
      rule.healthCheck.isSome) <|
    .cons (.optional rule.healthCheck.isSome (.directive "health_check")) <|
    .cons (fits_cacheLines rule options) <| .cons (fits_limitNodes rule options) <|
    .cons (fits_rewrites rule) .nil) (by simp)
  refine parts.perm (List.perm_iff_count.2 fun label => ?_)
  rw [flatten_locationParts, labels_append, labels_healthNodes, labels_flatten, locationParts]
  simp only [List.map_cons, List.map_nil, List.flatten_cons, List.flatten_nil, List.count_append,
    labels_headers, origins, labels_cons, labels_nil, List.replicate_one, Node.label,
    List.count_nil]
  omega

theorem obeys_locationNodes (rule : Rule) (options : RenderOptions) :
    Obeys rule.quotasOf (rule.locationNodes options) := by
  have headers (name : String) (headers : HeaderMap) : Obeys rule.quotasOf
      (headers.entries.map fun (header, value) => .directive name [header, value]) := by
    refine .of_plain fun other listed => ?_
    rw [labels_headers] at listed
    cases List.eq_of_mem_replicate listed
  have origins : Obeys rule.quotasOf (rule.cors.elim [] originLines) := by
    cases rule.cors with
    | none => exact .nil
    | some cors =>
      refine .append (.append (.of_plain fun _ listed => ?_) ?_)
        (.block (.replicate 1 _) (.of_plain fun _ listed => ?_))
      · simp [Node.label] at listed
      · cases cors.allowCredentials with
        | false => exact .nil
        | true => exact .of_plain fun _ listed => by simp [Node.label] at listed
      · simp [Node.label] at listed
  have health : Obeys rule.quotasOf rule.healthNodes := by
    refine .of_plain fun name listed => ?_
    rw [labels_healthNodes] at listed
    simp only [List.mem_append, List.mem_ite_nil_right, List.mem_singleton, reduceCtorEq, and_false,
      or_self] at listed
  rw [flatten_locationParts]
  refine .append (.flatten ?_) health
  simp only [locationParts, List.forall_mem_cons]
  exact ⟨.of_plain fun _ listed => by simp [Node.label] at listed, headers _ _, headers _ _,
    obeys_optionalDirective _ _ _, obeys_optionalDirective _ _ _, obeys_optionalDirective _ _ _,
    .of_fits (fits_cacheLines rule options) (by simp), origins,
    .of_fits (fits_limitNodes rule options) (by simp), .of_fits (fits_rewrites rule) (by simp),
    fun _ listed => (nomatch listed)⟩

/-! ## The server of a TCP rule -/

theorem fits_streamParts (stream : rule.context = .stream) (options : RenderOptions)
    (port : UInt16) :
    Fits rule.serverQuotas (labels (rule.streamParts options port).flatten) := by
  have health : Fits [(.directive "health_check", .atMost 1),
      (.directive "health_check_timeout", .atMost 1)] (labels rule.streamHealthNodes) := by
    rw [streamHealthNodes]
    split
    · decide
    · exact of_decide_eq_true rfl
  have pass : Fits [(.directive "listen", .times 1), (.directive "proxy_pass", .times 1)]
      [.directive "listen", .directive "proxy_pass"] := by
    decide
  have parts := Fits.flatten (.cons pass <|
    .cons (fits_optionalDirective "proxy_connect_timeout" (fun n => [seconds n])
      rule.connectTimeout) <|
    .cons (fits_optionalDirective "proxy_timeout" (fun n => [seconds n]) rule.readTimeout) <|
    .cons health .nil) (by decide)
  rw [labels_flatten, serverQuotas, stream]
  exact parts

theorem obeys_streamParts (rule : Rule) (options : RenderOptions) (port : UInt16) :
    Obeys rule.quotasOf (rule.streamParts options port).flatten := by
  have health : Obeys rule.quotasOf rule.streamHealthNodes := by
    rw [streamHealthNodes]
    split
    · exact .nil
    · exact .of_plain fun _ listed => by simp [Node.label] at listed
  refine .flatten ?_
  simp only [streamParts, List.forall_mem_cons]
  exact ⟨.of_plain fun _ listed => by simp [Node.label] at listed, obeys_optionalDirective _ _ _,
    obeys_optionalDirective _ _ _, health, fun _ listed => absurd listed List.not_mem_nil⟩

/-! ## The document -/

theorem obeys_serverParts (rule : Rule) (options : RenderOptions) :
    Obeys rule.quotasOf (rule.serverParts options).flatten := by
  refine .flatten ?_
  simp only [serverParts, List.forall_mem_cons]
  exact ⟨.of_plain fun _ listed => by simp [Node.label] at listed,
    .of_plain fun _ listed => by simp [Node.label] at listed, obeys_optionalDirective _ _ _,
    obeys_optionalDirective _ _ _, obeys_optionalDirective _ _ _, obeys_optionalDirective _ _ _,
    obeys_optionalDirective _ _ _,
    .block (fits_locationNodes rule options) (obeys_locationNodes rule options),
    fun _ listed => absurd listed List.not_mem_nil⟩

theorem fits_rateLimitZoneNodes (rule : Rule) (options : RenderOptions) :
    Fits [(.directive "limit_req_zone", .atMost 1)] (labels (rule.rateLimitZoneNodes options)) := by
  rw [rateLimitZoneNodes]
  split
  · exact .optional false _
  · split
    · exact .optional false _
    · exact .optional true _

theorem labels_matchNodes (rule : Rule) :
    labels rule.matchNodes = if rule.healthCheck.isSome then [.block "match"] else [] := by
  rw [matchNodes]
  cases rule.healthCheck <;> rfl

theorem labels_upstreamNodes (rule : Rule) (options : RenderOptions) :
    labels (rule.upstreamNodes options) = if rule.needsUpstream then [.block "upstream"] else [] :=
  labels_optional _ _

theorem fits_http (http : rule.context = .http) (options : RenderOptions) :
    Fits rule.topQuotas (labels (rule.titleNode :: rule.httpNodes options)) := by
  have parts := Fits.flatten (.cons (.replicate 1 .comment) <|
    .cons (fits_rateLimitZoneNodes rule options) <|
    .cons (.optional rule.healthCheck.isSome (.block "match")) <|
    .cons (.optional rule.needsUpstream (.block "upstream")) <|
    .cons (.replicate 1 .blank) <| .cons (.replicate 1 (.block "server")) .nil) (by decide)
  rw [topQuotas, http, httpNodes, labels_cons, labels_append, labels_append, labels_append,
    labels_matchNodes, labels_upstreamNodes, List.append_assoc, List.append_assoc]
  exact parts

theorem fits_stream (stream : rule.context = .stream) (options : RenderOptions) (port : UInt16) :
    Fits rule.topQuotas (labels (rule.titleNode :: rule.streamNodes options port)) := by
  have parts := Fits.flatten (.cons (.replicate 1 .comment) <|
    .cons (.optional rule.needsUpstream (.block "upstream")) <|
    .cons (.replicate 1 .blank) <| .cons (.replicate 1 (.block "server")) .nil) (by decide)
  rw [topQuotas, stream, streamNodes, labels_cons, labels_append, labels_upstreamNodes]
  exact parts

theorem obeys_http (valid : rule.validate = .ok ()) (http : rule.context = .http)
    (options : RenderOptions) :
    Obeys rule.quotasOf (rule.titleNode :: rule.httpNodes options) := by
  have title : Obeys rule.quotasOf [rule.titleNode] :=
    .of_plain fun _ listed => by simp [titleNode, Node.label] at listed
  have zone : Obeys rule.quotasOf (rule.rateLimitZoneNodes options) :=
    .of_fits (fits_rateLimitZoneNodes rule options) (by simp)
  have blank : Obeys rule.quotasOf [.blank] :=
    .of_plain fun _ listed => by simp [Node.label] at listed
  have server : Obeys rule.quotasOf [.block "server" [] (rule.serverParts options).flatten] :=
    .block (fits_serverParts valid http options) (obeys_serverParts rule options)
  rw [← flatten_serverParts] at server
  exact .append title (.append (.append (.append zone (obeys_matchNodes rule))
    (obeys_upstreamNodes valid options)) (.append blank server))

theorem obeys_stream (valid : rule.validate = .ok ()) (stream : rule.context = .stream)
    (options : RenderOptions) (port : UInt16) :
    Obeys rule.quotasOf (rule.titleNode :: rule.streamNodes options port) := by
  have title : Obeys rule.quotasOf [rule.titleNode] :=
    .of_plain fun _ listed => by simp [titleNode, Node.label] at listed
  have blank : Obeys rule.quotasOf [.blank] :=
    .of_plain fun _ listed => by simp [Node.label] at listed
  have server : Obeys rule.quotasOf [.block "server" [] (rule.streamParts options port).flatten] :=
    .block (fits_streamParts stream options port) (obeys_streamParts rule options port)
  rw [← flatten_streamParts] at server
  exact .append title (.append (obeys_upstreamNodes valid options) (.append blank server))

/-! ## Headers -/

/-- The lines of headers, as arguments. -/
def headerLines (headers : HeaderMap) : List (List String) :=
  headers.entries.map fun (header, value) => [header, value]

theorem directives_headers (name : String) (headers : HeaderMap) :
    directives name (headers.entries.map fun (header, value) => .directive name [header, value]) =
      headerLines headers := by
  rw [headerLines]
  induction headers.entries with
  | nil => rfl
  | cons entry entries ih =>
    rw [List.map_cons, List.map_cons, directives_directive, if_pos rfl, ih]
    rfl

/-- The names that are used around the location of an HTTP document. -/
def outerNames : List String :=
  ["limit_req_zone", "match", "status", "upstream", "zone", "least_conn", "ip_hash", "server",
   "listen", "server_name", "ssl_certificate", "ssl_certificate_key", "client_max_body_size",
   "proxy_buffer_size", "proxy_buffers"]

/-- What is said only in the location is what the document says. -/
theorem directives_of_location {name : String} (inside : name ∉ outerNames) (rule : Rule)
    (options : RenderOptions) :
    directives name (rule.titleNode :: rule.httpNodes options) =
      directives name (rule.locationNodes options) := by
  have zone := ((only_rateLimitZoneNodes rule options).mono (by decide)).directives inside
  have condition := ((only_matchNodes rule).mono (by decide)).directives inside
  have group := ((only_upstreamNodes rule options).mono (by decide)).directives inside
  have listens := ((only_listenNodes rule).mono (by decide)).directives inside
  have sizes := ((only_elim only_bufferNodes : Only _
    (rule.advanced.elim [] bufferNodes)).mono (by decide)).directives inside
  rw [titleNode, httpNodes, directives_comment, directives_append, directives_append,
    directives_append, directives_blank, directives_block, directives_append, directives_append,
    directives_block, zone, condition, group, listens, sizes]
  simp only [directives_nil, List.append_nil, List.nil_append]

/-- The names of the settings of a location that are not headers. -/
def innerNames : List String :=
  ["proxy_pass", "proxy_connect_timeout", "proxy_send_timeout", "proxy_read_timeout",
   "proxy_cache", "proxy_cache_valid", "limit_req", "rewrite", "health_check"]

/-- What a location says of headers. -/
theorem directives_location {name : String} (header : name ∉ innerNames) (rule : Rule)
    (options : RenderOptions) :
    directives name (rule.locationNodes options) =
      directives name (rule.headers.entries.map fun (header, value) =>
        .directive "proxy_set_header" [header, value]) ++
      directives name (rule.responseHeaders.entries.map fun (header, value) =>
        .directive "add_header" [header, value]) ++
      directives name (rule.advanced.elim [] corsNodes) := by
  have settings : directives name (rule.advanced.elim [] fun given =>
      timeoutNodes given ++ cacheNodes options given ++ corsNodes given) =
        directives name (rule.advanced.elim [] corsNodes) := by
    cases rule.advanced with
    | none => rfl
    | some given =>
      have timeouts := ((only_timeoutNodes given).mono (by decide)).directives header
      have cache := ((only_cacheNodes options given).mono (by decide)).directives header
      simp only [Option.elim_some, directives_append, timeouts, cache, List.nil_append]
  have limit := ((only_limitNodes rule options).mono (by decide)).directives header
  have rewrites := ((only_elim only_rewriteNodes : Only _
    (rule.advanced.elim [] rewriteNodes)).mono (by decide)).directives header
  have health := ((only_healthNodes rule).mono (by decide)).directives header
  have pass : "proxy_pass" ≠ name := by
    rintro rfl
    exact header (by decide)
  rw [locationNodes_eq, locationSettings, directives_append, directives_append, directives_append,
    directives_append, directives_append, directives_append, directives_directive, if_neg pass,
    settings, limit, rewrites, health]
  simp only [directives_nil, List.append_nil, List.nil_append]

/-- Headers of answers to other origins have three arguments. -/
theorem filter_directives_cors (rule : Rule) :
    (directives "add_header" (rule.advanced.elim [] corsNodes)).filter (·.length = 2) = [] := by
  cases rule.advanced with
  | none => rfl
  | some settings =>
    rw [Option.elim_some, corsNodes_eq]
    cases settings.cors.filter (·.enabled) with
    | none => rfl
    | some cors => cases credentials : cors.allowCredentials <;> simp [originLines, credentials]

/-- The headers of requests, in the document of an HTTP rule. -/
theorem directives_proxy_set_header (rule : Rule) (options : RenderOptions) :
    directives "proxy_set_header" (rule.titleNode :: rule.httpNodes options) =
      headerLines rule.headers := by
  have answers := (only_headers "add_header" rule.responseHeaders).directives
    (by decide : "proxy_set_header" ∉ _)
  have origins := (only_elim only_corsNodes : Only _ (rule.advanced.elim [] corsNodes)).directives
    (by decide : "proxy_set_header" ∉ _)
  rw [directives_of_location (by decide), directives_location (by decide), directives_headers,
    answers, origins, List.append_nil, List.append_nil]

/-- The headers of answers that a rule gives, in the document of an HTTP rule. -/
theorem filter_directives_add_header (rule : Rule) (options : RenderOptions) :
    (directives "add_header" (rule.titleNode :: rule.httpNodes options)).filter (·.length = 2) =
      headerLines rule.responseHeaders := by
  have requests := (only_headers "proxy_set_header" rule.headers).directives
    (by decide : "add_header" ∉ _)
  have two : (headerLines rule.responseHeaders).filter (·.length = 2) =
      headerLines rule.responseHeaders := by
    refine List.filter_eq_self.2 fun line listed => ?_
    obtain ⟨entry, _, rfl⟩ := List.mem_map.1 listed
    rfl
  rw [directives_of_location (by decide), directives_location (by decide), directives_headers,
    requests, List.nil_append, List.filter_append, filter_directives_cors, two, List.append_nil]

/-! ## The whole -/

/-- Whether a document respects the contexts of nginx and has a line for each header of the rule.
The lines of other headers have an argument more. -/
structure KeepsContexts (rule : Rule) (document : Document) : Prop where
  top : Fits rule.topQuotas (labels document)
  inside : Obeys rule.quotasOf document
  requestHeaders : rule.context = .http →
    directives "proxy_set_header" document = headerLines rule.headers
  responseHeaders : rule.context = .http →
    (directives "add_header" document).filter (·.length = 2) = headerLines rule.responseHeaders

/-- The document of a valid rule respects the contexts of nginx. -/
theorem keepsContexts_of_document (valid : rule.validate = .ok ()) {document : Document}
    (made : rule.document options = .ok document) : rule.KeepsContexts document := by
  rcases eq_of_document valid made with ⟨http, rfl⟩ | ⟨stream, port, _, rfl⟩
  · exact ⟨fits_http http options, obeys_http valid http options,
      fun _ => directives_proxy_set_header rule options,
      fun _ => filter_directives_add_header rule options⟩
  · have notHttp (http : rule.context = .http) : False := by
      rw [stream] at http
      cases http
    exact ⟨fits_stream stream options port, obeys_stream valid stream options port,
      fun http => (notHttp http).elim, fun http => (notHttp http).elim⟩

end Rule

end ProxyKeeper
