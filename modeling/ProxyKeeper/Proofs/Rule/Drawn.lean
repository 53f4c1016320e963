import ProxyKeeper.Proofs.AllBut
import ProxyKeeper.Proofs.Nginx.Layout
import ProxyKeeper.Proofs.Rule.FreeText

/-!
# The words of a document

Node group by node group: an argument in the document of a valid rule is a harmless word, or one of
the words that the document takes from the rule as they are. These are all there, and none of them
for a TCP rule. Names of directives and the comment in front break no line.

## Main Definitions

* `Rule.pathWords`, `Rule.givenWords` — the words with paths, and all that are taken as they are
* `Draws` — nodes that take some words as they are, and are harmless otherwise

## Main Results

* `Draws.mem_charactersOf_iff` — what breaks a line comes from the words that are taken
* `Rule.draws_document` — the document of a valid rule takes the words that it gives
-/

namespace ProxyKeeper

open Nginx

/-- The words with paths of requests in the document of an HTTP rule. -/
def Rule.pathWords (rule : Rule) : List String :=
  rule.effectivePath :: rule.healthCheck.toList.map fun check => setting "uri" check.path

/-- The words that the document of a rule takes from it as they are. -/
def Rule.givenWords (rule : Rule) : List String :=
  match rule.context with
  | .http => rule.pathWords ++ rule.freeTexts
  | .stream => []

/-! ## Nodes and the words they take -/

mutual

theorem Nginx.Node.mem_characters_of_mem_arguments {a : String} {c : Char} (inA : c ∈ a.toList) :
    ∀ node : Node, a ∈ node.arguments → c ∈ node.characters
  | .directive _ _, listed =>
    List.mem_append_right _ (List.mem_flatMap.2 ⟨a, listed, inA⟩)
  | .block _ _ children, listed => by
    rw [Node.characters, List.mem_append, List.mem_append]
    exact (List.mem_append.1 listed).imp
      (fun own => .inr (List.mem_flatMap.2 ⟨a, own, inA⟩))
      (mem_charactersOf_of_mem_argumentsOf inA children)

theorem Nginx.mem_charactersOf_of_mem_argumentsOf {a : String} {c : Char} (inA : c ∈ a.toList) :
    ∀ nodes : List Node, a ∈ argumentsOf nodes → c ∈ charactersOf nodes
  | node :: nodes, listed =>
    List.mem_append.2 ((List.mem_append.1 listed).imp
      (node.mem_characters_of_mem_arguments inA) (mem_charactersOf_of_mem_argumentsOf inA nodes))

end

/-- A name of directives as they are: a literal word, and harmless. -/
def IsKeyword (name : String) : Prop :=
  isName name = true ∧ IsHarmless name

instance (name : String) : Decidable (IsKeyword name) :=
  inferInstanceAs (Decidable (_ ∧ _))

/-- Nodes whose arguments are harmless but for given words. Names and comments are plain and break
no line. -/
structure Draws (nodes : List Node) (words : List String) : Prop where
  plain : arePlain nodes = true
  unbroken : ∀ c ∈ charactersOf nodes, isLineBreaker c = true →
    ∃ a ∈ argumentsOf nodes, c ∈ a.toList
  arguments : AllBut IsHarmless (argumentsOf nodes) words

namespace Draws

variable {nodes front back : List Node} {words more : List String} {name : String}

theorem nil : Draws [] [] where
  plain := rfl
  unbroken := fun _ inside => absurd inside List.not_mem_nil
  arguments := .refl _ _

/-- Nodes side by side take the words of both. -/
theorem append (hf : Draws front words) (hb : Draws back more) :
    Draws (front ++ back) (words ++ more) where
  plain := by rw [arePlain_append, hf.plain, hb.plain]; rfl
  unbroken := by
    intro c inside breaks
    rw [charactersOf_append, List.mem_append] at inside
    rw [argumentsOf_append]
    rcases inside with inside | inside
    · obtain ⟨a, listed, inA⟩ := hf.unbroken c inside breaks
      exact ⟨a, List.mem_append_left _ listed, inA⟩
    · obtain ⟨a, listed, inA⟩ := hb.unbroken c inside breaks
      exact ⟨a, List.mem_append_right _ listed, inA⟩
  arguments := by
    rw [argumentsOf_append]
    exact hf.arguments.append hb.arguments

/-- Harmless words need not be told. -/
theorem trim (h : Draws nodes words) (fewer : more ⊆ words)
    (rest : ∀ word ∈ words, IsHarmless word ∨ word ∈ more) : Draws nodes more where
  plain := h.plain
  unbroken := h.unbroken
  arguments := h.arguments.trim fewer rest

/-- The order of the words does not matter. -/
theorem of_mem_iff (h : Draws nodes words) (same : ∀ word, word ∈ words ↔ word ∈ more) :
    Draws nodes more :=
  h.trim (fun word => (same word).2) fun word listed => .inr ((same word).1 listed)

/-- What breaks a line comes from the words that are taken, and from all of them. -/
theorem mem_charactersOf_iff (h : Draws nodes words) {c : Char} (breaks : isLineBreaker c = true) :
    c ∈ charactersOf nodes ↔ ∃ word ∈ words, c ∈ word.toList := by
  have whole : (∀ a ∈ argumentsOf nodes, c ∉ a.toList) ↔ ∀ word ∈ words, c ∉ word.toList :=
    h.arguments.forall_iff fun _ harmless => harmless.notMem (isDisruptive_of_isLineBreaker breaks)
  have found : (∃ a ∈ argumentsOf nodes, c ∈ a.toList) ↔ ∃ word ∈ words, c ∈ word.toList := by
    simpa only [not_forall, not_not, exists_prop] using not_congr whole
  rw [← found]
  constructor
  · exact fun inside => h.unbroken c inside breaks
  · rintro ⟨a, listed, inA⟩
    exact mem_charactersOf_of_mem_argumentsOf inA nodes listed

/-- Nodes in front that take no words. -/
theorem append_left (hf : Draws front []) (hb : Draws back words) : Draws (front ++ back) words :=
  append hf hb

/-- Nodes behind that take no words. -/
theorem append_right (hf : Draws front words) (hb : Draws back []) :
    Draws (front ++ back) words := by
  have both := append hf hb
  rwa [List.append_nil] at both

theorem blank : Draws [.blank] [] where
  plain := rfl
  unbroken := fun _ inside => absurd inside List.not_mem_nil
  arguments := .refl _ _

theorem comment {text : String} (oneLine : isOneLine text = true) : Draws [.comment text] [] := by
  have unbroken := isOneLine_iff_unbroken.1 oneLine
  constructor
  case plain =>
    have newline : '\n' ∉ text.toList := fun inside => absurd (unbroken _ inside) (by decide)
    simpa [arePlain, Node.isPlain] using newline
  case unbroken =>
    intro c inside breaks
    rw [charactersOf_singleton, Node.characters] at inside
    rw [unbroken c inside] at breaks
    cases breaks
  case arguments => exact .refl _ _

/-- A block takes its arguments and what its content takes. -/
theorem block (keyword : IsKeyword name) (args : List String) {children : List Node}
    (h : Draws children words) : Draws [.block name args children] (args ++ words) where
  plain := by rw [arePlain, Node.isPlain, keyword.1, h.plain]; rfl
  unbroken := by
    intro c inside breaks
    rw [charactersOf_singleton, Node.characters, List.mem_append, List.mem_append,
      List.mem_flatMap] at inside
    rw [argumentsOf_singleton, Node.arguments]
    rcases inside with (inName | ⟨a, listed, inA⟩) | inChildren
    · exact absurd inName (keyword.2.notMem (isDisruptive_of_isLineBreaker breaks))
    · exact ⟨a, List.mem_append_left _ listed, inA⟩
    · obtain ⟨a, listed, inA⟩ := h.unbroken c inChildren breaks
      exact ⟨a, List.mem_append_right _ listed, inA⟩
  arguments := by
    rw [argumentsOf_singleton, Node.arguments]
    exact (AllBut.refl _ args).append h.arguments

/-- A directive takes its arguments. -/
theorem directive (keyword : IsKeyword name) (args : List String) :
    Draws [.directive name args] args where
  plain := by rw [arePlain, Node.isPlain, keyword.1]; rfl
  unbroken := by
    intro c inside breaks
    rw [charactersOf_singleton, Node.characters, List.mem_append, List.mem_flatMap] at inside
    rw [argumentsOf_singleton, Node.arguments]
    exact inside.elim
      (fun inName => absurd inName (keyword.2.notMem (isDisruptive_of_isLineBreaker breaks))) id
  arguments := by
    rw [argumentsOf_singleton, Node.arguments]
    exact .refl _ args

/-- A directive whose arguments are harmless takes no words. -/
theorem harmless (keyword : IsKeyword name) {args : List String} (h : ∀ a ∈ args, IsHarmless a) :
    Draws [.directive name args] [] :=
  (directive keyword args).trim (List.nil_subset _) fun a listed => .inl (h a listed)

/-- A block whose arguments are harmless takes what its content takes. -/
theorem harmless_block (keyword : IsKeyword name) {args : List String}
    (harmless : ∀ a ∈ args, IsHarmless a) {children : List Node} (h : Draws children words) :
    Draws [.block name args children] words := by
  refine (block keyword args h).trim (List.subset_append_right _ _) fun a listed => ?_
  exact (List.mem_append.1 listed).imp_left (harmless a)

/-- One node for each element of a list. -/
theorem map {α : Type} {items : List α} {node : α → Node} {words : α → List String}
    (h : ∀ a ∈ items, Draws [node a] (words a)) :
    Draws (items.map node) (items.flatMap words) := by
  induction items with
  | nil => exact nil
  | cons a items ih =>
    rw [List.map_cons, List.flatMap_cons, ← List.singleton_append]
    refine append (h a (List.mem_cons_self ..)) (ih ?_)
    intro b hb
    exact h b (List.mem_cons_of_mem _ hb)

/-- One node for each element of a list, none of which takes a word. -/
theorem map_harmless {α : Type} {items : List α} {node : α → Node}
    (h : ∀ a ∈ items, Draws [node a] []) : Draws (items.map node) [] := by
  have all := map h
  rwa [List.flatMap_eq_nil_iff.2 fun _ _ => rfl] at all

/-- A directive for an optional text takes the text. -/
theorem optional (keyword : IsKeyword name) (text : Option String) :
    Draws (optionalDirective name (fun text => [text]) text) text.toList := by
  cases text with
  | none => exact nil
  | some text => exact directive keyword _

/-- A harmless directive for an optional setting. -/
theorem optional_harmless {α : Type} (keyword : IsKeyword name) {args : α → List String}
    {a : Option α} (h : ∀ b, a = some b → ∀ s ∈ args b, IsHarmless s) :
    Draws (optionalDirective name args a) [] := by
  cases a with
  | none => exact nil
  | some b => exact harmless keyword (h b rfl)

end Draws

namespace Rule

variable {rule : Rule} {options : RenderOptions}

/-! ## In front of the server -/

theorem draws_rateLimitZoneNodes (valid : rule.validate = .ok ()) :
    Draws (rule.rateLimitZoneNodes options) [] := by
  rw [rateLimitZoneNodes]
  cases rule.rateLimit? with
  | none => exact .nil
  | some limit =>
    have key : IsHarmless (if limit.perIp then "$binary_remote_addr" else "$server_name") := by
      split_ifs <;> decide
    have zone : IsHarmless (setting "zone" (rule.ownZone ++ ":10m")) :=
      harmless_setting (by decide) (.append (harmless_ownZone valid) (by decide))
    have rate : IsHarmless (setting "rate" (toString limit.requestsPerSecond.toNat ++ "r/s")) :=
      harmless_setting (by decide) (.append (.number _) (by decide))
    by_cases shared : usesSharedZone limit options = true
    · simp only [shared, if_true]
      exact .nil
    · simp only [shared]
      exact .harmless (by decide) (List.forall_mem_cons.2 ⟨key,
        List.forall_mem_cons.2 ⟨zone, List.forall_mem_singleton.2 rate⟩⟩)

theorem draws_matchNodes (valid : rule.validate = .ok ()) : Draws rule.matchNodes [] := by
  rw [matchNodes]
  cases rule.healthCheck with
  | none => exact .nil
  | some check =>
    refine .harmless_block (by decide) ?_ (.harmless (by decide) ?_)
    · exact List.forall_mem_singleton.2 (harmless_matchName valid)
    · intro code listed
      obtain ⟨n, _, rfl⟩ := List.mem_map.1 listed
      exact .number _

theorem draws_serverNodes (valid : rule.validate = .ok ()) : Draws rule.serverNodes [] := by
  rw [serverNodes]
  split_ifs
  · refine .map_harmless fun target listed => .harmless (by decide) ?_
    have container : IsHarmless target.container :=
      .of_isSafeName (isSafeName_of_mem_targets valid listed)
    have weight : IsHarmless (setting "weight" (toString target.weight.toNat)) :=
      harmless_setting (by decide) (.number _)
    exact List.forall_mem_cons.2
      ⟨harmless_address container _, List.forall_mem_singleton.2 weight⟩
  · exact .harmless (by decide) (List.forall_mem_singleton.2 (harmless_singleAddress valid))

theorem draws_upstreamNodes (valid : rule.validate = .ok ()) (names : HarmlessNames options) :
    Draws (rule.upstreamNodes options) [] := by
  have name := harmless_upstreamName valid names
  have zone : Draws (if rule.healthCheck.isSome
      then [.directive "zone" [rule.upstreamName options, "64k"]] else []) [] := by
    split_ifs
    · exact .harmless (by decide)
        (List.forall_mem_cons.2 ⟨name, List.forall_mem_singleton.2 (by decide)⟩)
    · exact .nil
  have method : Draws (methodNodes rule.method) [] := by
    cases rule.method with
    | roundRobin => exact .nil
    | leastConnections => exact .directive (by decide) _
    | ipHash => exact .directive (by decide) _
  rw [upstreamNodes]
  split_ifs
  · exact .harmless_block (by decide) (List.forall_mem_singleton.2 name)
      ((zone.append_left method).append_left (draws_serverNodes valid))
  · exact .nil

/-! ## The server of an HTTP rule -/

/-- Where a server listens takes the paths of certificate and key. -/
theorem draws_listenNodes (valid : rule.validate = .ok ()) :
    Draws rule.listenNodes rule.certificateTexts := by
  have listen :
      Draws [.directive "listen" (if rule.isTls then ["443", "ssl"] else ["80"])] [] := by
    split_ifs <;> exact .harmless (by decide) (by decide)
  have server : Draws [.directive "server_name" [rule.serverName]] [] :=
    .harmless (by decide) (List.forall_mem_singleton.2 (harmless_serverName valid))
  have paths : Draws
      (if rule.isTls then
        optionalDirective "ssl_certificate" (fun path => [path]) rule.sslCertPath ++
          optionalDirective "ssl_certificate_key" (fun path => [path]) rule.sslKeyPath
      else []) rule.certificateTexts := by
    rw [certificateTexts]
    split_ifs
    · exact (Draws.optional (by decide) _).append (.optional (by decide) _)
    · exact .nil
  exact listen.append_left (server.append_left paths)

/-- The sizes of a valid rule are harmless. -/
theorem draws_bufferNodes (valid : rule.validate = .ok ()) :
    Draws (rule.advanced.elim [] bufferNodes) [] := by
  cases given : rule.advanced with
  | none => exact .nil
  | some settings =>
    refine ((Draws.optional_harmless (by decide) ?_).append_left
      (.optional_harmless (by decide) ?_)).append_left (.optional_harmless (by decide) ?_)
    · intro size set
      exact List.forall_mem_singleton.2 (.of_isSize (isSize_of_clientMaxBodySize valid given set))
    · intro size set
      exact List.forall_mem_singleton.2 (.of_isSize (isSize_of_proxyBufferSize valid given set))
    · intro buffers set
      exact List.forall_mem_cons.2 ⟨.number _,
        List.forall_mem_singleton.2 (.of_isSize (isSize_of_proxyBuffers valid given set))⟩

/-- Timeouts are numbers. -/
theorem draws_seconds {name : String} (keyword : IsKeyword name) (timeout : Option UInt64) :
    Draws (optionalDirective name (fun n => [seconds n]) timeout) [] :=
  .optional_harmless keyword fun n _ => List.forall_mem_singleton.2 (harmless_seconds n)

theorem draws_timeoutNodes (settings : AdvancedConfig) : Draws (timeoutNodes settings) [] :=
  ((draws_seconds (by decide) _).append_left (draws_seconds (by decide) _)).append_left
    (draws_seconds (by decide) _)

theorem draws_cacheNodes (names : HarmlessNames options) (settings : AdvancedConfig) :
    Draws (cacheNodes options settings) [] := by
  rw [cacheNodes]
  cases settings.cache.filter (·.enabled) with
  | none => exact .nil
  | some cache =>
    have zone : Draws [.directive "proxy_cache" [options.cacheZone]] [] :=
      .harmless (by decide) (List.forall_mem_singleton.2 names.cacheZone)
    have times : Draws
        [.directive "proxy_cache_valid" ["200", "302", seconds cache.duration]] [] :=
      .harmless (by decide) (List.forall_mem_cons.2 ⟨by decide,
        List.forall_mem_cons.2 ⟨by decide, List.forall_mem_singleton.2 (harmless_seconds _)⟩⟩)
    exact zone.append_left times

/-- A header takes its value. -/
theorem draws_header {name field : String} (keyword : IsKeyword name) (harmless : IsHarmless field)
    (value : String) (more : List String) (rest : ∀ a ∈ more, IsHarmless a) :
    Draws [.directive name (field :: value :: more)] [value] := by
  refine (Draws.directive keyword _).trim (by simp) fun a listed => ?_
  rcases List.mem_cons.1 listed with rfl | listed
  · exact .inl harmless
  · exact (List.mem_cons.1 listed).elim (.inr ∘ List.mem_singleton.2) (.inl ∘ rest a)

theorem draws_corsNodes (settings : AdvancedConfig) :
    Draws (corsNodes settings) settings.corsTexts := by
  rw [corsNodes, AdvancedConfig.corsTexts]
  cases settings.cors.filter (·.enabled) with
  | none => exact .nil
  | some cors =>
    have answer (field : String) (harmless : IsHarmless field) (value : String) :
        Draws [.directive "add_header" [field, value, "always"]] [value] :=
      draws_header (by decide) harmless value ["always"] (by decide)
    have credentials : Draws (if cors.allowCredentials then
        [.directive "add_header" ["Access-Control-Allow-Credentials", "true", "always"]]
        else []) [] := by
      split_ifs
      · exact .harmless (by decide) (by decide)
      · exact .nil
    have preflight : Draws [.block "if" ["($request_method", "=", "OPTIONS)"]
        [.directive "return" ["204"]]] [] :=
      .harmless_block (by decide) (by decide) (.harmless (by decide) (by decide))
    have origin := answer "Access-Control-Allow-Origin" (by decide) cors.allowOrigin
    have methods := answer "Access-Control-Allow-Methods" (by decide) cors.allowMethods
    have headers := answer "Access-Control-Allow-Headers" (by decide) cors.allowHeaders
    exact ((origin.append (methods.append headers)).append_right credentials).append_right preflight

theorem draws_limitNodes (valid : rule.validate = .ok ()) (names : HarmlessNames options) :
    Draws (rule.limitNodes options) [] := by
  rw [limitNodes]
  cases rule.rateLimit? with
  | none => exact .nil
  | some limit =>
    have zone : IsHarmless (setting "zone" (rule.rateLimitZone options limit)) :=
      harmless_setting (by decide) (harmless_rateLimitZone valid names limit)
    have burst : IsHarmless (setting "burst" (toString limit.burstSize.toNat)) :=
      harmless_setting (by decide) (.number _)
    have delay : ∀ a ∈ (if limit.noDelay then ["nodelay"] else []), IsHarmless a := by
      split_ifs <;> decide
    exact .harmless (by decide) (List.forall_mem_append.2
      ⟨List.forall_mem_cons.2 ⟨zone, List.forall_mem_singleton.2 burst⟩, delay⟩)

/-- A rewrite rule takes its pattern and its replacement. -/
theorem draws_rewriteNodes (settings : AdvancedConfig) :
    Draws (rewriteNodes settings) settings.rewriteTexts := by
  refine .map fun rewrite _ => (Draws.directive (by decide) _).trim (by simp) fun a listed => ?_
  have flag : IsHarmless rewrite.flag.name := by
    cases rewrite.flag <;> decide
  simp only [List.mem_cons, List.not_mem_nil, or_false] at listed ⊢
  rcases listed with pattern | replacement | rfl
  · exact .inr (.inl pattern)
  · exact .inr (.inr replacement)
  · exact .inl flag

/-- The health check of a location takes the path it asks at. -/
theorem draws_healthNodes (valid : rule.validate = .ok ()) :
    Draws rule.healthNodes
      (rule.healthCheck.toList.map fun check => setting "uri" check.path) := by
  rw [healthNodes]
  cases rule.healthCheck with
  | none => exact .nil
  | some check =>
    have probe : Draws [.directive "health_check"
        [setting "uri" check.path, setting "interval" (seconds check.interval),
         setting "fails" (toString check.retries.toNat), "passes=1",
         setting "match" rule.matchName]] [setting "uri" check.path] := by
      have interval : IsHarmless (setting "interval" (seconds check.interval)) :=
        harmless_setting (by decide) (harmless_seconds _)
      have fails : IsHarmless (setting "fails" (toString check.retries.toNat)) :=
        harmless_setting (by decide) (.number _)
      have condition : IsHarmless (setting "match" rule.matchName) :=
        harmless_setting (by decide) (harmless_matchName valid)
      refine (Draws.directive (by decide) _).trim (by simp) ?_
      simp only [List.forall_mem_cons]
      exact ⟨.inr (List.mem_singleton_self _), .inl interval, .inl fails, .inl (by decide),
        .inl condition, by simp⟩
    have timeout (name : String) (keyword : IsKeyword name) (own : Bool) :
        Draws (if own then [] else [.directive name [seconds check.timeout]]) [] := by
      split_ifs
      · exact .nil
      · exact .harmless keyword (List.forall_mem_singleton.2 (harmless_seconds _))
    exact (probe.append_right (timeout "proxy_connect_timeout" (by decide) _)).append_right
      (timeout "proxy_read_timeout" (by decide) _)

/-- The headers of one side take their values. -/
theorem draws_headers {name : String} (keyword : IsKeyword name) {headers : HeaderMap}
    (harmless : ∀ entry ∈ headers.entries, IsHarmless entry.1) :
    Draws (headers.entries.map fun (field, value) => .directive name [field, value])
      (headers.entries.map (·.2)) := by
  have values : headers.entries.map (·.2) = headers.entries.flatMap fun entry => [entry.2] :=
    List.map_eq_flatMap
  rw [values]
  refine .map fun entry listed => ?_
  exact draws_header keyword (harmless entry listed) entry.2 [] (List.forall_mem_nil _)

theorem draws_locationNodes (valid : rule.validate = .ok ()) (names : HarmlessNames options) :
    Draws (rule.locationNodes options)
      (rule.headers.entries.map (·.2) ++ rule.responseHeaders.entries.map (·.2) ++
        rule.advanced.elim [] AdvancedConfig.corsTexts ++
        rule.advanced.elim [] AdvancedConfig.rewriteTexts ++
        rule.healthCheck.toList.map fun check => setting "uri" check.path) := by
  have pass : Draws [.directive "proxy_pass" [rule.httpPass options]] [] :=
    .harmless (by decide) (List.forall_mem_singleton.2 (harmless_httpPass valid names))
  have request : Draws
      (rule.headers.entries.map fun (field, value) => .directive "proxy_set_header" [field, value])
      (rule.headers.entries.map (·.2)) :=
    draws_headers (by decide) fun entry listed =>
      .of_isHeaderName (isHeaderName_of_mem_headers valid listed)
  have response : Draws
      (rule.responseHeaders.entries.map fun (field, value) =>
        .directive "add_header" [field, value])
      (rule.responseHeaders.entries.map (·.2)) :=
    draws_headers (by decide) fun entry listed =>
      .of_isHeaderName (isHeaderName_of_mem_responseHeaders valid listed)
  have settings : Draws
      (rule.advanced.elim [] fun settings =>
        timeoutNodes settings ++ cacheNodes options settings ++ corsNodes settings)
      (rule.advanced.elim [] AdvancedConfig.corsTexts) := by
    cases rule.advanced with
    | none => exact .nil
    | some settings =>
      exact ((draws_timeoutNodes settings).append_left
        (draws_cacheNodes names settings)).append_left (draws_corsNodes settings)
  have rewrites : Draws (rule.advanced.elim [] rewriteNodes)
      (rule.advanced.elim [] AdvancedConfig.rewriteTexts) := by
    cases rule.advanced with
    | none => exact .nil
    | some settings => exact draws_rewriteNodes settings
  -- the order is that of the directives in the location
  have limited := (((pass.append_left request).append response).append settings).append_right
    (draws_limitNodes valid names)
  exact (limited.append rewrites).append (draws_healthNodes valid)

/-! ## The document of a rule -/

/-- The comment that names a rule stays on its line. -/
theorem draws_titleNode (valid : rule.validate = .ok ()) : Draws [rule.titleNode] [] := by
  refine .comment ?_
  simp only [isOneLine_append]
  refine ⟨⟨⟨?_, by decide⟩, (harmless_id valid).isOneLine⟩, by decide⟩
  split_ifs
  · decide
  · exact isOneLine_append.2 ⟨isOneLine_name_of_validate valid, by decide⟩

theorem draws_httpNodes (valid : rule.validate = .ok ()) (names : HarmlessNames options) :
    Draws (rule.httpNodes options)
      (rule.certificateTexts ++ ([rule.effectivePath] ++
        (rule.headers.entries.map (·.2) ++ rule.responseHeaders.entries.map (·.2) ++
          rule.advanced.elim [] AdvancedConfig.corsTexts ++
          rule.advanced.elim [] AdvancedConfig.rewriteTexts ++
          rule.healthCheck.toList.map fun check => setting "uri" check.path))) := by
  have front : Draws (rule.rateLimitZoneNodes options ++ rule.matchNodes ++
      rule.upstreamNodes options) [] :=
    ((draws_rateLimitZoneNodes valid).append_left (draws_matchNodes valid)).append_left
      (draws_upstreamNodes valid names)
  have location := Draws.block (by decide : IsKeyword "location") [rule.effectivePath]
    (draws_locationNodes valid names)
  have server := Draws.harmless_block (by decide : IsKeyword "server") (List.forall_mem_nil _)
    (((draws_listenNodes valid).append_right (draws_bufferNodes valid)).append location)
  exact front.append_left (Draws.blank.append_left server)

theorem draws_streamNodes (valid : rule.validate = .ok ()) (names : HarmlessNames options)
    (port : UInt16) : Draws (rule.streamNodes options port) [] := by
  have listen : Draws [.directive "listen" [rule.streamListen port]] [] :=
    .harmless (by decide) (List.forall_mem_singleton.2 (harmless_streamListen valid port))
  have pass : Draws [.directive "proxy_pass" [rule.streamPass options]] [] :=
    .harmless (by decide) (List.forall_mem_singleton.2 (harmless_streamPass valid names))
  have timeouts : Draws (rule.advanced.elim [] streamTimeoutNodes) [] := by
    cases rule.advanced with
    | none => exact .nil
    | some settings =>
      exact (draws_seconds (by decide) _).append_left (draws_seconds (by decide) _)
  have health : Draws rule.streamHealthNodes [] := by
    rw [streamHealthNodes]
    cases rule.healthCheck with
    | none => exact .nil
    | some check =>
      have interval : IsHarmless (setting "interval" (seconds check.interval)) :=
        harmless_setting (by decide) (harmless_seconds _)
      have fails : IsHarmless (setting "fails" (toString check.retries.toNat)) :=
        harmless_setting (by decide) (.number _)
      have probe : Draws [.directive "health_check" [setting "interval" (seconds check.interval),
          setting "fails" (toString check.retries.toNat), "passes=1"]] [] :=
        .harmless (by decide) (List.forall_mem_cons.2 ⟨interval,
          List.forall_mem_cons.2 ⟨fails, List.forall_mem_singleton.2 (by decide)⟩⟩)
      have timeout : Draws
          [.directive "health_check_timeout" [seconds check.timeout]] [] :=
        .harmless (by decide) (List.forall_mem_singleton.2 (harmless_seconds _))
      exact probe.append_left timeout
  have server := Draws.harmless_block (by decide : IsKeyword "server") (List.forall_mem_nil _)
    (((listen.append_left pass).append_left timeouts).append_left health)
  exact (draws_upstreamNodes valid names).append_left (Draws.blank.append_left server)

/-- The document of a valid rule takes the words that the rule gives. -/
theorem draws_document (valid : rule.validate = .ok ()) (names : HarmlessNames options)
    {document : Document} (made : rule.document options = .ok document) :
    Draws document rule.givenWords := by
  have title := draws_titleNode valid
  rcases eq_of_document valid made with ⟨http, rfl⟩ | ⟨stream, port, _, rfl⟩
  · rw [givenWords, http]
    refine (title.append_left (draws_httpNodes valid names)).of_mem_iff fun word => ?_
    simp only [freeTexts_of_http http, pathWords, List.mem_append, List.mem_cons, List.not_mem_nil]
    tauto
  · rw [givenWords, stream]
    exact title.append_left (draws_streamNodes valid names port)

end Rule

end ProxyKeeper
