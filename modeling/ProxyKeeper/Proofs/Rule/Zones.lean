import ProxyKeeper.Proofs.Rule.References
import ProxyKeeper.Proofs.Store.Includes

/-!
# Zones of shared memory

The main configuration declares two zones, under names that the settings give. A rule may declare
one for a rate limit of its own, under the fixed lead `rl_` and its id, and one for its group of
servers, under the configured stem and its id. nginx has one name space for all of them, and nothing
compares the names: each setting is looked at by itself. So two names can be the same, but only if
they come from certain pairs of places. What the main configuration declares is read off its text:
a path stands there without quotes, so one that is not a single word may declare zones too.

## Main Definitions

* `Rule.zones` — the zones that the document of a rule declares
* `Rule.LeavesGroup` — the limit of one rule and the group of another
* `ZonesApart` — the pairs of names that have to differ
* `LeavesLeads` — shared names that keep out of the way

## Main Results

* `Rule.declaredZones_document`, `Rule.declaredZones_nodesOf` — the zones of rules
* `LeavesLeads.zonesApart` — names that keep out of the way suit any rules
* `nodup_declaredZones_append` — all names differ exactly when these pairs do
* `ManagerConfig.nodup_declaredZones_iff` — so it is with the main configuration as it is read
-/

namespace ProxyKeeper

open Nginx

namespace Rule

variable {rule other : Rule} {options : RenderOptions}

/-- Whether a rule has a zone for a rate limit of its own. -/
def hasOwnZone (rule : Rule) (options : RenderOptions) : Bool :=
  rule.context == .http && rule.rateLimit?.any fun limit => !usesSharedZone limit options

/-- The zones that the document of a rule declares: for its own rate limit and for its group of
servers. -/
def zones (rule : Rule) (options : RenderOptions) : List String :=
  (if rule.hasOwnZone options then [rule.ownZone] else []) ++
    if rule.healthCheck.isSome then [rule.upstreamName options] else []

theorem colon_notMem_ownZone (valid : rule.validate = .ok ()) : ':' ∉ rule.ownZone.toList := by
  rw [ownZone, String.toList_append, List.mem_append, not_or]
  exact ⟨by decide, Store.notMem_of_isRuleId (isRuleId_of_validate valid) (by decide)⟩

/-- The zone of a rule's own rate limit, in the settings of its declaration. -/
theorem settingsOf_rateLimitZoneNodes (valid : rule.validate = .ok ())
    (http : rule.context = .http) :
    (directives "limit_req_zone" (rule.rateLimitZoneNodes options)).flatMap
        (fun args => (settingsOf "zone" args.tail).map zoneName) =
      if rule.hasOwnZone options then [rule.ownZone] else [] := by
  rw [rateLimitZoneNodes, hasOwnZone, http]
  cases limited : rule.rateLimit? with
  | none => rfl
  | some limit =>
    cases shared : usesSharedZone limit options with
    | true => simp [shared]
    | false =>
      have settings (rate : String) :
          settingsOf "zone" [setting "zone" (rule.ownZone ++ ":10m"), setting "rate" rate] =
            [rule.ownZone ++ ":10m"] := by
        rw [settingsOf_setting, settingsOf_setting_other (by decide) (by decide)]
        rfl
      have zone := zoneName_append (colon_notMem_ownZone valid)
        (by decide : ":10m".toList.head? = some ':')
      simp only [shared, Bool.false_eq_true, if_false, directives_directive, if_true,
        directives_nil, List.append_nil, List.flatMap_singleton, List.tail_cons, settings,
        List.map_singleton, zone]
      simp [shared]

/-- The zone of a rule's group of servers. -/
theorem directives_zone_upstreamNodes (rule : Rule) (options : RenderOptions) :
    (directives "zone" (rule.upstreamNodes options)).flatMap (·.head?.toList) =
      if rule.healthCheck.isSome then [rule.upstreamName options] else [] := by
  have group : rule.upstreamNode options =
      .block "upstream" [rule.upstreamName options] (rule.groupNodes options) := rfl
  cases checked : rule.healthCheck with
  | some check =>
    have some : rule.healthCheck ≠ none := by simp [checked]
    have needs : rule.needsUpstream = true := needsUpstream_iff.2 (.inr some)
    rw [upstreamNodes, if_pos needs, group, directives_block, zone_groupNodes some]
    rfl
  | none =>
    have inside : directives "zone" (rule.groupNodes options) = [] := by
      rw [groupNodes, checked, directives_append, directives_append,
        (only_methodNodes _).directives (by decide), (only_serverNodes rule).directives (by decide)]
      rfl
    rw [upstreamNodes]
    split
    · rw [group, directives_block, inside]
      rfl
    · rfl

/-- The zones that the document of a valid rule declares. -/
theorem declaredZones_document (valid : rule.validate = .ok ()) {own : Document}
    (made : rule.document options = .ok own) : declaredZones own = rule.zones options := by
  have groups := only_upstreamNodes rule options
  rcases eq_of_document valid made with ⟨http, rfl⟩ | ⟨stream, port, _, rfl⟩
  · have noCache :
        directives "proxy_cache_path" (rule.titleNode :: rule.httpNodes options) = [] := by
      rw [directives_http (by decide), if_neg (by decide), groups.directives (by decide),
        (only_rateLimitZoneNodes rule options).directives (by decide),
        (only_matchNodes rule).directives (by decide),
        (only_limitNodes rule options).directives (by decide),
        (only_healthNodes rule).directives (by decide)]
      rfl
    have memory : directives "zone" (rule.titleNode :: rule.httpNodes options) =
        directives "zone" (rule.upstreamNodes options) := by
      rw [directives_http (by decide), if_neg (by decide),
        (only_rateLimitZoneNodes rule options).directives (by decide),
        (only_matchNodes rule).directives (by decide),
        (only_limitNodes rule options).directives (by decide),
        (only_healthNodes rule).directives (by decide)]
      simp only [List.append_nil, List.nil_append]
    rw [declaredZones, noCache, (limitZone_document valid http made).1, memory,
      settingsOf_rateLimitZoneNodes valid http, directives_zone_upstreamNodes]
    rfl
  · have others {name : String}
        (other : name ∉ ["listen", "proxy_connect_timeout", "proxy_timeout"])
        (pass : "proxy_pass" ≠ name) (health : name ∉ ["health_check", "health_check_timeout"]) :
        directives name (rule.titleNode :: rule.streamNodes options port) =
          directives name (rule.upstreamNodes options) := by
      rw [directives_stream other, if_neg pass, (only_streamHealthNodes rule).directives health]
      simp only [List.append_nil]
    have noOwn : rule.hasOwnZone options = false := by
      rw [hasOwnZone, stream]
      rfl
    rw [declaredZones, others (by decide) (by decide) (by decide),
      groups.directives (by decide : "proxy_cache_path" ∉ _),
      others (by decide) (by decide) (by decide),
      groups.directives (by decide : "limit_req_zone" ∉ _),
      others (by decide) (by decide) (by decide), directives_zone_upstreamNodes, zones, noOwn]
    rfl

/-- All documents together declare the zones of each. -/
theorem declaredZones_nodesOf {rules : List Rule} (valid : ∀ rule ∈ rules, rule.validate = .ok ()) :
    (declaredZones (nodesOf options rules)).Perm (rules.flatMap (·.zones options)) := by
  induction rules with
  | nil => exact .refl _
  | cons rule rules ih =>
    obtain ⟨mine, others⟩ := List.forall_mem_cons.1 valid
    obtain ⟨own, made, _⟩ := exists_document_of_validate mine options
    have first : nodesOf options (rule :: rules) = own ++ nodesOf options rules := by
      rw [nodesOf, List.flatMap_cons, made]
      rfl
    rw [first, List.flatMap_cons, ← declaredZones_document mine made]
    exact (declaredZones_append _ _).trans ((ih others).append_left _)

theorem mem_zones {zone : String} :
    zone ∈ rule.zones options ↔
      rule.hasOwnZone options = true ∧ zone = rule.ownZone ∨
        rule.healthCheck.isSome = true ∧ zone = rule.upstreamName options := by
  rw [zones, List.mem_append]
  split_ifs <;> simp [*]

/-- Whether the limit of a rule and the group of another, which may be the same rule, have different
zones. -/
def LeavesGroup (options : RenderOptions) (rule other : Rule) : Prop :=
  rule.hasOwnZone options = true → other.healthCheck.isSome = true →
    rule.ownZone ≠ other.upstreamName options

theorem nodup_zones (rule : Rule) (options : RenderOptions) :
    (rule.zones options).Nodup ↔ LeavesGroup options rule rule := by
  rw [zones, LeavesGroup]
  split_ifs <;> simp [*]

theorem id_eq_of_ownZone (same : other.ownZone = rule.ownZone) : other.id = rule.id :=
  (String.append_right_inj _).1 same

/-- Of rules with different ids, a limit can only clash with a group. -/
theorem disjoint_zones (apart : rule.id ≠ other.id) :
    (rule.zones options).Disjoint (other.zones options) ↔
      LeavesGroup options rule other ∧ LeavesGroup options other rule := by
  constructor
  · intro disjoint
    constructor
    · intro own checked same
      exact disjoint (mem_zones.2 (.inl ⟨own, rfl⟩)) (mem_zones.2 (.inr ⟨checked, same⟩))
    · intro own checked same
      exact disjoint (mem_zones.2 (.inr ⟨checked, same⟩)) (mem_zones.2 (.inl ⟨own, rfl⟩))
  · rintro ⟨forth, back⟩ zone inRule inOther
    obtain ⟨own, rfl⟩ | ⟨checked, rfl⟩ := mem_zones.1 inRule
    · obtain ⟨_, same⟩ | ⟨checked, same⟩ := mem_zones.1 inOther
      · exact apart (id_eq_of_ownZone same)
      · exact forth own checked same
    · obtain ⟨own, same⟩ | ⟨_, same⟩ := mem_zones.1 inOther
      · exact back own checked same.symm
      · exact apart (id_eq_of_upstreamName same)

/-- Rules with different ids have different zones when no limit has the zone of a group. -/
theorem nodup_flatMap_zones {rules : List Rule} (nodup : (rules.map Rule.id).Nodup) :
    (rules.flatMap (·.zones options)).Nodup ↔
      ∀ rule ∈ rules, ∀ other ∈ rules, LeavesGroup options rule other := by
  have apart : rules.Pairwise (·.id ≠ ·.id) := List.pairwise_map.1 nodup
  rw [List.nodup_flatMap]
  constructor
  · rintro ⟨each, disjoint⟩ rule inRules other inRules'
    have both := (apart.and disjoint).imp fun ⟨ids, zones⟩ => (disjoint_zones ids).1 zones
    exact List.Pairwise.forall_of_forall_of_flip
      (fun rule listed => (nodup_zones rule options).1 (each rule listed))
      (both.imp And.left) (both.imp And.right) inRules inRules'
  · intro clear
    refine ⟨fun rule listed => (nodup_zones rule options).2 (clear rule listed rule listed), ?_⟩
    refine apart.imp_of_mem fun listed listed' ids => ?_
    exact (disjoint_zones ids).2 ⟨clear _ listed _ listed', clear _ listed' _ listed⟩

end Rule

/-! ## All names -/

/-- The pairs of zones whose names have to differ: the shared ones from each other and from those of
rules, and the zone of one rule's limit from that of a group of servers, which may be its own. -/
structure ZonesApart (shared : List String) (options : RenderOptions) (rules : List Rule) :
    Prop where
  nodup : shared.Nodup
  limits : ∀ rule ∈ rules, rule.hasOwnZone options = true → rule.ownZone ∉ shared
  groups : ∀ rule ∈ rules, rule.healthCheck.isSome = true → rule.upstreamName options ∉ shared
  between : ∀ rule ∈ rules, ∀ other ∈ rules, Rule.LeavesGroup options rule other

/-- Whether shared names keep out of the way: they are different, none begins like the name of a
limit or of a group, and the stem of groups does not begin like the name of a limit. -/
structure LeavesLeads (shared : List String) (options : RenderOptions) : Prop where
  nodup : shared.Nodup
  limits : ∀ name ∈ shared, ¬ "rl_".toList <+: name.toList
  groups : ∀ name ∈ shared, ¬ (options.upstreamStem ++ "_").toList <+: name.toList
  between : ¬ "rl_".toList <+: (options.upstreamStem ++ "_").toList

instance (shared : List String) (options : RenderOptions) :
    Decidable (LeavesLeads shared options) :=
  decidable_of_iff
    (shared.Nodup ∧ (∀ name ∈ shared, ¬ "rl_".toList <+: name.toList) ∧
      (∀ name ∈ shared, ¬ (options.upstreamStem ++ "_").toList <+: name.toList) ∧
      ¬ "rl_".toList <+: (options.upstreamStem ++ "_").toList)
    ⟨fun h => ⟨h.1, h.2.1, h.2.2.1, h.2.2.2⟩, fun h => ⟨h.1, h.2, h.3, h.4⟩⟩

section Names

variable {shared : List String} {options : RenderOptions} {rules : List Rule}

/-- The shared zones are none of a rule's when neither its limit nor its group has their names. -/
theorem disjoint_shared :
    shared.Disjoint (rules.flatMap (·.zones options)) ↔
      (∀ rule ∈ rules, rule.hasOwnZone options = true → rule.ownZone ∉ shared) ∧
        ∀ rule ∈ rules, rule.healthCheck.isSome = true → rule.upstreamName options ∉ shared := by
  simp only [← forall_and]
  constructor
  · intro disjoint rule listed
    refine ⟨fun own isShared => ?_, fun checked isShared => ?_⟩
    · exact disjoint isShared
        (List.mem_flatMap.2 ⟨rule, listed, Rule.mem_zones.2 (.inl ⟨own, rfl⟩)⟩)
    · exact disjoint isShared
        (List.mem_flatMap.2 ⟨rule, listed, Rule.mem_zones.2 (.inr ⟨checked, rfl⟩)⟩)
  · intro clear zone isShared inRules
    obtain ⟨rule, listed, ofRule⟩ := List.mem_flatMap.1 inRules
    obtain ⟨own, rfl⟩ | ⟨checked, rfl⟩ := Rule.mem_zones.1 ofRule
    · exact (clear rule listed).1 own isShared
    · exact (clear rule listed).2 checked isShared

/-- What begins like the name of a group and like that of a limit begins so because of the stem. -/
theorem prefix_stem {stem : String} {zone : List Char} (limit : "rl_".toList <+: zone)
    (group : (stem ++ "_").toList <+: zone) : "rl_".toList <+: (stem ++ "_").toList := by
  obtain longer | ⟨rest, shorter⟩ := List.prefix_or_prefix_of_prefix limit group
  · exact longer
  rw [String.toList_append] at shorter ⊢
  have lead : "rl_".toList = ['r', 'l', '_'] := by decide
  have last : "_".toList = ['_'] := by decide
  rw [lead, last] at shorter ⊢
  match chars : stem.toList with
  | [] => simp [chars] at shorter
  | [_] => simp [chars] at shorter
  | [_, _] => simp_all
  | _ :: _ :: _ :: _ => simp [chars] at shorter

/-- Shared names that keep out of the way are apart from those of any rules. -/
theorem LeavesLeads.zonesApart (leaves : LeavesLeads shared options) (rules : List Rule) :
    ZonesApart shared options rules := by
  have limit (rule : Rule) : "rl_".toList <+: rule.ownZone.toList := by
    rw [Rule.ownZone, String.toList_append]
    exact List.prefix_append _ _
  have group (rule : Rule) :
      (options.upstreamStem ++ "_").toList <+: (rule.upstreamName options).toList := by
    rw [Rule.upstreamName, String.toList_append (t := rule.id)]
    exact List.prefix_append _ _
  refine ⟨leaves.nodup, ?_, ?_, fun rule _ other _ _ _ same => ?_⟩
  · exact fun rule _ _ isShared => leaves.limits _ isShared (limit rule)
  · exact fun rule _ _ isShared => leaves.groups _ isShared (group rule)
  · exact leaves.between (prefix_stem (limit rule) (same ▸ group other))

/-- A document that is not of rules, with the documents of valid rules with different ids, declares
zones of different names exactly when no two that can be the same are. -/
theorem nodup_declaredZones_append (main : Document)
    (valid : ∀ rule ∈ rules, rule.validate = .ok ()) (nodup : (rules.map Rule.id).Nodup) :
    (declaredZones (main ++ Rule.nodesOf options rules)).Nodup ↔
      ZonesApart (declaredZones main) options rules := by
  have all := (declaredZones_append main (Rule.nodesOf options rules)).trans
    ((Rule.declaredZones_nodesOf valid).append_left _)
  rw [all.nodup_iff, List.nodup_append', Rule.nodup_flatMap_zones nodup, disjoint_shared]
  constructor
  · rintro ⟨shared, between, limits, groups⟩
    exact ⟨shared, limits, groups, between⟩
  · rintro ⟨shared, limits, groups, between⟩
    exact ⟨shared, between, limits, groups⟩

end Names

namespace ManagerConfig

variable {config : ManagerConfig} {rules : List Rule}

/-- The zones that the main configuration is meant to declare. -/
theorem declaredZones_mainDocument (valid : config.validate = .ok ()) :
    declaredZones (Document.effective config.mainDocument) =
      [config.cacheZone, config.rateLimitZone] := by
  have cache := zoneName_append (colon_notMem (isIdentifier_cacheZone valid))
    (by decide : ":10m".toList.head? = some ':')
  have rate := zoneName_append (colon_notMem (isIdentifier_rateLimitZone valid))
    (by decide : ":10m".toList.head? = some ':')
  have memory : directives "zone" config.mainDocument = [] := by
    simp [mainDocument, mainDocumentOf]
  have tail : settingsOf "zone" config.rateSettings.tail = settingsOf "zone" config.rateSettings :=
    (settingsOf_of_none (by decide) _).symm
  simp only [declaredZones, Document.effective, directives_effectiveNodes]
  rw [memory, mainDocument, directives_proxy_cache_path, directives_limit_req_zone,
    List.flatMap_singleton, List.flatMap_singleton, List.singleton_append, List.tail_cons,
    settingsOf_cacheSettings, tail, config.settingsOf_rateSettings.1, List.map_singleton,
    List.map_singleton, cache, rate]
  rfl

/-- Under a valid configuration, valid rules with different ids have documents that, with the main
configuration as nginx reads it, declare zones of different names exactly when no two that can be
the same are. With shared names that keep out of the way, they always do. With bare paths, the main
configuration is read, and its names are those of the settings. -/
theorem nodup_declaredZones_iff (validConfig : config.validate = .ok ())
    (valid : ∀ rule ∈ rules, rule.validate = .ok ()) (nodup : (rules.map Rule.id).Nodup) :
    (∀ rule ∈ rules, ∃ own, rule.document config.renderOptions = .ok own) ∧
      (∀ main, Document.read? (config.fillTemplate builtInTemplate) = some main →
        ((declaredZones (main ++ Rule.nodesOf config.renderOptions rules)).Nodup ↔
          ZonesApart (declaredZones main) config.renderOptions rules) ∧
        (LeavesLeads (declaredZones main) config.renderOptions →
          (declaredZones (main ++ Rule.nodesOf config.renderOptions rules)).Nodup)) ∧
      (config.HasBarePaths → ∃ main,
        Document.read? (config.fillTemplate builtInTemplate) = some main ∧
          declaredZones main = [config.cacheZone, config.rateLimitZone]) := by
  refine ⟨fun rule listed => ?_, fun main _ => ?_, fun bare => ?_⟩
  · obtain ⟨own, made, _⟩ :=
      Rule.exists_document_of_validate (valid rule listed) config.renderOptions
    exact ⟨own, made⟩
  · have differ : (declaredZones (main ++ Rule.nodesOf config.renderOptions rules)).Nodup ↔
        ZonesApart (declaredZones main) config.renderOptions rules :=
      nodup_declaredZones_append main valid nodup
    exact ⟨differ, fun leaves => differ.2 (leaves.zonesApart rules)⟩
  · exact ⟨_, read?_fillTemplate validConfig bare, declaredZones_mainDocument validConfig⟩

/-- The default names keep out of the way of a rule with a limit of its own and a health check. -/
theorem nodup_declaredZones_shop :
    let config : ManagerConfig := {}
    let shop : Rule :=
      { id := "shop", targetContainer := "shop-a", targetPort := 80, healthCheck := some {},
        advanced := some { rateLimit := some { enabled := true, perIp := false } },
        created := .epoch }
    config.validate = .ok () ∧ (∀ rule ∈ [shop], rule.validate = .ok ()) ∧
      ([shop].map Rule.id).Nodup ∧
      ∃ main, Document.read? (config.fillTemplate builtInTemplate) = some main ∧
        LeavesLeads (declaredZones main) config.renderOptions ∧
        (declaredZones (main ++ Rule.nodesOf config.renderOptions [shop])).Nodup := by
  intro config shop
  have validConfig : config.validate = .ok () := by decide
  have valid : ∀ rule ∈ [shop], rule.validate = .ok () := by decide
  have nodup : ([shop].map Rule.id).Nodup := by decide
  obtain ⟨_, zones, bare⟩ := nodup_declaredZones_iff validConfig valid nodup
  obtain ⟨main, read, names⟩ := bare (by decide)
  have leaves : LeavesLeads (declaredZones main) config.renderOptions := by
    rw [names]
    decide
  exact ⟨validConfig, valid, nodup, main, read, leaves, (zones main read).2 leaves⟩

/-- A path that goes on with settings of its own and with another directive. -/
def twicePath : Path :=
  ⟨"/c keys_zone=one:1m; proxy_cache_path /d"⟩

set_option maxRecDepth 20000 in
/-- With such a path for its cache, the main configuration declares a zone of this path too. -/
theorem declaredZones_twicePath :
    (Document.read? (fillTemplate { cacheDir := twicePath } builtInTemplate)).map declaredZones =
      some ["one", "dockgate_cache", "one"] := by
  have calm : ∀ p : Placeholder, IsCalm (p.value { cacheDir := twicePath }).toList :=
    isCalm_value (by decide) (by decide) (by decide) (by decide)
  rw [fillTemplate_builtInTemplate calm, Document.read?, String.toList_ofList]
  decide +kernel

/-- Nothing keeps the two shared zones from having one name, nor groups of servers from having the
names of limits, nor a shared zone from having the name of either, nor the path of the cache from
declaring a zone of its own. -/
theorem not_nodup_declaredZones :
    let shop : Rule :=
      { id := "shop", targetContainer := "shop-a", targetPort := 80, healthCheck := some {},
        advanced := some { rateLimit := some { enabled := true, perIp := false } },
        created := .epoch }
    shop.validate = .ok () ∧
      ∀ config ∈ ([{ cacheZone := "one" }, { upstreamStem := "rl" }, { cacheZone := "rl_shop" },
          { rateLimitZone := "backend_shop" }, { cacheDir := twicePath }] : List ManagerConfig),
        config.validate = .ok () ∧
          ∃ main, Document.read? (config.fillTemplate builtInTemplate) = some main ∧
            ¬ (declaredZones (main ++ Rule.nodesOf config.renderOptions [shop])).Nodup := by
  intro shop
  have valid : ∀ rule ∈ [shop], rule.validate = .ok () := by decide
  -- the zones of what is read and of the rule, where one is there twice
  have clash {config : ManagerConfig} {shared : List String} {main : Document}
      (read : Document.read? (config.fillTemplate builtInTemplate) = some main)
      (names : declaredZones main = shared)
      (twice : ¬ (shared ++ [shop].flatMap (·.zones config.renderOptions)).Nodup) :
      ∃ main, Document.read? (config.fillTemplate builtInTemplate) = some main ∧
        ¬ (declaredZones (main ++ Rule.nodesOf config.renderOptions [shop])).Nodup := by
    have all := (declaredZones_append main (Rule.nodesOf config.renderOptions [shop])).trans
      ((Rule.declaredZones_nodesOf valid).append_left _)
    refine ⟨main, read, ?_⟩
    rwa [all.nodup_iff, names]
  have settings (config : ManagerConfig) (validConfig : config.validate = .ok ())
      (bare : config.HasBarePaths)
      (twice : ¬ ([config.cacheZone, config.rateLimitZone] ++
        [shop].flatMap (·.zones config.renderOptions)).Nodup) :
      config.validate = .ok () ∧
        ∃ main, Document.read? (config.fillTemplate builtInTemplate) = some main ∧
          ¬ (declaredZones (main ++ Rule.nodesOf config.renderOptions [shop])).Nodup :=
    ⟨validConfig,
      clash (read?_fillTemplate validConfig bare) (declaredZones_mainDocument validConfig) twice⟩
  refine ⟨valid shop (List.mem_singleton_self _), ?_⟩
  simp only [List.forall_mem_cons, List.not_mem_nil, false_implies, implies_true, and_true]
  refine ⟨settings _ (by decide) (by decide) (by decide),
    settings _ (by decide) (by decide) (by decide), settings _ (by decide) (by decide) (by decide),
    settings _ (by decide) (by decide) (by decide), by decide, ?_⟩
  obtain ⟨main, read, names⟩ := Option.map_eq_some_iff.1 declaredZones_twicePath
  exact clash read names (by decide)

end ManagerConfig

end ProxyKeeper
