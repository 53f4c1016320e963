import ProxyKeeper.Proofs.Nginx.Zones
import ProxyKeeper.Proofs.Store.MainDocument
import ProxyKeeper.Proofs.Store.Requests

/-!
# The main configuration includes what the store writes

The store writes the files of rules into two directories, the main configuration includes the files
of two directories, and the documents of rules refer to zones that the main configuration declares.
All three come from the same configuration, and agree as long as nginx takes the paths for what they
are. The template does not put them in quotes, although words elsewhere get quotes where they need
them: a blank in the path of the active directory makes two words of it.

## Main Definitions

* `Announces` — what the documents and files of rules rely on
* `Store.WritesOnly` — what may be written where there is no template

## Main Results

* `Store.announces_bootstrap` — what bootstrap writes announces the files and zones of rules
* `Store.not_announces_blank` — with a blank in a path it does not
-/

namespace ProxyKeeper

open Nginx

/-- What each block of a name includes. -/
def includesIn (name : String) (main : Document) : List (List (List String)) :=
  (blocks name main).map fun block => directives "include" block.2

theorem includesIn_effective (name : String) (document : Document) :
    includesIn name document.effective = includesIn name document := by
  rw [includesIn, Document.effective, blocks_effectiveNodes, List.map_map, includesIn]
  refine List.map_congr_left fun block _ => ?_
  exact directives_effectiveNodes "include" block.2

/-- Whether a main configuration includes the files of rules, each kind in its own block, and
declares the zones that their documents share. -/
structure Announces (config : ManagerConfig) (main : Document) : Prop where
  http : includesIn "http" main = [[[config.activeDir.text ++ "/*.conf"]]]
  stream : includesIn "stream" main = [[[config.streamDir.text ++ "/*.conf"]]]
  cache : ∃ args, directives "proxy_cache_path" main = [config.cacheDir.text :: args] ∧
    (settingsOf "keys_zone" args).map zoneName = [config.renderOptions.cacheZone]
  rate : ∃ args, directives "limit_req_zone" main = [args] ∧
    (settingsOf "zone" args).map zoneName = [config.renderOptions.rateLimitZone] ∧
    settingsOf "rate" args = [toString config.renderOptions.rateLimitZoneRps.toNat ++ "r/s"]

namespace ManagerConfig

variable {config : ManagerConfig}

theorem colon_notMem {name : String} (h : isIdentifier name = true) : ':' ∉ name.toList := by
  rw [isIdentifier, Bool.and_eq_true, List.all_eq_true] at h
  exact fun listed => absurd (h.2 ':' listed) (by decide)

theorem settingsOf_cacheSettings (config : ManagerConfig) :
    settingsOf "keys_zone" config.cacheSettings = [config.cacheZone ++ ":10m"] := by
  rw [cacheSettings, settingsOf_of_none (by decide), settingsOf_setting,
    settingsOf_of_none (by decide), settingsOf_of_none (by decide),
    settingsOf_of_none (by decide)]
  rfl

theorem settingsOf_rateSettings (config : ManagerConfig) :
    settingsOf "zone" config.rateSettings = [config.rateLimitZone ++ ":10m"] ∧
      settingsOf "rate" config.rateSettings =
        [toString config.rateLimitRps.toNat ++ "r/s"] := by
  rw [rateSettings]
  constructor
  · rw [settingsOf_of_none (by decide), settingsOf_setting,
      settingsOf_setting_other (by decide) (by decide)]
    rfl
  · rw [settingsOf_of_none (by decide), settingsOf_setting_other (by decide) (by decide),
      settingsOf_setting]
    rfl

variable (config) (cache http stream : List String)

theorem includesIn_http :
    includesIn "http" (config.mainDocumentOf cache http stream) = [[http]] := by
  simp [includesIn, mainDocumentOf]

theorem includesIn_stream :
    includesIn "stream" (config.mainDocumentOf cache http stream) = [[stream]] := by
  simp [includesIn, mainDocumentOf]

theorem directives_proxy_cache_path :
    directives "proxy_cache_path" (config.mainDocumentOf cache http stream) =
      [cache ++ config.cacheSettings] := by
  simp [mainDocumentOf]

theorem directives_limit_req_zone :
    directives "limit_req_zone" (config.mainDocumentOf cache http stream) =
      [config.rateSettings] := by
  simp [mainDocumentOf]

variable {config cache http stream}

/-- What the main configuration is meant to say announces the files and zones of rules. -/
theorem announces_mainDocument (valid : config.validate = .ok ()) :
    Announces config (Document.effective config.mainDocument) where
  http := by
    rw [includesIn_effective, mainDocument, includesIn_http]
  stream := by
    rw [includesIn_effective, mainDocument, includesIn_stream]
  cache := by
    refine ⟨config.cacheSettings, ?_, ?_⟩
    · rw [Document.effective, directives_effectiveNodes, mainDocument, directives_proxy_cache_path,
        List.singleton_append]
    · rw [settingsOf_cacheSettings, List.map_singleton,
        zoneName_append (colon_notMem (isIdentifier_cacheZone valid)) (by decide)]
      rfl
  rate := by
    obtain ⟨zone, rate⟩ := config.settingsOf_rateSettings
    refine ⟨config.rateSettings, ?_, ?_, rate⟩
    · rw [Document.effective, directives_effectiveNodes, mainDocument, directives_limit_req_zone]
    · rw [zone, List.map_singleton,
        zoneName_append (colon_notMem (isIdentifier_rateLimitZone valid)) (by decide)]
      rfl

end ManagerConfig

/-! ## Bootstrap -/

namespace Store

/-- A world in which the template is not found, where nothing but a text may be written. -/
def withoutTemplate (store : Store) (text : String) : Terms Unit where
  allows request _ := ∀ path content, request = .file (.write path content) → content = text.toUTF8
  answers
    | .file (.read path), _, answer, _ =>
      path = store.config.templatesDir.child templateName → answer = .error .notFound
    | _, _, _, _ => True

variable {store : Store} {text : String}

/-- Whether an operation writes nothing but the text that is allowed. -/
def WritesOnly {α : Type} (store : Store) (text : String) (operation : Operation α) : Prop :=
  operation.Meets (store.withoutTemplate text) (fun _ _ => True) (fun _ _ => True) ()

theorem WritesOnly.bind {α β : Type} {operation : Operation α} {f : α → Operation β}
    (first : store.WritesOnly text operation) (rest : ∀ a, store.WritesOnly text (f a)) :
    store.WritesOnly text (operation >>= f) :=
  Operation.Meets.bind first fun a _ _ => rest a

/-- An operation that writes nothing writes nothing else. -/
theorem writesOnly_of_asks {α : Type} {operation : Operation α}
    (asks : operation.run.Asks fun r => ∀ path content, r ≠ .file (.write path content)) :
    store.WritesOnly text operation := by
  have kept : operation.run.Meets (store.withoutTemplate text) (fun _ s => s = ()) () :=
    asks.meets (fun r other path content same => absurd same (other path content))
      fun _ _ _ _ _ => rfl
  refine Program.Meets.mono kept fun result _ _ => ?_
  cases result <;> trivial

theorem writesOnly_file (path : Path) {call : FileCall}
    (allowed : ∀ path content, call = .write path content → content = text.toUTF8) :
    store.WritesOnly text (Operation.file path call) := by
  rw [Operation.file]
  refine Operation.meets_bind.2 ⟨?_, fun answer _ _ => ?_⟩
  · intro path content same
    exact allowed path content (Request.file.inj same)
  · cases answer <;> trivial

theorem writesOnly_writeWhole (path : Path) : store.WritesOnly text (writeWhole path text) := by
  rw [writeWhole]
  refine Operation.meets_bind.2 ⟨by rintro _ _ ⟨⟩, fun fresh _ _ => ?_⟩
  refine WritesOnly.bind (writesOnly_file _ fun path content same => ?_) fun _ => ?_
  · cases same
    rfl
  · refine Operation.meets_bind.2 ⟨by rintro _ _ ⟨⟩, fun answer _ _ => ?_⟩
    cases answer with
    | ok _ => trivial
    | error fault =>
      refine writesOnly_of_asks (Operation.asks_bind (Operation.asks_attempt ?_) fun _ => trivial)
      rintro _ _ ⟨⟩

/-- Where the template is not found, the built-in one is used. -/
theorem meets_template (store : Store) :
    store.template.Meets (store.withoutTemplate text) (fun template _ => template = builtInTemplate)
      (fun _ _ => True) () := by
  rw [template, readIfPresent]
  refine Operation.meets_bind.2 (Operation.meets_bind.2 ⟨?_, fun answer _ answered => ?_⟩)
  · rintro _ _ ⟨⟩
  have missing : answer = .error .notFound := answered rfl
  subst missing
  exact Option.getD_none

/-- What bootstrap writes, where there is no template, is the built-in one with its values. -/
theorem writesOnly_bootstrap (store : Store) :
    store.WritesOnly (store.config.fillTemplate builtInTemplate) store.bootstrap := by
  have directory (path : Path) : store.WritesOnly (store.config.fillTemplate builtInTemplate)
      (Operation.file path (.createDirectories path)) := writesOnly_file path nofun
  rw [bootstrap]
  refine (directory _).bind fun _ => (directory _).bind fun _ => ?_
  have looks : (isPresent store.config.mainConfig).run.Asks
      fun r => ∀ path content, r ≠ .file (.write path content) := by
    refine (asks_isPresent _).mono fun r look path content same => ?_
    subst same
    cases look
  refine (writesOnly_of_asks looks).bind fun present => ?_
  cases present with
  | true => trivial
  | false =>
    refine Operation.Meets.bind store.meets_template fun template _ builtIn => ?_
    subst builtIn
    cases store.config.mainConfig.parent? with
    | some parent =>
      exact (directory parent).bind fun _ => (writesOnly_writeWhole _).bind fun _ => trivial
    | none => exact (writesOnly_writeWhole _).bind fun _ => trivial

/-- With paths that nginx takes as they stand, the text that bootstrap writes where there is no
template is read as a main configuration that includes the files of rules and declares the zones
that they share. -/
theorem announces_bootstrap (valid : store.config.validate = .ok ())
    (bare : store.config.HasBarePaths) :
    store.WritesOnly (store.config.fillTemplate builtInTemplate) store.bootstrap ∧
      ∃ main, Document.read? (store.config.fillTemplate builtInTemplate) = some main ∧
        Announces store.config main :=
  ⟨store.writesOnly_bootstrap, _, ManagerConfig.read?_fillTemplate valid bare,
    ManagerConfig.announces_mainDocument valid⟩

/-- Signs that begin something else may stand inside a path. -/
theorem announces_bootstrap_signs :
    let store : Store :=
      ⟨{ activeDir := ⟨"/srv/it's/conf.d/"⟩, cacheDir := ⟨"/var/\x7d#1\\d"⟩, cacheZone := "c",
         rateLimitZone := "r", rateLimitRps := 7 }⟩
    store.config.validate = .ok () ∧ store.config.HasBarePaths ∧
      store.WritesOnly (store.config.fillTemplate builtInTemplate) store.bootstrap ∧
      ∃ main, Document.read? (store.config.fillTemplate builtInTemplate) = some main ∧
        Announces store.config main := by
  intro store
  have valid : store.config.validate = .ok () := by decide
  have bare : store.config.HasBarePaths := by decide
  exact ⟨valid, bare, store.announces_bootstrap valid bare⟩

/-- A blank in the path of the active directory makes two words of each pattern, and nothing that
the store writes is included. -/
theorem not_announces_blank :
    let store : Store := ⟨{ activeDir := ⟨"my conf"⟩ }⟩
    store.config.validate = .ok () ∧
      store.WritesOnly (store.config.fillTemplate builtInTemplate) store.bootstrap ∧
      ∃ main, Document.read? (store.config.fillTemplate builtInTemplate) = some main ∧
        includesIn "http" main = [[["my", "conf/*.conf"]]] ∧
        includesIn "stream" main = [[["my", "conf/stream/*.conf"]]] ∧
        ¬ Announces store.config main := by
  intro store
  have valid : store.config.validate = .ok () := by decide
  have read := ManagerConfig.read?_of_words valid (by decide) (by decide) (by decide) (by decide)
    (ManagerConfig.makes_singleton _)
    (by decide : ManagerConfig.Makes ["my", "conf/*.conf"]
      (store.config.activeDir.text ++ "/*.conf"))
    (by decide : ManagerConfig.Makes ["my", "conf/stream/*.conf"]
      (store.config.streamDir.text ++ "/*.conf")) (by decide)
  have http := ManagerConfig.includesIn_http store.config [store.config.cacheDir.text]
    ["my", "conf/*.conf"] ["my", "conf/stream/*.conf"]
  have stream := ManagerConfig.includesIn_stream store.config [store.config.cacheDir.text]
    ["my", "conf/*.conf"] ["my", "conf/stream/*.conf"]
  rw [← includesIn_effective] at http stream
  refine ⟨valid, store.writesOnly_bootstrap, _, read, http, stream, fun announces => ?_⟩
  exact absurd (http.symm.trans announces.http) (by decide)

end Store

end ProxyKeeper
