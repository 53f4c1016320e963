import Mathlib.Tactic.Common
import ProxyKeeper.Libraries
import ProxyKeeper.Settings.Loading
import ProxyKeeper.World

/-!
# Settings from two sources

The environment counts over the file: a setting is what its variable says, and where the variable
says nothing it is what the file states. Loading checks the settings twice, those of the file by
themselves and then those that are in effect. So what is in effect decides on its own only for files
that are valid by themselves; a value of the file that is out of range is not forgiven where the
environment gives another one.

## Main Definitions

* `Environment.Settles` — what is in effect of a setting that has a variable
* `Settings.IsEffective` — the settings that are in effect, field by field
* `Settings.IsStated` — the settings that a file states, valid or not

## Main Results

* `Settings.isEffective_iff` — the settings in effect are the ones that loading makes
* `Settings.load_effective` — what is loaded of a file and an environment
* `Settings.not_load_effective` — a file that is not valid by itself
-/

namespace ProxyKeeper

variable {α : Type}

namespace Environment

variable {environment : Environment} {name : String} {read? : String → Option α}
  {stated effective value : α}

/-- Whether a variable is set, to a text in UTF-8 that is read as a value. -/
def Says (environment : Environment) (name : String) (read? : String → Option α) (value : α) :
    Prop :=
  ∃ bytes text, environment name = some bytes ∧ Text.Utf8.strict? bytes = some text ∧
    read? text = some value

/-- Whether a value is the one in effect: that of the variable, or the stated one when the variable
says nothing. -/
def Settles (environment : Environment) (name : String) (read? : String → Option α)
    (stated effective : α) : Prop :=
  environment.Says name read? effective ∨
    (∀ value, ¬ environment.Says name read? value) ∧ effective = stated

theorem says_iff :
    environment.Says name read? value ↔ (environment.text? name).bind read? = some value := by
  simp only [Says, text?, Option.bind_eq_some_iff]
  constructor
  · rintro ⟨bytes, text, set, legible, read⟩
    exact ⟨text, ⟨bytes, set, legible⟩, read⟩
  · rintro ⟨text, ⟨bytes, set, legible⟩, read⟩
    exact ⟨bytes, text, set, legible, read⟩

/-- There is one value in effect, the one that loading takes. -/
theorem settles_iff :
    environment.Settles name read? stated effective ↔
      environment.override name read? stated = effective := by
  simp only [Settles, says_iff, override]
  cases (environment.text? name).bind read? with
  | none => simp [eq_comm]
  | some value => simp

end Environment

namespace Settings

variable {readers : Readers} {environment environment' : Environment} {path path' : Path}
  {nginx nginx' : NginxModel} {world world' : World} {stated stated' effective : Settings}

open Environment in
/-- The settings in effect: each one by itself. -/
structure IsEffective (environment : Environment) (stated effective : Settings) : Prop where
  logLevel : environment.Settles "DOCKGATE_GENERAL_LOG_LEVEL" some
    stated.general.logLevel effective.general.logLevel
  logFormat : environment.Settles "DOCKGATE_GENERAL_LOG_FORMAT" some
    stated.general.logFormat effective.general.logFormat
  binary : environment.Settles "DOCKGATE_NGINX_BINARY" some
    stated.nginx.binary effective.nginx.binary
  commandLead : environment.Settles "DOCKGATE_NGINX_COMMAND_PREFIX" (fun s => some (readItems s))
    stated.nginx.commandLead effective.nginx.commandLead
  mainConfig : environment.Settles "DOCKGATE_NGINX_MAIN_CONFIG" some
    stated.nginx.mainConfig effective.nginx.mainConfig
  activeDir : environment.Settles "DOCKGATE_NGINX_ACTIVE_DIR" some
    stated.nginx.activeDir effective.nginx.activeDir
  templatesDir : environment.Settles "DOCKGATE_NGINX_TEMPLATES_DIR" some
    stated.nginx.templatesDir effective.nginx.templatesDir
  cacheDir : environment.Settles "DOCKGATE_NGINX_CACHE_DIR" some
    stated.nginx.cacheDir effective.nginx.cacheDir
  rulesDir : environment.Settles "DOCKGATE_NGINX_RULES_DIR" some
    stated.nginx.rulesDir effective.nginx.rulesDir
  testTimeout : environment.Settles "DOCKGATE_NGINX_TEST_TIMEOUT_SECS" readUInt64?
    stated.nginx.testTimeout effective.nginx.testTimeout
  reloadTimeout : environment.Settles "DOCKGATE_NGINX_RELOAD_TIMEOUT_SECS" readUInt64?
    stated.nginx.reloadTimeout effective.nginx.reloadTimeout
  rollbackOnApplyFailure : environment.Settles "DOCKGATE_NGINX_ROLLBACK_ON_APPLY_FAILURE" readBool?
    stated.nginx.rollbackOnApplyFailure effective.nginx.rollbackOnApplyFailure
  cacheZone : environment.Settles "DOCKGATE_NGINX_CACHE_ZONE" some
    stated.nginx.cacheZone effective.nginx.cacheZone
  rateLimitZone : environment.Settles "DOCKGATE_NGINX_RATE_LIMIT_ZONE" some
    stated.nginx.rateLimitZone effective.nginx.rateLimitZone
  rateLimitRps : environment.Settles "DOCKGATE_NGINX_RATE_LIMIT_RPS" readUInt32?
    stated.nginx.rateLimitRps effective.nginx.rateLimitRps

/-- The settings in effect are those of the environment over the stated ones. -/
theorem isEffective_iff :
    IsEffective environment stated effective ↔ stated.override environment = effective := by
  constructor
  · intro counts
    obtain ⟨⟨level, format⟩, nginx⟩ := effective
    cases nginx
    simp only [override, mk.injEq, GeneralSettings.mk.injEq, NginxSettings.mk.injEq]
    refine ⟨⟨?_, ?_⟩, ?_, ?_, ?_, ?_, ?_, ?_, ?_, ?_, ?_, ?_, ?_, ?_, ?_⟩
    all_goals apply Environment.settles_iff.1
    exacts [counts.logLevel, counts.logFormat, counts.binary, counts.commandLead,
      counts.mainConfig, counts.activeDir, counts.templatesDir, counts.cacheDir, counts.rulesDir,
      counts.testTimeout, counts.reloadTimeout, counts.rollbackOnApplyFailure, counts.cacheZone,
      counts.rateLimitZone, counts.rateLimitRps]
  · rintro rfl
    constructor <;> exact Environment.settles_iff.2 rfl

/-! ## What is loaded -/

/-- Whether a file states settings, in a document that can be read; they need not be valid. -/
def IsStated (readers : Readers) (path : Path) (tree : Tree) (stated : Settings) : Prop :=
  ∃ content text, tree.read path = .ok content ∧ Text.Utf8.strict? content = some text ∧
    read readers text = .ok stated

/-- Settings are checked as the file states them, and what comes of the environment over them is
checked again. -/
theorem runIn_load (given : IsStated readers path world.tree stated) :
    (load readers environment path).run.runIn nginx world =
      (stated.checked.bind fun own => (own.override environment).checked, world) := by
  obtain ⟨content, text, held, legible, written⟩ := given
  have own : ofContent readers path (world.tree.read path) = stated.checked := by
    simp only [held, ofContent, legible, ofText, written]
  show ((ExceptT.mk (.done (ofContent readers path (world.tree.read path))) >>= fun own =>
    ExceptT.mk (.done (own.override environment).checked) : Loading Settings).run).runIn nginx
      world = _
  rw [own]
  cases stated.checked with
  | ok own => rfl
  | error error => rfl

theorem checked_eq_ok_iff {settings loaded : Settings} :
    settings.checked = .ok loaded ↔ settings.validate = .ok () ∧ loaded = settings := by
  rw [checked]
  cases settings.validate with
  | ok _ => simp [eq_comm]
  | error error => simp

/-- What is loaded of a file that states settings and an environment: the settings in effect,
provided that they are valid and that the stated ones are. For files that are valid by themselves
this is a matter of the settings in effect alone, so that two of them come to the same. -/
theorem load_effective (given : IsStated readers path world.tree stated)
    (counts : IsEffective environment stated effective) :
    (∀ loaded, (load readers environment path).run.runIn nginx world = (.ok loaded, world) ↔
      stated.validate = .ok () ∧ effective.validate = .ok () ∧ loaded = effective) ∧
    (stated.validate = .ok () →
      (∀ error, effective.validate = .error error →
        (load readers environment path).run.runIn nginx world = (.error (.settings error), world)) ∧
      ∀ (readers' : Readers) (environment' : Environment) (path' : Path) (nginx' : NginxModel)
        (world' : World) (stated' : Settings), IsStated readers' path' world'.tree stated' →
        IsEffective environment' stated' effective → stated'.validate = .ok () →
        ((load readers' environment' path').run.runIn nginx' world').1 =
          ((load readers environment path).run.runIn nginx world).1) := by
  obtain rfl := isEffective_iff.1 counts
  have alone {readers environment path nginx world} {stated : Settings}
      (given : IsStated readers path world.tree stated) (valid : stated.validate = .ok ()) :
      (load readers environment path).run.runIn nginx world =
        ((stated.override environment).checked, world) := by
    rw [runIn_load given, checked_eq_ok_iff.2 ⟨valid, rfl⟩]
    rfl
  refine ⟨fun loaded => ?_, fun valid => ⟨fun error refused => ?_, ?_⟩⟩
  · cases own : stated.validate with
    | ok _ => rw [alone given own, Prod.mk.injEq, checked_eq_ok_iff]; simp
    | error error =>
      have refused : stated.checked = .error (.settings error) := by rw [checked, own]
      rw [runIn_load given, refused]
      simp [Except.bind]
  · rw [alone given valid, checked, refused]
  · intro readers' environment' path' nginx' world' stated' given' counts' valid'
    rw [alone given valid, alone given' valid', isEffective_iff.1 counts']

/-- One file leaves the level to the environment, which also holds a number that cannot be read; the
other one states the same level itself. -/
theorem load_effective_level :
    let environment : Environment := fun name =>
      if name = "DOCKGATE_GENERAL_LOG_LEVEL" then some "warn".toUTF8
      else if name = "DOCKGATE_NGINX_RATE_LIMIT_RPS" then some "many".toUTF8
      else none
    let text := "[general]\nlog_level = \"debug\"\n[nginx]\nrate_limit_rps = 7"
    let text' := "general.log_level = \"warn\"\nnginx.rate_limit_rps = 7"
    let world (text : String) : World := { tree := { entries := [(["s"], .file text.toUTF8)] } }
    let effective : Settings :=
      { general := { logLevel := "warn" }, nginx := { rateLimitRps := 7 } }
    let readers := Libraries.standard.toReaders
    (load readers environment ⟨"/s"⟩).run.runIn World.withoutNginx (world text) =
        (.ok effective, world text) ∧
      ((load readers (fun _ => none) ⟨"/s"⟩).run.runIn World.withoutNginx (world text')).1 =
        ((load readers environment ⟨"/s"⟩).run.runIn World.withoutNginx (world text)).1 := by
  intro environment text text' world effective readers
  let stated : Settings := { general := { logLevel := "debug" }, nginx := { rateLimitRps := 7 } }
  have given : IsStated readers ⟨"/s"⟩ (world text).tree stated :=
    ⟨_, text, rfl, by decide +kernel, by decide +kernel⟩
  have given' : IsStated readers ⟨"/s"⟩ (world text').tree effective :=
    ⟨_, text', rfl, by decide +kernel, by decide +kernel⟩
  have counts : IsEffective environment stated effective := isEffective_iff.2 (by decide +kernel)
  have counts' : IsEffective (fun _ => none) effective effective :=
    isEffective_iff.2 (by decide +kernel)
  obtain ⟨succeeds, alike⟩ :=
    @load_effective readers environment _ World.withoutNginx _ _ _ given counts
  exact ⟨(succeeds effective).2 ⟨by decide +kernel, by decide +kernel, rfl⟩,
    (alike (by decide +kernel)).2 _ _ _ _ _ _ given' counts' (by decide +kernel)⟩

/-- A level that does not exist is refused in the file although the environment gives another one,
while the same settings come into effect from a file that does not speak of a level. -/
theorem not_load_effective :
    let environment : Environment := fun name =>
      if name = "DOCKGATE_GENERAL_LOG_LEVEL" then some "info".toUTF8 else none
    let text := "[general]\nlog_level = \"verbose\"\n"
    let world (text : String) : World := { tree := { entries := [(["s"], .file text.toUTF8)] } }
    let stated : Settings := { general := { logLevel := "verbose" } }
    let effective : Settings := {}
    let readers := Libraries.standard.toReaders
    effective.validate = .ok () ∧
      (IsStated readers ⟨"/s"⟩ (world text).tree stated ∧ IsEffective environment stated effective ∧
        ((load readers environment ⟨"/s"⟩).run.runIn World.withoutNginx (world text)).1 =
          .error (.settings (.invalidValue "general.log_level"
            "must be one of: trace, debug, info, warn, error"))) ∧
      IsStated readers ⟨"/s"⟩ (world "").tree {} ∧ IsEffective environment {} effective ∧
        ((load readers environment ⟨"/s"⟩).run.runIn World.withoutNginx (world "")).1 =
          .ok effective := by
  intro environment text world stated effective readers
  refine ⟨by decide +kernel, ⟨⟨_, text, rfl, by decide +kernel, by decide +kernel⟩,
    isEffective_iff.2 (by decide +kernel), by decide +kernel⟩,
    ⟨_, "", rfl, by decide +kernel, by decide +kernel⟩, isEffective_iff.2 (by decide +kernel),
    by decide +kernel⟩

end Settings

end ProxyKeeper
