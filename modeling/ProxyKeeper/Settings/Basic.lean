import ProxyKeeper.Error
import ProxyKeeper.Settings.Check
import ProxyKeeper.Text.Blank

/-!
# Settings

The settings of the service, as its file gives them: how it logs, where nginx and its files are,
how long to wait for it, and the names that the documents of rules share.

## Main Definitions

* `Settings`, with `GeneralSettings` and `NginxSettings`: the values and their defaults.
* `Settings.checks`, `Settings.validate`: what valid settings meet.
-/

namespace ProxyKeeper

/-- How the service logs. -/
structure GeneralSettings where
  logLevel : String := "info"
  logFormat : String := "json"
deriving DecidableEq

/-- Where nginx and its files are. Paths are kept as texts; times are in seconds. -/
structure NginxSettings where
  binary : String := "nginx"
  /-- The command that runs nginx, such as one that enters its container. -/
  commandLead : List String := []
  mainConfig : String := "/etc/nginx/nginx.conf"
  activeDir : String := "/etc/nginx/conf.d/dockgate"
  templatesDir : String := "/etc/dockgate/templates"
  cacheDir : String := "/var/cache/nginx/dockgate"
  /-- Where the rules are that the files of the active directory are brought in step with. -/
  rulesDir : String := "/etc/dockgate/rules"
  testTimeout : UInt64 := 30
  reloadTimeout : UInt64 := 30
  /-- Whether files are put back when nginx accepts them but does not take them up. -/
  rollbackOnApplyFailure : Bool := true
  cacheZone : String := "dockgate_cache"
  rateLimitZone : String := "one"
  rateLimitRps : UInt32 := 10
deriving DecidableEq

/-- The settings of the service. -/
structure Settings where
  general : GeneralSettings := {}
  nginx : NginxSettings := {}
deriving DecidableEq, Inhabited

/-- The log levels. -/
def logLevels : List String :=
  ["trace", "debug", "info", "warn", "error"]

/-- The log formats. -/
def logFormats : List String :=
  ["json", "pretty"]

/-- A value among those allowed. -/
def Check.oneOf (field value : String) (allowed : List String) : Check :=
  ⟨allowed.contains value, field, "must be one of: " ++ ", ".intercalate allowed⟩

/-- A value with content. -/
def Check.notBlank (field value noun : String) : Check :=
  ⟨!Text.isBlankString value, field, noun ++ " must not be empty"⟩

/-- A number of seconds that can be waited. -/
def Check.wait (field : String) (n : UInt64) : Check :=
  ⟨isWait n, field, "must be 1-" ++ toString maximalWait⟩

/-- The name of a zone. -/
def Check.zone (field name : String) : Check :=
  ⟨isIdentifier name, field, "must be non-empty and contain only [A-Za-z0-9_]"⟩

namespace Settings

/-- What valid settings meet, in the order in which failures are reported. -/
def checks (settings : Settings) : List Check :=
  [.oneOf "general.log_level" settings.general.logLevel logLevels,
   .oneOf "general.log_format" settings.general.logFormat logFormats,
   .notBlank "nginx.binary" settings.nginx.binary "binary",
   .notBlank "nginx.main_config" settings.nginx.mainConfig "path",
   .notBlank "nginx.active_dir" settings.nginx.activeDir "path",
   .wait "nginx.test_timeout_secs" settings.nginx.testTimeout,
   .wait "nginx.reload_timeout_secs" settings.nginx.reloadTimeout,
   .zone "nginx.cache_zone" settings.nginx.cacheZone,
   .zone "nginx.rate_limit_zone" settings.nginx.rateLimitZone,
   ⟨settings.nginx.rateLimitRps != 0, "nginx.rate_limit_rps", "must be greater than 0"⟩]

/-- Passes valid settings and reports the first failure of any other. -/
def validate (settings : Settings) : Except SettingsError Unit :=
  match Check.firstFailed? settings.checks with
  | none => .ok ()
  | some check => .error (.invalidValue check.field check.reason)

end Settings

end ProxyKeeper
