import ProxyKeeper.Decode
import ProxyKeeper.Readers
import ProxyKeeper.Settings.Basic

/-!
# Settings as records

The file of the settings is a TOML document with a table for each group. A setting that is not
given takes its default.

## Main Definitions

* `Settings.entries`: the entries of the document that gives some settings.
* `Settings.encode`, `Settings.decode`: the record of settings.
* `Settings.read`: the settings a document gives.
-/

namespace ProxyKeeper

namespace GeneralSettings

/-- The entries of the general settings. -/
def entries (settings : GeneralSettings) : List (String × Toml.Value) :=
  [("log_level", .string settings.logLevel), ("log_format", .string settings.logFormat)]

/-- The general settings of a record. -/
def decode (d : Dialect) (value : Json) : Decode.Result GeneralSettings := do
  let given ← Decode.fields d ["log_level", "log_format"] value
  let usual : GeneralSettings := {}
  let logLevel ← given.withDefault "log_level" usual.logLevel Decode.string
  let logFormat ← given.withDefault "log_format" usual.logFormat Decode.string
  .ok { logLevel, logFormat }

end GeneralSettings

namespace NginxSettings

/-- The entries of the settings of nginx. -/
def entries (settings : NginxSettings) : List (String × Toml.Value) :=
  [("binary", .string settings.binary),
   ("command_prefix", .array (settings.commandLead.map .string)),
   ("main_config", .string settings.mainConfig),
   ("active_dir", .string settings.activeDir),
   ("templates_dir", .string settings.templatesDir),
   ("cache_dir", .string settings.cacheDir),
   ("rules_dir", .string settings.rulesDir),
   ("test_timeout_secs", .integer settings.testTimeout.toNat),
   ("reload_timeout_secs", .integer settings.reloadTimeout.toNat),
   ("rollback_on_apply_failure", .boolean settings.rollbackOnApplyFailure),
   ("cache_zone", .string settings.cacheZone),
   ("rate_limit_zone", .string settings.rateLimitZone),
   ("rate_limit_rps", .integer settings.rateLimitRps.toNat)]

/-- The fields of the settings of nginx. -/
def fieldNames : List String :=
  ["binary", "command_prefix", "main_config", "active_dir", "templates_dir", "cache_dir",
   "rules_dir", "test_timeout_secs", "reload_timeout_secs", "rollback_on_apply_failure",
   "cache_zone", "rate_limit_zone", "rate_limit_rps"]

/-- The settings of nginx of a record. -/
def decode (d : Dialect) (value : Json) : Decode.Result NginxSettings := do
  let given ← Decode.fields d fieldNames value
  let usual : NginxSettings := {}
  let binary ← given.withDefault "binary" usual.binary Decode.string
  let commandLead ← given.withDefault "command_prefix" usual.commandLead
    (Decode.list Decode.string)
  let mainConfig ← given.withDefault "main_config" usual.mainConfig Decode.string
  let activeDir ← given.withDefault "active_dir" usual.activeDir Decode.string
  let templatesDir ← given.withDefault "templates_dir" usual.templatesDir Decode.string
  let cacheDir ← given.withDefault "cache_dir" usual.cacheDir Decode.string
  let rulesDir ← given.withDefault "rules_dir" usual.rulesDir Decode.string
  let testTimeout ← given.withDefault "test_timeout_secs" usual.testTimeout Decode.uint64
  let reloadTimeout ← given.withDefault "reload_timeout_secs" usual.reloadTimeout Decode.uint64
  let rollbackOnApplyFailure ← given.withDefault "rollback_on_apply_failure"
    usual.rollbackOnApplyFailure Decode.bool
  let cacheZone ← given.withDefault "cache_zone" usual.cacheZone Decode.string
  let rateLimitZone ← given.withDefault "rate_limit_zone" usual.rateLimitZone Decode.string
  let rateLimitRps ← given.withDefault "rate_limit_rps" usual.rateLimitRps Decode.uint32
  .ok
    { binary, commandLead, mainConfig, activeDir, templatesDir, cacheDir, rulesDir, testTimeout,
      reloadTimeout, rollbackOnApplyFailure, cacheZone, rateLimitZone, rateLimitRps }

end NginxSettings

namespace Settings

/-- The entries of settings: a table for each group. -/
def entries (settings : Settings) : List (String × Toml.Value) :=
  [("general", .table settings.general.entries), ("nginx", .table settings.nginx.entries)]

/-- The record of settings. -/
def encode (settings : Settings) : Json :=
  .object (Json.ofTomlMembers settings.entries)

/-- The settings of a record. -/
def decode (d : Dialect) (value : Json) : Decode.Result Settings := do
  let given ← Decode.fields d ["general", "nginx"] value
  let general ← given.withDefault "general" {} (GeneralSettings.decode d)
  let nginx ← given.withDefault "nginx" {} (NginxSettings.decode d)
  .ok { general, nginx }

/-- The settings that a document gives. -/
def read (readers : Readers) (text : String) : Except SettingsError Settings :=
  match readers.toml? text with
  | none => .error (.parseFailed DecodeError.malformed.message)
  | some members =>
    (decode .toml (.object (Json.ofTomlMembers members))).mapError (.parseFailed ·.message)

end Settings

end ProxyKeeper
