import ProxyKeeper.Files.Path
import ProxyKeeper.Settings.Codec

/-!
# The configuration of the manager

What the manager of nginx needs to know: the command that runs nginx, the paths it works on, how
long it waits, and the names that the main configuration shares with the documents of rules. The
main configuration must not lie in the directory whose files it manages.

## Main Definitions

* `ManagerConfig`: the values; `ManagerConfig.ofSettings` takes them from the settings.
* `ManagerConfig.checks`, `ManagerConfig.validate`: what a valid configuration meets.
* `ManagerConfig.contextDir`: the directory of each context.
* `ManagerConfig.renderOptions`: what the documents share with the main configuration.
* `ManagerConfig.encode`, `ManagerConfig.decode`: the record.
-/

namespace ProxyKeeper

/-- The configuration of the manager. Times are in seconds. -/
structure ManagerConfig where
  binary : String := "nginx"
  /-- The command that runs nginx, such as one that enters its container. -/
  commandLead : List String := []
  mainConfig : Path := ⟨"/etc/nginx/nginx.conf"⟩
  /-- The directory of the rules' files. -/
  activeDir : Path := ⟨"/etc/nginx/conf.d/dockgate"⟩
  /-- The directory of the template of the main configuration. -/
  templatesDir : Path := ⟨"/etc/dockgate/templates"⟩
  cacheDir : Path := ⟨"/var/cache/nginx/dockgate"⟩
  testTimeout : UInt64 := 30
  reloadTimeout : UInt64 := 30
  /-- Whether files are put back when nginx accepts them but does not take them up. -/
  rollbackOnApplyFailure : Bool := true
  cacheZone : String := "dockgate_cache"
  rateLimitZone : String := "one"
  /-- Requests per second of the shared zone. -/
  rateLimitRps : UInt32 := 10
  /-- What the names of the groups of servers begin with. -/
  upstreamStem : String := "backend"
deriving DecidableEq, Inhabited

/-- The largest rate of the shared zone. -/
def maximalRate : Nat := 1000000

namespace ManagerConfig

/-- The configuration that settings give; what they do not say is as usual. -/
def ofSettings (settings : NginxSettings) : ManagerConfig where
  binary := settings.binary
  commandLead := settings.commandLead
  mainConfig := ⟨settings.mainConfig⟩
  activeDir := ⟨settings.activeDir⟩
  templatesDir := ⟨settings.templatesDir⟩
  cacheDir := ⟨settings.cacheDir⟩
  testTimeout := settings.testTimeout
  reloadTimeout := settings.reloadTimeout
  rollbackOnApplyFailure := settings.rollbackOnApplyFailure
  cacheZone := settings.cacheZone
  rateLimitZone := settings.rateLimitZone
  rateLimitRps := settings.rateLimitRps

/-- The directory of the rules for plain connections. -/
def streamDir (config : ManagerConfig) : Path :=
  config.activeDir.child "stream"

/-- The directory of the rules of a context. -/
def contextDir (config : ManagerConfig) : Context → Path
  | .http => config.activeDir
  | .stream => config.streamDir

/-- The names that the documents of rules share with the main configuration. -/
def renderOptions (config : ManagerConfig) : RenderOptions where
  cacheZone := config.cacheZone
  rateLimitZone := config.rateLimitZone
  rateLimitZoneRps := config.rateLimitRps
  upstreamStem := config.upstreamStem

/-- A path that is given. -/
def pathCheck (field : String) (path : Path) : Check :=
  ⟨!path.text.isEmpty, field, "must not be empty"⟩

/-- A number of seconds that can be waited. -/
def waitCheck (field : String) (n : UInt64) : Check :=
  ⟨isWait n, field, "must be 1-" ++ toString maximalWait⟩

/-- A name of a part of the nginx configuration. -/
def nameCheck (field name : String) : Check :=
  ⟨isIdentifier name, field, "must contain only [A-Za-z0-9_]"⟩

/-- What a valid configuration meets, in the order in which failures are reported. -/
def checks (config : ManagerConfig) : List Check :=
  [⟨!config.binary.isEmpty, "binary", "must not be empty"⟩,
   ⟨!config.commandLead.any (·.isEmpty), "command_prefix", "must not contain empty arguments"⟩,
   pathCheck "main_config" config.mainConfig,
   pathCheck "active_dir" config.activeDir,
   ⟨!config.mainConfig.startsWith config.activeDir, "main_config",
    "must not live inside active_dir"⟩,
   waitCheck "test_timeout_secs" config.testTimeout,
   waitCheck "reload_timeout_secs" config.reloadTimeout,
   nameCheck "cache_zone" config.cacheZone,
   nameCheck "rate_limit_zone" config.rateLimitZone,
   nameCheck "upstream_prefix" config.upstreamStem,
   ⟨1 ≤ config.rateLimitRps.toNat && config.rateLimitRps.toNat ≤ maximalRate, "rate_limit_rps",
    "must be 1-" ++ toString maximalRate⟩]

/-- Passes a valid configuration and reports the first failure of any other. -/
def validate (config : ManagerConfig) : Except OperationError Unit :=
  match Check.firstFailed? config.checks with
  | none => .ok ()
  | some check => .error (.config check.field check.reason)

/-- The record of a configuration. -/
def encode (config : ManagerConfig) : Json :=
  .object
    [("binary", .string config.binary),
     ("command_prefix", .ofStrings config.commandLead),
     ("main_config", .string config.mainConfig.text),
     ("active_dir", .string config.activeDir.text),
     ("templates_dir", .string config.templatesDir.text),
     ("cache_dir", .string config.cacheDir.text),
     ("test_timeout_secs", .ofNat config.testTimeout.toNat),
     ("reload_timeout_secs", .ofNat config.reloadTimeout.toNat),
     ("rollback_on_apply_failure", .bool config.rollbackOnApplyFailure),
     ("cache_zone", .string config.cacheZone),
     ("rate_limit_zone", .string config.rateLimitZone),
     ("rate_limit_rps", .ofNat config.rateLimitRps.toNat),
     ("upstream_prefix", .string config.upstreamStem)]

/-- The fields of a configuration. -/
def fieldNames : List String :=
  ["binary", "command_prefix", "main_config", "active_dir", "templates_dir", "cache_dir",
   "test_timeout_secs", "reload_timeout_secs", "rollback_on_apply_failure", "cache_zone",
   "rate_limit_zone", "rate_limit_rps", "upstream_prefix"]

/-- The configuration of a record, in which every field must be given. -/
def decode (d : Dialect) (value : Json) : Decode.Result ManagerConfig := do
  let given ← Decode.fields d fieldNames value
  let path (name : String) : Decode.Result Path := do
    .ok ⟨← given.required name Decode.string⟩
  let binary ← given.required "binary" Decode.string
  let commandLead ← given.required "command_prefix" (Decode.list Decode.string)
  let mainConfig ← path "main_config"
  let activeDir ← path "active_dir"
  let templatesDir ← path "templates_dir"
  let cacheDir ← path "cache_dir"
  let testTimeout ← given.required "test_timeout_secs" Decode.uint64
  let reloadTimeout ← given.required "reload_timeout_secs" Decode.uint64
  let rollbackOnApplyFailure ← given.required "rollback_on_apply_failure" Decode.bool
  let cacheZone ← given.required "cache_zone" Decode.string
  let rateLimitZone ← given.required "rate_limit_zone" Decode.string
  let rateLimitRps ← given.required "rate_limit_rps" Decode.uint32
  let upstreamStem ← given.required "upstream_prefix" Decode.string
  .ok
    { binary, commandLead, mainConfig, activeDir, templatesDir, cacheDir, testTimeout,
      reloadTimeout, rollbackOnApplyFailure, cacheZone, rateLimitZone, rateLimitRps,
      upstreamStem }

end ManagerConfig

end ProxyKeeper
