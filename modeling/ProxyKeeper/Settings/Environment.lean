import ProxyKeeper.Settings.Basic
import ProxyKeeper.Text.Decimal
import ProxyKeeper.Text.Replace
import ProxyKeeper.Text.Utf8

/-!
# Settings from the environment

Each setting can be given by a variable of the environment, which counts over the file. A variable
that is not UTF-8, or does not hold a value of the setting's type, changes nothing.

## Main Definitions

* `Environment`: the variables.
* `Settings.override`: settings with those of the environment over them.
-/

namespace ProxyKeeper

/-- The variables of an environment, by name. -/
abbrev Environment := String → Option ByteArray

namespace Environment

/-- The text of a variable that is set. -/
def text? (environment : Environment) (name : String) : Option String :=
  (environment name).bind Text.Utf8.strict?

/-- The value of a variable that can be read, or else the one at hand. -/
def override (environment : Environment) (name : String) (read? : String → Option α) (current : α) :
    α :=
  ((environment.text? name).bind read?).getD current

/-- A truth value. -/
def readBool? : String → Option Bool
  | "true" => some true
  | "false" => some false
  | _ => none

/-- The items between commas, without white space around them; empty ones do not count. -/
def readItems (s : String) : List String :=
  ((Text.splitOn ',' s.toList).map Text.trim).filterMap fun item =>
    if item.isEmpty then none else some (String.ofList item)

/-- A number of 64 bits. -/
def readUInt64? (s : String) : Option UInt64 :=
  (Text.readBounded? (Text.largestOfBits 64) s).map UInt64.ofNat

/-- A number of 32 bits. -/
def readUInt32? (s : String) : Option UInt32 :=
  (Text.readBounded? (Text.largestOfBits 32) s).map UInt32.ofNat

end Environment

/-- Settings with those of the environment over them. -/
def Settings.override (environment : Environment) (settings : Settings) : Settings :=
  let text (name current : String) : String := environment.override name some current
  { general :=
      { logLevel := text "DOCKGATE_GENERAL_LOG_LEVEL" settings.general.logLevel
        logFormat := text "DOCKGATE_GENERAL_LOG_FORMAT" settings.general.logFormat }
    nginx :=
      { binary := text "DOCKGATE_NGINX_BINARY" settings.nginx.binary
        commandLead := environment.override "DOCKGATE_NGINX_COMMAND_PREFIX"
          (fun s => some (Environment.readItems s)) settings.nginx.commandLead
        mainConfig := text "DOCKGATE_NGINX_MAIN_CONFIG" settings.nginx.mainConfig
        activeDir := text "DOCKGATE_NGINX_ACTIVE_DIR" settings.nginx.activeDir
        templatesDir := text "DOCKGATE_NGINX_TEMPLATES_DIR" settings.nginx.templatesDir
        cacheDir := text "DOCKGATE_NGINX_CACHE_DIR" settings.nginx.cacheDir
        rulesDir := text "DOCKGATE_NGINX_RULES_DIR" settings.nginx.rulesDir
        testTimeout := environment.override "DOCKGATE_NGINX_TEST_TIMEOUT_SECS"
          Environment.readUInt64? settings.nginx.testTimeout
        reloadTimeout := environment.override "DOCKGATE_NGINX_RELOAD_TIMEOUT_SECS"
          Environment.readUInt64? settings.nginx.reloadTimeout
        rollbackOnApplyFailure := environment.override "DOCKGATE_NGINX_ROLLBACK_ON_APPLY_FAILURE"
          Environment.readBool? settings.nginx.rollbackOnApplyFailure
        cacheZone := text "DOCKGATE_NGINX_CACHE_ZONE" settings.nginx.cacheZone
        rateLimitZone := text "DOCKGATE_NGINX_RATE_LIMIT_ZONE" settings.nginx.rateLimitZone
        rateLimitRps := environment.override "DOCKGATE_NGINX_RATE_LIMIT_RPS"
          Environment.readUInt32? settings.nginx.rateLimitRps } }

end ProxyKeeper
