import ProxyKeeper.Manager
import ProxyKeeper.Text.Replace

/-!
# The template of the main configuration

The main configuration is made from a template, in which names between double braces stand for
values of the configuration of the manager. The names are replaced one after another, in the order
of `Placeholder.all`.

## Main Definitions

* `Placeholder`: the names, with `Placeholder.value`.
* `ManagerConfig.fillTemplate`: a template with the values in it.
* `builtInTemplate`: the template that is used when there is no other.
-/

namespace ProxyKeeper

/-- What can be named in a template. -/
inductive Placeholder where
  | activeDir
  | streamDir
  | cacheDir
  | cacheZone
  | rateLimitZone
  | rateLimitRps
deriving DecidableEq, Inhabited

namespace Placeholder

/-- All placeholders, in the order in which they are replaced. -/
def all : List Placeholder :=
  [.activeDir, .streamDir, .cacheDir, .cacheZone, .rateLimitZone, .rateLimitRps]

/-- The name of a placeholder. -/
def name : Placeholder → String
  | .activeDir => "active_dir"
  | .streamDir => "stream_dir"
  | .cacheDir => "cache_dir"
  | .cacheZone => "cache_zone"
  | .rateLimitZone => "rate_limit_zone"
  | .rateLimitRps => "rate_limit_rps"

/-- What a placeholder stands for. -/
def value (config : ManagerConfig) : Placeholder → String
  | .activeDir => config.activeDir.text
  | .streamDir => config.streamDir.text
  | .cacheDir => config.cacheDir.text
  | .cacheZone => config.cacheZone
  | .rateLimitZone => config.rateLimitZone
  | .rateLimitRps => toString config.rateLimitRps.toNat

/-- A placeholder after its first brace. -/
def written (placeholder : Placeholder) : List Char :=
  '{' :: (placeholder.name.toList ++ ['}', '}'])

/-- A text with the value of a placeholder wherever the placeholder stands. -/
def fill (config : ManagerConfig) (placeholder : Placeholder) (cs : List Char) : List Char :=
  Text.replaceAll '{' placeholder.written (placeholder.value config).toList cs

end Placeholder

/-- A template with the values of a configuration in it. -/
def ManagerConfig.fillTemplate (config : ManagerConfig) (template : String) : String :=
  String.ofList (Placeholder.all.foldl (fun cs p => p.fill config cs) template.toList)

/-- The lines of the template that is used when there is no other. -/
def builtInLines : List String :=
  ["# Managed by dockgate. Rule files are included from \x7b\x7bactive_dir\x7d\x7d.",
   "worker_processes auto;",
   "",
   "events \x7b",
   "    worker_connections 1024;",
   "\x7d",
   "",
   "http \x7b",
   "    default_type application/octet-stream;",
   "    sendfile on;",
   "    keepalive_timeout 65;",
   "",
   "    proxy_cache_path \x7b\x7bcache_dir\x7d\x7d levels=1:2 " ++
     "keys_zone=\x7b\x7bcache_zone\x7d\x7d:10m max_size=1g inactive=60m use_temp_path=off;",
   "    limit_req_zone $binary_remote_addr zone=\x7b\x7brate_limit_zone\x7d\x7d:10m " ++
     "rate=\x7b\x7brate_limit_rps\x7d\x7dr/s;",
   "",
   "    include \x7b\x7bactive_dir\x7d\x7d/*.conf;",
   "\x7d",
   "",
   "stream \x7b",
   "    include \x7b\x7bstream_dir\x7d\x7d/*.conf;",
   "\x7d"]

/-- The template that is used when there is no other. -/
def builtInTemplate : String :=
  String.join (builtInLines.map (· ++ "\n"))

end ProxyKeeper
