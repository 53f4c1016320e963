import ProxyKeeper.Json.Reader
import ProxyKeeper.Nginx.SemanticVersion
import ProxyKeeper.Readers
import ProxyKeeper.Toml.Reader

/-!
# Libraries

What the service takes from others as it is: the readers of the formats that rules and settings are
written in, and the versions of nginx. Nothing is proved of them but what is asked of them by name.

## Main Definitions

* `Libraries`: what others provide.
* `Libraries.standard`: JSON, TOML, and semantic versions.
-/

namespace ProxyKeeper

/-- What others provide: the readers of the formats, and the versions of nginx. -/
structure Libraries extends Readers where
  versions : Nginx.Versions

/-- JSON, TOML, and semantic versions. -/
def Libraries.standard : Libraries where
  json? := Json.read?
  toml? := Toml.read?
  versions := Nginx.semanticVersions

end ProxyKeeper
