import ProxyKeeper.Json.Basic
import ProxyKeeper.Toml.Basic

/-!
# Readers of formats

Rules and settings are written in formats that are not the service's own. What a text of such a
format says is the matter of its reader, and whatever uses a text takes the readers as they are
given: nothing here depends on how they read.

## Main Definitions

* `Readers`: the readers of the formats.
-/

namespace ProxyKeeper

/-- The readers of the formats: the value that a text writes, or none when the text is malformed. -/
structure Readers where
  json? : String → Option Json
  /-- The members of the table that a document is. -/
  toml? : String → Option (List (String × Toml.Value))

end ProxyKeeper
