import ProxyKeeper.Text.Blank

/-!
# Versions in reports

The version in what nginx says of itself: the first word after the first slash. Versions are parsed
and displayed by a library of their own, which is given.

## Main Definitions

* `Versions`: the versions of a library, with what parses and displays them.
* `Versions.ofReport?`: the version in a report of nginx.
-/

namespace ProxyKeeper.Nginx

/-- The versions of a library. -/
structure Versions where
  Version : Type
  /-- The version that a text writes, if it writes one. -/
  parse? : String → Option Version
  display : Version → String

/-- What follows the first slash of a text. -/
def afterSlash? : List Char → Option (List Char)
  | [] => none
  | c :: cs => if c = '/' then some cs else afterSlash? cs

namespace Versions

/-- The version in a report of nginx: the first word after the first slash. -/
def ofReport? (versions : Versions) (report : String) : Option versions.Version := do
  let rest ← afterSlash? report.toList
  let word ← (Text.words rest).head?
  versions.parse? (String.ofList word)

end Versions

end ProxyKeeper.Nginx
