import ProxyKeeper.Text.Blank

/-!
# Words of the nginx configuration

An argument is written as it is when it is a plain word, and between double quotes when it is
empty or holds white space or a character with a meaning of its own. Between quotes a backslash
stands in front of each quote and each backslash; a plain word keeps its backslashes as they are.

## Main Definitions

* `isSpecial`: the characters that call for quotes.
* `needsQuotes`: the arguments that are no plain words.
* `quoteArgument`: an argument as it is written.
-/

namespace ProxyKeeper.Nginx

/-- The characters that call for quotes. -/
def isSpecial (c : Char) : Bool :=
  Text.isBlank c || c == ';' || c == '{' || c == '}' || c == '"' || c == '\'' || c == '#'

/-- Whether an argument is no plain word. -/
def needsQuotes (cs : List Char) : Bool :=
  cs.isEmpty || cs.any isSpecial

/-- A character between quotes. -/
def escapeQuoted (c : Char) : List Char :=
  if c == '"' || c == '\\' then ['\\', c] else [c]

/-- An argument as it is written. -/
def quoteArgument (cs : List Char) : List Char :=
  if needsQuotes cs then '"' :: (cs.flatMap escapeQuoted ++ ['"']) else cs

/-- `quoteArgument` on strings. -/
def quote (s : String) : String :=
  String.ofList (quoteArgument s.toList)

end ProxyKeeper.Nginx
