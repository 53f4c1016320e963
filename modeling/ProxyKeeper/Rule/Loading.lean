import ProxyKeeper.Program
import ProxyKeeper.Readers
import ProxyKeeper.Rule.Codec
import ProxyKeeper.Text.Utf8

/-!
# Rule files

Rules are loaded from files, in JSON or TOML by the ending of the name, and from whole
directories, with the readers of the formats that are given. A loaded rule is valid. In a directory,
what is not the file of a valid rule is passed over, and so are links that lead out of it.

## Main Definitions

* `Rule.read`: the rule a text gives.
* `Rule.load`: the rule of a file.
* `Rule.loadAll`: the rules of a directory, by id.
-/

namespace ProxyKeeper.Rule

/-- The largest size of a rule file, in bytes. -/
def maximalFileSize : Nat := 1024 * 1024

/-- The formats of rule files. -/
inductive Format where
  | json
  | toml
deriving DecidableEq, Inhabited

/-- The name of a format. -/
def Format.name : Format → String
  | .json => "JSON"
  | .toml => "TOML"

/-- A letter of ASCII without regard to its case. -/
def lowerCase (s : String) : List Char :=
  s.toList.map Char.toLower

/-- The format of a file, by the ending of its name. -/
def formatOf (path : Path) : Format :=
  match path.extension? with
  | some ending => if lowerCase ending = ['j', 's', 'o', 'n'] then .json else .toml
  | none => .toml

/-- The rule a text gives, created `now` unless it says when. -/
def read (readers : Readers) (format : Format) (now : Timestamp) (text : String) :
    Except DecodeError Rule :=
  match format with
  | .json =>
    match readers.json? text with
    | some value => decode .json now value
    | none => .error .malformed
  | .toml =>
    match readers.toml? text with
    | some members => decode .toml now (.object (Json.ofTomlMembers members))
    | none => .error .malformed

/-- A call of the file system whose faults are failures to load. -/
def loadCall (path : Path) (activity : String) (call : FileCall) : Operation call.Result := do
  match ← Operation.attempt call with
  | .ok result => return result
  | .error fault =>
    throw (.ruleLoad path.text ("failed to " ++ activity ++ ": " ++ fault.message))

/-- The rule of a file. -/
def load (readers : Readers) (now : Timestamp) (path : Path) : Operation Rule := do
  let status ← loadCall path "read metadata" (.status path)
  if maximalFileSize < status.size then
    throw (.ruleLoad path.text
      ("file too large: " ++ toString status.size ++ " bytes (max: " ++
        toString maximalFileSize ++ ")"))
  let content ← loadCall path "read file" (.read path)
  match Text.Utf8.strict? content with
  | none => throw (.ruleLoad path.text ("failed to read file: " ++ IoFault.notText.message))
  | some text =>
    let format := formatOf path
    match read readers format now text with
    | .error fault =>
      throw (.ruleLoad path.text ("failed to parse " ++ format.name ++ ": " ++ fault.message))
    | .ok rule =>
      Operation.ofExcept rule.validate
      return rule

/-- Whether a name ends like that of a rule file. -/
def hasRuleEnding (path : Path) : Bool :=
  path.extension? = some "toml" || path.extension? = some "json"

/-- The rule of an entry of a directory, unless the entry is to be passed over. -/
def loadEntry (readers : Readers) (now : Timestamp) (root path : Path) :
    Operation (Option Rule) := do
  match ← Operation.attempt (.canonical path) with
  | .error _ => return none
  | .ok canonical =>
    let canonical : Path := canonical
    if !canonical.startsWith root then return none
    else match ← Operation.attempt (.status canonical) with
      | .error _ => return none
      | .ok status =>
        let status : FileStatus := status
        if !status.isFile || !hasRuleEnding canonical then return none
        else match ← Operation.outcome (load readers now canonical) with
          | .error _ => return none
          | .ok rule => return some rule

/-- The rules of some entries of a directory, in the order of the entries. -/
def loadEntries (readers : Readers) (now : Timestamp) (root directory : Path) :
    List String → Operation (List Rule)
  | [] => return []
  | name :: names => do
    let rule ← loadEntry readers now root (directory.child name)
    let rules ← loadEntries readers now root directory names
    return rule.toList ++ rules

/-- Whether a rule comes before another. -/
def precedes (a b : Rule) : Bool :=
  a.id ≤ b.id

/-- The rules of a directory, by id. -/
def loadAll (readers : Readers) (now : Timestamp) (directory : Path) : Operation (List Rule) := do
  let names ← loadCall directory "read directory" (.list directory)
  let root ← loadCall directory "canonicalize directory" (.canonical directory)
  let rules ← loadEntries readers now root directory names
  return rules.mergeSort precedes

end ProxyKeeper.Rule
