import ProxyKeeper.Program
import ProxyKeeper.Store.Names
import ProxyKeeper.Store.Template

/-!
# The store of rule files

Every rule that is in force has one file, named for its id, in the directory of its context. Files
are written beside their place and then moved there, so that nginx never sees half of one, and a
file in the other context is removed when a rule changes sides.

An id is checked before it becomes the name of a file.

## Main Definitions

* `RuleFile`: what the store holds for an id.
* `Store.write`, `Store.read`, `Store.remove`, `Store.restore`, `Store.list`: the operations.
* `Store.bootstrap`: the directories and the main configuration, where they are missing.
-/

namespace ProxyKeeper

/-- The file of a rule. -/
structure RuleFile where
  context : Context
  text : String
deriving DecidableEq, Inhabited

/-- The files of rules, where a configuration places them. -/
structure Store where
  config : ManagerConfig
deriving DecidableEq, Inhabited

/-- What the names of rule files end in. -/
def ruleFileExtension : String := "conf"

/-- The name of the template in its directory. -/
def templateName : String := "nginx.conf"

namespace Store

/-- The directory of a context. -/
def directory (store : Store) (context : Context) : Path :=
  store.config.contextDir context

/-- The name of the file of a rule. -/
def fileName (id : String) : String :=
  id ++ "." ++ ruleFileExtension

/-- The path of the file of a rule in a context. -/
def path (store : Store) (id : String) (context : Context) : Except OperationError Path :=
  if isRuleId id then .ok ((store.directory context).child (fileName id))
  else .error (.validation id "id" "not a valid file name component")

/-- The name a file is written under before it is moved to its place. -/
def temporaryName (name fresh : String) : String :=
  "." ++ name ++ "." ++ fresh ++ ".tmp"

/-- Writes a file beside its place and moves it there. -/
def writeWhole (path : Path) (text : String) : Operation Unit := do
  let fresh ← Operation.request .freshName
  let temporary := (path.parent?.getD ⟨"."⟩).child
    (temporaryName (path.fileName?.getD "") fresh)
  Operation.file temporary (.write temporary text.toUTF8)
  match ← Operation.attempt (.rename temporary path) with
  | .ok _ => return ()
  | .error fault =>
    let _ ← Operation.attempt (.remove temporary)
    throw (.io path.text fault)

/-- Removes a file, and tells whether it was there. -/
def removeIfPresent (path : Path) : Operation Bool := do
  match ← Operation.attempt (.remove path) with
  | .ok _ => return true
  | .error fault => if fault = .notFound then return false else throw (.io path.text fault)

/-- Reads a text file that may be missing. -/
def readIfPresent (path : Path) : Operation (Option String) := do
  match ← Operation.attempt (.read path) with
  | .ok content =>
    match Text.Utf8.strict? content with
    | some text => return some text
    | none => throw (.io path.text .notText)
  | .error fault => if fault = .notFound then return none else throw (.io path.text fault)

/-- Writes the file of a rule, and removes the one it may have in the other context. -/
def write (store : Store) (id : String) (file : RuleFile) : Operation Unit := do
  let path ← Operation.ofExcept (store.path id file.context)
  let directory := store.directory file.context
  Operation.file directory (.createDirectories directory)
  writeWhole path file.text
  let other ← Operation.ofExcept (store.path id file.context.other)
  let _ ← removeIfPresent other
  return ()

/-- Reads the file of a rule from the first of some contexts that has one. -/
def readFrom (store : Store) (id : String) : List Context → Operation (Option RuleFile)
  | [] => return none
  | context :: contexts => do
    let path ← Operation.ofExcept (store.path id context)
    match ← readIfPresent path with
    | some text => return some ⟨context, text⟩
    | none => store.readFrom id contexts

/-- Reads the file of a rule. -/
def read (store : Store) (id : String) : Operation (Option RuleFile) :=
  store.readFrom id [.http, .stream]

/-- Removes the files of a rule, and tells whether there was one. -/
def remove (store : Store) (id : String) : Operation Bool := do
  let http ← Operation.ofExcept (store.path id .http)
  let inHttp ← removeIfPresent http
  let stream ← Operation.ofExcept (store.path id .stream)
  let inStream ← removeIfPresent stream
  return inHttp || inStream

/-- Puts back what was read for a rule. -/
def restore (store : Store) (id : String) : Option RuleFile → Operation Unit
  | some file => store.write id file
  | none => do
    let _ ← store.remove id
    return ()

/-- The id of the rule that a file belongs to by its name. -/
def ruleId? (name : String) : Option String :=
  match Path.cutName name with
  | (stem, some extension) =>
    if extension = ruleFileExtension && isRuleId stem then some stem else none
  | (_, none) => none

/-- The ids of the rules that have a file in a directory, which may be missing. -/
def listDirectory (directory : Path) : Operation (List String) := do
  match ← Operation.attempt (.list directory) with
  | .ok names => return List.filterMap ruleId? names
  | .error fault =>
    if fault = .notFound then return [] else throw (.io directory.text fault)

/-- The ids of the rules that have a file, in ascending order. -/
def list (store : Store) : Operation (List String) := do
  let http ← listDirectory (store.directory .http)
  let stream ← listDirectory (store.directory .stream)
  return ascendingNames (http ++ stream)

/-- The template of the main configuration. -/
def template (store : Store) : Operation String := do
  let text ← readIfPresent (store.config.templatesDir.child templateName)
  return text.getD builtInTemplate

/-- Whether something is at a path. -/
def isPresent (path : Path) : Operation Bool := do
  match ← Operation.attempt (.status path) with
  | .ok _ => return true
  | .error fault => if fault = .notFound then return false else throw (.io path.text fault)

/-- Makes the directories, and the main configuration unless there is one; tells whether it was
made. -/
def bootstrap (store : Store) : Operation Bool := do
  let http := store.directory .http
  let stream := store.directory .stream
  Operation.file http (.createDirectories http)
  Operation.file stream (.createDirectories stream)
  let main := store.config.mainConfig
  if ← isPresent main then return false
  else
    let template ← store.template
    match main.parent? with
    | some parent => Operation.file parent (.createDirectories parent)
    | none => pure ()
    writeWhole main (store.config.fillTemplate template)
    return true

end Store

end ProxyKeeper
