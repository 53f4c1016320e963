import ProxyKeeper.Files.Edit
import ProxyKeeper.World

/-!
# nginx from a script

An nginx that does as it is told: for each kind of call there is a list of replies, each with edits
that it makes first and a time it takes. When the list is used up, calls succeed at once, but the
check of the configuration looks for a text that it is to reject.

The script also keeps a record of the calls.

## Main Definitions

* `ScriptedReply`, `Script`: what is to happen, and what has happened.
* `Script.begin`: a call.
-/

namespace ProxyKeeper

/-- A reply that was laid down. -/
structure ScriptedReply where
  /-- What the call changes before it takes its time. -/
  edits : List Edit := []
  /-- How long the call takes, in milliseconds. -/
  delay : Nat := 0
  reply : Nginx.Reply
deriving Inhabited

/-- What is known of a call: what it was, the phase it began in, and the rule files there were. -/
structure CallRecord where
  action : Nginx.Action
  phase : Phase
  files : List String
deriving DecidableEq, Inhabited

/-- The replies that are laid down, and the calls so far. -/
structure Script where
  tests : List ScriptedReply := []
  reloads : List ScriptedReply := []
  versions : List ScriptedReply := []
  /-- The text for which a configuration is rejected. -/
  rejected : Option String := none
  calls : List CallRecord := []
  /-- How many calls have begun and not ended. A call that is given up never ends. -/
  running : Nat := 0
  /-- How many calls began while another was running. -/
  overlaps : Nat := 0
deriving Inhabited

namespace Script

/-- The paths in a directory that end like rule files. -/
def rulePathsIn (tree : Tree) (directory : Path) : List String :=
  match tree.list directory with
  | .ok names =>
    (names.map fun name => directory.child name).filterMap fun path =>
      if path.extension? = some "conf" then some path.text else none
  | .error _ => []

/-- The paths that end like rule files, in the directories of a configuration. -/
def rulePaths (config : ManagerConfig) (tree : Tree) : List String :=
  (rulePathsIn tree config.activeDir ++ rulePathsIn tree config.streamDir).mergeSort (· ≤ ·)

/-- Whether the file at a path is a text that holds another. -/
def holds (tree : Tree) (text path : String) : Bool :=
  match tree.read ⟨path⟩ with
  | .ok content =>
    match Text.Utf8.strict? content with
    | some found => Text.contains text.toList found.toList
    | none => false
  | .error _ => false

/-- The reply of a check that finds nothing to reject. -/
def passed : Nginx.Reply :=
  .finished { success := true, exitCode := some 0, stderr := "test is successful\n" }

/-- The reply of a check that rejects a text in a file. -/
def refused (text path : String) : Nginx.Reply :=
  .finished
    { exitCode := some 1, stderr := "nginx: [emerg] \"" ++ text ++ "\" in " ++ path ++ "\n" }

/-- What a call replies when nothing is laid down for it. -/
def usualReply (script : Script) (config : ManagerConfig) (tree : Tree) :
    Nginx.Action → Nginx.Reply
  | .test =>
    match script.rejected with
    | none => passed
    | some text =>
      match (rulePaths config tree).find? (holds tree text) with
      | some path => refused text path
      | none => passed
  | .reload => .finished { success := true, exitCode := some 0 }
  | .version =>
    .finished { success := true, exitCode := some 0, stderr := "nginx version: nginx/1.25.3\n" }

/-- Takes the next reply that is laid down for an action. -/
def next (script : Script) : Nginx.Action → Option (ScriptedReply × Script)
  | .test =>
    match script.tests with
    | [] => none
    | reply :: rest => some (reply, { script with tests := rest })
  | .reload =>
    match script.reloads with
    | [] => none
    | reply :: rest => some (reply, { script with reloads := rest })
  | .version =>
    match script.versions with
    | [] => none
    | reply :: rest => some (reply, { script with versions := rest })

/-- A call begins: it is recorded, and what is laid down for it, with its edits made. -/
def begin (script : Script) (config : ManagerConfig) (call : Nginx.Call) (world : World) :
    ScriptedReply × Script × World :=
  let record : CallRecord := ⟨call.action, world.phase, rulePaths config world.tree⟩
  let script :=
    { script with
      calls := script.calls ++ [record]
      running := script.running + 1
      overlaps := if script.running = 0 then script.overlaps else script.overlaps + 1 }
  match script.next call.action with
  | some (reply, script) =>
    (reply, script, { world with tree := world.tree.editAll reply.edits })
  | none => ({ reply := script.usualReply config world.tree call.action }, script, world)

/-- A call ends. -/
def finish (script : Script) : Script :=
  { script with running := script.running - 1 }

end Script

end ProxyKeeper
