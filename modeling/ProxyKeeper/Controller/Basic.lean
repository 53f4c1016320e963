import ProxyKeeper.Nginx.Version
import ProxyKeeper.Store.Basic

/-!
# The controller

The one way by which a change of rules reaches the running nginx: files are written, nginx checks
the whole configuration, and only a configuration that passed is taken up. When nginx refuses, the
files are put back as they were; when it accepts but does not take the configuration up, that is a
choice of the configuration.

Changes hold the lock from before their first file to after their last, so that the files nginx
checks are those it takes up.

## Main Definitions

* `Controller.apply`, `Controller.remove`, `Controller.sync`, `Controller.bootstrap`: the changes.
* `Controller.gate`, `Controller.status`: what is asked of nginx without a change.
* `Controller.settle`: check and take up, with the files put back on failure.
* `Controller.restoreAll`: putting files back.
-/

namespace ProxyKeeper

/-- Keeps rule files and the running nginx in step. -/
structure Controller where
  config : ManagerConfig
deriving DecidableEq, Inhabited

/-- What nginx says of the configuration. -/
structure GateOutcome where
  ok : Bool
  message : String
deriving DecidableEq, Inhabited

/-- What nginx says of itself. -/
structure NginxStatus where
  reachable : Bool
  /-- Whether nginx has said something; else it is told why not. -/
  answered : Bool
  /-- The words of nginx, or why there are none. -/
  raw : String
deriving DecidableEq

/-- The version that nginx says it has. -/
def NginxStatus.version? (status : NginxStatus) (versions : Nginx.Versions) :
    Option versions.Version :=
  if status.answered then versions.ofReport? status.raw else none

/-- What a synchronization did. -/
structure SyncReport where
  /-- The ids of the rules whose files were written. -/
  written : List String := []
  /-- The ids whose files were removed. -/
  removed : List String := []
  /-- The ids of the rules whose files were right already. -/
  unchanged : List String := []
  reloaded : Bool := false
deriving DecidableEq, Inhabited

/-- Whether files were changed. -/
def SyncReport.hasChanges (report : SyncReport) : Bool :=
  !report.written.isEmpty || !report.removed.isEmpty

/-- What the store held for an id. -/
abbrev Snapshot := String × Option RuleFile

/-- How far the writing of a synchronization has come: what was done, what was there before, and
the failure that ended it. -/
structure SyncProgress where
  report : SyncReport := {}
  snapshots : List Snapshot := []
  failure : Option OperationError := none

/-- The file of a rule. -/
def Rule.file (rule : Rule) (options : RenderOptions) : Except OperationError RuleFile :=
  (rule.compile options).map fun text => ⟨rule.context, text⟩

namespace Controller

/-- The controller of a valid configuration. -/
def ofConfig (config : ManagerConfig) : Except OperationError Controller :=
  config.validate.map fun _ => ⟨config⟩

/-- The store of the rule files. -/
def store (controller : Controller) : Store :=
  ⟨controller.config⟩

/-- What the documents of rules share with the main configuration. -/
def options (controller : Controller) : RenderOptions :=
  controller.config.renderOptions

/-- Lets nginx check the whole configuration. -/
def gate (controller : Controller) : Program GateOutcome := do
  let reply ← Program.request (.nginx controller.config.testCall)
  let reply : Nginx.Reply := reply
  Program.request (.count .test none)
  if reply.isSuccess then return ⟨true, reply.message⟩
  else
    Program.request (.count .testFailure none)
    return ⟨false, reply.message⟩

/-- Asks nginx for its version. -/
def status (controller : Controller) : Program NginxStatus := do
  let reply ← Program.request (.nginx controller.config.versionCall)
  let reply : Nginx.Reply := reply
  match reply with
  | .finished output =>
    return ⟨output.success, true, output.diagnostic⟩
  | _ => return ⟨false, false, reply.message⟩

/-- Makes nginx take up the configuration. -/
def reload (controller : Controller) : Operation Unit := do
  let reply ← Operation.request (.nginx controller.config.reloadCall)
  let reply : Nginx.Reply := reply
  if reply.isSuccess then return ()
  else
    Operation.request (.count .reloadFailure none)
    throw (.applyFailed reply.message)

/-- Tells what is being done. -/
def publish (phase : Phase) : Operation Unit :=
  Operation.request (.publish phase)

/-- Puts back what snapshots show, one after another, and gives a line for each failure. -/
def restoreEach (controller : Controller) : List Snapshot → Program (List String)
  | [] => return []
  | (id, file) :: snapshots => do
    let outcome ← (controller.store.restore id file).run
    let failures ← controller.restoreEach snapshots
    match outcome with
    | .ok () => return failures
    | .error error => return (id ++ ": " ++ error.message) :: failures

/-- Puts back what snapshots show, the latest first. -/
def restoreAll (controller : Controller) (snapshots : List Snapshot) (cause : String) :
    Operation Unit := do
  Operation.request (.count .rollback (some .rollbacks))
  let failures ← ExceptT.lift (controller.restoreEach snapshots.reverse)
  if failures.isEmpty then return ()
  else throw (.rollbackFailed cause ("; ".intercalate failures))

/-- Puts files back and fails with the error that made it necessary. -/
def rollBack (controller : Controller) (snapshots : List Snapshot) (error : OperationError) :
    Operation Unit := do
  publish .rollingBack
  controller.restoreAll snapshots error.message
  throw error

/-- Lets nginx check files that were just changed and take them up. -/
def settle (controller : Controller) (snapshots : List Snapshot) : Operation Unit := do
  publish .testing
  let outcome ← ExceptT.lift controller.gate
  if !outcome.ok then controller.rollBack snapshots (.testFailed outcome.message)
  else
    publish .applying
    match ← Operation.outcome controller.reload with
    | .ok () => return ()
    | .error error =>
      if controller.config.rollbackOnApplyFailure then controller.rollBack snapshots error
      else throw error

/-- Counts an operation that has ended, and the rule files there are. -/
def record (controller : Controller) (kind : OperationKind) (ok : Bool) : Program Unit := do
  Program.request (.count (.operation kind ok) (some (.ofOk ok)))
  match ← controller.store.list.run with
  | .ok ids => Program.request (.count (.activeRules ids.length) none)
  | .error _ => return ()

/-- Carries out a change with the lock held. `isIdle` tells the results that are not counted,
since nothing was done. -/
def exclusively (controller : Controller) (kind : OperationKind) (isIdle : α → Bool)
    (change : Operation α) : Operation α := do
  Operation.request .acquire
  publish .writing
  let result ← Operation.outcome change
  publish .idle
  match result with
  | .ok a => if !isIdle a then ExceptT.lift (controller.record kind true)
  | .error _ => ExceptT.lift (controller.record kind false)
  Operation.request .release
  Operation.ofExcept result

/-- Makes the directories and the main configuration, where they are missing. -/
def bootstrap (controller : Controller) : Operation Bool := do
  Operation.request .acquire
  let result ← Operation.outcome controller.store.bootstrap
  Operation.request .release
  Operation.ofExcept result

/-- Writes the file of a rule and brings it into force. -/
def applyFile (controller : Controller) (id : String) (file : RuleFile) : Operation Unit := do
  let before ← controller.store.read id
  let snapshots := [(id, before)]
  match ← Operation.outcome (controller.store.write id file) with
  | .ok () => controller.settle snapshots
  | .error error => controller.rollBack snapshots error

/-- Removes the files of a rule and brings that into force. They are not put back when nginx
refuses, for the rule is meant to go. -/
def removeFiles (controller : Controller) (id : String) : Operation Bool := do
  if !(← controller.store.remove id) then return false
  else
    publish .testing
    let outcome ← ExceptT.lift controller.gate
    if !outcome.ok then throw (.testFailed outcome.message)
    else
      publish .applying
      controller.reload
      return true

/-- Takes a rule out of force, and tells whether it was in force. -/
def remove (controller : Controller) (id : String) : Operation Bool :=
  controller.exclusively .remove (!·) (controller.removeFiles id)

/-- Brings a rule into force, or takes it out of force when it is not enabled. -/
def apply (controller : Controller) (rule : Rule) : Operation Rule := do
  Operation.ofExcept rule.validate
  if !rule.enabled then
    let _ ← controller.remove rule.id
    return rule
  else
    let file ← Operation.ofExcept (rule.file controller.options)
    controller.exclusively .apply (fun _ => false) (controller.applyFile rule.id file)
    return rule

/-- Checks rules one by one: their ids differ and they are valid. -/
def checkRules (seen : List String) : List Rule → Except OperationError Unit
  | [] => .ok ()
  | rule :: rules => do
    if seen.contains rule.id then .error (.validation rule.id "id" "duplicate id in rule set")
    rule.validate
    checkRules (rule.id :: seen) rules

/-- The files of rules, by id. -/
def filesOf (options : RenderOptions) : List Rule → Except OperationError (List (String × RuleFile))
  | [] => .ok []
  | rule :: rules => do
    let file ← rule.file options
    let files ← filesOf options rules
    .ok ((rule.id, file) :: files)

/-- The files that rules call for: those of the enabled ones, when all rules are valid. -/
def desiredFiles (controller : Controller) (rules : List Rule) :
    Except OperationError (List (String × RuleFile)) := do
  checkRules [] rules
  filesOf controller.options (rules.filter (·.enabled))

/-- Writes the files that differ from those there are. -/
def writeFiles (controller : Controller) :
    List (String × RuleFile) → SyncProgress → Program SyncProgress
  | [], progress => return progress
  | (id, file) :: files, progress => do
    match ← (controller.store.read id).run with
    | .error error => return { progress with failure := some error }
    | .ok current =>
      if current = some file then
        let report := { progress.report with unchanged := progress.report.unchanged ++ [id] }
        controller.writeFiles files { progress with report := report }
      else
        let progress := { progress with snapshots := progress.snapshots ++ [(id, current)] }
        match ← (controller.store.write id file).run with
        | .error error => return { progress with failure := some error }
        | .ok () =>
          let report := { progress.report with written := progress.report.written ++ [id] }
          controller.writeFiles files { progress with report := report }

/-- Removes the files of some ids. -/
def removeEach (controller : Controller) :
    List String → SyncProgress → Program SyncProgress
  | [], progress => return progress
  | id :: ids, progress => do
    match ← (controller.store.read id).run with
    | .error error => return { progress with failure := some error }
    | .ok current =>
      let progress := { progress with snapshots := progress.snapshots ++ [(id, current)] }
      match ← (controller.store.remove id).run with
      | .error error => return { progress with failure := some error }
      | .ok _ =>
        let report := { progress.report with removed := progress.report.removed ++ [id] }
        controller.removeEach ids { progress with report := report }

/-- Brings the files there are in step with those desired. -/
def writeDesired (controller : Controller) (files : List (String × RuleFile)) :
    Program SyncProgress := do
  let progress ← controller.writeFiles files {}
  if progress.failure.isSome then return progress
  else match ← controller.store.list.run with
    | .error error => return { progress with failure := some error }
    | .ok ids =>
      let desired := files.map Prod.fst
      controller.removeEach (ids.filter fun id => !desired.contains id) progress

/-- Brings the files there are in step with those desired, and brings that into force. -/
def syncFiles (controller : Controller) (files : List (String × RuleFile)) :
    Operation SyncReport := do
  let progress ← ExceptT.lift (controller.writeDesired files)
  match progress.failure with
  | some error =>
    controller.rollBack progress.snapshots error
    return progress.report
  | none =>
    if !progress.report.hasChanges then return progress.report
    else
      controller.settle progress.snapshots
      return { progress.report with reloaded := true }

/-- Brings exactly the given rules into force. -/
def sync (controller : Controller) (rules : List Rule) : Operation SyncReport := do
  let files ← Operation.ofExcept (controller.desiredFiles rules)
  controller.exclusively .sync (!·.hasChanges) (controller.syncFiles files)

end Controller

end ProxyKeeper
