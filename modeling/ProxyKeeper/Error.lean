import ProxyKeeper.Files.Fault
import ProxyKeeper.Rule.Validity
import ProxyKeeper.Rule.Rendering

/-!
# Errors

Three levels report failures, each in its own terms: an operation on rules, the service around it,
and the command line. A failure is passed up by the conversions below, which decide what the
command line finally says and with which exit code it ends.

## Main Definitions

* `OperationError`, `ServiceError`, `CommandError`: the levels, each with its `message`.
* `OperationError.toService`, `ServiceError.toCommand`, `OperationError.toCommand`: the way up.
* `CommandError.exitCode`: how a command ends.
-/

namespace ProxyKeeper

/-- Why an operation on rules fails. -/
inductive OperationError where
  /-- A rule, or an id, is not valid. -/
  | validation (ruleId field reason : String)
  /-- A rule has no document. -/
  | compile (ruleId reason : String)
  /-- nginx refuses the configuration. -/
  | testFailed (message : String)
  /-- nginx accepts the configuration but does not take it up. -/
  | applyFailed (message : String)
  /-- After another failure, some files could not be put back. -/
  | rollbackFailed (cause reason : String)
  | io (path : String) (fault : IoFault)
  /-- nginx could not be started. -/
  | process (message : String)
  | ruleLoad (path reason : String)
  | config (field reason : String)
deriving DecidableEq

namespace OperationError

/-- The failure in words. -/
def message : OperationError → String
  | .validation ruleId field reason =>
    "invalid rule '" ++ ruleId ++ "': " ++ field ++ ": " ++ reason
  | .compile ruleId reason => "cannot compile rule '" ++ ruleId ++ "': " ++ reason
  | .testFailed message => "nginx configuration test failed: " ++ message
  | .applyFailed message => "nginx reload failed: " ++ message
  | .rollbackFailed cause reason => "rollback failed after '" ++ cause ++ "': " ++ reason
  | .io path fault => "io error at " ++ path ++ ": " ++ fault.message
  | .process message => "process error: " ++ message
  | .ruleLoad path reason => "rule load error: " ++ path ++ ": " ++ reason
  | .config field reason => "config error: " ++ field ++ ": " ++ reason

/-- Whether the failure says no to a rule, so that another rule may succeed. -/
def isRejection : OperationError → Bool
  | .validation .. => true
  | .testFailed _ => true
  | _ => false

/-- The failure beneath this one. -/
def source? : OperationError → Option IoFault
  | .io _ fault => some fault
  | _ => none

/-- The failure of a rule with a fault. -/
def ofRuleFault (ruleId : String) (fault : RuleFault) : OperationError :=
  .validation ruleId fault.field fault.reason

/-- The failure of a rule without a document. -/
def ofCompileFault (ruleId : String) (fault : CompileFault) : OperationError :=
  .compile ruleId fault.reason

end OperationError

/-- Passes a valid rule and reports the first fault of any other. -/
def Rule.validate (rule : Rule) : Except OperationError Unit :=
  match rule.fault? with
  | none => .ok ()
  | some fault => .error (.ofRuleFault rule.id fault)

/-- The text of a rule's document, or the failure of a rule without one. -/
def Rule.compile (rule : Rule) (options : RenderOptions) : Except OperationError String :=
  (rule.render options).mapError (.ofCompileFault rule.id)

/-- Why the settings cannot be used. -/
inductive SettingsError where
  | fileNotFound (path : String)
  | parseFailed (reason : String)
  | invalidValue (field reason : String)
deriving DecidableEq

/-- The failure in words. -/
def SettingsError.message : SettingsError → String
  | .fileNotFound path => "config file not found: " ++ path
  | .parseFailed reason => "failed to parse config: " ++ reason
  | .invalidValue field reason => "invalid config value for '" ++ field ++ "': " ++ reason

/-- What the service says of a failed operation. -/
inductive NginxError where
  | invalidRule (message : String)
  | compile (message : String)
  | testFailed (message : String)
  | applyFailed (message : String)
  | storage (message : String)
deriving DecidableEq

/-- The failure in words. -/
def NginxError.message : NginxError → String
  | .invalidRule message => "invalid rule: " ++ message
  | .compile message => "compile failed: " ++ message
  | .testFailed message => "configuration test failed: " ++ message
  | .applyFailed message => "reload failed: " ++ message
  | .storage message => "storage error: " ++ message

/-- Why the service fails. -/
inductive ServiceError where
  | settings (error : SettingsError)
  | nginx (error : NginxError)
  | io (fault : IoFault)
deriving DecidableEq

/-- The failure in words. -/
def ServiceError.message : ServiceError → String
  | .settings error => "config error: " ++ error.message
  | .nginx error => "nginx error: " ++ error.message
  | .io fault => "io error: " ++ fault.message

/-- Why a command fails. -/
inductive CommandError where
  /-- The settings cannot be used. -/
  | config (message : String)
  /-- The command cannot be carried out. -/
  | command (message : String)
  /-- A rule is refused. -/
  | rejected (message : String)
  /-- The files and the running nginx may differ. -/
  | apply (message : String)
  /-- A report cannot be written as JSON. -/
  | json (message : String)
  | io (fault : IoFault)
deriving DecidableEq

/-- The failure in words. -/
def CommandError.message : CommandError → String
  | .config message => "configuration error: " ++ message
  | .command message => message
  | .rejected message => "rule rejected: " ++ message
  | .apply message => "apply failed: " ++ message
  | .json message => "json output error: " ++ message
  | .io fault => "io error: " ++ fault.message

/-- The exit code of a failed command. -/
def CommandError.exitCode : CommandError → Nat
  | .config _ => 2
  | .rejected _ => 3
  | .apply _ => 4
  | .io _ => 10
  | .json _ => 1
  | .command _ => 1

/-- A failed operation as the service reports it. -/
def OperationError.toService (error : OperationError) : ServiceError :=
  .nginx <| match error with
    | .validation .. => .invalidRule error.message
    | .ruleLoad .. => .invalidRule error.message
    | .compile .. => .compile error.message
    | .testFailed message => .testFailed message
    | .applyFailed message => .applyFailed message
    | .rollbackFailed .. => .storage error.message
    | .io .. => .storage error.message
    | .process _ => .storage error.message
    | .config .. => .storage error.message

/-- A failure of the service as a command reports it. -/
def ServiceError.toCommand : ServiceError → CommandError
  | .settings error => .config error.message
  | .io fault => .io fault
  | .nginx error => match error with
    | .invalidRule _ => .rejected error.message
    | .testFailed _ => .rejected error.message
    | .applyFailed _ => .apply error.message
    | .compile _ => .command error.message
    | .storage _ => .command error.message

/-- A failed operation as a command reports it. -/
def OperationError.toCommand (error : OperationError) : CommandError :=
  match error with
  | .validation .. => .rejected error.message
  | .testFailed _ => .rejected error.message
  | .applyFailed _ => .apply error.message
  | .rollbackFailed .. => .apply error.message
  | .ruleLoad .. => .rejected error.message
  | .config .. => .config error.message
  | .io _ fault => .io fault
  | .compile .. => .command error.message
  | .process _ => .command error.message

end ProxyKeeper
