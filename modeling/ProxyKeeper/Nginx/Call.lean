import ProxyKeeper.Manager
import ProxyKeeper.Nginx.Output

/-!
# Calls of nginx

The three things nginx is asked to do, each as a command with a limit on its time, and what may
come of it.

## Main Definitions

* `Call`, `Reply`: the calls and their outcomes.
* `ManagerConfig.testCall`, `ManagerConfig.reloadCall`, `ManagerConfig.versionCall`: the calls of
  a configuration.
-/

namespace ProxyKeeper

namespace Nginx

/-- What nginx is asked to do. -/
inductive Action where
  /-- To check the whole configuration. -/
  | test
  /-- To take up the configuration. -/
  | reload
  /-- To say its version. -/
  | version
deriving DecidableEq, Inhabited

/-- The name of an action. -/
def Action.name : Action → String
  | .test => "test"
  | .reload => "reload"
  | .version => "version"

/-- A call of nginx. -/
structure Call where
  action : Action
  /-- The program and its arguments. -/
  command : List String
  /-- The number of seconds after which the call is given up. -/
  limit : UInt64
deriving DecidableEq, Inhabited

/-- What comes of a call. -/
inductive Reply where
  | finished (output : Output)
  /-- The command could not be started. -/
  | notStarted (message : String)
  /-- The call was given up at its limit. -/
  | timedOut
deriving DecidableEq, Inhabited

/-- What is said of a call that was given up. -/
def timeoutMessage : String := "timeout"

/-- Whether the command ended with success, within the limit. -/
def Reply.isSuccess : Reply → Bool
  | .finished output => output.success
  | .notStarted _ => false
  | .timedOut => false

/-- What a report quotes of a reply. -/
def Reply.message : Reply → String
  | .finished output => output.diagnostic
  | .notStarted message => (OperationError.process message).message
  | .timedOut => timeoutMessage

end Nginx

namespace ManagerConfig

/-- The command that runs nginx with some arguments. -/
def command (config : ManagerConfig) (args : List String) : List String :=
  config.commandLead ++ config.binary :: args

/-- The command that checks the configuration. -/
def testCommand (config : ManagerConfig) : List String :=
  config.command ["-t", "-c", config.mainConfig.text]

/-- The command that makes nginx take up the configuration. It names the main configuration too,
for that tells which nginx is meant. -/
def reloadCommand (config : ManagerConfig) : List String :=
  config.command ["-c", config.mainConfig.text, "-s", "reload"]

/-- The call that checks the configuration. -/
def testCall (config : ManagerConfig) : Nginx.Call :=
  ⟨.test, config.testCommand, config.testTimeout⟩

/-- The call that makes nginx take up the configuration. -/
def reloadCall (config : ManagerConfig) : Nginx.Call :=
  ⟨.reload, config.reloadCommand, config.reloadTimeout⟩

/-- The call that asks for the version. -/
def versionCall (config : ManagerConfig) : Nginx.Call :=
  ⟨.version, config.command ["-v"], config.testTimeout⟩

end ManagerConfig

end ProxyKeeper
