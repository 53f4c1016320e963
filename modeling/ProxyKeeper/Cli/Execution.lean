import ProxyKeeper.Cli.Report
import ProxyKeeper.Libraries
import ProxyKeeper.Rule.Loading
import ProxyKeeper.Settings.Loading

/-!
# Execution of commands

What each command does: it loads the settings, asks the controller or the store, and ends in a
report or in a failure. The settings of a command are those of its file and of the environment.

To show the document of a rule nothing is changed and nginx is not asked, and settings that do not
exist count as the usual ones.

## Main Definitions

* `Task`: what commands consist of.
* `Command.run`: a command.
* `Answer`: what is printed and how the command ends; `Invocation.run` gives it.
-/

namespace ProxyKeeper.Cli

/-- A program that ends in a value or fails as a command does. -/
abbrev Task (α : Type) := ExceptT CommandError Program α

namespace Task

/-- An operation as a part of a command. -/
def ofOperation (operation : Operation α) : Task α :=
  ExceptT.mk (operation.run.bind fun result => .done (result.mapError (·.toCommand)))

/-- The loading of settings as a part of a command. -/
def ofLoading (loading : Settings.Loading α) : Task α :=
  ExceptT.mk (loading.run.bind fun result => .done (result.mapError (·.toCommand)))

end Task

/-- What surrounds a command: the libraries, the variables of the environment, the file of the
settings, and the time. -/
structure Surroundings where
  libraries : Libraries
  environment : Environment
  settings : Path
  now : Timestamp

namespace Surroundings

/-- The readers of the formats. -/
def readers (surroundings : Surroundings) : Readers :=
  surroundings.libraries.toReaders

/-- The valid settings. -/
def load (surroundings : Surroundings) : Settings.Loading Settings :=
  Settings.load surroundings.readers surroundings.environment surroundings.settings

/-- The valid settings, and the controller they give. -/
def controller (surroundings : Surroundings) : Task (Settings × Controller) := do
  let settings ← Task.ofLoading surroundings.load
  let config := ManagerConfig.ofSettings settings.nginx
  let controller ← Task.ofOperation (Operation.ofExcept (Controller.ofConfig config))
  return (settings, controller)

/-- The valid settings, or the usual ones when their file does not exist. -/
def loadIfPresent (surroundings : Surroundings) : Task Settings := do
  let found ← ExceptT.lift (Program.request (.file (.status surroundings.settings)))
  let found : Except IoFault FileStatus := found
  match found with
  | .ok _ => Task.ofLoading surroundings.load
  | .error fault => if fault = .notFound then return {} else throw (.io fault)

end Surroundings

namespace Command

/-- Makes the directories and the main configuration. -/
def runInit (surroundings : Surroundings) : Task Report := do
  let (_, controller) ← surroundings.controller
  let written ← Task.ofOperation controller.bootstrap
  return .init controller.config.activeDir controller.config.mainConfig written

/-- Shows the document of the rule in a file. -/
def runRender (surroundings : Surroundings) (file : Path) : Task Report := do
  let settings ← surroundings.loadIfPresent
  let options := (ManagerConfig.ofSettings settings.nginx).renderOptions
  let rule ← Task.ofOperation (Rule.load surroundings.readers surroundings.now file)
  let document ← Task.ofOperation (Operation.ofExcept (rule.compile options))
  return .render rule.id rule.context document

/-- Brings the rule in a file into force. -/
def runApply (surroundings : Surroundings) (file : Path) : Task Report := do
  let (_, controller) ← surroundings.controller
  let rule ← Task.ofOperation (Rule.load surroundings.readers surroundings.now file)
  let rule ← Task.ofOperation (controller.apply rule)
  return .apply rule

/-- Takes a rule out of force. -/
def runRemove (surroundings : Surroundings) (id : String) : Task Report := do
  let (_, controller) ← surroundings.controller
  let removed ← Task.ofOperation (controller.remove id)
  return .remove id removed

/-- Brings exactly the rules of a directory into force. -/
def runSync (surroundings : Surroundings) (directory : Option Path) : Task Report := do
  let (settings, controller) ← surroundings.controller
  let directory := directory.getD ⟨settings.nginx.rulesDir⟩
  let rules ← Task.ofOperation (Rule.loadAll surroundings.readers surroundings.now directory)
  let report ← Task.ofOperation (controller.sync rules)
  return .sync directory rules.length report

/-- Tells whether nginx can be reached, and which rules are in force. -/
def runStatus (surroundings : Surroundings) (verbose : Bool) : Task Report := do
  let (settings, controller) ← surroundings.controller
  let found ← ExceptT.lift controller.status
  let ids ← Task.ofOperation controller.store.list
  let versions := surroundings.libraries.versions
  let version := (found.version? versions).map versions.display
  return .status settings.nginx.binary found version controller.config.activeDir ids verbose

/-- Why settings cannot be used, if there is a reason. -/
def settingsFault? : Except ServiceError Settings → Option String
  | .error error => some error.message
  | .ok settings =>
    match (ManagerConfig.ofSettings settings.nginx).validate with
    | .ok () => none
    | .error error => some error.message

/-- Checks the settings. -/
def runValidateSettings (surroundings : Surroundings) : Task Report := do
  let settings ← ExceptT.lift surroundings.load.run
  return .validity surroundings.settings (settingsFault? settings)

/-- The entries of a group of settings. -/
def groupEntries? (settings : Settings) : Option String → Option (List (String × Toml.Value))
  | none => some settings.entries
  | some "general" => some settings.general.entries
  | some "nginx" => some settings.nginx.entries
  | some _ => none

/-- Shows the settings, or one group of them. -/
def runShowSettings (surroundings : Surroundings) (group : Option String) : Task Report := do
  let settings ← Task.ofLoading surroundings.load
  match groupEntries? settings group with
  | some entries => return .settings surroundings.settings group entries
  | none =>
    throw (.command ("unknown section: " ++ group.getD "" ++ " (expected: general, nginx)"))

/-- Carries out a command. -/
def run (surroundings : Surroundings) : Command → Task Report
  | init => runInit surroundings
  | render file => runRender surroundings file
  | apply file => runApply surroundings file
  | remove id => runRemove surroundings id
  | sync directory => runSync surroundings directory
  | status verbose => runStatus surroundings verbose
  | validateSettings => runValidateSettings surroundings
  | showSettings group => runShowSettings surroundings group

end Command

/-- What is printed, and the failure that the command ends with. -/
structure Answer where
  stdout : String
  failure : Option CommandError
deriving DecidableEq

namespace Answer

/-- What comes of a command. -/
def ofResult (format : Format) (palette : Palette) : Except CommandError Report → Answer
  | .ok report => ⟨report.print format palette, report.failure?⟩
  | .error error => ⟨"", some error⟩

/-- The exit code. -/
def exitCode (answer : Answer) : Nat :=
  match answer.failure with
  | none => 0
  | some error => error.exitCode

end Answer

/-- Carries out what a command line asks for. -/
def Invocation.run (invocation : Invocation) (libraries : Libraries) (environment : Environment)
    (now : Timestamp) (palette : Palette) : Program Answer :=
  (invocation.command.run ⟨libraries, environment, invocation.settings, now⟩).run.bind
    fun result => .done (.ofResult invocation.format palette result)

end ProxyKeeper.Cli
