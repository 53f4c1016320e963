import ProxyKeeper.Cli.Grammar
import ProxyKeeper.Files.Path

/-!
# Invocations

What a command line asks for: one of the commands, the file of the settings, and the format of the
report.

## Main Definitions

* `Command`, `Format`, `Invocation`: what is asked for.
* `grammar`: the grammar of the command line.
* `Invocation.read`: what the words of a command line ask for.
-/

namespace ProxyKeeper.Cli

/-- The commands. -/
inductive Command where
  /-- Makes the directories and the main configuration. -/
  | init
  /-- Shows the document of the rule in a file. -/
  | render (file : Path)
  /-- Brings the rule in a file into force. -/
  | apply (file : Path)
  /-- Takes a rule out of force. -/
  | remove (id : String)
  /-- Brings exactly the rules of a directory into force; without one, those of the directory in
  the settings. -/
  | sync (directory : Option Path)
  /-- Tells whether nginx can be reached, and how many rules are in force. -/
  | status (verbose : Bool)
  /-- Checks the settings. -/
  | validateSettings
  /-- Shows the settings, or one group of them. -/
  | showSettings (group : Option String)
deriving DecidableEq

/-- The formats of reports. -/
inductive Format where
  | text
  | json
deriving DecidableEq

/-- What a command line asks for. -/
structure Invocation where
  command : Command
  /-- The file of the settings. -/
  settings : Path := ⟨"dockgate.toml"⟩
  format : Format := .text
deriving DecidableEq

/-! ## The grammar -/

/-- Asks for help. -/
def helpSwitch : Parameter := { name := "help", letter := some 'h', role := .help }

/-- Asks for the version. -/
def versionSwitch : Parameter := { name := "version", letter := some 'V', role := .version }

/-- The file of the settings. -/
def settingsParameter : Parameter :=
  { name := "config", letter := some 'c', role := .value .path }

/-- How much is logged. No command depends on it. -/
def logLevelParameter : Parameter := { name := "log-level", role := .value .text }

/-- The format of the report. -/
def formatParameter : Parameter := { name := "output", role := .value (.choice ["text", "json"]) }

/-- Asks for a longer report. -/
def verboseSwitch : Parameter := { name := "verbose", letter := some 'v', role := .switch }

/-- The group of settings to show. -/
def groupParameter : Parameter := { name := "section", role := .value .text }

/-- The parameters of every level. -/
def sharedParameters : List Parameter :=
  [logLevelParameter, formatParameter, helpSwitch]

/-- The operand of the commands on one rule. -/
def operandName : String := "operand"

/-- A level without levels below. -/
def lowestLevel (parameters : List Parameter) (operand : Option Operand) : Level :=
  .mk (parameters ++ sharedParameters) operand []

/-- The level of the commands on the settings. -/
def settingsLevel : Level :=
  .mk sharedParameters none
    [("validate", lowestLevel [] none), ("show", lowestLevel [groupParameter] none)]

/-- The grammar of the command line. -/
def grammar : Level :=
  .mk ([settingsParameter, versionSwitch] ++ sharedParameters) none
    [("init", lowestLevel [] none),
     ("render", lowestLevel [] (some { name := operandName, kind := .path })),
     ("apply", lowestLevel [] (some { name := operandName, kind := .path })),
     ("remove", lowestLevel [] (some { name := operandName, kind := .text })),
     ("sync", lowestLevel [] (some { name := operandName, kind := .path, required := false })),
     ("status", lowestLevel [verboseSwitch] none),
     ("config", settingsLevel)]

/-- How the command line is written. -/
def usage : String :=
  "Usage: dockgate [-c PATH] [--log-level LEVEL] [--output text|json] COMMAND\n\n" ++
  "Commands:\n" ++
  "  init                    make the directories and the main configuration\n" ++
  "  render FILE             show the configuration of the rule in a file\n" ++
  "  apply FILE              bring the rule in a file into force\n" ++
  "  remove ID               take a rule out of force\n" ++
  "  sync [DIR]              bring exactly the rules of a directory into force\n" ++
  "  status [-v]             tell whether nginx can be reached\n" ++
  "  config validate         check the settings\n" ++
  "  config show [--section GROUP]\n" ++
  "                          show the settings"

/-- What is said of a command line that is not carried out. -/
def UsageFault.message : UsageFault → String
  | help => usage
  | version => "dockgate 0.1.0"
  | nothingSaid => usage
  | missingCommand => "error: a command is missing\n\n" ++ usage
  | unknownCommand => "error: there is no such command\n\n" ++ usage
  | unknownArgument => "error: unexpected argument\n\n" ++ usage
  | missingOperand => "error: an argument is missing\n\n" ++ usage
  | invalidValue => "error: a value is missing or not allowed\n\n" ++ usage
  | repeated => "error: an option is given twice\n\n" ++ usage
  | excessValue => "error: an option takes no value\n\n" ++ usage

/-! ## Reading -/

/-- The command of the levels below the first, which are given by their names and by what is given
there. -/
def Command.ofLevels? : List (String × List (String × String)) → Option Command
  | [("init", _)] => some .init
  | [("render", given)] => (given.lookup operandName).map fun file => .render ⟨file⟩
  | [("apply", given)] => (given.lookup operandName).map fun file => .apply ⟨file⟩
  | [("remove", given)] => (given.lookup operandName).map .remove
  | [("sync", given)] => some (.sync ((given.lookup operandName).map Path.mk))
  | [("status", given)] => some (.status (given.lookup verboseSwitch.name).isSome)
  | [("config", _), ("validate", _)] => some .validateSettings
  | [("config", _), ("show", given)] => some (.showSettings (given.lookup groupParameter.name))
  | _ => none

/-- The value of a parameter that several levels have: the one of the lowest level counts. -/
def lowestValue? (levels : List (String × List (String × String))) (name : String) :
    Option String :=
  levels.reverse.findSome? fun (_, given) => given.lookup name

/-- A format by its name. -/
def Format.ofName (name : String) : Format :=
  if name = "json" then .json else .text

namespace Invocation

/-- What the levels of a command line ask for. -/
def ofLevels (levels : List (String × List (String × String))) : Except UsageFault Invocation :=
  match Command.ofLevels? (levels.drop 1) with
  | none => .error .missingCommand
  | some command =>
    let usual : Invocation := { command }
    .ok
      { command
        settings :=
          ((lowestValue? levels settingsParameter.name).map Path.mk).getD usual.settings
        format := ((lowestValue? levels formatParameter.name).map Format.ofName).getD usual.format }

/-- What the words of a command line ask for. -/
def read (words : List String) : Except UsageFault Invocation :=
  (grammar.read words).bind ofLevels

end Invocation

end ProxyKeeper.Cli
