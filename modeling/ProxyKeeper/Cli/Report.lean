import ProxyKeeper.Cli.Invocation
import ProxyKeeper.Cli.Style
import ProxyKeeper.Controller.Basic
import ProxyKeeper.Json.Printer
import ProxyKeeper.Toml.Printer

/-!
# Reports

What a command has to say when it has done its work, as text for people and as JSON for programs.
A report can itself tell of a failure: nginx that cannot be reached, or settings that are not
valid.

## Main Definitions

* `Report`: the reports, one kind for each command.
* `Report.text`, `Report.json`, `Report.print`: the formats.
* `Report.failure?`: the failure that a report tells of.
-/

namespace ProxyKeeper.Cli

/-- A report of a command. -/
inductive Report where
  /-- Whether the main configuration was made or there already. -/
  | init (activeDir mainConfig : Path) (written : Bool)
  | render (id : String) (context : Context) (document : String)
  | apply (rule : Rule)
  /-- Whether the rule had files. -/
  | remove (id : String) (removed : Bool)
  | sync (directory : Path) (total : Nat) (report : SyncReport)
  /-- The version of nginx as it is displayed, and the ids of the rules in force; `verbose` says
  whether they are listed. -/
  | status (binary : String) (found : NginxStatus) (version : Option String) (activeDir : Path)
      (ids : List String) (verbose : Bool)
  | validity (source : Path) (failure : Option String)
  /-- All settings, or those of one group. -/
  | settings (source : Path) (group : Option String) (entries : List (String × Toml.Value))

namespace Report

/-- The failure that a report tells of. -/
def failure? : Report → Option CommandError
  | status _ found _ _ _ _ =>
    if found.reachable then none else some (.command ("nginx is not reachable: " ++ found.raw))
  | validity _ (some _) => some (.config "configuration is invalid")
  | _ => none

/-! ## Text -/

/-- Lines, each with its end. -/
def ofLines (lines : List String) : String :=
  String.join (lines.map (· ++ "\n"))

/-- A label of the status in its column. -/
def labelled (label value : String) : String :=
  "  " ++ label ++ String.ofList (List.replicate (14 - label.length) ' ') ++ " " ++ value

/-- What a rule is called: its name, if it has one, and its id. -/
def callName (rule : Rule) : String :=
  if rule.name.isEmpty then rule.id else rule.name ++ " (" ++ rule.id ++ ")"

/-- The lines of a synchronization. -/
def syncLines (palette : Palette) (directory : Path) (total : Nat) (report : SyncReport) :
    List String :=
  ["Sync: " ++ palette.paint .bold directory.text ++ " (" ++ toString total ++ " rules)"] ++
    (report.written.map fun id => "  " ++ palette.paint .green "written  " ++ " " ++ id) ++
    (report.removed.map fun id => "  " ++ palette.paint .red "removed  " ++ " " ++ id) ++
    (if report.unchanged.isEmpty then []
     else ["  unchanged " ++ toString report.unchanged.length]) ++
    [if report.reloaded then "  nginx reloaded"
     else "  " ++ palette.paint .dimmed "no changes, nginx not reloaded"]

/-- The lines of the status of nginx. -/
def statusLines (palette : Palette) (binary : String) (found : NginxStatus)
    (version : Option String) (activeDir : Path) (ids : List String) (verbose : Bool) :
    List String :=
  ["Nginx Status",
   labelled "Binary:" binary,
   labelled "State:"
     (if found.reachable then palette.paint .green "reachable"
      else palette.paint .red "unreachable"),
   match version with
   | some version => labelled "Version:" (palette.paint .bold version)
   | none => labelled "Output:" found.raw,
   labelled "Active dir:" activeDir.text,
   labelled "Active rules:" (toString ids.length)] ++
    if verbose then ids.map ("    - " ++ ·) else []

/-- A report for people. -/
def text (palette : Palette) : Report → String
  | init activeDir mainConfig written =>
    let result :=
      if written then palette.paint .green "created" else palette.paint .yellow "exists, unchanged"
    ofLines
      ["Active directory: " ++ palette.paint .bold activeDir.text,
       "Main config:      " ++ mainConfig.text ++ " (" ++ result ++ ")"]
  | render _ _ document => document
  | apply rule =>
    let name := palette.paint .bold (callName rule)
    ofLines
      [if rule.enabled then
        palette.paint .boldGreen "APPLIED" ++ " " ++ name ++ " [" ++ rule.context.name ++ "]"
       else
        palette.paint .boldYellow "DISABLED" ++ " " ++ name ++
          " (rule disabled, configuration removed)"]
  | remove id removed =>
    let name := palette.paint .bold id
    ofLines
      [if removed then palette.paint .boldGreen "REMOVED" ++ " " ++ name
       else
        palette.paint .boldYellow "SKIPPED" ++ " " ++ name ++ " (no configuration, nothing to do)"]
  | sync directory total report => ofLines (syncLines palette directory total report)
  | status binary found version activeDir ids verbose =>
    ofLines (statusLines palette binary found version activeDir ids verbose)
  | validity source failure =>
    let result := match failure with
      | none => ["  Result: " ++ palette.paint .boldGreen "VALID"]
      | some reason =>
        ["  Result: " ++ palette.paint .boldRed "INVALID",
         "  Error: " ++ palette.paint .red reason]
    ofLines (("Config Validation: " ++ palette.paint .bold source.text) :: result)
  | settings source none entries =>
    ofLines ["Configuration (source: " ++ palette.paint .bold source.text ++ ")", ""] ++
      Toml.write entries
  | settings source (some group) entries =>
    let label := palette.paint .bold ("[" ++ group ++ "]")
    ofLines ["Configuration " ++ label ++ " (source: " ++ source.text ++ ")", ""] ++
      Toml.write entries

/-! ## JSON -/

/-- The members of a synchronization's report. -/
def syncMembers (report : SyncReport) : List (String × Json) :=
  [("written", .ofStrings report.written), ("removed", .ofStrings report.removed),
   ("unchanged", .ofStrings report.unchanged), ("reloaded", .bool report.reloaded)]

/-- A report for programs. -/
def json : Report → Json
  | init activeDir mainConfig written =>
    .object
      [("active_dir", .string activeDir.text), ("main_config", .string mainConfig.text),
       ("main_config_written", .bool written)]
  | render id context document =>
    .object
      [("rule_id", .string id), ("context", .string context.name), ("config", .string document)]
  | apply rule =>
    .object
      [("rule_id", .string rule.id), ("name", .string rule.name),
       ("context", .string rule.context.name),
       ("action", .string (if rule.enabled then "applied" else "disabled"))]
  | remove id removed => .object [("rule_id", .string id), ("removed", .bool removed)]
  | sync directory total report =>
    .object
      ([("rules_dir", .string directory.text), ("total", .ofNat total)] ++ syncMembers report)
  | status binary found version activeDir ids verbose =>
    .object
      ([("binary", .string binary), ("reachable", .bool found.reachable),
        ("version", .ofOption .string version),
        ("raw", .string found.raw), ("active_dir", .string activeDir.text),
        ("active_rules", .ofNat ids.length)] ++
       if verbose then [("rules", .ofStrings ids)] else [])
  | validity source failure =>
    .object
      [("source", .string source.text), ("valid", .bool failure.isNone),
       ("errors", .ofStrings failure.toList)]
  | settings source group entries =>
    .object
      ([("source", .string source.text)] ++
       (group.toList.map fun name => ("section", .string name)) ++
       [("config", (Json.object (Json.ofTomlMembers entries)).sorted)])

/-- A report in a format. -/
def print (format : Format) (palette : Palette) (report : Report) : String :=
  match format with
  | .text => report.text palette
  | .json => report.json.indented ++ "\n"

end Report

end ProxyKeeper.Cli
