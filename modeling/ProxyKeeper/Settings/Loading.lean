import ProxyKeeper.Program
import ProxyKeeper.Settings.Codec
import ProxyKeeper.Settings.Environment

/-!
# Loading settings

Settings come from a file and from the environment, which counts over the file. The settings of
the file must be valid by themselves, and what comes of both must be valid again.

## Main Definitions

* `Settings.ofText`: the valid settings of a document.
* `Settings.ofFile`: the valid settings of a file.
* `Settings.load`: the valid settings of a file and the environment.
-/

namespace ProxyKeeper.Settings

/-- A program that ends in a value or fails as the service does. -/
abbrev Loading (α : Type) := ExceptT ServiceError Program α

/-- Settings, provided they are valid. -/
def checked (settings : Settings) : Except ServiceError Settings :=
  match settings.validate with
  | .ok () => .ok settings
  | .error error => .error (.settings error)

/-- The valid settings of a document. -/
def ofText (readers : Readers) (text : String) : Except ServiceError Settings :=
  match read readers text with
  | .ok settings => settings.checked
  | .error error => .error (.settings error)

/-- What comes of reading the file of the settings. -/
def ofContent (readers : Readers) (path : Path) :
    Except IoFault ByteArray → Except ServiceError Settings
  | .ok content =>
    match Text.Utf8.strict? content with
    | some text => ofText readers text
    | none => .error (.io .notText)
  | .error fault =>
    .error (if fault = .notFound then .settings (.fileNotFound path.text) else .io fault)

/-- The valid settings of a file. -/
def ofFile (readers : Readers) (path : Path) : Loading Settings := do
  let content ← ExceptT.lift (Program.request (.file (.read path)))
  ExceptT.mk (.done (ofContent readers path content))

/-- The valid settings of a file and the environment. -/
def load (readers : Readers) (environment : Environment) (path : Path) : Loading Settings := do
  let settings ← ofFile readers path
  ExceptT.mk (.done (settings.override environment).checked)

end ProxyKeeper.Settings
