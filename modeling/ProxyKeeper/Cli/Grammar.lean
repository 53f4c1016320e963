import ProxyKeeper.Text.Replace

/-!
# Grammars of command lines

A command line is read in levels. Each level has named parameters, such as `--output`, and either
an operand or the names of further levels; such a name ends the level, and the words after it
belong to the level below.

The value of a parameter is looked at when the next parameter or operand begins, or else at the
end of its level, and the levels below end first. So of two faults in a command line the one that
is met first in this order is reported.

## Main Definitions

* `UsageFault`: why a command line is not carried out.
* `Parameter`, `Operand`, `Level`: the grammars.
* `Reading`: what has been read of a level.
* `Level.read`: what the words of a command line give, level by level.
-/

namespace ProxyKeeper.Cli

/-- Why a command line is not carried out. Two of the causes are no faults: it asks for help or for
the version. -/
inductive UsageFault where
  | help
  | version
  /-- Nothing at all is said where a command is needed. -/
  | nothingSaid
  | missingCommand
  | unknownCommand
  | unknownArgument
  | missingOperand
  | invalidValue
  /-- A parameter is given twice. -/
  | repeated
  /-- A switch is given a value. -/
  | excessValue
deriving DecidableEq

/-- The exit code of a command line that is not carried out. -/
def UsageFault.exitCode : UsageFault → Nat
  | help => 0
  | version => 0
  | _ => 2

/-- The texts a parameter or operand takes. -/
inductive Kind where
  | text
  /-- Any text that is not empty. -/
  | path
  | choice (names : List String)
deriving DecidableEq

/-- Whether a text is of a kind. -/
def Kind.accepts : Kind → String → Bool
  | text, _ => true
  | path, s => !s.isEmpty
  | choice names, s => names.contains s

/-- What a parameter does. -/
inductive Role where
  | value (kind : Kind)
  | switch
  | help
  | version
deriving DecidableEq

/-- A named parameter of a level. -/
structure Parameter where
  /-- The name after two dashes. -/
  name : String
  /-- The name after one dash. -/
  letter : Option Char := none
  role : Role

/-- The operand of a level. -/
structure Operand where
  name : String
  kind : Kind
  required : Bool := true

/-- A level of a command line. -/
inductive Level where
  | mk (parameters : List Parameter) (operand : Option Operand) (commands : List (String × Level))
deriving Inhabited

namespace Level

/-- The named parameters. -/
def parameters : Level → List Parameter
  | mk parameters _ _ => parameters

/-- The operand. -/
def operand : Level → Option Operand
  | mk _ operand _ => operand

/-- The levels below, by name. -/
def commands : Level → List (String × Level)
  | mk _ _ commands => commands

end Level

/-- A parameter or operand whose value is not settled yet. -/
structure Pending where
  name : String
  kind : Kind
  /-- The value; none while it is awaited. -/
  value : Option String

/-- What has been read of a level. -/
structure Reading where
  /-- What is settled, by name; switches have an empty value. -/
  given : List (String × String) := []
  pending : Option Pending := none
  /-- Whether the words to come are operands, however they look. -/
  literal : Bool := false
  /-- Whether the operand has been read. -/
  hasOperand : Bool := false

namespace Reading

/-- Records the value of a parameter that has none yet. -/
def record (reading : Reading) (name : String) (kind : Kind) (value : String) :
    Except UsageFault Reading :=
  if (reading.given.lookup name).isSome then .error .repeated
  else if kind.accepts value then .ok { reading with given := reading.given ++ [(name, value)] }
  else .error .invalidValue

/-- Settles what is pending. -/
def settle (reading : Reading) : Except UsageFault Reading :=
  match reading.pending with
  | none => .ok reading
  | some ⟨_, _, none⟩ => .error .invalidValue
  | some ⟨name, kind, some value⟩ => { reading with pending := none }.record name kind value

/-- Whether the next word is the value of a parameter. -/
def isAwaiting (reading : Reading) : Bool :=
  match reading.pending with
  | some ⟨_, _, none⟩ => true
  | _ => false

/-- Takes a word as the value that is awaited. -/
def supply (reading : Reading) (word : String) : Reading :=
  { reading with
    pending := reading.pending.map fun pending => { pending with value := some word } }

/-- Takes a parameter whose value is attached to it, or is to follow, or is not given at all. -/
def take (reading : Reading) (parameter : Parameter) (attached : Option String) :
    Except UsageFault Reading := do
  match parameter.role, attached with
  | .value kind, some value => (← reading.settle).record parameter.name kind value
  | .value kind, none =>
    .ok { ← reading.settle with pending := some ⟨parameter.name, kind, none⟩ }
  | _, some _ => .error .excessValue
  | .switch, none => (← reading.settle).record parameter.name .text ""
  | .help, none =>
    let _ ← reading.settle
    .error .help
  | .version, none =>
    let _ ← reading.settle
    .error .version

end Reading

namespace Level

/-- The word that asks for help on the levels below. -/
def helpWord : String := "help"

/-- Whether a word names a level below, or asks for help on one. -/
def isCommand (level : Level) (word : String) : Bool :=
  !level.commands.isEmpty && (word = helpWord || (level.commands.lookup word).isSome)

/-- What comes of asking for help on the level that some words lead to. -/
def helpOn : (level : Level) → List String → UsageFault
  | _, [] => .help
  | level, word :: words =>
    match level.commands.lookup word with
    | some lower => helpOn lower words
    | none => if level.isCommand word then helpOn (mk [] none []) words else .unknownCommand

/-- Reads a word of two dashes, which are taken off. -/
def readLong (level : Level) (reading : Reading) (word : List Char) : Except UsageFault Reading :=
  let (name, rest) := word.span (· != '=')
  match level.parameters.find? (·.name = String.ofList name) with
  | some parameter =>
    reading.take parameter (if rest.isEmpty then none else some (String.ofList (rest.drop 1)))
  | none => .error .unknownArgument

/-- Reads the letters after one dash. What follows the letter of a parameter with a value is its
value. -/
def readLetters (level : Level) (reading : Reading) : List Char → Except UsageFault Reading
  | [] => .ok reading
  | letter :: rest => do
    match level.parameters.find? (·.letter = some letter) with
    | none => .error .unknownArgument
    | some parameter =>
      match parameter.role with
      | .value _ =>
        reading.take parameter <| match rest with
          | [] => none
          | '=' :: value => some (String.ofList value)
          | value => some (String.ofList value)
      | _ => readLetters level (← reading.take parameter none) rest

/-- Reads an operand. -/
def readOperand (level : Level) (reading : Reading) (word : String) :
    Except UsageFault Reading := do
  match level.operand, reading.hasOperand with
  | some operand, false =>
    .ok
      { ← reading.settle with
        pending := some ⟨operand.name, operand.kind, some word⟩, hasOperand := true }
  | _, _ =>
    if level.commands.isEmpty || (reading.literal && level.isCommand word) then
      .error .unknownArgument
    else .error .unknownCommand

/-- Reads a word that does not lead to a level below. -/
def readWord (level : Level) (reading : Reading) (word : String) : Except UsageFault Reading :=
  if reading.literal then level.readOperand reading word
  else match word.toList with
    | ['-', '-'] => .ok { reading with literal := true }
    | '-' :: '-' :: name => level.readLong reading name
    | '-' :: letter :: letters => level.readLetters reading (letter :: letters)
    | _ =>
      if reading.isAwaiting then .ok (reading.supply word)
      else level.readOperand reading word

/-- Settles a level that ends with the command line. -/
def finish (level : Level) (reading : Reading) : Except UsageFault Reading := do
  let reading ← reading.settle
  if !level.commands.isEmpty then
    .error (if reading.given.isEmpty then .nothingSaid else .missingCommand)
  else match level.operand with
    | some operand =>
      if operand.required && (reading.given.lookup operand.name).isNone then
        .error .missingOperand
      else .ok reading
    | none => .ok reading

/-- What the rest of a level gives, and the levels below, each with its name; `name` is that of
the level itself. -/
def readFrom (name : String) (level : Level) (reading : Reading) :
    List String → Except UsageFault (List (String × List (String × String)))
  | [] => do
    let reading ← level.finish reading
    .ok [(name, reading.given)]
  | word :: words => do
    if !reading.literal && !reading.isAwaiting && level.isCommand word then
      match level.commands.lookup word with
      | none => .error (level.helpOn words)
      | some lower =>
        let below ← readFrom word lower {} words
        let reading ← reading.settle
        .ok ((name, reading.given) :: below)
    else readFrom name level (← level.readWord reading word) words

/-- What the words of a command line give for each of the levels they lead through: its name and
what is given there, by name. -/
def read (level : Level) (words : List String) :
    Except UsageFault (List (String × List (String × String))) :=
  level.readFrom "" {} words

end Level

end ProxyKeeper.Cli
