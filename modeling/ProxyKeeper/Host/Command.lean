import ProxyKeeper.Host.Token

/-!
# Shell commands

The commands of a small shell: programs with redirections, sequences, conditions and selection by
patterns. There are no loops, so every script ends.

## Main Definitions

* `Redirection`, `Command`: the commands.
* `Command.read?`: the command that a script is.
-/

namespace ProxyKeeper.Shell

/-- Where a redirection leads. -/
inductive Target where
  | file (name : Word) (append : Bool)
  | input (name : Word)
  /-- Wherever another output leads. -/
  | output (number : Nat)
deriving DecidableEq, Inhabited

/-- A redirection of an output or of the input. -/
structure Redirection where
  number : Nat
  target : Target
deriving DecidableEq, Inhabited

/-- A command. -/
inductive Command where
  /-- Does nothing. -/
  | skip
  | simple (words : List Word) (redirections : List Redirection)
  | sequence (first second : Command)
  /-- The second command only after success of the first. -/
  | both (first second : Command)
  /-- The second command only after failure of the first. -/
  | either (first second : Command)
  | negate (command : Command)
  | choose (test yes no : Command)
  /-- The body if the subject matches one of the patterns, otherwise the rest. -/
  | select (subject : Word) (patterns : List Word) (body rest : Command)
deriving DecidableEq, Inhabited

namespace Command

/-- The words that end a list of commands. -/
def enders : List String :=
  ["then", "else", "elif", "fi", "esac", "do", "done", "\x7d"]

/-- The text of a token that is an unquoted word. -/
def keyword? : Token → Option String
  | .word word => (Word.plain? word).map String.ofList
  | _ => none

/-- Whether a list of commands ends before some tokens. -/
def atEnd : List Token → Bool
  | [] => true
  | .sign ';' :: .sign ';' :: _ => true
  | .sign ')' :: _ => true
  | token :: _ =>
    match keyword? token with
    | some text => enders.contains text
    | none => false

/-- Tokens without the line breaks in front. -/
def skipNewlines : List Token → List Token
  | .newline :: tokens => skipNewlines tokens
  | tokens => tokens

/-- Tokens without a given word in front. -/
def expect? (text : String) (tokens : List Token) : Option (List Token) :=
  match skipNewlines tokens with
  | token :: rest => if keyword? token = some text then some rest else none
  | [] => none

/-- The redirection after its sign. -/
def redirection? (number : Option Nat) : Char → List Token → Option (Redirection × List Token)
  | '>', .sign '>' :: .word name :: rest => some (⟨number.getD 1, .file name true⟩, rest)
  | '>', .sign '&' :: .word name :: rest =>
    ((Word.plain? name).bind Text.ofDigits?).map fun n => (⟨number.getD 1, .output n⟩, rest)
  | '>', .word name :: rest => some (⟨number.getD 1, .file name false⟩, rest)
  | '<', .word name :: rest => some (⟨number.getD 0, .input name⟩, rest)
  | _, _ => none

/-- A simple command, with the words and redirections before the tokens, last first. Each step
takes a token. -/
def simple? (words : List Word) (redirections : List Redirection) :
    (steps : Nat) → List Token → Option (Command × List Token)
  | steps + 1, .word word :: rest => simple? (word :: words) redirections steps rest
  | steps + 1, .number n :: .sign c :: rest => do
    let (redirection, rest) ← redirection? (some n) c rest
    simple? words (redirection :: redirections) steps rest
  | steps + 1, .sign c :: rest =>
    if c = '<' || c = '>' then do
      let (redirection, rest) ← redirection? none c rest
      simple? words (redirection :: redirections) steps rest
    else some (.simple words.reverse redirections.reverse, .sign c :: rest)
  | _, rest => some (.simple words.reverse redirections.reverse, rest)

/-- The patterns in front of a body of a selection, last first. -/
def patterns? (patterns : List Word) : List Token → Option (List Word × List Token)
  | .word word :: .sign '|' :: rest => patterns? (word :: patterns) rest
  | .word word :: .sign ')' :: rest => some ((word :: patterns).reverse, rest)
  | _ => none

mutual

/-- A list of commands, up to a token that ends it. -/
def list? : (steps : Nat) → List Token → Option (Command × List Token)
  | 0, _ => none
  | steps + 1, tokens =>
    match skipNewlines tokens with
    | .sign ';' :: .sign ';' :: rest => some (.skip, .sign ';' :: .sign ';' :: rest)
    | .sign ';' :: rest => list? steps rest
    | tokens =>
      if atEnd tokens then some (.skip, tokens)
      else do
        let (first, rest) ← item? steps tokens
        let (first, rest) ← items? steps first rest
        if atEnd rest then some (first, rest)
        else match rest with
          | .newline :: rest => do
            let (second, rest) ← list? steps rest
            some (.sequence first second, rest)
          | .sign ';' :: rest => do
            let (second, rest) ← list? steps rest
            some (.sequence first second, rest)
          | _ => none

/-- What follows a command under a condition. -/
def items? : (steps : Nat) → Command → List Token → Option (Command × List Token)
  | 0, _, _ => none
  | steps + 1, first, .sign '&' :: .sign '&' :: rest => do
    let (second, rest) ← item? steps (skipNewlines rest)
    items? steps (.both first second) rest
  | steps + 1, first, .sign '|' :: .sign '|' :: rest => do
    let (second, rest) ← item? steps (skipNewlines rest)
    items? steps (.either first second) rest
  | _ + 1, first, rest => some (first, rest)

/-- A single command. -/
def item? : (steps : Nat) → List Token → Option (Command × List Token)
  | 0, _ => none
  | _ + 1, [] => none
  | steps + 1, token :: rest =>
    match keyword? token with
    | some "!" => do
      let (command, rest) ← item? steps rest
      some (.negate command, rest)
    | some "if" => condition? steps rest
    | some "case" =>
      match rest with
      | .word subject :: rest => do branches? steps subject (← expect? "in" rest)
      | _ => none
    | some "\x7b" => do
      let (command, rest) ← list? steps rest
      some (command, ← expect? "\x7d" rest)
    | _ => simple? [] [] (rest.length + 1) (token :: rest)

/-- A condition after its first word. -/
def condition? : (steps : Nat) → List Token → Option (Command × List Token)
  | 0, _ => none
  | steps + 1, tokens => do
    let (test, rest) ← list? steps tokens
    let (yes, rest) ← list? steps (← expect? "then" rest)
    match rest with
    | [] => none
    | token :: rest =>
      match keyword? token with
      | some "fi" => some (.choose test yes .skip, rest)
      | some "else" => do
        let (no, rest) ← list? steps rest
        some (.choose test yes no, ← expect? "fi" rest)
      | some "elif" => do
        let (no, rest) ← condition? steps rest
        some (.choose test yes no, rest)
      | _ => none

/-- The branches of a selection. -/
def branches? : (steps : Nat) → Word → List Token → Option (Command × List Token)
  | 0, _, _ => none
  | steps + 1, subject, tokens =>
    let tokens := skipNewlines tokens
    match expect? "esac" tokens with
    | some rest => some (.skip, rest)
    | none => do
      let tokens := match tokens with
        | .sign '(' :: rest => rest
        | tokens => tokens
      let (patterns, rest) ← patterns? [] tokens
      let (body, rest) ← list? steps rest
      match rest with
      | .sign ';' :: .sign ';' :: rest => do
        let (others, rest) ← branches? steps subject rest
        some (.select subject patterns body others, rest)
      | rest => some (.select subject patterns body .skip, ← expect? "esac" rest)

end

/-- The command that a script is. Every step of the reading takes a token or goes one level into
one of four kinds of lists. -/
def read? (script : String) : Option Command := do
  let tokens ← Token.scan? script
  let (command, rest) ← list? (8 * tokens.length + 8) tokens
  if rest.isEmpty then some command else none

end Command

end ProxyKeeper.Shell
