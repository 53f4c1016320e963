import ProxyKeeper.Host.Command
import ProxyKeeper.Host.Utility

/-!
# Running scripts

The state of a shell while it runs a script, and what each command does to it. A shell that has
ended, or has run out of time, does nothing more.

## Main Definitions

* `Machine`: the state.
* `Machine.expand`: the words of a command with the values of their parameters.
* `Machine.run`: a command.
-/

namespace ProxyKeeper.Shell

/-- How a shell ends before its script does. -/
inductive Ending where
  | exit (status : Nat)
  | signal (number : Nat)
deriving DecidableEq, Inhabited

/-- The state of a shell. -/
structure Machine where
  tree : Tree
  /-- The name of the script. -/
  name : String
  args : List String
  stdout : ByteArray := .empty
  stderr : ByteArray := .empty
  /-- The status of the last command. -/
  status : Nat := 0
  /-- How much time is left, in milliseconds. -/
  left : Nat
  overdue : Bool := false
  ended : Option Ending := none
deriving Inhabited

namespace Machine

/-- The number that stands for the process of the shell. -/
def processNumber : String := "1"

/-- Whether the shell does nothing more. -/
def isOver (machine : Machine) : Bool :=
  machine.overdue || machine.ended.isSome

/-- The values of a parameter, one text each. -/
def values (machine : Machine) : Parameter → List String
  | .position 0 => [machine.name]
  | .position (n + 1) => machine.args[n]?.toList
  | .all => machine.args
  | .each => machine.args
  | .count => [toString machine.args.length]
  | .status => [toString machine.status]
  | .process => [processNumber]
  | .variable _ => []

/-- Words under way: those that are complete, last first, and the one at hand. -/
structure Fields where
  done : List String := []
  current : Option String := none

/-- The word at hand with a text at its end. -/
def Fields.append (fields : Fields) (text : String) : Fields :=
  { fields with current := some (fields.current.getD "" ++ text) }

/-- Texts that are words of their own, but for the ends, which join the words around them. -/
def Fields.spread (fields : Fields) : List String → Fields
  | [] => fields
  | [text] => fields.append text
  | text :: texts =>
    let fields := fields.append text
    Fields.spread ⟨fields.current.toList ++ fields.done, none⟩ texts

/-- The words of a text. -/
def wordsOf (text : String) : List String :=
  (Text.words text.toList).map String.ofList

/-- The words with one more piece. -/
def addPiece (machine : Machine) (fields : Fields) : Piece → Fields
  | .quotes => fields.append ""
  | .char c _ => fields.append (String.ofList [c])
  | .parameter .each true => fields.spread machine.args
  | .parameter parameter true => fields.append (" ".intercalate (machine.values parameter))
  | .parameter parameter false => fields.spread ((machine.values parameter).flatMap wordsOf)

/-- The words that a word of the script stands for. -/
def expand (machine : Machine) (word : Word) : List String :=
  let fields := word.foldl machine.addPiece {}
  (fields.current.toList ++ fields.done).reverse

/-- A word of the script as one text. -/
def expandWhole (machine : Machine) (word : Word) : String :=
  " ".intercalate (machine.expand word)

/-- A pattern: characters, and marks for any text and any character. -/
inductive Mark where
  | char (c : Char)
  | anyText
  | anyChar
deriving DecidableEq, Inhabited

/-- The marks of a piece of a pattern. -/
def marksOf (machine : Machine) : Piece → List Mark
  | .quotes => []
  | .char '*' false => [.anyText]
  | .char '?' false => [.anyChar]
  | .char c _ => [.char c]
  | .parameter parameter _ =>
    (" ".intercalate (machine.values parameter)).toList.map .char

/-- Whether a text has the form of a pattern. Each step takes a mark or a character. -/
def matchesMarks : (steps : Nat) → List Mark → List Char → Bool
  | _, [], cs => cs.isEmpty
  | 0, _ :: _, _ => false
  | steps + 1, .anyText :: marks, cs =>
    matchesMarks steps marks cs ||
      match cs with
      | [] => false
      | _ :: rest => matchesMarks steps (.anyText :: marks) rest
  | steps + 1, .anyChar :: marks, _ :: cs => matchesMarks steps marks cs
  | steps + 1, .char m :: marks, c :: cs => m == c && matchesMarks steps marks cs
  | _ + 1, _ :: _, [] => false

/-- Whether a text has the form of a word of the script. -/
def matchesPattern (machine : Machine) (text : String) (pattern : Word) : Bool :=
  let marks := pattern.flatMap machine.marksOf
  matchesMarks (marks.length + text.length + 1) marks text.toList

/-- Where an output goes. -/
inductive Sink where
  | stdout
  | stderr
  | file (path : Path)
deriving DecidableEq, Inhabited

/-- Where the two outputs go. -/
structure Sinks where
  out : Sink := .stdout
  err : Sink := .stderr
deriving Inhabited

/-- Where an output goes, by its number. -/
def Sinks.get (sinks : Sinks) (number : Nat) : Sink :=
  if number = 2 then sinks.err else sinks.out

/-- Sends an output elsewhere. -/
def Sinks.set (sinks : Sinks) (number : Nat) (sink : Sink) : Sinks :=
  if number = 2 then { sinks with err := sink } else { sinks with out := sink }

/-- Adds to a file, which is made if it is missing. -/
def appendFile (tree : Tree) (path : Path) (content : ByteArray) : Except IoFault Tree :=
  match tree.read path with
  | .ok before => tree.write path (before ++ content)
  | .error _ => tree.write path content

/-- Writes to where an output goes. -/
def emit (machine : Machine) (sink : Sink) (content : ByteArray) : Machine :=
  match sink with
  | .stdout => { machine with stdout := machine.stdout ++ content }
  | .stderr => { machine with stderr := machine.stderr ++ content }
  | .file path =>
    match appendFile machine.tree path content with
    | .ok tree => { machine with tree := tree }
    | .error _ => machine

/-- What the shell says of a failure. -/
def complain (machine : Machine) (status : Nat) (text : String) : Machine :=
  { machine with
    stderr := machine.stderr ++ (machine.name ++ ": 1: " ++ text ++ "\n").toUTF8
    status := status }

/-- Follows the redirections of a command; none of them may fail. -/
def redirect (machine : Machine) (sinks : Sinks) :
    List Redirection → Machine × Option Sinks
  | [] => (machine, some sinks)
  | ⟨number, .output other⟩ :: rest =>
    machine.redirect (sinks.set number (sinks.get other)) rest
  | ⟨number, .file name append⟩ :: rest =>
    let path : Path := ⟨machine.expandWhole name⟩
    let made := if append then appendFile machine.tree path .empty
      else machine.tree.write path .empty
    match made with
    | .ok tree => { machine with tree := tree }.redirect (sinks.set number (.file path)) rest
    | .error _ =>
      (machine.complain 2 ("cannot create " ++ path.text ++ ": " ++
        (if machine.tree.isDirectory path then "Is a directory" else "Directory nonexistent")), none)
  | ⟨_, .input name⟩ :: rest =>
    let path : Path := ⟨machine.expandWhole name⟩
    match machine.tree.read path with
    | .ok _ => machine.redirect sinks rest
    | .error _ => (machine.complain 2 ("cannot open " ++ path.text ++ ": No such file"), none)

/-- The number of a signal, by the argument that names it. -/
def signalOf? : List String → Option Nat
  | [process] => if process = processNumber then some 15 else none
  | [option, process] =>
    if process = processNumber then
      match option with
      | "-9" => some 9
      | "-KILL" => some 9
      | "-15" => some 15
      | "-TERM" => some 15
      | "-1" => some 1
      | "-HUP" => some 1
      | "-2" => some 2
      | "-INT" => some 2
      | _ => none
    else none
  | _ => none

/-- Runs a program with its outputs sent where they go. -/
def perform (machine : Machine) (sinks : Sinks) (name : String) (args : List String) : Machine :=
  if name = "exit" then
    match args with
    | [] => { machine with ended := some (.exit machine.status) }
    | code :: _ =>
      { machine with ended := some (.exit ((Text.ofDigits? code.toList).getD 2 % 256)) }
  else if name = "kill" then
    match signalOf? args with
    | some number => { machine with ended := some (.signal number) }
    | none => { machine with status := 1 }
  else match Utility.run? machine.tree true name args with
    | none =>
      machine.emit sinks.err (machine.name ++ ": 1: " ++ name ++ ": not found\n").toUTF8
        |> fun machine => { machine with status := 127 }
    | some effect =>
      if machine.left < effect.delay then { machine with overdue := true }
      else
        let machine := { machine with left := machine.left - effect.delay }
        let machine := (machine.emit sinks.out effect.stdout).emit sinks.err effect.stderr
        { machine with status := effect.status }

/-- Runs a simple command. -/
def runSimple (machine : Machine) (words : List Word) (redirections : List Redirection) :
    Machine :=
  match machine.redirect {} redirections with
  | (machine, none) => machine
  | (machine, some sinks) =>
    match words.flatMap machine.expand with
    | [] => { machine with status := 0 }
    | name :: args => machine.perform sinks name args

/-- Runs a command. -/
def run (machine : Machine) (command : Command) : Machine :=
  if machine.isOver then machine
  else match command with
    | .skip => machine
    | .simple words redirections => machine.runSimple words redirections
    | .sequence first second => (machine.run first).run second
    | .both first second =>
      let machine := machine.run first
      if machine.status = 0 then machine.run second else machine
    | .either first second =>
      let machine := machine.run first
      if machine.status = 0 then machine else machine.run second
    | .negate command =>
      let machine := machine.run command
      { machine with status := if machine.status = 0 then 1 else 0 }
    | .choose test yes no =>
      let machine := machine.run test
      if machine.status = 0 then machine.run yes
      else { machine with status := 0 }.run no
    | .select subject patterns body rest =>
      if patterns.any (machine.matchesPattern (machine.expandWhole subject)) then
        { machine with status := 0 }.run body
      else { machine with status := 0 }.run rest

/-- Runs a script. -/
def runScript (machine : Machine) (script : String) : Machine :=
  match Command.read? script with
  | some command => machine.run command
  | none => machine.complain 2 "Syntax error"

end Machine

end ProxyKeeper.Shell
