import ProxyKeeper.Files.Call
import ProxyKeeper.Text.Blank
import ProxyKeeper.Text.Decimal

/-!
# Utilities

The small programs that scripts are made of: they write their arguments or files, or tell whether
something is so.

## Main Definitions

* `Effect`: what a utility writes, its status, and how long it takes.
* `Utility.run?`: the effect of a utility, by its name.
-/

namespace ProxyKeeper.Shell

/-- What a utility does. -/
structure Effect where
  stdout : ByteArray := .empty
  stderr : ByteArray := .empty
  status : Nat := 0
  /-- How long it takes, in milliseconds. -/
  delay : Nat := 0
deriving Inhabited

namespace Utility

/-- A status and nothing else. -/
def ofBool (holds : Bool) : Effect :=
  { status := if holds then 0 else 1 }

/-- The bytes of some characters. -/
def bytesOf (cs : List Char) : ByteArray :=
  (String.ofList cs).toUTF8

/-- The value of octal digits. -/
def octal? (c : Char) : Option Nat :=
  if '0' ≤ c && c ≤ '7' then some (c.toNat - '0'.toNat) else none

/-- The number that up to `count` octal digits write, and the rest. -/
def takeOctal (value : Nat) : (count : Nat) → List Char → Nat × List Char
  | count + 1, c :: cs =>
    match octal? c with
    | some digit => takeOctal (8 * value + digit) count cs
    | none => (value, c :: cs)
  | _, cs => (value, cs)

/-- The byte of a simple escape. -/
def simpleEscape? (c : Char) : Option UInt8 :=
  match c with
  | 'a' => some 7
  | 'b' => some 8
  | 'f' => some 12
  | 'n' => some 10
  | 'r' => some 13
  | 't' => some 9
  | 'v' => some 11
  | '\\' => some 92
  | _ => none

/-- Writes a text with its escapes. In `echo`, octal numbers begin with a zero of their own. Each
step takes a character. -/
def escaped (zero : Bool) : (steps : Nat) → List Char → ByteArray
  | 0, _ => .empty
  | _, [] => .empty
  | steps + 1, '\\' :: c :: cs =>
    match simpleEscape? c with
    | some byte => ⟨#[byte]⟩ ++ escaped zero steps cs
    | none =>
      if zero && c == '0' then
        let (value, rest) := takeOctal 0 3 cs
        ⟨#[UInt8.ofNat value]⟩ ++ escaped zero steps rest
      else if !zero && (octal? c).isSome then
        let (value, rest) := takeOctal 0 3 (c :: cs)
        ⟨#[UInt8.ofNat value]⟩ ++ escaped zero steps rest
      else bytesOf ['\\', c] ++ escaped zero steps cs
  | steps + 1, c :: cs => bytesOf [c] ++ escaped zero steps cs

/-- A text with its escapes. -/
def unescape (zero : Bool) (cs : List Char) : ByteArray :=
  escaped zero (cs.length + 1) cs

/-- Arguments with a space between them. -/
def joined (args : List String) : List Char :=
  (" ".intercalate args).toList

/-- Writes arguments and a line break, with the escapes in them read. -/
def echoEscaped (args : List String) : Effect :=
  match args with
  | "-n" :: args => { stdout := unescape true (joined args) }
  | args => { stdout := unescape true (joined args) ++ bytesOf ['\n'] }

/-- Writes arguments and a line break as they are. -/
def echo (args : List String) : Effect :=
  match args with
  | "-n" :: args => { stdout := bytesOf (joined args) }
  | "-e" :: args => { stdout := unescape true (joined args) ++ bytesOf ['\n'] }
  | "-E" :: args => { stdout := bytesOf (joined args ++ ['\n']) }
  | args => { stdout := bytesOf (joined args ++ ['\n']) }

/-- Writes a format with its escapes and its places for arguments. Each step takes a character. -/
def format : (steps : Nat) → List Char → List String → ByteArray
  | 0, _, _ => .empty
  | _, [], _ => .empty
  | steps + 1, '%' :: '%' :: cs, args => bytesOf ['%'] ++ format steps cs args
  | steps + 1, '%' :: 's' :: cs, args =>
    (args.headD "").toUTF8 ++ format steps cs (args.drop 1)
  | steps + 1, '%' :: 'd' :: cs, args =>
    (args.headD "0").toUTF8 ++ format steps cs (args.drop 1)
  | steps + 1, '%' :: 'b' :: cs, args =>
    unescape true (args.headD "").toList ++ format steps cs (args.drop 1)
  | steps + 1, '\\' :: c :: cs, args =>
    if (octal? c).isSome then
      let (value, rest) := takeOctal 0 3 (c :: cs)
      ⟨#[UInt8.ofNat value]⟩ ++ format steps rest args
    else unescape false ['\\', c] ++ format steps cs args
  | steps + 1, c :: cs, args => bytesOf [c] ++ format steps cs args

/-- Writes a format with arguments. -/
def printf : List String → Effect
  | [] => { stderr := "printf: usage: printf format [arguments]\n".toUTF8, status := 2 }
  | text :: args => { stdout := format (text.toList.length + 1) text.toList args }

/-- Writes files one after another. -/
def catFiles (tree : Tree) : List String → Effect
  | [] => {}
  | "-" :: names => catFiles tree names
  | name :: names =>
    let rest := catFiles tree names
    match tree.read ⟨name⟩ with
    | .ok content => { rest with stdout := content ++ rest.stdout }
    | .error fault =>
      let text := match fault with
        | .os number => IoFault.text number
        | .other text => text
      { rest with
        stderr := ("cat: " ++ name ++ ": " ++ text ++ "\n").toUTF8 ++ rest.stderr, status := 1 }

/-- Refuses an option that a utility does not have. -/
def refuse (name : String) (letter : Char) : Effect :=
  { stderr :=
      bytesOf (name.toList ++ ": invalid option -- '".toList ++ letter :: "'\nTry '".toList ++
        name.toList ++ " --help' for more information.\n".toList)
    status := 1 }

/-- The letters that options of `cat` are made of. -/
def catLetters : List Char :=
  ['A', 'b', 'e', 'E', 'n', 's', 't', 'T', 'u', 'v']

/-- The letters of an argument that holds options. -/
def optionLetters (arg : String) : List Char :=
  match arg.toList with
  | '-' :: letters => letters
  | _ => []

/-- Writes files one after another; an unknown option is refused. The input is empty. -/
def cat (tree : Tree) (args : List String) : Effect :=
  match (args.flatMap optionLetters).find? fun c => !catLetters.contains c with
  | some letter => refuse "cat" letter
  | none => catFiles tree (args.filter fun arg => (optionLetters arg).isEmpty)

/-- Whether there is an entry at a path for which something holds. -/
def entryIs (tree : Tree) (path : String) (holds : Entry → Bool) : Bool :=
  match tree.entryAt ⟨path⟩ with
  | .ok (_, entry) => holds entry
  | .error _ => false

/-- Whether an entry is a file with some content. -/
def isFilled : Entry → Bool
  | .file content => content.size != 0
  | _ => true

/-- Whether an entry is a file. -/
def isFile : Entry → Bool
  | .file _ => true
  | _ => false

/-- Whether a test holds. -/
def holds (tree : Tree) : List String → Bool
  | ["!", a] => a = ""
  | ["!", a, b] => !holds tree [a, b]
  | ["-f", path] => entryIs tree path isFile
  | ["-d", path] => entryIs tree path (· = .directory)
  | ["-e", path] => entryIs tree path fun _ => true
  | ["-s", path] => entryIs tree path isFilled
  | ["-n", text] => text != ""
  | ["-z", text] => text = ""
  | [text] => text != ""
  | [a, "=", b] => a = b
  | [a, "!=", b] => a != b
  | _ => false

/-- A number of seconds, with or without decimals, in milliseconds. -/
def milliseconds? (s : String) : Option Nat :=
  match s.toList.span (· != '.') with
  | (whole, []) => (Text.ofDigits? whole).map (1000 * ·)
  | (whole, _ :: decimals) =>
    match Text.ofDigits? whole, Text.ofDigits? decimals with
    | some whole, some _ =>
      some (1000 * whole + Text.digitsFrom 0 ((decimals ++ ['0', '0', '0']).take 3))
    | _, _ => none

/-- What comes of arguments that say no time to wait, with the letters of the options among them. -/
def sleepRefused (letters : List Char) : Effect :=
  match letters with
  | letter :: _ => refuse "sleep" letter
  | [] => { status := 1 }

/-- Waits. -/
def sleep : List String → Effect
  | [text] =>
    match milliseconds? text with
    | some delay => { delay := delay }
    | none => sleepRefused (optionLetters text)
  | args => sleepRefused (args.flatMap optionLetters)

/-- The effect of a utility; `inShell` tells whether a shell runs it. -/
def run? (tree : Tree) (inShell : Bool) (name : String) (args : List String) : Option Effect :=
  match name with
  | "true" => some {}
  | ":" => if inShell then some {} else none
  | "false" => some { status := 1 }
  | "echo" => some (if inShell then echoEscaped args else echo args)
  | "printf" => some (printf args)
  | "cat" => some (cat tree args)
  | "test" => some (ofBool (holds tree args))
  | "[" =>
    some (if args.getLast? = some "]" then ofBool (holds tree args.dropLast) else { status := 2 })
  | "sleep" => some (sleep args)
  | _ => none

end Utility

end ProxyKeeper.Shell
