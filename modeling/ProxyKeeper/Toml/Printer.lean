import ProxyKeeper.Text.Decimal
import ProxyKeeper.Toml.Basic

/-!
# Writing TOML

A document for people to read: a line for each entry, a line for each item of an array, and a
section with a header for each table. Of the four kinds of strings, each text is written in the
first one that shows it plainly; only a text that none can show is written with escapes.

## Main Definitions

* `Shape`: what of a text matters for the choice of its quotes.
* `Quotes`, `Quotes.choose`: the kinds of strings and the choice among them.
* `Value.write`: a value.
* `write`: a document.
-/

namespace ProxyKeeper.Toml

/-- What of a text matters for the choice of its quotes. -/
structure Shape where
  /-- Control characters other than tabs and line breaks. -/
  hasControls : Bool
  hasBackslash : Bool
  hasNewline : Bool
  /-- The length of the longest run of single quotes. -/
  singleRun : Nat
  /-- The length of the longest run of double quotes. -/
  doubleRun : Nat

/-- The length of the longest run of a character, after `run` of them, where `longest` is the
longest run before. -/
def longestRun (quote : Char) (longest run : Nat) : List Char → Nat
  | [] => longest
  | c :: cs =>
    if c = quote then longestRun quote (max longest (run + 1)) (run + 1) cs
    else longestRun quote longest 0 cs

/-- Characters that are written with an escape wherever they stand. -/
def isControl (c : Char) : Bool :=
  c != '\t' && c != '\n' && (c.toNat < 0x20 || c.toNat = 0x7f)

/-- The shape of a text. -/
def Shape.of (cs : List Char) : Shape where
  hasControls := cs.any isControl
  hasBackslash := cs.contains '\\'
  hasNewline := cs.contains '\n'
  singleRun := longestRun '\'' 0 0 cs
  doubleRun := longestRun '"' 0 0 cs

/-- The kinds of strings. -/
inductive Quotes where
  /-- Double quotes, with escapes. -/
  | basic
  /-- Single quotes, without escapes. -/
  | literal
  /-- Three double quotes, with escapes but for line breaks. -/
  | longBasic
  /-- Three single quotes, without escapes. -/
  | longLiteral
deriving DecidableEq

namespace Quotes

/-- The kind in which a text is written. -/
def choose (shape : Shape) : Quotes :=
  let plain := !shape.hasControls
  if plain && !shape.hasBackslash && shape.doubleRun = 0 && !shape.hasNewline then .basic
  else if plain && shape.singleRun = 0 && !shape.hasNewline then .literal
  else if plain && !shape.hasBackslash && shape.doubleRun ≤ 2 then .longBasic
  else if plain && shape.singleRun ≤ 2 then .longLiteral
  else if shape.hasNewline then .longBasic
  else .basic

/-- What stands in front of the text. -/
def opening : Quotes → List Char
  | basic => ['"']
  | literal => ['\'']
  | longBasic => ['"', '"', '"', '\n']
  | longLiteral => ['\'', '\'', '\'', '\n']

/-- What stands behind the text. -/
def closing : Quotes → List Char
  | basic => ['"']
  | literal => ['\'']
  | longBasic => ['"', '"', '"']
  | longLiteral => ['\'', '\'', '\'']

end Quotes

/-- A character other than a double quote in a string with escapes; `long` says whether the string
has three quotes. -/
def escape (long : Bool) (c : Char) : List Char :=
  match c with
  | '\x08' => ['\\', 'b']
  | '\t' => ['\\', 't']
  | '\n' => if long then ['\n'] else ['\\', 'n']
  | '\x0c' => ['\\', 'f']
  | '\r' => ['\\', 'r']
  | '\\' => ['\\', '\\']
  | c =>
    if isControl c then '\\' :: 'u' :: (Text.hexDigits 4 c.toNat).map Char.toUpper else [c]

/-- A text with escapes, after `run` double quotes in a row. With three quotes around the text, two
in a row need no escape. -/
def escaped (long : Bool) (run : Nat) : List Char → List Char
  | [] => []
  | c :: cs =>
    if c = '"' then
      if long && run < 2 then '"' :: escaped long (run + 1) cs
      else '\\' :: '"' :: escaped long 0 cs
    else escape long c ++ escaped long 0 cs

/-- A text between quotes of a kind. -/
def quoted (quotes : Quotes) (cs : List Char) : List Char :=
  let content := match quotes with
    | .basic => escaped false 0 cs
    | .longBasic => escaped true 0 cs
    | .literal => cs
    | .longLiteral => cs
  quotes.opening ++ content ++ quotes.closing

/-- A text as a string. -/
def quote (s : String) : String :=
  String.ofList (quoted (.choose (.of s.toList)) s.toList)

/-- The characters of keys that need no quotes. -/
def isBareKeyCharacter (c : Char) : Bool :=
  c.isAlphanum || c == '-' || c == '_'

/-- A key. -/
def key (name : String) : String :=
  if !name.isEmpty && name.toList.all isBareKeyCharacter then name else quote name

mutual

/-- A value on the line of its key. -/
def Value.inline : Value → String
  | .string s => quote s
  | .integer n => toString n
  | .float literal => literal
  | .boolean b => toString b
  | .dateTime literal => literal
  | .array items => "[" ++ ", ".intercalate (inlineItems items) ++ "]"
  | .table members => "\x7b " ++ ", ".intercalate (inlineMembers members) ++ " \x7d"

/-- Values on the line of their key. -/
def inlineItems : List Value → List String
  | [] => []
  | item :: items => item.inline :: inlineItems items

/-- Entries on the line of their table's key. -/
def inlineMembers : List (String × Value) → List String
  | [] => []
  | (name, value) :: members =>
    (key name ++ " = " ++ value.inline) :: inlineMembers members

end

/-- A value after its key; the items of an array have lines of their own. -/
def Value.write : Value → String
  | .array [] => "[]"
  | .array items =>
    "[\n" ++ String.join ((inlineItems items).map fun item => "    " ++ item ++ ",\n") ++ "]"
  | value => value.inline

/-- The lines of the entries that are not tables. -/
def lines : List (String × Value) → String
  | [] => ""
  | (_, .table _) :: members => lines members
  | (name, value) :: members => key name ++ " = " ++ value.write ++ "\n" ++ lines members

/-- The header of the table at a path. -/
def header (path : List String) : String :=
  "[" ++ ".".intercalate (path.map key) ++ "]\n"

/-- The sections of the tables among some entries, and of the tables in them. -/
def sections (path : List String) : List (String × Value) → List String
  | [] => []
  | (name, .table members) :: rest =>
    (header (path ++ [name]) ++ lines members) ::
      (sections (path ++ [name]) members ++ sections path rest)
  | _ :: rest => sections path rest

/-- A document with some entries: first those that are not tables, then a section for each table,
with an empty line between them. -/
def write (members : List (String × Value)) : String :=
  let top := lines members
  "\n".intercalate ((if top.isEmpty then [] else [top]) ++ sections [] members)

end ProxyKeeper.Toml
