import ProxyKeeper.Json.Basic
import ProxyKeeper.Text.Decimal

/-!
# Writing JSON

Two layouts of one value: compact, without any space, and indented, two spaces a level with one
item a line. Both escape the quote, the backslash and the control characters, and write every
other character as it is.

## Main Definitions

* `Json.compact`, `Json.indented`: the layouts.
-/

namespace ProxyKeeper.Json

/-- A character inside a string. -/
def escape (c : Char) : List Char :=
  match c with
  | '"' => ['\\', '"']
  | '\\' => ['\\', '\\']
  | '\x08' => ['\\', 'b']
  | '\x0c' => ['\\', 'f']
  | '\n' => ['\\', 'n']
  | '\r' => ['\\', 'r']
  | '\t' => ['\\', 't']
  | c => if c.toNat < 0x20 then '\\' :: 'u' :: Text.hexDigits 4 c.toNat else [c]

/-- A string between its quotes. -/
def quote (s : String) : String :=
  "\"" ++ String.ofList (s.toList.flatMap escape) ++ "\""

/-- A value that has no parts. -/
def scalar : Json → String
  | .null => "null"
  | .bool true => "true"
  | .bool false => "false"
  | .integer n => toString n
  | .decimal literal => literal
  | .string s => quote s
  | .unreadable => "null"
  | .array _ => "[]"
  | .object _ => "\x7b\x7d"

mutual

/-- A value without any space. -/
def compact : Json → String
  | .array (item :: rest) => "[" ++ compact item ++ compactItems rest ++ "]"
  | .object ((key, value) :: rest) =>
    "\x7b" ++ quote key ++ ":" ++ compact value ++ compactMembers rest ++ "\x7d"
  | .array [] => "[]"
  | .object [] => "\x7b\x7d"
  | .null => scalar .null
  | .bool b => scalar (.bool b)
  | .integer n => scalar (.integer n)
  | .decimal s => scalar (.decimal s)
  | .string s => scalar (.string s)
  | .unreadable => scalar .unreadable

/-- The items of an array after the first. -/
def compactItems : List Json → String
  | [] => ""
  | item :: rest => "," ++ compact item ++ compactItems rest

/-- The members of an object after the first. -/
def compactMembers : List (String × Json) → String
  | [] => ""
  | (key, value) :: rest => "," ++ quote key ++ ":" ++ compact value ++ compactMembers rest

end

/-- The beginning of a line at a level of nesting. -/
def newline (level : Nat) : String :=
  "\n" ++ String.ofList (List.replicate (2 * level) ' ')

mutual

/-- A value at a level of nesting, one item a line. -/
def indentedAt (level : Nat) : Json → String
  | .array (item :: rest) =>
    "[" ++ newline (level + 1) ++ indentedAt (level + 1) item ++
      indentedItems (level + 1) rest ++ newline level ++ "]"
  | .object ((key, value) :: rest) =>
    "\x7b" ++ newline (level + 1) ++ quote key ++ ": " ++ indentedAt (level + 1) value ++
      indentedMembers (level + 1) rest ++ newline level ++ "\x7d"
  | .array [] => "[]"
  | .object [] => "\x7b\x7d"
  | .null => scalar .null
  | .bool b => scalar (.bool b)
  | .integer n => scalar (.integer n)
  | .decimal s => scalar (.decimal s)
  | .string s => scalar (.string s)
  | .unreadable => scalar .unreadable

/-- The items of an array after the first. -/
def indentedItems (level : Nat) : List Json → String
  | [] => ""
  | item :: rest => "," ++ newline level ++ indentedAt level item ++ indentedItems level rest

/-- The members of an object after the first. -/
def indentedMembers (level : Nat) : List (String × Json) → String
  | [] => ""
  | (key, value) :: rest =>
    "," ++ newline level ++ quote key ++ ": " ++ indentedAt level value ++
      indentedMembers level rest

end

/-- A value in the indented layout. -/
def indented (value : Json) : String :=
  indentedAt 0 value

end ProxyKeeper.Json
