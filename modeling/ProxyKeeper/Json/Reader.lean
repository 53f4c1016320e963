import ProxyKeeper.Json.Basic
import ProxyKeeper.Text.Decimal

/-!
# Reading JSON

The strict grammar: no byte order mark, no comments, no trailing commas, no raw control characters
in strings, nothing after the value.

A text is cut into tokens, and the tokens are consumed one by one by a machine that holds the open
containers in a list, so nesting of any depth is read without recursion.

## Main Definitions

* `Token`, `Token.scan?`: the lexical level.
* `Progress`, `Progress.step`: the machine.
* `Json.read?`: the value a text writes.
-/

namespace ProxyKeeper.Json

open Text (isDigit digitsFrom hexValue?)

/-- The words of the grammar. -/
inductive Token where
  | openArray | closeArray | openObject | closeObject | colon | comma
  | null | bool (value : Bool)
  | integer (value : Int)
  | decimal (literal : String)
  /-- A string; `none` when it holds half of a surrogate pair. -/
  | string (text : Option String)

/-- The four hexadecimal digits of a `\u` escape. -/
def codeUnit? (a b c d : Char) : Option Nat :=
  match hexValue? a, hexValue? b, hexValue? c, hexValue? d with
  | some a, some b, some c, some d => some (((a * 16 + b) * 16 + c) * 16 + d)
  | _, _, _, _ => none

/-- The character of a simple escape. -/
def simpleEscape? : Char → Option Char
  | '"' => some '"'
  | '\\' => some '\\'
  | '/' => some '/'
  | 'b' => some '\x08'
  | 'f' => some '\x0c'
  | 'n' => some '\n'
  | 'r' => some '\r'
  | 't' => some '\t'
  | _ => none

/-- What precedes the next code unit of a string: the characters so far, last first, whether half
a pair was met, and a first half that waits for its second. -/
structure StringState where
  done : List Char
  broken : Bool
  high : Option Nat

/-- The string so far, with a waiting half counted as broken. -/
def StringState.settle (s : StringState) : StringState :=
  if s.high.isSome then ⟨s.done, true, none⟩ else s

/-- The string with one more character. -/
def StringState.push (s : StringState) (c : Char) : StringState :=
  let s := s.settle
  { s with done := c :: s.done }

/-- The string with one more code unit from a `\u` escape. -/
def StringState.pushUnit (s : StringState) (unit : Nat) : StringState :=
  if 0xDC00 ≤ unit && unit ≤ 0xDFFF then
    match s.high with
    | some high =>
      { s with
        done := Char.ofNat (0x10000 + (high - 0xD800) * 0x400 + (unit - 0xDC00)) :: s.done
        high := none }
    | none => { s with broken := true }
  else
    let s := s.settle
    if 0xD800 ≤ unit && unit ≤ 0xDBFF then { s with high := some unit }
    else { s with done := Char.ofNat unit :: s.done }

/-- The text of a finished string. -/
def StringState.text (s : StringState) : Option String :=
  let s := s.settle
  if s.broken then none else some (String.ofList s.done.reverse)

/-- Reads a string after its opening quote. -/
def stringBody? (s : StringState) : List Char → Option (Option String × List Char)
  | [] => none
  | '"' :: cs => some (s.text, cs)
  | '\\' :: 'u' :: a :: b :: c :: d :: cs =>
    match codeUnit? a b c d with
    | some unit => stringBody? (s.pushUnit unit) cs
    | none => none
  | '\\' :: e :: cs =>
    match simpleEscape? e with
    | some c => stringBody? (s.push c) cs
    | none => none
  | c :: cs => if c.toNat < 0x20 || c = '\\' then none else stringBody? (s.push c) cs

/-- A run of digits and what follows it. -/
def digits (cs : List Char) : List Char × List Char :=
  (cs.takeWhile isDigit, cs.dropWhile isDigit)

/-- The integer part of a number: one digit, or several that do not begin with zero. -/
def integerPart? : List Char → Option (List Char × List Char)
  | '0' :: cs => some (['0'], cs)
  | cs =>
    let (ds, rest) := digits cs
    if ds.isEmpty then none else some (ds, rest)

/-- The fraction of a number, empty when it has none. -/
def fraction? : List Char → Option (List Char × List Char)
  | '.' :: cs =>
    let (ds, rest) := digits cs
    if ds.isEmpty then none else some ('.' :: ds, rest)
  | cs => some ([], cs)

/-- The exponent of a number, empty when it has none. -/
def exponent? : List Char → Option (List Char × List Char)
  | [] => some ([], [])
  | c :: cs =>
    if c = 'e' || c = 'E' then
      let (sign, cs) := match cs with
        | '+' :: cs => (['+'], cs)
        | '-' :: cs => (['-'], cs)
        | cs => ([], cs)
      let (ds, rest) := digits cs
      if ds.isEmpty then none else some (c :: (sign ++ ds), rest)
    else some ([], c :: cs)

/-- The token of a number given by its parts. Minus zero and numbers beyond 64 bits are kept as
written, like those with a fraction or an exponent. -/
def numberToken (negative : Bool) (whole fraction exponent : List Char) : Token :=
  let literal := (if negative then ['-'] else []) ++ whole ++ fraction ++ exponent
  let n := digitsFrom 0 whole
  if fraction.isEmpty && exponent.isEmpty then
    if negative then
      if 0 < n && n ≤ Text.largestOfBits 63 + 1 then .integer (-(n : Int)) else .decimal (String.ofList literal)
    else if n ≤ Text.largestOfBits 64 then .integer n
    else .decimal (String.ofList literal)
  else .decimal (String.ofList literal)

/-- Reads a number. -/
def number? (cs : List Char) : Option (Token × List Char) := do
  let (negative, cs) := match cs with
    | '-' :: cs => (true, cs)
    | cs => (false, cs)
  let (whole, cs) ← integerPart? cs
  let (fraction, cs) ← fraction? cs
  let (exponent, cs) ← exponent? cs
  some (numberToken negative whole fraction exponent, cs)

/-- Reads one token that begins at the given character. -/
def token? : List Char → Option (Token × List Char)
  | [] => none
  | '[' :: cs => some (.openArray, cs)
  | ']' :: cs => some (.closeArray, cs)
  | '{' :: cs => some (.openObject, cs)
  | '}' :: cs => some (.closeObject, cs)
  | ':' :: cs => some (.colon, cs)
  | ',' :: cs => some (.comma, cs)
  | 'n' :: 'u' :: 'l' :: 'l' :: cs => some (.null, cs)
  | 't' :: 'r' :: 'u' :: 'e' :: cs => some (.bool true, cs)
  | 'f' :: 'a' :: 'l' :: 's' :: 'e' :: cs => some (.bool false, cs)
  | '"' :: cs => (stringBody? ⟨[], false, none⟩ cs).map fun (text, rest) => (.string text, rest)
  | cs => number? cs

/-- The characters between tokens. -/
def isSpace (c : Char) : Bool :=
  c = ' ' || c = '\t' || c = '\n' || c = '\r'

/-- Cuts a text into tokens, with those found so far reversed in `done`. A token takes at least
one character, so as many steps as there are characters are enough. -/
def scanFrom (done : List Token) : (steps : Nat) → List Char → Option (List Token)
  | _, [] => some done.reverse
  | 0, _ :: _ => none
  | steps + 1, c :: cs =>
    if isSpace c then scanFrom done steps cs
    else match token? (c :: cs) with
      | some (t, rest) => scanFrom (t :: done) steps rest
      | none => none

/-- The tokens of a text. -/
def scan? (cs : List Char) : Option (List Token) :=
  scanFrom [] cs.length cs

/-- A container that waits for one more value, with what it holds so far, last first. Its keys are
`none` where they are no text. -/
inductive Frame where
  | item (done : List Json)
  | member (done : List (Option String × Json)) (key : Option String)

/-- A container between two values. -/
inductive Container where
  | items (done : List Json)
  | members (done : List (Option String × Json))

/-- The container after the value it waits for. -/
def Frame.fill (value : Json) : Frame → Container
  | .item done => .items (value :: done)
  | .member done key => .members ((key, value) :: done)

/-- The object with the given members, last first. -/
def ofMembers (done : List (Option String × Json)) : Json :=
  match done.reverse.mapM (fun (key, value) => key.map (·, value)) with
  | some members => .object members
  | none => .unreadable

/-- How far the reading has come: what may follow, and the containers still open. -/
inductive Progress where
  | value (outer : List Frame)
  | firstItem (outer : List Frame)
  | firstKey (outer : List Frame)
  | key (done : List (Option String × Json)) (outer : List Frame)
  | colon (done : List (Option String × Json)) (key : Option String) (outer : List Frame)
  | more (container : Container) (outer : List Frame)
  | whole (value : Json)
  | refused

/-- A value is complete: it goes into the innermost open container. -/
def Progress.deliver (value : Json) : List Frame → Progress
  | [] => .whole value
  | frame :: outer => .more (frame.fill value) outer

/-- A token where a value must begin. -/
def Progress.begin (outer : List Frame) : Token → Progress
  | .openArray => .firstItem outer
  | .openObject => .firstKey outer
  | .null => .deliver .null outer
  | .bool b => .deliver (.bool b) outer
  | .integer n => .deliver (.integer n) outer
  | .decimal s => .deliver (.decimal s) outer
  | .string (some s) => .deliver (.string s) outer
  | .string none => .deliver .unreadable outer
  | _ => .refused

/-- Takes one token. -/
def Progress.step : Progress → Token → Progress
  | .value outer, t => .begin outer t
  | .firstItem outer, .closeArray => .deliver (.array []) outer
  | .firstItem outer, t => .begin (.item [] :: outer) t
  | .firstKey outer, .closeObject => .deliver (.object []) outer
  | .firstKey outer, .string k => .colon [] k outer
  | .key done outer, .string k => .colon done k outer
  | .colon done k outer, .colon => .value (.member done k :: outer)
  | .more (.items done) outer, .comma => .value (.item done :: outer)
  | .more (.items done) outer, .closeArray => .deliver (.array done.reverse) outer
  | .more (.members done) outer, .comma => .key done outer
  | .more (.members done) outer, .closeObject => .deliver (ofMembers done) outer
  | _, _ => .refused

/-- The value that a text writes. -/
def read? (s : String) : Option Json := do
  let tokens ← scan? s.toList
  match tokens.foldl Progress.step (.value []) with
  | .whole value => some value
  | _ => none

end ProxyKeeper.Json
