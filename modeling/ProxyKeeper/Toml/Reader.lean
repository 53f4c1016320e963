import ProxyKeeper.Toml.Scalar
import ProxyKeeper.Toml.Text
import ProxyKeeper.Toml.Table

/-!
# Reading TOML

The documents of TOML 1.1: a byte order mark may stand in front, inline tables may go over several
lines and end in a comma, times may leave out their seconds.

## Main Definitions

* `key?`: a dotted key.
* `value?`: a value, with containers nested at most `maximalDepth` deep.
* `read?`: the members of a document's root table.
-/

namespace ProxyKeeper.Toml

/-- Spaces and tabs. -/
def isSpace (c : Char) : Bool :=
  c = ' ' || c = '\t'

/-- A text without the spaces and tabs in front. -/
def skipSpaces (cs : List Char) : List Char :=
  cs.dropWhile isSpace

/-- What follows a comment: the line break at its end, or nothing. Control characters other than
the tab are refused. -/
def comment? : List Char → Option (List Char)
  | [] => some []
  | '\n' :: cs => some ('\n' :: cs)
  | '\r' :: '\n' :: cs => some ('\n' :: cs)
  | c :: cs => if isPlain c then comment? cs else none

/-- A text without the spaces, line breaks and comments in front. Every step takes a character. -/
def skipLines? : (steps : Nat) → List Char → Option (List Char)
  | _, [] => some []
  | 0, cs => some cs
  | steps + 1, '\n' :: cs => skipLines? steps cs
  | steps + 1, '\r' :: '\n' :: cs => skipLines? steps cs
  | steps + 1, '#' :: cs => do skipLines? steps (← comment? cs)
  | steps + 1, c :: cs => if isSpace c then skipLines? steps cs else some (c :: cs)

/-- A text without the spaces, line breaks and comments in front. -/
def skipBlank? (cs : List Char) : Option (List Char) :=
  skipLines? cs.length cs

/-- The end of a line: spaces, an optional comment, and a line break or the end of the text. -/
def endOfLine? (cs : List Char) : Option (List Char) :=
  let atBreak : List Char → Option (List Char)
    | [] => some []
    | '\n' :: cs => some cs
    | '\r' :: '\n' :: cs => some cs
    | _ => none
  match skipSpaces cs with
  | '#' :: cs => do atBreak (← comment? cs)
  | cs => atBreak cs

/-- The characters of an unquoted key. -/
def isBare (c : Char) : Bool :=
  ('a' ≤ c && c ≤ 'z') || ('A' ≤ c && c ≤ 'Z') || ('0' ≤ c && c ≤ '9') || c = '_' || c = '-'

/-- One key, quoted or not. -/
def simpleKey? : List Char → Option (String × List Char)
  | '"' :: cs => if cs.take 2 = ['"', '"'] then none else basic? cs
  | '\'' :: cs => if cs.take 2 = ['\'', '\''] then none else literal? cs
  | cs =>
    let bare := cs.takeWhile isBare
    if bare.isEmpty then none else some (String.ofList bare, cs.dropWhile isBare)

/-- A dotted key, with the keys read so far reversed in `done`. -/
def keyFrom? (done : List String) : (steps : Nat) → List Char → Option (List String × List Char)
  | 0, _ => none
  | steps + 1, cs => do
    let (key, cs) ← simpleKey? (skipSpaces cs)
    match skipSpaces cs with
    | '.' :: cs => keyFrom? (key :: done) steps cs
    | cs => some ((key :: done).reverse, cs)

/-- A dotted key: the keys before its last dot, the last key, and what follows. -/
def key? (cs : List Char) : Option (List String × String × List Char) := do
  let (keys, cs) ← keyFrom? [] (cs.length + 1) cs
  some (keys.dropLast, ← keys.getLast?, cs)

/-- How deep arrays and inline tables may nest. -/
def maximalDepth : Nat := 80

/-- The characters of an unquoted scalar. -/
def isWordCharacter (c : Char) : Bool :=
  isBare c || c = '+' || c = '.' || c = ':'

/-- A run of the characters of an unquoted scalar. A date takes in a space before a time. -/
def word (cs : List Char) : List Char × List Char :=
  let run := cs.takeWhile isWordCharacter
  match date? run, cs.dropWhile isWordCharacter with
  | some [], ' ' :: c :: cs =>
    if Text.isDigit c then
      (run ++ ' ' :: (c :: cs).takeWhile isWordCharacter, (c :: cs).dropWhile isWordCharacter)
    else (run, ' ' :: c :: cs)
  | _, rest => (run, rest)

/-- The items of an array after its opening bracket, given how to read one item. -/
def itemsFrom? (item : List Char → Option (Value × List Char)) (done : List Value) :
    (steps : Nat) → List Char → Option (Value × List Char)
  | 0, _ => none
  | steps + 1, cs => do
    match ← skipBlank? cs with
    | ']' :: cs => some (.array done.reverse, cs)
    | cs =>
      let (value, cs) ← item cs
      match ← skipBlank? cs with
      | ',' :: cs => itemsFrom? item (value :: done) steps cs
      | ']' :: cs => some (.array (value :: done).reverse, cs)
      | _ => none

/-- The members of an inline table after its opening brace, given how to read a value. -/
def membersFrom? (item : List Char → Option (Value × List Char)) (done : Members) :
    (steps : Nat) → List Char → Option (Value × List Char)
  | 0, _ => none
  | steps + 1, cs => do
    match ← skipBlank? cs with
    | '}' :: cs => some (.table (toMembers done), cs)
    | cs =>
      let (path, key, cs) ← key? cs
      match cs with
      | '=' :: cs =>
        let (value, cs) ← item (skipSpaces cs)
        let done ← putValue path.isEmpty key value path .header done
        match ← skipBlank? cs with
        | ',' :: cs => membersFrom? item done steps cs
        | '}' :: cs => some (.table (toMembers done), cs)
        | _ => none
      | _ => none

/-- A value without parts. -/
def plainValue? : List Char → Option (Value × List Char)
  | '"' :: '"' :: '"' :: cs => do let (s, cs) ← basicLines? cs; some (.string s, cs)
  | '"' :: cs => do let (s, cs) ← basic? cs; some (.string s, cs)
  | '\'' :: '\'' :: '\'' :: cs => do let (s, cs) ← literalLines? cs; some (.string s, cs)
  | '\'' :: cs => do let (s, cs) ← literal? cs; some (.string s, cs)
  | cs => do let (run, cs) := word cs; some (← Value.ofWord? run, cs)

/-- A value with containers nested at most `depth` deep. -/
def value? : (depth : Nat) → List Char → Option (Value × List Char)
  | 0, '[' :: _ => none
  | 0, '{' :: _ => none
  | depth + 1, '[' :: cs => itemsFrom? (value? depth) [] (cs.length + 1) cs
  | depth + 1, '{' :: cs => membersFrom? (value? depth) [] (cs.length + 1) cs
  | _, cs => plainValue? cs

/-- A document part way through: the path of the table under the last header, and the root. -/
structure Draft where
  path : List String
  root : Members

/-- Takes a header after its first bracket. -/
def Draft.header? (draft : Draft) : List Char → Option (Draft × List Char)
  | '[' :: cs => do
    let (path, key, cs) ← key? cs
    match cs with
    | ']' :: ']' :: cs =>
      let root ← changeAt (fun _ => openElement key) path .header draft.root
      some (⟨path ++ [key], root⟩, ← endOfLine? cs)
    | _ => none
  | cs => do
    let (path, key, cs) ← key? cs
    match cs with
    | ']' :: cs =>
      let root ← changeAt (fun _ => openTable key) path .header draft.root
      some (⟨path ++ [key], root⟩, ← endOfLine? cs)
    | _ => none

/-- Takes a key with its value. -/
def Draft.member? (draft : Draft) (cs : List Char) : Option (Draft × List Char) := do
  let (path, key, cs) ← key? cs
  match cs with
  | '=' :: cs =>
    let (value, cs) ← value? maximalDepth (skipSpaces cs)
    let root ← changeAt (putValue path.isEmpty key value path) draft.path .header draft.root
    some (⟨draft.path, root⟩, ← endOfLine? cs)
  | _ => none

/-- Takes the rest of a document. Every step takes a character. -/
def Draft.finish? (draft : Draft) : (steps : Nat) → List Char → Option Members
  | 0, cs => if cs.isEmpty then some draft.root else none
  | steps + 1, cs => do
    match ← skipBlank? cs with
    | [] => some draft.root
    | '[' :: cs =>
      let (draft, cs) ← draft.header? cs
      draft.finish? steps cs
    | cs =>
      let (draft, cs) ← draft.member? cs
      draft.finish? steps cs

/-- The members of the root table of a document. -/
def read? (s : String) : Option (List (String × Value)) :=
  let cs := match s.toList with
    | '\uFEFF' :: cs => cs
    | cs => cs
  ((Draft.mk [] []).finish? cs.length cs).map toMembers

end ProxyKeeper.Toml
