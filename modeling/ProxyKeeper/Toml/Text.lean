import ProxyKeeper.Text.Decimal

/-!
# Quoted TOML strings

The four forms of a string: basic and literal, each on one line or over several. Basic strings
have escapes; literal strings are taken as they are. A string over several lines drops a line
break right after its opening quotes, and may hold up to two of its quotes in a row.

## Main Definitions

* `basic?`, `literal?`: the forms on one line, after the opening quote.
* `basicLines?`, `literalLines?`: the forms over several lines, after the opening quotes.
-/

namespace ProxyKeeper.Toml

open Text (hexValue?)

/-- The characters that may stand in a string as they are, quotes and escapes apart. -/
def isPlain (c : Char) : Bool :=
  c = '\t' || (0x20 ≤ c.toNat && c.toNat ≠ 0x7F)

/-- The number written by a given count of hexadecimal digits, and what follows them. -/
def hexNumber? (count : Nat) (value : Nat) : List Char → Option (Nat × List Char)
  | cs =>
    match count, cs with
    | 0, cs => some (value, cs)
    | _ + 1, [] => none
    | count + 1, c :: cs =>
      match hexValue? c with
      | some d => hexNumber? count (16 * value + d) cs
      | none => none

/-- The character with a number, surrogates and larger numbers refused. -/
def scalar? (n : Nat) : Option Char :=
  if n < 0xD800 || (0xDFFF < n && n < 0x110000) then some (Char.ofNat n) else none

/-- The character of an escape, after the backslash. -/
def escape? : List Char → Option (Char × List Char)
  | 'b' :: cs => some ('\x08', cs)
  | 't' :: cs => some ('\t', cs)
  | 'n' :: cs => some ('\n', cs)
  | 'f' :: cs => some ('\x0c', cs)
  | 'r' :: cs => some ('\r', cs)
  | 'e' :: cs => some ('\x1b', cs)
  | '"' :: cs => some ('"', cs)
  | '\\' :: cs => some ('\\', cs)
  | 'x' :: cs => do let (n, cs) ← hexNumber? 2 0 cs; some (← scalar? n, cs)
  | 'u' :: cs => do let (n, cs) ← hexNumber? 4 0 cs; some (← scalar? n, cs)
  | 'U' :: cs => do let (n, cs) ← hexNumber? 8 0 cs; some (← scalar? n, cs)
  | _ => none

/-- A basic string on one line, after its quote. Every step takes a character. -/
def basicFrom (done : List Char) : (steps : Nat) → List Char → Option (String × List Char)
  | 0, _ => none
  | _, [] => none
  | _ + 1, '"' :: cs => some (String.ofList done.reverse, cs)
  | steps + 1, '\\' :: cs => do
    let (c, cs) ← escape? cs
    basicFrom (c :: done) steps cs
  | steps + 1, c :: cs => if isPlain c then basicFrom (c :: done) steps cs else none

/-- A basic string on one line, after its quote. -/
def basic? (cs : List Char) : Option (String × List Char) :=
  basicFrom [] cs.length cs

/-- A literal string on one line, after its quote. -/
def literalFrom (done : List Char) : List Char → Option (String × List Char)
  | [] => none
  | '\'' :: cs => some (String.ofList done.reverse, cs)
  | c :: cs => if isPlain c then literalFrom (c :: done) cs else none

/-- A literal string on one line, after its quote. -/
def literal? (cs : List Char) : Option (String × List Char) :=
  literalFrom [] cs

/-- Drops the line break that may follow opening quotes. -/
def dropBreak : List Char → List Char
  | '\n' :: cs => cs
  | '\r' :: '\n' :: cs => cs
  | cs => cs

/-- Quotes at the end of a string over several lines: three close it, and up to two more before
them belong to it. -/
def closing? (quote : Char) (done cs : List Char) : Option (String × List Char) :=
  let count := (cs.takeWhile (· = quote)).length
  if 3 ≤ count && count ≤ 5 then
    some (String.ofList (done.reverse ++ List.replicate (count - 3) quote), cs.drop count)
  else none

/-- The characters that a backslash at the end of a line takes away, when the rest of the line is
empty. -/
def foldedLine? (cs : List Char) : Option (List Char) :=
  match cs.dropWhile (fun c => c = ' ' || c = '\t') with
  | '\n' :: cs => some (cs.dropWhile fun c => c = ' ' || c = '\t' || c = '\n' || c = '\r')
  | '\r' :: '\n' :: cs =>
    some (cs.dropWhile fun c => c = ' ' || c = '\t' || c = '\n' || c = '\r')
  | _ => none

/-- A basic string over several lines, after its opening quotes. -/
def basicLinesFrom (done : List Char) : (steps : Nat) → List Char → Option (String × List Char)
  | 0, _ => none
  | _, [] => none
  | steps + 1, '"' :: cs =>
    if cs.take 2 = ['"', '"'] then closing? '"' done ('"' :: cs)
    else basicLinesFrom ('"' :: done) steps cs
  | steps + 1, '\\' :: cs =>
    match foldedLine? cs with
    | some cs => basicLinesFrom done steps cs
    | none => do
      let (c, cs) ← escape? cs
      basicLinesFrom (c :: done) steps cs
  | steps + 1, '\r' :: '\n' :: cs => basicLinesFrom ('\n' :: '\r' :: done) steps cs
  | steps + 1, c :: cs =>
    if isPlain c || c = '\n' then basicLinesFrom (c :: done) steps cs else none

/-- A basic string over several lines, after its opening quotes. -/
def basicLines? (cs : List Char) : Option (String × List Char) :=
  basicLinesFrom [] cs.length (dropBreak cs)

/-- A literal string over several lines, after its opening quotes. -/
def literalLinesFrom (done : List Char) : List Char → Option (String × List Char)
  | [] => none
  | '\'' :: '\'' :: '\'' :: cs => closing? '\'' done ('\'' :: '\'' :: '\'' :: cs)
  | '\r' :: '\n' :: cs => literalLinesFrom ('\n' :: '\r' :: done) cs
  | c :: cs => if isPlain c || c = '\n' then literalLinesFrom (c :: done) cs else none

/-- A literal string over several lines, after its opening quotes. -/
def literalLines? (cs : List Char) : Option (String × List Char) :=
  literalLinesFrom [] (dropBreak cs)

end ProxyKeeper.Toml
