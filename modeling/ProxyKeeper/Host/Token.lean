import ProxyKeeper.Text.Decimal

/-!
# Words of shell scripts

The lexical level of a small shell: quotes, escapes, comments and parameters. A word is a list of
pieces, each a character or a parameter, with a note whether it stood between quotes.

## Main Definitions

* `Parameter`, `Piece`, `Word`, `Token`: the words and signs.
* `Lexer.step`: one character more.
* `Token.scan?`: the tokens of a script.
-/

namespace ProxyKeeper.Shell

/-- What a dollar sign stands for. -/
inductive Parameter where
  /-- The script itself, or one of its arguments. -/
  | position (n : Nat)
  /-- The arguments as one text. -/
  | all
  /-- The arguments one by one. -/
  | each
  /-- How many arguments there are. -/
  | count
  /-- The status of the last command. -/
  | status
  /-- The number of the shell's process. -/
  | process
  | variable (name : String)
deriving DecidableEq, Inhabited

/-- A piece of a word. -/
inductive Piece where
  | char (c : Char) (quoted : Bool)
  | parameter (parameter : Parameter) (quoted : Bool)
  /-- A pair of quotes, which makes a word even when nothing is between them. -/
  | quotes
deriving DecidableEq, Inhabited

/-- A word before its parameters have values. -/
abbrev Word := List Piece

/-- A word, sign or line break of a script. -/
inductive Token where
  | word (word : Word)
  /-- A number right before a redirection. -/
  | number (n : Nat)
  | sign (c : Char)
  | newline
deriving DecidableEq, Inhabited

/-- The text of a word in which nothing is quoted or replaced. -/
def Word.plain? (word : Word) : Option (List Char) :=
  word.mapM fun
    | .char c false => some c
    | _ => none

/-- Where the lexer is; `quoted` tells whether it is between double quotes. -/
inductive Mode where
  | plain
  | single
  | double
  | comment
  | escape (quoted : Bool)
  | dollar (quoted : Bool)
  | name (quoted : Bool) (chars : List Char)
  | braced (quoted : Bool) (chars : List Char)
deriving DecidableEq, Inhabited

/-- The mode around a parameter. -/
def Mode.around (quoted : Bool) : Mode :=
  if quoted then .double else .plain

/-- What has been read: the current word and the tokens before it, last first. -/
structure Lexer where
  mode : Mode := .plain
  word : List Piece := []
  tokens : List Token := []
deriving Inhabited

namespace Lexer

/-- One piece more of the current word. -/
def push (lexer : Lexer) (piece : Piece) : Lexer :=
  { lexer with word := piece :: lexer.word }

/-- The end of the current word, if there is one. -/
def endWord (lexer : Lexer) : Lexer :=
  if lexer.word.isEmpty then lexer
  else { lexer with word := [], tokens := .word lexer.word.reverse :: lexer.tokens }

/-- A token after the current word. -/
def emit (lexer : Lexer) (token : Token) : Lexer :=
  let lexer := lexer.endWord
  { lexer with tokens := token :: lexer.tokens }

/-- A redirection; a number right before it belongs to it. -/
def redirect (lexer : Lexer) (c : Char) : Lexer :=
  match (Word.plain? lexer.word.reverse).bind Text.ofDigits? with
  | some n => { lexer with word := [], tokens := .sign c :: .number n :: lexer.tokens }
  | none => lexer.emit (.sign c)

/-- The signs that end a word. -/
def isSign (c : Char) : Bool :=
  c == ';' || c == '&' || c == '|' || c == '(' || c == ')'

/-- A character outside quotes. -/
def plain (lexer : Lexer) (c : Char) : Lexer :=
  let lexer := { lexer with mode := .plain }
  if c == ' ' || c == '\t' then lexer.endWord
  else if c == '\n' then lexer.emit .newline
  else if c == '#' && lexer.word.isEmpty then { lexer with mode := .comment }
  else if c == '\'' then { lexer.push .quotes with mode := .single }
  else if c == '"' then { lexer.push .quotes with mode := .double }
  else if c == '\\' then { lexer with mode := .escape false }
  else if c == '$' then { lexer with mode := .dollar false }
  else if c == '<' || c == '>' then lexer.redirect c
  else if isSign c then lexer.emit (.sign c)
  else lexer.push (.char c false)

/-- A character between double quotes. -/
def double (lexer : Lexer) (c : Char) : Lexer :=
  let lexer := { lexer with mode := .double }
  if c == '"' then { lexer with mode := .plain }
  else if c == '\\' then { lexer with mode := .escape true }
  else if c == '$' then { lexer with mode := .dollar true }
  else lexer.push (.char c true)

/-- A character in the mode around a parameter. -/
def around (lexer : Lexer) (quoted : Bool) (c : Char) : Lexer :=
  if quoted then lexer.double c else lexer.plain c

/-- The character after a backslash. Between quotes it is ordinary only before some characters. -/
def escape (lexer : Lexer) (quoted : Bool) (c : Char) : Lexer :=
  let lexer := { lexer with mode := .around quoted }
  if c == '\n' then lexer
  else if !quoted || c == '$' || c == '"' || c == '\\' then lexer.push (.char c true)
  else (lexer.push (.char '\\' true)).push (.char c true)

/-- The characters that names begin with. -/
def beginsName (c : Char) : Bool :=
  ('a' ≤ c && c ≤ 'z') || ('A' ≤ c && c ≤ 'Z') || c == '_'

/-- The parameter of a single character. -/
def shortParameter? (c : Char) : Option Parameter :=
  if c == '*' then some .all
  else if c == '@' then some .each
  else if c == '#' then some .count
  else if c == '?' then some .status
  else if c == '$' then some .process
  else if Text.isDigit c then some (.position (Text.digitValue c))
  else none

/-- The parameter of a name, its characters last first. -/
def namedParameter (chars : List Char) : Parameter :=
  match chars with
  | [c] => (shortParameter? c).getD (.variable (String.ofList [c]))
  | _ =>
    match Text.ofDigits? chars.reverse with
    | some n => .position n
    | none => .variable (String.ofList chars.reverse)

/-- The character after a dollar sign. -/
def dollar (lexer : Lexer) (quoted : Bool) (c : Char) : Lexer :=
  match shortParameter? c with
  | some parameter =>
    { lexer.push (.parameter parameter quoted) with mode := .around quoted }
  | none =>
    if c == '{' then { lexer with mode := .braced quoted [] }
    else if beginsName c then { lexer with mode := .name quoted [c] }
    else (lexer.push (.char '$' quoted)).around quoted c

/-- One character more. -/
def step (lexer : Lexer) (c : Char) : Lexer :=
  match lexer.mode with
  | .plain => lexer.plain c
  | .double => lexer.double c
  | .single =>
    if c == '\'' then { lexer with mode := .plain } else lexer.push (.char c true)
  | .comment => if c == '\n' then lexer.plain c else lexer
  | .escape quoted => lexer.escape quoted c
  | .dollar quoted => lexer.dollar quoted c
  | .name quoted chars =>
    if beginsName c || Text.isDigit c then { lexer with mode := .name quoted (c :: chars) }
    else (lexer.push (.parameter (namedParameter chars) quoted)).around quoted c
  | .braced quoted chars =>
    if c == '}' then
      { lexer.push (.parameter (namedParameter chars) quoted) with mode := .around quoted }
    else { lexer with mode := .braced quoted (c :: chars) }

/-- The tokens at the end of a script; none when a quote is open. -/
def finish? (lexer : Lexer) : Option (List Token) :=
  match lexer.mode with
  | .plain => some lexer.endWord.tokens.reverse
  | .comment => some lexer.endWord.tokens.reverse
  | .escape false => some (lexer.push (.char '\\' false)).endWord.tokens.reverse
  | .dollar false => some (lexer.push (.char '$' false)).endWord.tokens.reverse
  | .name false chars =>
    some (lexer.push (.parameter (namedParameter chars) false)).endWord.tokens.reverse
  | _ => none

end Lexer

/-- The tokens of a script. -/
def Token.scan? (script : String) : Option (List Token) :=
  (script.toList.foldl Lexer.step {}).finish?

end ProxyKeeper.Shell
