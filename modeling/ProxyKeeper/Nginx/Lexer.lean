/-!
# Lexer

How nginx cuts the text of a configuration into words and signs. Words are separated by white
space; a semicolon ends a directive and braces enclose a block. A word that begins with a quote
goes on to the next such quote, and any other word to white space, a semicolon or an opening brace.
A backslash takes the next character into the word, whatever it is. What is between a hash sign
where a word could begin and the end of the line is a comment.

In a word that is complete, a backslash is dropped before a backslash or a quote, and with a `t`, an
`r` or an `n` it stands for a tab, a carriage return or a line feed.

## Main Definitions

* `Token`: words and signs.
* `Lexer.step`: one character more.
* `Token.scan?`: the tokens of a text.

## Main Results

* `Lexer.steps_append`: a text in two parts is read part after part.
-/

namespace ProxyKeeper.Nginx

/-- A word or sign of a configuration. -/
inductive Token where
  | word (chars : List Char)
  /-- The semicolon at the end of a directive. -/
  | stop
  /-- The brace in front of the content of a block. -/
  | opening
  /-- The brace behind the content of a block. -/
  | closing
deriving DecidableEq

/-- The characters between words. -/
def isSeparator (c : Char) : Bool :=
  c == ' ' || c == '\t' || c == '\r' || c == '\n'

/-- What a word stands for. -/
def unescape : List Char → List Char
  | '\\' :: c :: cs =>
    if c = '\\' || c = '"' || c = '\'' then c :: unescape cs
    else if c = 't' then '\t' :: unescape cs
    else if c = 'r' then '\r' :: unescape cs
    else if c = 'n' then '\n' :: unescape cs
    else '\\' :: c :: unescape cs
  | c :: cs => c :: unescape cs
  | [] => []

/-- Where the lexer is. The characters of a word are kept last first. -/
inductive LexerMode where
  /-- Where a word could begin. -/
  | between
  | comment
  /-- In a word without quotes; `escaped` says whether a backslash came just before. -/
  | bare (chars : List Char) (escaped : Bool)
  /-- In a word between quotes of a kind. -/
  | quoted (quote : Char) (chars : List Char) (escaped : Bool)
  /-- Right behind a quote that ends a word. -/
  | behind
deriving DecidableEq

/-- The lexer on its way: where it is, and the tokens before, last first. -/
structure Lexer where
  mode : LexerMode := .between
  tokens : List Token := []
deriving DecidableEq

namespace Lexer

/-- A token is complete. -/
def emit (lexer : Lexer) (mode : LexerMode) (token : Token) : Lexer :=
  ⟨mode, token :: lexer.tokens⟩

/-- A word is complete. -/
def endWord (lexer : Lexer) (mode : LexerMode) (chars : List Char) : Lexer :=
  lexer.emit mode (.word (unescape chars.reverse))

/-- A character that ends a word, or stands where a word could begin. -/
def separate? (lexer : Lexer) (c : Char) : Option Lexer :=
  if isSeparator c then some { lexer with mode := .between }
  else if c = ';' then some (lexer.emit .between .stop)
  else if c = '{' then some (lexer.emit .between .opening)
  else none

/-- A character where a word could begin. -/
def begin (lexer : Lexer) (c : Char) : Lexer :=
  match lexer.separate? c with
  | some lexer => lexer
  | none =>
    if c = '}' then lexer.emit .between .closing
    else if c = '#' then { lexer with mode := .comment }
    else if c = '"' || c = '\'' then { lexer with mode := .quoted c [] false }
    else { lexer with mode := .bare [c] (c = '\\') }

/-- One character more; none when it may not stand there. -/
def step (lexer : Lexer) (c : Char) : Option Lexer :=
  match lexer.mode with
  | .between => some (lexer.begin c)
  | .comment => some (if c = '\n' then { lexer with mode := .between } else lexer)
  | .bare chars true => some { lexer with mode := .bare (c :: chars) false }
  | .bare chars false =>
    match (lexer.endWord .between chars).separate? c with
    | some lexer => some lexer
    | none => some { lexer with mode := .bare (c :: chars) (c = '\\') }
  | .quoted quote chars true => some { lexer with mode := .quoted quote (c :: chars) false }
  | .quoted quote chars false =>
    if c = quote then some (lexer.endWord .behind chars)
    else some { lexer with mode := .quoted quote (c :: chars) (c = '\\') }
  | .behind => lexer.separate? c

/-- Several characters more. -/
def steps (lexer : Lexer) : List Char → Option Lexer
  | [] => some lexer
  | c :: cs => (lexer.step c).bind fun lexer => lexer.steps cs

/-- A text in two parts is read part after part. -/
theorem steps_append (lexer : Lexer) (front back : List Char) :
    lexer.steps (front ++ back) = (lexer.steps front).bind fun lexer => lexer.steps back := by
  induction front generalizing lexer with
  | nil => rfl
  | cons c cs ih =>
    simp only [List.cons_append, steps, Option.bind_assoc]
    cases lexer.step c with
    | none => rfl
    | some next => exact ih next

/-- The tokens at the end of a text; none when a word is still open. -/
def finish? (lexer : Lexer) : Option (List Token) :=
  match lexer.mode with
  | .between => some lexer.tokens.reverse
  | .comment => some lexer.tokens.reverse
  | .behind => some lexer.tokens.reverse
  | .bare _ _ => none
  | .quoted _ _ _ => none

end Lexer

/-- The tokens of a text, if it has the form of a configuration. -/
def Token.scan? (cs : List Char) : Option (List Token) :=
  (Lexer.steps {} cs).bind Lexer.finish?

end ProxyKeeper.Nginx
