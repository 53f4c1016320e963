import ProxyKeeper.Nginx.Document
import ProxyKeeper.Nginx.Lexer

/-!
# Reading configurations

What nginx makes of the text of a configuration: directives and blocks, without comments and empty
lines.

## Main Definitions

* `Document.ofTokens?`: the document that tokens write.
* `Document.read?`: the document that a text writes.
* `Document.effective`: a document without its comments and empty lines.
-/

namespace ProxyKeeper.Nginx

/-- A block whose end is still to come, with the nodes in front of it, last first. -/
structure OpenBlock where
  name : String
  args : List String
  before : List Node

namespace Document

/-- Goes on with more tokens, where `blocks` are open, the innermost first, and `nodes` and `words`
are those of the innermost block and of the next node, last first. -/
def ofTokensFrom? (blocks : List OpenBlock) (nodes : List Node) (words : List String) :
    List Token → Option Document
  | [] => if blocks.isEmpty && words.isEmpty then some nodes.reverse else none
  | .word chars :: tokens => ofTokensFrom? blocks nodes (String.ofList chars :: words) tokens
  | .stop :: tokens =>
    match words.reverse with
    | [] => none
    | name :: args => ofTokensFrom? blocks (.directive name args :: nodes) [] tokens
  | .opening :: tokens =>
    match words.reverse with
    | [] => none
    | name :: args => ofTokensFrom? (⟨name, args, nodes⟩ :: blocks) [] [] tokens
  | .closing :: tokens =>
    match words, blocks with
    | [], block :: blocks =>
      ofTokensFrom? blocks (.block block.name block.args nodes.reverse :: block.before) [] tokens
    | _, _ => none

/-- The document that tokens write. -/
def ofTokens? (tokens : List Token) : Option Document :=
  ofTokensFrom? [] [] [] tokens

/-- The document that a text writes. -/
def read? (text : String) : Option Document :=
  (Token.scan? text.toList).bind ofTokens?

end Document

mutual

/-- A node as nginx sees it; comments and empty lines are nothing to it. -/
def Node.effective : Node → List Node
  | .directive name args => [.directive name args]
  | .block name args children => [.block name args (effectiveNodes children)]
  | .comment _ => []
  | .blank => []

/-- Nodes as nginx sees them. -/
def effectiveNodes : List Node → List Node
  | [] => []
  | node :: nodes => node.effective ++ effectiveNodes nodes

end

/-- A document without its comments and empty lines. -/
def Document.effective (document : Document) : Document :=
  effectiveNodes document

end ProxyKeeper.Nginx
