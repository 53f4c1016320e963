import ProxyKeeper.Nginx.Word

/-!
# Configuration documents

The tree of a piece of nginx configuration and its text: a directive ends in a semicolon, a block
holds further nodes between braces, each level is indented by four spaces more.

## Main Definitions

* `Node`, `Document`: the trees.
* `Node.write`, `Document.render`: the text.
-/

namespace ProxyKeeper.Nginx

/-- A node of a configuration tree. -/
inductive Node where
  | directive (name : String) (args : List String)
  | block (name : String) (args : List String) (children : List Node)
  | comment (text : String)
  | blank
deriving Inhabited

/-- The nodes of a file, from the top. -/
abbrev Document := List Node

/-- The spaces in front of a line. -/
def indent (depth : Nat) : List Char :=
  List.replicate (4 * depth) ' '

/-- Arguments, each after a space. -/
def writeArguments (args : List String) : List Char :=
  args.flatMap fun arg => ' ' :: quoteArgument arg.toList

mutual

/-- The lines of a node. -/
def Node.write (depth : Nat) : Node → List Char
  | .directive name args => indent depth ++ name.toList ++ writeArguments args ++ [';', '\n']
  | .block name args children =>
    indent depth ++ name.toList ++ writeArguments args ++ [' ', '{', '\n'] ++
      writeNodes (depth + 1) children ++ indent depth ++ ['}', '\n']
  | .comment text => indent depth ++ ['#', ' '] ++ text.toList ++ ['\n']
  | .blank => ['\n']

/-- The lines of several nodes. -/
def writeNodes (depth : Nat) : List Node → List Char
  | [] => []
  | node :: rest => node.write depth ++ writeNodes depth rest

end

/-- The text of a document. -/
def Document.render (document : Document) : String :=
  String.ofList (writeNodes 0 document)

end ProxyKeeper.Nginx
