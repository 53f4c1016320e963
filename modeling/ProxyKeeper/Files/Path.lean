import ProxyKeeper.Text.Replace

/-!
# Paths

A path is kept as the text it was given as, and is understood by its parts: repeated and trailing
slashes count for nothing, nor does a dot inside; a leading dot and double dots are parts of their
own. Nothing here looks at the file system, so double dots are not resolved.

## Main Definitions

* `Path`: the texts; `Path.parts`: what they say.
* `Path.startsWith`: comparison part by part.
* `Path.join`, `Path.parent?`: the path below, the path above.
* `Path.fileName?`, `Path.extension?`: the last name, and its part after the last dot.
-/

namespace ProxyKeeper

/-- A path, as it is written. -/
structure Path where
  text : String
deriving DecidableEq, Inhabited

namespace Path

/-- A part of a path. -/
inductive Part where
  /-- The root of the file system. -/
  | root
  /-- The dot that a relative path begins with. -/
  | here
  /-- The directory above. -/
  | above
  | name (text : String)
deriving DecidableEq

/-- Whether a path begins at the root. -/
def isAbsolute (path : Path) : Bool :=
  path.text.toList.head? == some '/'

/-- The texts between the slashes of a path. -/
def pieces (path : Path) : List String :=
  (Text.splitOn '/' path.text.toList).map String.ofList

/-- The part that a piece stands for, unless it is the first one. -/
def partOf? (piece : String) : Option Part :=
  if piece = "" || piece = "." then none
  else if piece = ".." then some .above
  else some (.name piece)

/-- The parts of a path. -/
def parts (path : Path) : List Part :=
  let front := if path.isAbsolute then [.root]
    else if path.pieces.head? = some "." then [.here]
    else []
  front ++ path.pieces.filterMap partOf?

/-- Whether a path lies at or below another one, by its parts. -/
def startsWith (path base : Path) : Bool :=
  base.parts.isPrefixOf path.parts

/-- A path taken from a base. An absolute path does not depend on the base. -/
def join (base path : Path) : Path :=
  if path.isAbsolute || base.text.isEmpty then path
  else if base.text.toList.getLast? = some '/' then ⟨base.text ++ path.text⟩
  else ⟨base.text ++ "/" ++ path.text⟩

/-- The path of a name in a directory. -/
def child (directory : Path) (name : String) : Path :=
  directory.join ⟨name⟩

/-- Whether a piece counts for nothing inside a path. -/
def isSilent (piece : String) : Bool :=
  piece = "" || piece = "."

/-- The path without its last part; the root and the empty path have none. -/
def parent? (path : Path) : Option Path :=
  match path.pieces with
  | [] => none
  | first :: rest =>
    match rest.reverse.dropWhile isSilent with
    | [] => if path.isAbsolute || first = "" then none else some ⟨""⟩
    | _ :: before =>
      match before.dropWhile isSilent with
      | [] => some ⟨if path.isAbsolute then "/" else first⟩
      | kept => some ⟨"/".intercalate (first :: kept.reverse)⟩

/-- The last part of a path, when it is a name. -/
def fileName? (path : Path) : Option String :=
  match path.parts.getLast? with
  | some (.name text) => some text
  | _ => none

/-- A name cut at its last dot; a dot in front does not count. -/
def cutName (name : String) : String × Option String :=
  match (Text.splitOn '.' name.toList).reverse with
  | [] => (name, none)
  | [_] => (name, none)
  | last :: front =>
    let stem := ".".intercalate (front.reverse.map String.ofList)
    if stem.isEmpty then (name, none) else (stem, some (String.ofList last))

/-- The last name of a path after its last dot. -/
def extension? (path : Path) : Option String :=
  path.fileName?.bind fun name => (cutName name).2

end Path

end ProxyKeeper
