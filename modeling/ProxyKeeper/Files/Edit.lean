import ProxyKeeper.Files.Call

/-!
# Edits from outside

What operators and other programs do to a tree: they write files, make directories and links, and
delete whatever there is. What is made gets the directories above it, if they are missing; an edit
that cannot be made changes nothing else.

## Main Definitions

* `Edit`: the edits; `Tree.edit`, `Tree.editAll`: their effect.
-/

namespace ProxyKeeper

/-- A change from outside. -/
inductive Edit where
  | write (path : Path) (content : ByteArray)
  | directory (path : Path)
  | link (path target : Path)
  /-- Deletes a file, a link, or a directory with all it holds. -/
  | delete (path : Path)
deriving DecidableEq

/-- The path of what an edit makes. -/
def Edit.made? : Edit → Option Path
  | .write path _ => some path
  | .directory path => some path
  | .link path _ => some path
  | .delete _ => none

namespace Tree

/-- Makes a symbolic link. -/
def createLink (tree : Tree) (path target : Path) : Except IoFault Tree := do
  let place ← tree.place .alreadyExists path
  if target.text.isEmpty then .error .notFound
  else match tree.entry? place.location with
    | some _ => .error .alreadyExists
    | none => .ok (tree.put place.location (.link target))

/-- Deletes what is at a path, with all it holds. -/
def delete (tree : Tree) (path : Path) : Except IoFault Tree := do
  let place ← tree.place .busy path
  match tree.entry? place.location with
  | some _ => .ok (tree.eraseBelow place.location)
  | none => .error .notFound

/-- The tree after an edit whose directories are there. -/
def edited (tree : Tree) : Edit → Except IoFault Tree
  | .write path content => tree.write path content
  | .directory path =>
    match tree.createDirectories path with
    | (.ok (), tree) => .ok tree
    | (.error fault, _) => .error fault
  | .link path target => tree.createLink path target
  | .delete path => tree.delete path

/-- The tree after an edit. -/
def edit (tree : Tree) (edit : Edit) : Tree :=
  let prepared := match edit.made?.bind Path.parent? with
    | some parent => (tree.createDirectories parent).2
    | none => tree
  match prepared.edited edit with
  | .ok tree => tree
  | .error _ => prepared

/-- The tree after some edits, in their order. -/
def editAll (tree : Tree) (edits : List Edit) : Tree :=
  edits.foldl Tree.edit tree

end Tree

end ProxyKeeper
