import ProxyKeeper.Files.Tree
import ProxyKeeper.Text.Utf8

/-!
# Calls of the file system

The calls the program makes, what each of them answers, and what each does to a tree. A call that
fails leaves the tree as it was, with one exception: when directories are made, those made before
the failure stay.

## Main Definitions

* `FileCall`, `FileCall.Result`, `FileCall.Answer`: the calls and their answers.
* `Tree.perform`: what a call does to a tree.
-/

namespace ProxyKeeper

/-- A call of the file system. -/
inductive FileCall where
  /-- Makes a directory and those above it, as far as they are missing. -/
  | createDirectories (path : Path)
  /-- Writes a whole file, over the one that is there. -/
  | write (path : Path) (content : ByteArray)
  /-- Puts a file in another place, over the one that is there. -/
  | rename (source target : Path)
  /-- Removes a file, or a link itself. -/
  | remove (path : Path)
  | read (path : Path)
  /-- The names in a directory. -/
  | list (path : Path)
  | status (path : Path)
  /-- The path of the location a path leads to. -/
  | canonical (path : Path)
deriving DecidableEq

/-- What is known of an entry without reading it. -/
structure FileStatus where
  isFile : Bool
  size : Nat
deriving DecidableEq

/-- What a call gives when it succeeds. -/
def FileCall.Result : FileCall → Type
  | .createDirectories _ => Unit
  | .write _ _ => Unit
  | .rename _ _ => Unit
  | .remove _ => Unit
  | .read _ => ByteArray
  | .list _ => List String
  | .status _ => FileStatus
  | .canonical _ => Path

/-- What a call answers. -/
abbrev FileCall.Answer (call : FileCall) : Type :=
  Except IoFault call.Result

namespace Tree

/-- The size that is told of a directory. -/
def directorySize : Nat := 4096

/-- Makes one directory. -/
def makeDirectory (tree : Tree) (path : Path) : Except IoFault Tree := do
  let place ← tree.place .alreadyExists path
  match tree.entry? place.location with
  | some _ => .error .alreadyExists
  | none => .ok (tree.put place.location .directory)

/-- A path and the paths above it, as many as `count`. -/
def lineage : (count : Nat) → Path → List Path
  | 0, _ => []
  | count + 1, path =>
    path :: match path.parent? with
      | some parent => lineage count parent
      | none => []

/-- Makes the first of some directories, after those above it that are missing. -/
def makeDirectories (tree : Tree) : List Path → Except IoFault Unit × Tree
  | [] => (.error (.other "failed to create whole tree"), tree)
  | path :: above =>
    if path.text.isEmpty then (.ok (), tree)
    else match tree.makeDirectory path with
      | .ok tree => (.ok (), tree)
      | .error fault =>
        if fault = .notFound then
          match tree.makeDirectories above with
          | (.error fault, tree) => (.error fault, tree)
          | (.ok (), tree) =>
            match tree.makeDirectory path with
            | .ok tree => (.ok (), tree)
            | .error fault =>
              if tree.isDirectory path then (.ok (), tree) else (.error fault, tree)
        else if tree.isDirectory path then (.ok (), tree)
        else (.error fault, tree)

/-- Makes a directory and those above it that are missing. -/
def createDirectories (tree : Tree) (path : Path) : Except IoFault Unit × Tree :=
  tree.makeDirectories (lineage (path.pieces.length + 1) path)

/-- Writes a whole file. -/
def write (tree : Tree) (path : Path) (content : ByteArray) : Except IoFault Tree := do
  match ← tree.find path with
  | .occupied location (.file _) => .ok (tree.put location (.file content))
  | .occupied _ .directory => .error .isADirectory
  | .occupied _ (.link _) => .error .tooManyLinks
  | .vacant directory name => .ok (tree.put (directory ++ [name]) (.file content))

/-- Removes a file or a link. -/
def remove (tree : Tree) (path : Path) : Except IoFault Tree := do
  let place ← tree.place .isADirectory path
  match tree.entry? place.location with
  | none => .error .notFound
  | some .directory => .error .isADirectory
  | some _ => if place.slashed then .error .notADirectory else .ok (tree.erase place.location)

/-- Puts a file or a link in another place. Directories are not moved. -/
def rename (tree : Tree) (source target : Path) : Except IoFault Tree := do
  let old ← tree.place .busy source
  let new ← tree.place .busy target
  match tree.entry? old.location with
  | none => .error .notFound
  | some .directory => .error .isADirectory
  | some entry =>
    if old.slashed || new.slashed then .error .notADirectory
    else if tree.entry? new.location = some .directory then .error .isADirectory
    else .ok ((tree.erase old.location).put new.location entry)

/-- The content of a file. -/
def read (tree : Tree) (path : Path) : Except IoFault ByteArray := do
  match ← tree.entryAt path with
  | (_, .file content) => .ok content
  | (_, .directory) => .error .isADirectory
  | (_, .link _) => .error .tooManyLinks

/-- The names in a directory. -/
def list (tree : Tree) (path : Path) : Except IoFault (List String) := do
  match ← tree.entryAt path with
  | (location, .directory) => .ok (tree.names location)
  | _ => .error .notADirectory

/-- What is known of an entry. -/
def status (tree : Tree) (path : Path) : Except IoFault FileStatus := do
  match ← tree.entryAt path with
  | (_, .file content) => .ok ⟨true, content.size⟩
  | _ => .ok ⟨false, directorySize⟩

/-- The path of the location that a path leads to. -/
def canonical (tree : Tree) (path : Path) : Except IoFault Path := do
  let (location, _) ← tree.entryAt path
  .ok location.path

/-- The answer to a call that changes the tree or fails. -/
def changed (tree : Tree) : Except IoFault Tree → Except IoFault Unit × Tree
  | .ok tree => (.ok (), tree)
  | .error fault => (.error fault, tree)

/-- What a call answers, and the tree after it. -/
def perform (tree : Tree) : (call : FileCall) → call.Answer × Tree
  | .createDirectories path => tree.createDirectories path
  | .write path content => tree.changed (tree.write path content)
  | .rename source target => tree.changed (tree.rename source target)
  | .remove path => tree.changed (tree.remove path)
  | .read path => (tree.read path, tree)
  | .list path => (tree.list path, tree)
  | .status path => (tree.status path, tree)
  | .canonical path => (tree.canonical path, tree)

end Tree

end ProxyKeeper
