import ProxyKeeper.Files.Fault
import ProxyKeeper.Files.Path

/-!
# File trees

A file system as a finite map from locations to files, directories and symbolic links, and the
walk that leads from a path to a location. A location is the list of the names below the root; the
root is always there and is a directory.

A walk goes one piece of the path at a time. A symbolic link is replaced by its target, at most
`maximalLinks` times; the last piece may be exempt, since some calls act on a link itself.

## Main Definitions

* `Location`, `Entry`, `Tree`: the trees.
* `Tree.entry?`, `Tree.put`, `Tree.erase`, `Tree.names`: the map.
* `Spot`, `Tree.walk`: where a path leads.
* `Tree.find`, `Tree.place`: the walks that the calls of the file system begin with.
-/

namespace ProxyKeeper

/-- The names from the root down to an entry. -/
abbrev Location := List String

/-- The path of a location. -/
def Location.path (location : Location) : Path :=
  ⟨"/" ++ "/".intercalate location⟩

/-- Contents are compared byte by byte. -/
instance (priority := 2000) decidableEqContent : DecidableEq ByteArray := fun a b =>
  decidable_of_iff (a.data = b.data) ByteArray.ext_iff.symm

/-- What a location holds. -/
inductive Entry where
  | file (content : ByteArray)
  | directory
  | link (target : Path)
deriving DecidableEq, Inhabited

/-- A file system, with the directory that relative paths begin at. -/
structure Tree where
  entries : List (Location × Entry) := []
  workingDirectory : Location := []
deriving Inhabited

namespace Tree

/-- What a tree holds at a location. -/
def entry? (tree : Tree) : Location → Option Entry
  | [] => some .directory
  | location => tree.entries.lookup location

/-- Puts an entry at its location, over the one that is there. -/
def putEntry (location : Location) (entry : Entry) :
    List (Location × Entry) → List (Location × Entry)
  | [] => [(location, entry)]
  | (l, e) :: rest =>
    if l = location then (l, entry) :: rest else (l, e) :: putEntry location entry rest

/-- The tree with an entry at a location. -/
def put (tree : Tree) (location : Location) (entry : Entry) : Tree :=
  { tree with entries := putEntry location entry tree.entries }

/-- The tree without the entry at a location. -/
def erase (tree : Tree) (location : Location) : Tree :=
  { tree with entries := tree.entries.filter fun (l, _) => l != location }

/-- The tree without the entries at and below a location. -/
def eraseBelow (tree : Tree) (location : Location) : Tree :=
  { tree with entries := tree.entries.filter fun (l, _) => !location.isPrefixOf l }

/-- The name of a location's entry in a directory. -/
def nameIn? (directory location : Location) : Option String :=
  match location.getLast? with
  | some name => if location.dropLast = directory then some name else none
  | none => none

/-- The names in a directory. -/
def names (tree : Tree) (directory : Location) : List String :=
  tree.entries.filterMap fun (l, _) => nameIn? directory l

/-- The largest number of symbolic links on one walk. -/
def maximalLinks : Nat := 40

/-- The largest number of bytes of a name. -/
def maximalNameSize : Nat := 255

/-- The number of bytes that no path reaches. -/
def pathSizeBound : Nat := 4096

/-- The pieces a walk along a path takes. A path that ends in a slash leads to a directory, so a
dot stands for the last slash. -/
def steps (path : Path) : List String :=
  let pieces := path.pieces.filter (· != "")
  if path.text.toList.getLast? = some '/' then pieces ++ ["."] else pieces

/-- The directory a walk along a path begins at. -/
def origin (path : Path) (directory : Location) : Location :=
  if path.isAbsolute then [] else directory

/-- Where a walk ends: at an entry, or in a directory that has no such name. -/
inductive Spot where
  | occupied (location : Location) (entry : Entry)
  | vacant (directory : Location) (name : String)

/-- Goes on from a location; `again` goes on from the place that a symbolic link leads to, and
`follow` says whether one at the end counts. -/
def walkWith (again : Location → List String → Except IoFault Spot) (tree : Tree) (follow : Bool)
    (location : Location) : List String → Except IoFault Spot
  | [] =>
    match tree.entry? location with
    | some entry => .ok (.occupied location entry)
    | none => .error .notFound
  | piece :: rest =>
    match tree.entry? location with
    | some .directory =>
      if piece = "." then walkWith again tree follow location rest
      else if piece = ".." then walkWith again tree follow location.dropLast rest
      else if maximalNameSize < piece.utf8ByteSize then .error .nameTooLong
      else match tree.entry? (location ++ [piece]) with
        | none =>
          match rest with
          | [] => .ok (.vacant location piece)
          | _ :: _ => .error .notFound
        | some (.link target) =>
          if !follow && rest.isEmpty then .ok (.occupied (location ++ [piece]) (.link target))
          else again (origin target location) (steps target ++ rest)
        | some _ => walkWith again tree follow (location ++ [piece]) rest
    | _ => .error .notADirectory

/-- Goes on from a location, with at most `links` further symbolic links. -/
def walk (tree : Tree) (follow : Bool) : (links : Nat) → Location → List String →
    Except IoFault Spot
  | 0 => walkWith (fun _ _ => .error .tooManyLinks) tree follow
  | links + 1 => walkWith (tree.walk follow links) tree follow

/-- Refuses the paths that lead nowhere in any tree. -/
def checkPath (path : Path) : Except IoFault Unit :=
  if path.text.toList.contains '\x00' then .error .holdsNul
  else if path.text.isEmpty then .error .notFound
  else if pathSizeBound ≤ path.text.utf8ByteSize then .error .nameTooLong
  else .ok ()

/-- Where a path leads, links followed. -/
def find (tree : Tree) (path : Path) : Except IoFault Spot := do
  checkPath path
  tree.walk true maximalLinks (origin path tree.workingDirectory) (steps path)

/-- The location and entry that a path leads to. -/
def entryAt (tree : Tree) (path : Path) : Except IoFault (Location × Entry) := do
  match ← tree.find path with
  | .occupied location entry => .ok (location, entry)
  | .vacant _ _ => .error .notFound

/-- Whether a path leads to a directory. -/
def isDirectory (tree : Tree) (path : Path) : Bool :=
  match tree.entryAt path with
  | .ok (_, .directory) => true
  | _ => false

/-- A name in a directory, as calls that make, replace or remove it find it. -/
structure Place where
  directory : Location
  name : String
  /-- Whether a slash follows the name. -/
  slashed : Bool

/-- The location of a place. -/
def Place.location (place : Place) : Location :=
  place.directory ++ [place.name]

/-- The place a path names: its last piece in the directory that the others lead to. A path that
ends in dots, or is the root, names no place, and fails with `unnamed`. -/
def place (tree : Tree) (unnamed : IoFault) (path : Path) : Except IoFault Place := do
  checkPath path
  let pieces := path.pieces.filter (· != "")
  match pieces.getLast? with
  | none => .error unnamed
  | some name =>
    match ← tree.walk true maximalLinks (origin path tree.workingDirectory) pieces.dropLast with
    | .occupied directory .directory =>
      if name = "." || name = ".." then .error unnamed
      else if maximalNameSize < name.utf8ByteSize then .error .nameTooLong
      else .ok ⟨directory, name, path.text.toList.getLast? = some '/'⟩
    | .occupied _ _ => .error .notADirectory
    | .vacant _ _ => .error .notFound

end Tree

end ProxyKeeper
