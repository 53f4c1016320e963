import ProxyKeeper.Toml.Basic

/-!
# Assembling TOML tables

A document names the members of its tables one by one, under headers and dotted keys. The tables
are assembled in that order, and each remembers how it came to be, for a table may be opened only
once by a header, and dotted keys may extend only tables that dotted keys made.

## Main Definitions

* `Node`: a member under assembly; `Origin`: how a table came to be.
* `putValue`: a member given by a dotted key.
* `openTable`, `openElement`: the headers `[a.b]` and `[[a.b]]`.
* `toMembers`: the finished members.
-/

namespace ProxyKeeper.Toml

/-- How a table came to be. -/
inductive Origin where
  /-- By a header of its own, or as an element of an array of tables. -/
  | header
  /-- On the way to a table that a header opened. -/
  | implied
  /-- By a dotted key. -/
  | dotted
deriving DecidableEq

/-- A member of a table under assembly. -/
inductive Node where
  | leaf (value : Value)
  | table (origin : Origin) (members : List (String × Node))
  /-- An array of tables, the last element first. -/
  | tables (elements : List (List (String × Node)))

/-- The members of a table under assembly. -/
abbrev Members := List (String × Node)

/-- Puts a node in the place of the member with a key. -/
def replaceMember (key : String) (node : Node) (members : Members) : Members :=
  members.map fun (k, n) => if k = key then (k, node) else (k, n)

/-- Adds a member given by a key that follows the given path of dotted keys. `direct` says that
the path was empty to begin with; the table that takes the member is then the one under the
header, and otherwise one that dotted keys made. -/
def putValue (direct : Bool) (key : String) (value : Value) :
    (path : List String) → Origin → Members → Option Members
  | [], origin, members =>
    if direct == (origin == .dotted) then none
    else if (members.lookup key).isSome then none
    else some (members ++ [(key, .leaf value)])
  | step :: path, _, members =>
    match members.lookup step with
    | none => do
      let inner ← putValue direct key value path .dotted []
      some (members ++ [(step, .table .dotted inner)])
    | some (.leaf _) => none
    | some (.table .header _) => none
    | some (.table origin inner) => do
      let inner ← putValue direct key value path origin inner
      some (replaceMember step (.table origin inner) members)
    | some (.tables []) => none
    | some (.tables (last :: earlier)) => do
      let last ← putValue direct key value path .header last
      some (replaceMember step (.tables (last :: earlier)) members)

/-- Changes the table at the end of a path of header keys. Missing tables on the way are implied;
an array of tables stands for its last element. -/
def changeAt (change : Origin → Members → Option Members) :
    (path : List String) → Origin → Members → Option Members
  | [], origin, members => change origin members
  | step :: path, _, members =>
    match members.lookup step with
    | none => do
      let inner ← changeAt change path .implied []
      some (members ++ [(step, .table .implied inner)])
    | some (.leaf _) => none
    | some (.table origin inner) => do
      let inner ← changeAt change path origin inner
      some (replaceMember step (.table origin inner) members)
    | some (.tables []) => none
    | some (.tables (last :: earlier)) => do
      let last ← changeAt change path .header last
      some (replaceMember step (.tables (last :: earlier)) members)

/-- Opens the table with the given key: a new one, or one that was only implied. -/
def openTable (key : String) (members : Members) : Option Members :=
  match members.lookup key with
  | none => some (members ++ [(key, .table .header [])])
  | some (.table .implied inner) => some (replaceMember key (.table .header inner) members)
  | some _ => none

/-- Adds an element to the array of tables with the given key. -/
def openElement (key : String) (members : Members) : Option Members :=
  match members.lookup key with
  | none => some (members ++ [(key, .tables [[]])])
  | some (.tables elements) => some (replaceMember key (.tables ([] :: elements)) members)
  | some _ => none

mutual

/-- The finished value of a member. -/
def Node.toValue : Node → Value
  | .leaf value => value
  | .table _ members => .table (toMembers members)
  | .tables elements => .array (toElements [] elements)

/-- The finished members of a table. -/
def toMembers : List (String × Node) → List (String × Value)
  | [] => []
  | (key, node) :: rest => (key, node.toValue) :: toMembers rest

/-- The finished elements of an array of tables, the first one first. -/
def toElements (later : List Value) : List (List (String × Node)) → List Value
  | [] => later
  | members :: earlier => toElements (.table (toMembers members) :: later) earlier

end

end ProxyKeeper.Toml
