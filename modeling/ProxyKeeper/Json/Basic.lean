/-!
# JSON values

A JSON value as it was written: members of an object keep their order and their repetitions,
because a reader of records tells a field that is given twice from one that is given once.

## Main Definitions

* `Json`: the values.
* `Json.ofOption`: builder used by the encoders.
* `Json.lastWins`: the value in which every key keeps only its last member.
* `Json.sorted`: the value in which members stand in the order of their keys.
-/

namespace ProxyKeeper

/-- A JSON value. -/
inductive Json where
  | null
  | bool (value : Bool)
  /-- A number without fraction and exponent, in the range of 64-bit integers. -/
  | integer (value : Int)
  /-- Any other number, as written. -/
  | decimal (literal : String)
  | string (text : String)
  /-- A well-formed value that denotes nothing: a string with half of a surrogate pair, or an
  object with such a key. It can be skipped but not read. -/
  | unreadable
  | array (items : List Json)
  | object (members : List (String × Json))
deriving Inhabited

namespace Json

/-- A natural number as a JSON value. -/
def ofNat (n : Nat) : Json :=
  .integer n

/-- A list of strings as a JSON value. -/
def ofStrings (xs : List String) : Json :=
  .array (xs.map .string)

/-- An optional value, `null` when absent. -/
def ofOption (encode : α → Json) : Option α → Json
  | none => .null
  | some a => encode a

/-- The value of the first member with a key. -/
def get? (key : String) : Json → Option Json
  | .object members => members.lookup key
  | _ => none

/-- Puts a member at its key's place: over the earlier one if there is one, at the end if not. -/
def putLast (key : String) (value : Json) : List (String × Json) → List (String × Json)
  | [] => [(key, value)]
  | (k, v) :: rest =>
    if k = key then (k, value) :: rest else (k, v) :: putLast key value rest

mutual

/-- The value in which, at every depth, the last of the members with one key stands for them
all. -/
def lastWins : Json → Json
  | .array items => .array (lastWinsItems items)
  | .object members => .object (lastWinsMembers [] members)
  | .null => .null
  | .bool b => .bool b
  | .integer n => .integer n
  | .decimal s => .decimal s
  | .string s => .string s
  | .unreadable => .unreadable

/-- `lastWins` on the items of an array. -/
def lastWinsItems : List Json → List Json
  | [] => []
  | item :: rest => lastWins item :: lastWinsItems rest

/-- `lastWins` on the members of an object, with the members kept so far. -/
def lastWinsMembers (kept : List (String × Json)) : List (String × Json) → List (String × Json)
  | [] => kept
  | (key, value) :: rest => lastWinsMembers (putLast key (lastWins value) kept) rest

end

/-- Puts a member in front of the first one whose key is not less. -/
def insertMember (key : String) (value : Json) : List (String × Json) → List (String × Json)
  | [] => [(key, value)]
  | (k, v) :: rest =>
    if k < key then (k, v) :: insertMember key value rest else (key, value) :: (k, v) :: rest

mutual

/-- The value in which, at every depth, members stand in the order of their keys. -/
def sorted : Json → Json
  | .array items => .array (sortedItems items)
  | .object members => .object (sortedMembers members)
  | .null => .null
  | .bool b => .bool b
  | .integer n => .integer n
  | .decimal s => .decimal s
  | .string s => .string s
  | .unreadable => .unreadable

/-- `sorted` on the items of an array. -/
def sortedItems : List Json → List Json
  | [] => []
  | item :: rest => sorted item :: sortedItems rest

/-- `sorted` on the members of an object. -/
def sortedMembers : List (String × Json) → List (String × Json)
  | [] => []
  | (key, value) :: rest => insertMember key (sorted value) (sortedMembers rest)

end

end Json

end ProxyKeeper
