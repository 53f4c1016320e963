import ProxyKeeper.Json.Basic
import ProxyKeeper.Toml.Basic

/-!
# Decoding records

Rules and settings are records, written in JSON or in TOML. Both formats are brought to JSON
values, and a record is decoded field by field: unknown fields are skipped, a known field given
twice is refused, a missing field takes its default or is refused, and a record may also be given
as the array of its fields in their order. What the formats do differently is the `Dialect`.

## Main Definitions

* `DecodeError`: the causes of refusal, with their `message`.
* `Dialect`: `Dialect.json` and `Dialect.toml`.
* `Fields`, `fields`: what a value gives for each field of a record.
* `Json.ofToml`: a TOML value as a JSON value.
-/

namespace ProxyKeeper

/-- Why a value cannot be decoded. -/
inductive DecodeError where
  /-- The text is not in the grammar of its format. -/
  | malformed
  /-- A value of another kind was expected. -/
  | expected (kind : String)
  /-- A number is outside the range of its type. -/
  | outOfRange
  | missingField (name : String)
  | repeatedField (name : String)
  | unknownField (name : String)
  | unknownVariant (name : String)
  /-- An array has more items than the record has fields. -/
  | excessItems
deriving DecidableEq

/-- The cause in words. -/
def DecodeError.message : DecodeError → String
  | .malformed => "malformed document"
  | .expected kind => "expected " ++ kind
  | .outOfRange => "number out of range"
  | .missingField name => "missing field '" ++ name ++ "'"
  | .repeatedField name => "duplicate field '" ++ name ++ "'"
  | .unknownField name => "unknown field '" ++ name ++ "'"
  | .unknownVariant name => "unknown variant '" ++ name ++ "'"
  | .excessItems => "too many items"

/-- What the formats do differently. -/
structure Dialect where
  /-- Whether a value may stand for the missing content of a variant given as a one-entry table. -/
  isUnit : Json → Bool
  /-- Whether a record given as an array may have more items than fields. -/
  allowsExcess : Bool

/-- In JSON the content of a variant is `null`, and every item of an array must be a field. -/
def Dialect.json : Dialect where
  isUnit
    | .null => true
    | _ => false
  allowsExcess := false

/-- TOML has no `null`: the content of a variant is an empty table or array. Items beyond the
fields are not looked at. -/
def Dialect.toml : Dialect where
  isUnit
    | .array [] => true
    | .object [] => true
    | _ => false
  allowsExcess := true

mutual

/-- A TOML value as a JSON value. A date-time is a table with one entry, whose key no field
bears. -/
def Json.ofToml : Toml.Value → Json
  | .string s => .string s
  | .integer n => .integer n
  | .float literal => .decimal literal
  | .boolean b => .bool b
  | .dateTime literal => .object [("$__toml_private_datetime", .string literal)]
  | .array items => .array (Json.ofTomlItems items)
  | .table members => .object (Json.ofTomlMembers members)

/-- `Json.ofToml` on the items of an array. -/
def Json.ofTomlItems : List Toml.Value → List Json
  | [] => []
  | item :: rest => Json.ofToml item :: Json.ofTomlItems rest

/-- `Json.ofToml` on the members of a table. -/
def Json.ofTomlMembers : List (String × Toml.Value) → List (String × Json)
  | [] => []
  | (key, value) :: rest => (key, Json.ofToml value) :: Json.ofTomlMembers rest

end

namespace Decode

/-- The result of decoding. -/
abbrev Result := Except DecodeError

/-- A string. -/
def string : Json → Result String
  | .string s => .ok s
  | _ => .error (.expected "a string")

/-- A truth value. -/
def bool : Json → Result Bool
  | .bool b => .ok b
  | _ => .error (.expected "a boolean")

/-- A natural number below a bound. -/
def natBelow (bound : Nat) : Json → Result Nat
  | .integer (.ofNat n) => if n < bound then .ok n else .error .outOfRange
  | .integer (.negSucc _) => .error .outOfRange
  | _ => .error (.expected "an integer")

/-- A number of 16 bits. -/
def uint16 (value : Json) : Result UInt16 :=
  (natBelow UInt16.size value).map UInt16.ofNat

/-- A number of 32 bits. -/
def uint32 (value : Json) : Result UInt32 :=
  (natBelow UInt32.size value).map UInt32.ofNat

/-- A number of 64 bits. -/
def uint64 (value : Json) : Result UInt64 :=
  (natBelow UInt64.size value).map UInt64.ofNat

/-- Decodes values one after another. -/
def all (item : Json → Result α) : List Json → Result (List α)
  | [] => .ok []
  | value :: rest => do
    let a ← item value
    let as ← all item rest
    .ok (a :: as)

/-- An array whose items are all of one kind. -/
def list (item : Json → Result α) : Json → Result (List α)
  | .array items => all item items
  | _ => .error (.expected "an array")

/-- A value that may be `null`. -/
def option (some? : Json → Result α) : Json → Result (Option α)
  | .null => .ok none
  | value => (some? value).map some

/-- Members whose values are all strings. -/
def stringMembers : List (String × Json) → Result (List (String × String))
  | [] => .ok []
  | (key, value) :: rest => do
    let text ← string value
    let rest ← stringMembers rest
    .ok ((key, text) :: rest)

/-- A table from strings to strings, in the order given. -/
def stringTable : Json → Result (List (String × String))
  | .object members => stringMembers members
  | _ => .error (.expected "a table")

/-- One of several variants without content, by its name or as a table with that one entry. -/
def variant (d : Dialect) (names : List (String × α)) : Json → Result α
  | .string name =>
    match names.lookup name with
    | some a => .ok a
    | none => .error (.unknownVariant name)
  | .object [(name, content)] =>
    match names.lookup name with
    | some a => if d.isUnit content then .ok a else .error (.expected "no content")
    | none => .error (.unknownVariant name)
  | _ => .error (.expected "a variant")

/-- What is given for each field of a record. -/
abbrev Fields := String → Option Json

/-- The first name that two or more members bear. -/
def repeated? (names : List String) (members : List (String × Json)) : Option String :=
  names.find? fun name => 1 < (members.filter (·.1 == name)).length

/-- What a value gives for each of the named fields of a record. -/
def fields (d : Dialect) (names : List String) : Json → Result Fields
  | .object members =>
    match repeated? names members with
    | some name => .error (.repeatedField name)
    | none => .ok fun name => members.lookup name
  | .array items =>
    if !d.allowsExcess && names.length < items.length then .error .excessItems
    else .ok fun name => (names.zip items).lookup name
  | _ => .error (.expected "a record")

/-- `fields` for records that refuse unknown fields. -/
def closedFields (d : Dialect) (names : List String) (value : Json) : Result Fields :=
  match value with
  | .object members =>
    match members.find? fun (key, _) => !names.contains key with
    | some (key, _) => .error (.unknownField key)
    | none => fields d names value
  | _ => fields d names value

/-- A field that must be given. -/
def Fields.required (given : Fields) (name : String) (item : Json → Result α) : Result α :=
  match given name with
  | some value => item value
  | none => .error (.missingField name)

/-- A field that takes a default when it is not given. -/
def Fields.withDefault (given : Fields) (name : String) (default : α) (item : Json → Result α) :
    Result α :=
  match given name with
  | some value => item value
  | none => .ok default

end Decode

end ProxyKeeper
