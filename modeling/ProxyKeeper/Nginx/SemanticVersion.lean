import ProxyKeeper.Nginx.Version
import ProxyKeeper.Text.Decimal
import ProxyKeeper.Text.Replace

/-!
# Semantic versions

A semantic version has one written form. Its numbers have no leading zeros and fit 64 bits; the
identifiers of a pre-release are numbers without leading zeros or hold a letter or a hyphen; those
of a build are free of this.

## Main Definitions

* `SemanticVersion`: the versions; `SemanticVersion.write`: the written form.
* `SemanticVersion.read?`: the version a text is the written form of.
* `semanticVersions`: these versions, for reports of nginx.
-/

namespace ProxyKeeper.Nginx

/-- The characters of identifiers. -/
def isVersionCharacter (c : Char) : Bool :=
  Text.isDigit c || ('a' ≤ c && c ≤ 'z') || ('A' ≤ c && c ≤ 'Z') || c == '-'

/-- The identifiers of a build. -/
def isBuildIdentifier (cs : List Char) : Bool :=
  !cs.isEmpty && cs.all isVersionCharacter

/-- Whether digits begin with a zero that could be left out. -/
def hasLeadingZero : List Char → Bool
  | '0' :: _ :: _ => true
  | _ => false

/-- The identifiers of a pre-release. -/
def isReleaseIdentifier (cs : List Char) : Bool :=
  isBuildIdentifier cs && !(cs.all Text.isDigit && hasLeadingZero cs)

/-- A semantic version. -/
structure SemanticVersion where
  major : UInt64
  minor : UInt64
  patch : UInt64
  /-- The identifiers of a pre-release; none for a release. -/
  release : List (List Char) := []
  build : List (List Char) := []
  release_valid : release.all isReleaseIdentifier = true := by decide
  build_valid : build.all isBuildIdentifier = true := by decide
deriving DecidableEq

namespace SemanticVersion

/-- A number without leading zeros. -/
def number? (cs : List Char) : Option UInt64 :=
  if hasLeadingZero cs then none
  else match Text.ofDigits? cs with
    | some n => if n < UInt64.size then some (UInt64.ofNat n) else none
    | none => none

/-- Identifiers between dots, after the character that announces them; none without it. -/
def identifiers : List Char → List (List Char)
  | [] => []
  | _ :: cs => Text.splitOn '.' cs

/-- The version a text is the written form of. -/
def read? (cs : List Char) : Option SemanticVersion :=
  let (front, build) := cs.span (· != '+')
  let (numbers, release) := front.span (· != '-')
  match Text.splitOn '.' numbers with
  | [major, minor, patch] => do
    let major ← number? major
    let minor ← number? minor
    let patch ← number? patch
    if hr : (identifiers release).all isReleaseIdentifier = true then
      if hb : (identifiers build).all isBuildIdentifier = true then
        some ⟨major, minor, patch, identifiers release, identifiers build, hr, hb⟩
      else none
    else none
  | _ => none

/-- Identifiers with the character that announces them; nothing when there are none. -/
def writeIdentifiers (sign : Char) (identifiers : List (List Char)) : List Char :=
  if identifiers.isEmpty then [] else sign :: ['.'].intercalate identifiers

/-- The digits of a number. -/
def writeNumber (n : UInt64) : List Char :=
  (toString n.toNat).toList

/-- The written form of a version. -/
def write (version : SemanticVersion) : List Char :=
  ['.'].intercalate
      [writeNumber version.major, writeNumber version.minor, writeNumber version.patch] ++
    writeIdentifiers '-' version.release ++ writeIdentifiers '+' version.build

/-- The written form of a version, as a string. -/
def text (version : SemanticVersion) : String :=
  String.ofList version.write

end SemanticVersion

/-- The semantic versions. -/
abbrev semanticVersions : Versions where
  Version := SemanticVersion
  parse? text := SemanticVersion.read? text.toList
  display := SemanticVersion.text

end ProxyKeeper.Nginx
