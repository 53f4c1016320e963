/-!
# Checks of settings

What a setting must meet, with the name of the setting and the words that are reported when it
does not.

## Main Definitions

* `Check`: one condition.
* `Check.firstFailed?`: the first condition of a list that does not hold.
* `isIdentifier`: the form of the names that settings give to parts of the nginx configuration.
-/

namespace ProxyKeeper

/-- A condition on settings. -/
structure Check where
  holds : Bool
  field : String
  reason : String

namespace Check

/-- The first condition that does not hold. -/
def firstFailed? (checks : List Check) : Option Check :=
  checks.find? (!·.holds)

/-- None fails when all hold. -/
theorem firstFailed?_eq_none_iff {checks : List Check} :
    firstFailed? checks = none ↔ ∀ c ∈ checks, c.holds = true := by
  simp [firstFailed?, List.find?_eq_none]

end Check

/-- The characters of identifiers. -/
def isIdentifierCharacter (c : Char) : Bool :=
  ('a' ≤ c && c ≤ 'z') || ('A' ≤ c && c ≤ 'Z') || ('0' ≤ c && c ≤ '9') || c == '_'

/-- Names of zones and of groups of servers. -/
def isIdentifier (s : String) : Bool :=
  !s.isEmpty && s.toList.all isIdentifierCharacter

/-- The largest number of seconds to wait for nginx. -/
def maximalWait : Nat := 300

/-- Whether a number of seconds can be waited. -/
def isWait (n : UInt64) : Bool :=
  1 ≤ n.toNat && n.toNat ≤ maximalWait

end ProxyKeeper
