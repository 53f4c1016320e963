import ProxyKeeper.Text.Decimal

/-!
# Unique names

Names that are unlike any other: 122 random bits, written as 32 hexadecimal digits in five groups.
The other six bits say that the name is a random one.

## Main Definitions

* `Uuid.write`: the name made of some bits.
-/

namespace ProxyKeeper.Text.Uuid

/-- The sixteen bits of the third group: four that say the name is random, and twelve more. -/
def third (bits : Nat) : Nat :=
  0x4000 + bits % 0x1000

/-- The sixteen bits of the fourth group: two that say how the name is laid out, and fourteen
more. -/
def fourth (bits : Nat) : Nat :=
  0x8000 + bits % 0x4000

/-- The groups of a name: how many digits each has, and their value. -/
def groups (bits : Nat) : List (List Char) :=
  [hexDigits 8 (bits >>> 90), hexDigits 4 (bits >>> 74),
   hexDigits 4 (third (bits >>> 62)), hexDigits 4 (fourth (bits >>> 48)),
   hexDigits 12 bits]

/-- The name made of some bits. -/
def write (bits : Nat) : String :=
  String.ofList (['-'].intercalate (groups bits))

end ProxyKeeper.Text.Uuid
