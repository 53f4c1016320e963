/-!
# Decimal numbers

Reading and writing natural numbers in ASCII decimal digits. The reader of settings accepts one
leading plus sign and refuses everything else that is not a digit; a bound on the value is part of
the reader, so that a number beyond its type is refused and not reduced.

## Main Definitions

* `isDigit`, `digitValue`: the ten ASCII digits.
* `ofDigits?`: the number a non-empty run of digits writes.
* `readBounded?`: a number of a type with a largest value, with an optional plus sign.
-/

namespace ProxyKeeper.Text

/-- The ten ASCII digits. -/
def isDigit (c : Char) : Bool :=
  '0' ≤ c && c ≤ '9'

/-- The value of an ASCII digit. -/
def digitValue (c : Char) : Nat :=
  c.toNat - '0'.toNat

/-- The number written by digits that follow the digits of `start`. -/
def digitsFrom (start : Nat) (cs : List Char) : Nat :=
  cs.foldl (fun n c => 10 * n + digitValue c) start

/-- The number that a non-empty run of digits writes; leading zeros are allowed. -/
def ofDigits? (cs : List Char) : Option Nat :=
  if cs.isEmpty || !cs.all isDigit then none else some (digitsFrom 0 cs)

/-- A number of at most `largest`, in digits after an optional plus sign. -/
def readBounded? (largest : Nat) (s : String) : Option Nat :=
  let digits := match s.toList with
    | '+' :: rest => rest
    | cs => cs
  match ofDigits? digits with
  | some n => if n ≤ largest then some n else none
  | none => none

/-- The largest value of an unsigned number of the given width in bits. -/
def largestOfBits (bits : Nat) : Nat :=
  Nat.pow 2 bits - 1

/-- The lowercase hexadecimal digit of a number below sixteen. -/
def hexDigit (n : Nat) : Char :=
  if n < 10 then Char.ofNat ('0'.toNat + n) else Char.ofNat ('a'.toNat + (n - 10))

/-- The value of a hexadecimal digit of either case. -/
def hexValue? (c : Char) : Option Nat :=
  if isDigit c then some (digitValue c)
  else if 'a' ≤ c && c ≤ 'f' then some (c.toNat - 'a'.toNat + 10)
  else if 'A' ≤ c && c ≤ 'F' then some (c.toNat - 'A'.toNat + 10)
  else none

/-- The last `width` hexadecimal digits of a number, most significant first. -/
def hexDigits : Nat → Nat → List Char
  | 0, _ => []
  | width + 1, n => hexDigits width (n / 16) ++ [hexDigit (n % 16)]

end ProxyKeeper.Text
