import ProxyKeeper.Toml.Basic
import ProxyKeeper.Text.Decimal

/-!
# Unquoted TOML scalars

An unquoted scalar is a run of letters, digits and the signs `+`, `-`, `_`, `.`, `:`. The run as a
whole is an integer, a float, a boolean or a date-time, or the document is refused.

## Main Definitions

* `integer?`: decimal with an optional sign, or hexadecimal, octal or binary with `0x`, `0o`, `0b`.
* `float?`: a decimal with a fraction or an exponent, an infinity or a not-a-number.
* `isDateTime`: dates and times of day, with seconds optional.
* `Value.ofWord?`: the scalar that a run writes.
-/

namespace ProxyKeeper.Toml

open Text (isDigit digitValue digitsFrom hexValue?)

/-- Digits of a kind, with single underscores between digits; the result is without them. -/
def separated? (isOfKind : Char → Bool) : List Char → Option (List Char)
  | [] => none
  | [c] => if isOfKind c then some [c] else none
  | c :: '_' :: cs => if isOfKind c then (separated? isOfKind cs).map (c :: ·) else none
  | c :: cs => if isOfKind c then (separated? isOfKind cs).map (c :: ·) else none

/-- The number that digits of a base write. -/
def ofBase (base : Nat) (cs : List Char) : Nat :=
  cs.foldl (fun n c => base * n + (hexValue? c).getD 0) 0

/-- Decimal digits with no needless zero in front. -/
def unpadded? (cs : List Char) : Option (List Char) :=
  match separated? isDigit cs with
  | some ['0'] => some ['0']
  | some ('0' :: _) => none
  | ds => ds

/-- An integer. -/
def integer? : List Char → Option Int
  | '0' :: 'x' :: cs => (separated? (fun c => (hexValue? c).isSome) cs).map (ofBase 16 ·)
  | '0' :: 'o' :: cs => (separated? (fun c => '0' ≤ c && c ≤ '7') cs).map (ofBase 8 ·)
  | '0' :: 'b' :: cs => (separated? (fun c => c = '0' || c = '1') cs).map (ofBase 2 ·)
  | '+' :: cs => (unpadded? cs).map (digitsFrom 0 ·)
  | '-' :: cs => (unpadded? cs).map fun ds => -(digitsFrom 0 ds : Int)
  | cs => (unpadded? cs).map (digitsFrom 0 ·)

/-- Integers are held in 128 bits, signed or unsigned. -/
def fitsInteger (n : Int) : Bool :=
  -(Text.largestOfBits 127 + 1 : Int) ≤ n && n ≤ Text.largestOfBits 128

/-- A run without its sign. -/
def unsigned : List Char → List Char
  | '+' :: cs => cs
  | '-' :: cs => cs
  | cs => cs

/-- Whether a decimal with the given digits before and after the point and the given exponent is
beyond every finite number of 64-bit floating point. Half way between the largest and the next
power of two counts as beyond. -/
def overflows (whole fraction : List Char) (exponent : Int) : Bool :=
  let ds := (whole ++ fraction).dropWhile (· = '0')
  let scale := exponent - fraction.length
  let magnitude := scale + ds.length
  if ds.isEmpty || magnitude < 308 then false
  else if magnitude > 310 then true
  else
    let limit : Nat := Nat.pow 2 1024 - Nat.pow 2 970
    let n := digitsFrom 0 ds
    if 0 ≤ scale then limit ≤ n * Nat.pow 10 scale.toNat
    else limit * Nat.pow 10 (-scale).toNat ≤ n

/-- The exponent of a float, after its letter. -/
def exponent? (cs : List Char) : Option Int :=
  match cs with
  | '-' :: ds => (separated? isDigit ds).map fun ds => -(digitsFrom 0 ds : Int)
  | cs => (separated? isDigit (unsigned cs)).map (digitsFrom 0 ·)

/-- Whether a run is a float with a point or an exponent, of finite value. -/
def isDecimalFloat (cs : List Char) : Bool :=
  let body := unsigned cs
  let isMark (c : Char) : Bool := c = 'e' || c = 'E'
  let (mantissa, power) := (body.takeWhile (!isMark ·), body.dropWhile (!isMark ·))
  let (whole, point) := (mantissa.takeWhile (· ≠ '.'), mantissa.dropWhile (· ≠ '.'))
  let whole := unpadded? whole
  let fraction := match point with
    | [] => some []
    | _ :: ds => separated? isDigit ds
  let exponent := match power with
    | [] => some 0
    | _ :: ds => exponent? ds
  match whole, fraction, exponent with
  | some whole, some fraction, some exponent =>
    !(point.isEmpty && power.isEmpty) && !overflows whole fraction exponent
  | _, _, _ => false

/-- A float. -/
def float? (cs : List Char) : Option String :=
  let body := String.ofList (unsigned cs)
  if body = "inf" || body = "nan" || isDecimalFloat cs then some (String.ofList cs) else none

/-- A number of exactly two digits and what follows it. -/
def twoDigits? : List Char → Option (Nat × List Char)
  | a :: b :: cs =>
    if isDigit a && isDigit b then some (10 * digitValue a + digitValue b, cs) else none
  | _ => none

/-- The days of a month. -/
def daysIn (year month : Nat) : Nat :=
  if month = 2 then
    if year % 4 = 0 && (year % 100 ≠ 0 || year % 400 = 0) then 29 else 28
  else if month = 4 || month = 6 || month = 9 || month = 11 then 30
  else 31

/-- What follows a date of the calendar. -/
def date? (cs : List Char) : Option (List Char) := do
  let (century, cs) ← twoDigits? cs
  let (year, cs) ← twoDigits? cs
  match cs with
  | '-' :: cs =>
    let (month, cs) ← twoDigits? cs
    match cs with
    | '-' :: cs =>
      let (day, cs) ← twoDigits? cs
      if 1 ≤ month && month ≤ 12 && 1 ≤ day && day ≤ daysIn (100 * century + year) month then
        some cs
      else none
    | _ => none
  | _ => none

/-- What follows the seconds of a time of day, when it has any. -/
def seconds? : List Char → Option (List Char)
  | ':' :: cs => do
    let (second, cs) ← twoDigits? cs
    if second > 60 then none
    else match cs with
      | '.' :: c :: cs => if isDigit c then some (cs.dropWhile isDigit) else none
      | '.' :: [] => none
      | cs => some cs
  | cs => some cs

/-- What follows a time of day. -/
def time? (cs : List Char) : Option (List Char) := do
  let (hour, cs) ← twoDigits? cs
  match cs with
  | ':' :: cs =>
    let (minute, cs) ← twoDigits? cs
    if hour ≤ 23 && minute ≤ 59 then seconds? cs else none
  | _ => none

/-- Whether a run is the distance of a time from universal time. -/
def isOffset : List Char → Bool
  | ['Z'] => true
  | ['z'] => true
  | sign :: cs =>
    (sign = '+' || sign = '-') &&
      match twoDigits? cs with
      | some (hour, ':' :: cs) =>
        match twoDigits? cs with
        | some (minute, []) => hour ≤ 23 && minute ≤ 59
        | _ => false
      | _ => false
  | [] => false

/-- Whether a run is a date, a time of day, or a date and a time with or without an offset. -/
def isDateTime (cs : List Char) : Bool :=
  match date? cs with
  | some [] => true
  | some (mark :: rest) =>
    (mark = 'T' || mark = 't' || mark = ' ') &&
      match time? rest with
      | some [] => true
      | some offset => isOffset offset
      | none => false
  | none => time? cs == some []

/-- The scalar that a run writes. -/
def Value.ofWord? (cs : List Char) : Option Value :=
  if cs = "true".toList then some (.boolean true)
  else if cs = "false".toList then some (.boolean false)
  else match integer? cs with
    | some n => if fitsInteger n then some (.integer n) else none
    | none =>
      match float? cs with
      | some literal => some (.float literal)
      | none => if isDateTime cs then some (.dateTime (String.ofList cs)) else none

end ProxyKeeper.Toml
