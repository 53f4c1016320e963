/-!
# UTF-8

Two readings of bytes as text: the strict one refuses bytes that are not UTF-8, the lossy one puts
U+FFFD in the place of each of their maximal parts that begin no character.

## Main Definitions

* `strict?`: the text whose encoding the bytes are.
* `lossy`: the text of any bytes.

## Main Results

* `strict?_toUTF8`, `toUTF8_of_strict?`: the strict reading undoes encoding.
-/

namespace ProxyKeeper.Text.Utf8

/-- The text whose UTF-8 encoding the bytes are. -/
def strict? (bytes : ByteArray) : Option String :=
  String.fromUTF8? bytes

theorem strict?_toUTF8 (s : String) : strict? s.toUTF8 = some s := by
  simp [strict?, String.fromUTF8?, String.fromUTF8, String.toUTF8, s.isValidUTF8]

/-- The text that is read is the one that was encoded. -/
theorem toUTF8_of_strict? {bytes : ByteArray} {s : String} (h : strict? bytes = some s) :
    s.toUTF8 = bytes := by
  rw [strict?, String.fromUTF8?] at h
  split at h
  next valid =>
    cases h
    rfl
  next => cases h

/-- A character part way through: how many bytes are missing, the bounds of the next one, and the
bits read so far. -/
structure Pending where
  missing : Nat
  low : UInt8
  high : UInt8
  bits : Nat

/-- What a first byte announces, with the bounds that keep out overlong forms, surrogates and
numbers beyond the last character. -/
def pendingOf? (b : UInt8) : Option Pending :=
  if 0xC2 ≤ b && b ≤ 0xDF then some ⟨1, 0x80, 0xBF, (b &&& 0x1F).toNat⟩
  else if b == 0xE0 then some ⟨2, 0xA0, 0xBF, 0⟩
  else if b == 0xED then some ⟨2, 0x80, 0x9F, 0xD⟩
  else if 0xE1 ≤ b && b ≤ 0xEF then some ⟨2, 0x80, 0xBF, (b &&& 0x0F).toNat⟩
  else if b == 0xF0 then some ⟨3, 0x90, 0xBF, 0⟩
  else if 0xF1 ≤ b && b ≤ 0xF3 then some ⟨3, 0x80, 0xBF, (b &&& 0x07).toNat⟩
  else if b == 0xF4 then some ⟨3, 0x80, 0x8F, 4⟩
  else none

/-- The character that stands for bytes that are none. -/
def replacement : Char :=
  Char.ofNat 0xFFFD

/-- Begins a character at a byte: the character or replacement it already is, or what is missing. -/
def start (b : UInt8) : List Char × Option Pending :=
  if b < 0x80 then ([Char.ofNat b.toNat], none)
  else match pendingOf? b with
    | some p => ([], some p)
    | none => ([replacement], none)

/-- Goes one byte further. A byte out of bounds ends the pending character as a replacement and
begins the next one. -/
def next (pending : Option Pending) (b : UInt8) : List Char × Option Pending :=
  match pending with
  | none => start b
  | some p =>
    if p.low ≤ b && b ≤ p.high then
      let bits := p.bits * 64 + (b &&& 0x3F).toNat
      if p.missing ≤ 1 then ([Char.ofNat bits], none)
      else ([], some ⟨p.missing - 1, 0x80, 0xBF, bits⟩)
    else
      let (cs, p) := start b
      (replacement :: cs, p)

/-- Reads bytes from the left, with the characters read so far reversed in `done`. -/
def lossyFrom (done : List Char) (pending : Option Pending) : List UInt8 → List Char
  | [] => (if pending.isSome then replacement :: done else done).reverse
  | b :: bs =>
    let (cs, pending) := next pending b
    lossyFrom (cs.reverse ++ done) pending bs

/-- The text of any bytes, with U+FFFD for each maximal part that begins no character. -/
def lossy (bytes : ByteArray) : String :=
  String.ofList (lossyFrom [] none bytes.toList)

end ProxyKeeper.Text.Utf8
