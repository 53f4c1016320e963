import ProxyKeeper.Decode

/-!
# Points in time

When a rule was created: seconds and nanoseconds since the epoch. The seconds are those of the
system clock, 64 bits with a sign; in files only times from the epoch on can be written.

## Main Definitions

* `Timestamp`: the points in time.
* `Timestamp.encode?`, `Timestamp.decode`: the record with two fields.

## Main Results

* `Timestamp.ofParts?_toNat`: a point in time is given back by its parts.
-/

namespace ProxyKeeper

/-- Seconds since the epoch and nanoseconds after that second. -/
structure Timestamp where
  seconds : Int64
  nanoseconds : UInt32
  nanoseconds_lt : nanoseconds.toNat < 1000000000
deriving DecidableEq

namespace Timestamp

/-- The epoch itself. -/
def epoch : Timestamp :=
  ⟨0, 0, by decide⟩

instance : Inhabited Timestamp := ⟨epoch⟩

/-- The point in time a number of seconds and nanoseconds after the epoch, whole seconds of the
nanoseconds carried over, when the clock can tell it. -/
def ofParts? (seconds nanoseconds : Nat) : Option Timestamp :=
  let total := seconds + nanoseconds / 1000000000
  if total < 0x8000000000000000 then
    some ⟨Int64.ofNat total, UInt32.ofNat (nanoseconds % 1000000000), by
      simp only [UInt32.toNat_ofNat']
      omega⟩
  else none

/-- Whether the point in time is not before the epoch. -/
def isFromEpoch (t : Timestamp) : Bool :=
  0 ≤ t.seconds

/-- The written form; a point in time before the epoch has none. -/
def encode? (t : Timestamp) : Option Json :=
  if t.isFromEpoch then
    some (.object [("secs_since_epoch", .integer t.seconds.toInt),
      ("nanos_since_epoch", .ofNat t.nanoseconds.toNat)])
  else none

/-- Reads the written form. Both fields must be given, and no other. -/
def decode (d : Dialect) (value : Json) : Decode.Result Timestamp := do
  let given ← Decode.closedFields d ["secs_since_epoch", "nanos_since_epoch"] value
  let seconds ← given.required "secs_since_epoch" Decode.uint64
  let nanoseconds ← given.required "nanos_since_epoch" Decode.uint32
  match ofParts? seconds.toNat nanoseconds.toNat with
  | some t => .ok t
  | none => .error .outOfRange

/-- A point in time from the epoch on is the one of its own parts. -/
theorem ofParts?_toNat {t : Timestamp} (h : t.isFromEpoch = true) :
    ofParts? t.seconds.toInt.toNat t.nanoseconds.toNat = some t := by
  obtain ⟨s, n, hn⟩ := t
  have hs : 0 ≤ s.toInt := Int64.le_iff_toInt_le.1 (of_decide_eq_true h)
  have hlt := s.toInt_lt
  have carry : n.toNat / 1000000000 = 0 := Nat.div_eq_of_lt hn
  have small : s.toInt.toNat < 0x8000000000000000 := by omega
  simp only [ofParts?, carry, Nat.add_zero, if_pos small, Option.some.injEq]
  congr 1
  · have fits : Int64.toInt (Int64.ofNat s.toInt.toNat) = s.toInt.toNat :=
      Int64.toInt_ofNat_of_lt (by omega)
    exact Int64.toInt_inj.1 (by rw [fits, Int.toNat_of_nonneg hs])
  · rw [Nat.mod_eq_of_lt hn, UInt32.ofNat_toNat]

end Timestamp

end ProxyKeeper
