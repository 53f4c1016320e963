import Mathlib.Data.List.TakeDrop
import Mathlib.Data.List.TakeWhile
import Mathlib.Tactic.Common
import ProxyKeeper.Nginx.SemanticVersion
import ProxyKeeper.Proofs.Text.Numerals
import ProxyKeeper.Proofs.Text.Splitting

/-!
# Reading semantic versions

A version is read from nothing but its written form: the signs that cut a text into the parts of a
version stand in no part, so the parts of the written form are found again, and what was cut at its
signs is put together again with them.

## Main Results

* `SemanticVersion.number?_eq_some_iff` — numbers are read from their digits
* `SemanticVersion.read?_eq_some_iff` — versions are read from their written form
* `SemanticVersion.mem_write` — the characters of the written form
-/

namespace ProxyKeeper.Nginx.SemanticVersion

open Text

variable {cs front back : List Char} {ids : List (List Char)} {version : SemanticVersion}

/-! ## Numbers -/

theorem hasLeadingZero_iff : hasLeadingZero cs = true ↔ cs.head? = some '0' ∧ cs ≠ ['0'] := by
  rcases cs with _ | ⟨c, _ | ⟨d, cs⟩⟩
  · simp [hasLeadingZero]
  · simp [hasLeadingZero]
  · by_cases zero : c = '0'
    · subst zero
      simp [hasLeadingZero]
    · simp [hasLeadingZero, zero]

theorem writeNumber_eq (n : UInt64) : writeNumber n = Nat.toDigits 10 n.toNat := by
  rw [writeNumber, Nat.toString_eq_ofList_toDigits, String.toList_ofList]

theorem not_hasLeadingZero_writeNumber (n : UInt64) : hasLeadingZero (writeNumber n) = false := by
  rw [← Bool.not_eq_true, hasLeadingZero_iff, writeNumber_eq]
  rintro ⟨zero, long⟩
  rcases Nat.eq_zero_or_pos n.toNat with nought | positive
  · rw [nought] at long
    exact long rfl
  · exact head?_toDigits positive zero

/-- A number is read from its digits and from nothing else. -/
theorem number?_eq_some_iff {n : UInt64} : number? cs = some n ↔ cs = writeNumber n := by
  constructor
  · intro read
    rw [number?] at read
    split at read
    · cases read
    next noZero =>
      split at read
      next m digits =>
        split at read
        next below =>
          obtain rfl := Option.some.inj read
          have value : (UInt64.ofNat m).toNat = m := UInt64.toNat_ofNat_of_lt' below
          rw [hasLeadingZero_iff, not_and, not_not] at noZero
          rw [writeNumber_eq, value, toDigits_of_ofDigits? digits noZero]
        · cases read
      · cases read
  · rintro rfl
    have below : n.toNat < UInt64.size := n.toNat_lt
    rw [number?, not_hasLeadingZero_writeNumber, writeNumber_eq, ofDigits?_toDigits]
    simp only [Bool.false_eq_true, if_false, below, if_true, UInt64.ofNat_toNat]

/-! ## Cutting at a sign -/

/-- What is cut off where a condition fails for the first time. -/
theorem span_eq_iff {p : Char → Bool} :
    cs.span p = (front, back) ↔
      cs = front ++ back ∧ (∀ c ∈ front, p c = true) ∧ ∀ c ∈ back.head?, p c = false := by
  rw [List.span_eq_takeWhile_dropWhile, Prod.mk.injEq]
  constructor
  · rintro ⟨rfl, rfl⟩
    refine ⟨List.takeWhile_append_dropWhile.symm, fun _ => List.mem_takeWhile_imp,
      fun c first => ?_⟩
    have stops := List.head?_dropWhile_not p cs
    rw [Option.mem_def.1 first] at stops
    simpa using stops
  · rintro ⟨rfl, inFront, ends⟩
    rw [List.takeWhile_append_of_pos inFront, List.dropWhile_append_of_pos inFront]
    cases back with
    | nil => exact ⟨List.append_nil _, rfl⟩
    | cons c back =>
      have stops : ¬ p c = true := Bool.eq_false_iff.1 (ends c rfl)
      rw [List.takeWhile_cons_of_neg stops, List.dropWhile_cons_of_neg stops]
      exact ⟨List.append_nil _, rfl⟩

/-- What stands behind a sign, in pieces between dots, is put together again. -/
theorem writeIdentifiers_identifiers {sign : Char} (begins : ∀ c ∈ cs.head?, c = sign) :
    writeIdentifiers sign (identifiers cs) = cs := by
  cases cs with
  | nil => rfl
  | cons c cs =>
    obtain rfl := begins c rfl
    have some_piece : (cs.splitOn '.').isEmpty = false :=
      List.isEmpty_eq_false_iff.2 (List.splitOn_ne_nil _ _)
    rw [identifiers, splitOn_eq, writeIdentifiers, some_piece, List.intercalate_splitOn]
    rfl

theorem identifiers_writeIdentifiers (sign : Char) (noDot : ∀ id ∈ ids, '.' ∉ id) :
    identifiers (writeIdentifiers sign ids) = ids := by
  rw [writeIdentifiers]
  split
  next none => rw [List.isEmpty_iff.1 none, identifiers]
  next some_id =>
    rw [List.isEmpty_iff] at some_id
    rw [identifiers, splitOn_eq, List.splitOn_intercalate '.' noDot some_id]

theorem head?_writeIdentifiers (sign : Char) (ids : List (List Char)) :
    ∀ c ∈ (writeIdentifiers sign ids).head?, c = sign := by
  rw [writeIdentifiers]
  split
  · rintro c first
    cases first
  · rintro c first
    exact (Option.some.inj first).symm

/-! ## Characters of a version -/

/-- The letters and digits, as they are ordered. -/
theorem isAlphanum_iff {c : Char} :
    c.isAlphanum = true ↔
      ('A' ≤ c ∧ c ≤ 'Z' ∨ 'a' ≤ c ∧ c ≤ 'z') ∨ '0' ≤ c ∧ c ≤ '9' := by
  have ranges : c.isAlphanum = ((decide ('A' ≤ c ∧ c ≤ 'Z') ||
      decide ('a' ≤ c) && decide (c ≤ 'z')) || decide ('0' ≤ c) && decide (c ≤ '9')) := rfl
  simp only [ranges, Bool.or_eq_true, Bool.and_eq_true, decide_eq_true_eq]

theorem isAlphanum_of_isVersionCharacter {c : Char} (inside : isVersionCharacter c = true) :
    c.isAlphanum = true ∨ c = '-' := by
  simp only [isVersionCharacter, isDigit, Bool.or_eq_true, Bool.and_eq_true, decide_eq_true_eq,
    beq_iff_eq] at inside
  rw [isAlphanum_iff]
  rcases inside with ((digit | lower) | upper) | hyphen
  · exact .inl (.inr digit)
  · exact .inl (.inl (.inr lower))
  · exact .inl (.inl (.inl upper))
  · exact .inr hyphen

theorem isVersionCharacter_of_isDigit {c : Char} (digit : isDigit c = true) :
    isVersionCharacter c = true := by
  rw [isVersionCharacter, digit]
  rfl

theorem isVersionCharacter_of_release {id : List Char} (listed : id ∈ version.release) :
    ∀ c ∈ id, isVersionCharacter c = true := by
  have valid := List.all_eq_true.1 version.release_valid id listed
  rw [isReleaseIdentifier, isBuildIdentifier, Bool.and_eq_true, Bool.and_eq_true] at valid
  exact List.all_eq_true.1 valid.1.2

theorem isVersionCharacter_of_build {id : List Char} (listed : id ∈ version.build) :
    ∀ c ∈ id, isVersionCharacter c = true := by
  have valid := List.all_eq_true.1 version.build_valid id listed
  rw [isBuildIdentifier, Bool.and_eq_true] at valid
  exact List.all_eq_true.1 valid.2

/-- The numbers of a version as they are written. -/
def numbers (version : SemanticVersion) : List Char :=
  ['.'].intercalate
    [writeNumber version.major, writeNumber version.minor, writeNumber version.patch]

theorem isDigit_of_mem_writeNumber {n : UInt64} {c : Char} (inside : c ∈ writeNumber n) :
    isDigit c = true :=
  isDigit_of_mem_toDigits (writeNumber_eq n ▸ inside)

theorem mem_numbers {c : Char} (inside : c ∈ version.numbers) : c = '.' ∨ isDigit c = true := by
  rcases eq_or_mem_of_mem_intercalate inside with dot | ⟨number, listed, here⟩
  · exact .inl dot
  · simp only [List.mem_cons, List.not_mem_nil, or_false] at listed
    rcases listed with rfl | rfl | rfl <;> exact .inr (isDigit_of_mem_writeNumber here)

theorem mem_writeIdentifiers {sign c : Char} (inside : c ∈ writeIdentifiers sign ids) :
    c = sign ∨ c = '.' ∨ ∃ id ∈ ids, c ∈ id := by
  rw [writeIdentifiers] at inside
  split at inside
  · cases inside
  · rcases List.mem_cons.1 inside with first | later
    · exact .inl first
    · exact .inr (eq_or_mem_of_mem_intercalate later)

/-- The characters in front of the build. -/
theorem mem_front {c : Char}
    (inside : c ∈ version.numbers ++ writeIdentifiers '-' version.release) :
    c = '.' ∨ isVersionCharacter c = true := by
  rcases List.mem_append.1 inside with number | release
  · exact (mem_numbers number).imp_right isVersionCharacter_of_isDigit
  · rcases mem_writeIdentifiers release with rfl | dot | ⟨id, listed, here⟩
    · exact .inr (by decide)
    · exact .inl dot
    · exact .inr (isVersionCharacter_of_release listed c here)

/-- The characters of the written form. -/
theorem mem_write {c : Char} (inside : c ∈ version.write) :
    c.isAlphanum = true ∨ c ∈ ['-', '.', '+'] := by
  have part {c : Char} (character : isVersionCharacter c = true) :
      c.isAlphanum = true ∨ c ∈ ['-', '.', '+'] :=
    (isAlphanum_of_isVersionCharacter character).imp_right fun hyphen => by simp [hyphen]
  rcases List.mem_append.1 inside with front | build
  · rcases mem_front front with rfl | character
    · exact .inr (by decide)
    · exact part character
  · rcases mem_writeIdentifiers build with rfl | rfl | ⟨id, listed, here⟩
    · exact .inr (by decide)
    · exact .inr (by decide)
    · exact part (isVersionCharacter_of_build listed c here)

theorem write_ne_nil (version : SemanticVersion) : version.write ≠ [] := by
  intro none
  have digits : writeNumber version.major ≠ [] := writeNumber_eq _ ▸ Nat.toDigits_ne_nil
  rw [write, List.intercalate_cons_cons] at none
  simp only [List.append_eq_nil_iff] at none
  exact digits none.1.1.1.1

/-! ## Reading -/

theorem read?_write (version : SemanticVersion) : read? version.write = some version := by
  have notDot {id : List Char} (characters : ∀ c ∈ id, isVersionCharacter c = true) : '.' ∉ id :=
    fun dot => absurd (characters _ dot) (by decide)
  have cutBuild : version.write.span (· != '+') =
      (version.numbers ++ writeIdentifiers '-' version.release,
        writeIdentifiers '+' version.build) := by
    refine span_eq_iff.2 ⟨rfl, fun c inside => ?_, fun c first => ?_⟩
    · rw [bne_iff_ne]
      rintro rfl
      exact absurd (mem_front inside) (by decide)
    · rw [head?_writeIdentifiers _ _ c first]
      rfl
  have cutRelease : (version.numbers ++ writeIdentifiers '-' version.release).span (· != '-') =
      (version.numbers, writeIdentifiers '-' version.release) := by
    refine span_eq_iff.2 ⟨rfl, fun c inside => ?_, fun c first => ?_⟩
    · rw [bne_iff_ne]
      rintro rfl
      exact absurd (mem_numbers inside) (by decide)
    · rw [head?_writeIdentifiers _ _ c first]
      rfl
  have cutNumbers : splitOn '.' version.numbers =
      [writeNumber version.major, writeNumber version.minor, writeNumber version.patch] := by
    rw [splitOn_eq, numbers, List.splitOn_intercalate '.' _ (List.cons_ne_nil _ _)]
    intro number listed
    simp only [List.mem_cons, List.not_mem_nil, or_false] at listed
    rcases listed with rfl | rfl | rfl <;>
      exact fun dot => absurd (isDigit_of_mem_writeNumber dot) (by decide)
  have release : identifiers (writeIdentifiers '-' version.release) = version.release :=
    identifiers_writeIdentifiers '-' fun _ listed => notDot (isVersionCharacter_of_release listed)
  have build : identifiers (writeIdentifiers '+' version.build) = version.build :=
    identifiers_writeIdentifiers '+' fun _ listed => notDot (isVersionCharacter_of_build listed)
  have number (n : UInt64) : number? (writeNumber n) = some n := number?_eq_some_iff.2 rfl
  simp only [read?, cutBuild, cutRelease, cutNumbers, number, release, build, version.release_valid,
    version.build_valid, Option.bind_eq_bind, Option.bind_some, dite_true]

/-- A version is read from its written form and from nothing else. -/
theorem read?_eq_some_iff : read? cs = some version ↔ cs = version.write := by
  constructor
  · intro read
    rcases cutBuild : cs.span (· != '+') with ⟨front, build⟩
    rcases cutRelease : front.span (· != '-') with ⟨number, release⟩
    obtain ⟨rfl, -, buildBegins⟩ := span_eq_iff.1 cutBuild
    obtain ⟨rfl, -, releaseBegins⟩ := span_eq_iff.1 cutRelease
    simp only [read?, cutBuild, cutRelease] at read
    split at read
    next major minor patch cutNumbers =>
      simp only [Option.bind_eq_bind, Option.bind_eq_some_iff, number?_eq_some_iff] at read
      obtain ⟨major, rfl, minor, rfl, patch, rfl, read⟩ := read
      split at read
      next releaseValid =>
        split at read
        next buildValid =>
          obtain rfl := Option.some.inj read
          have numbers : number =
              ['.'].intercalate [writeNumber major, writeNumber minor, writeNumber patch] := by
            rw [← cutNumbers, splitOn_eq, List.intercalate_splitOn]
          rw [write, writeIdentifiers_identifiers (by simpa using releaseBegins),
            writeIdentifiers_identifiers (by simpa using buildBegins)]
          exact congrArg (· ++ release ++ build) numbers
        · cases read
      · cases read
    · cases read
  · rintro rfl
    exact read?_write version

end ProxyKeeper.Nginx.SemanticVersion
