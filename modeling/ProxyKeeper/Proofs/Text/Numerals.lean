import Mathlib.Data.List.Basic
import Mathlib.Tactic.Common
import ProxyKeeper.Text.Decimal

/-!
# Numbers and their digits

A number is written with the digits of its value, the first of which is a zero only when it is the
only one. So a run of digits is the written form of a number exactly when it has no zero in front
that could be left out.

## Main Results

* `Text.ofDigits?_toDigits` — the digits of a number are read as the number
* `Text.toDigits_of_ofDigits?` — digits without a zero in front are those of the number they write
-/

namespace ProxyKeeper.Text

variable {n start : Nat} {cs : List Char}

theorem isDigit_eq (c : Char) : isDigit c = c.isDigit :=
  rfl

theorem digitsFrom_eq (start : Nat) (cs : List Char) :
    digitsFrom start cs = Nat.ofDigitChars 10 cs start :=
  rfl

/-- The character of a digit's value is the digit. -/
theorem digitChar_digitValue {c : Char} (digit : isDigit c = true) :
    digitValue c < 10 ∧ (digitValue c).digitChar = c := by
  rw [isDigit_eq, Char.isDigit, Bool.and_eq_true, decide_eq_true_iff, decide_eq_true_iff] at digit
  have low : 48 ≤ c.toNat := digit.1
  have high : c.toNat ≤ 57 := digit.2
  have value : digitValue c = c.toNat - 48 := rfl
  have below : digitValue c < 10 := by omega
  refine ⟨below, Char.toNat_inj.1 ?_⟩
  rw [Nat.toNat_digitChar_of_lt_ten below]
  omega

theorem isDigit_of_mem_toDigits {c : Char} (inside : c ∈ Nat.toDigits 10 n) : isDigit c = true :=
  isDigit_eq c ▸ Nat.isDigit_of_mem_toDigits (by decide) (by decide) inside

/-- The digits of a number are read as the number. -/
theorem ofDigits?_toDigits (n : Nat) : ofDigits? (Nat.toDigits 10 n) = some n := by
  have some_digit : (Nat.toDigits 10 n).isEmpty = false :=
    List.isEmpty_eq_false_iff.2 Nat.toDigits_ne_nil
  have digits : (Nat.toDigits 10 n).all isDigit = true :=
    List.all_eq_true.2 fun _ => isDigit_of_mem_toDigits
  rw [ofDigits?, some_digit, digits, digitsFrom_eq, Nat.ofDigitChars_ten_toDigits]
  rfl

/-- The first digit of a number above nought is no zero: by induction, for the digits in front of
the last one are those of a number above nought as well. -/
theorem head?_toDigits (positive : 0 < n) : (Nat.toDigits 10 n).head? ≠ some '0' := by
  induction n using Nat.strongRecOn with
  | ind n ih =>
    by_cases small : n < 10
    · rw [Nat.toDigits_of_lt_base small, List.head?_cons, Ne, Option.some.injEq,
        Nat.digitChar_eq_zero]
      omega
    · rw [Nat.toDigits_of_base_le (by decide) (by omega),
        List.head?_append_of_ne_nil _ Nat.toDigits_ne_nil]
      exact ih (n / 10) (by omega) (by omega)

/-- Digits behind those of a number above nought are digits of the number that all of them
write. -/
theorem toDigits_digitsFrom (positive : 0 < start) (digits : ∀ c ∈ cs, isDigit c = true) :
    Nat.toDigits 10 (digitsFrom start cs) = Nat.toDigits 10 start ++ cs := by
  induction cs generalizing start with
  | nil => rw [List.append_nil]; rfl
  | cons c cs ih =>
    obtain ⟨first, others⟩ := List.forall_mem_cons.1 digits
    obtain ⟨below, same⟩ := digitChar_digitValue first
    have next : digitsFrom start (c :: cs) = digitsFrom (10 * start + digitValue c) cs := rfl
    rw [next, ih (by omega) others, ← Nat.toDigits_append_toDigits (by decide) positive below,
      Nat.toDigits_of_lt_base below, same, List.append_assoc, List.singleton_append]

/-- Digits without a zero in front that could be left out are those of the number they write. -/
theorem toDigits_of_ofDigits? (read : ofDigits? cs = some n)
    (noZero : cs.head? = some '0' → cs = ['0']) : Nat.toDigits 10 n = cs := by
  rw [ofDigits?] at read
  split at read
  · cases read
  next run =>
    rw [Bool.or_eq_true, not_or, Bool.not_eq_true', Bool.not_eq_false, List.all_eq_true] at run
    obtain ⟨some_digit, digits⟩ := run
    obtain rfl := Option.some.inj read
    cases cs with
    | nil => exact absurd rfl some_digit
    | cons c cs =>
      by_cases zero : c = '0'
      · subst zero
        rw [noZero rfl]
        rfl
      · obtain ⟨first, others⟩ := List.forall_mem_cons.1 digits
        obtain ⟨below, same⟩ := digitChar_digitValue first
        have positive : 0 < digitValue c := by
          refine Nat.pos_of_ne_zero fun nought => zero ?_
          rw [← same, nought]
          rfl
        have next : digitsFrom 0 (c :: cs) = digitsFrom (digitValue c) cs := by
          rw [digitsFrom, List.foldl_cons, Nat.mul_zero, Nat.zero_add]
          rfl
        rw [next, toDigits_digitsFrom positive others, Nat.toDigits_of_lt_base below, same]
        rfl

end ProxyKeeper.Text
