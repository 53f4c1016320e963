import Mathlib.Data.List.TakeWhile
import Mathlib.Tactic.Common
import ProxyKeeper.Rule.Validity

/-!
# The forms of strings

What the strings of a rule may look like, in terms of letters, digits and marks. The checks of the
model run over a text from one end and stop at the first character that is out of place; here each
of them is brought to the form it stands for.

## Main Definitions

* `Form.Over`: texts over the letters, the digits and some marks
* `Form.Id`, `Form.Name`, `Form.Domain`, `Form.Path`, `Form.Header`, `Form.Size`, `Form.Line`: the
  forms

## Main Results

* `isRuleId_iff` and the facts after it — a check passes exactly the texts of its form
-/

namespace ProxyKeeper

namespace Form

/-- Texts of ASCII letters and digits and of the marks. -/
def Over (marks : List Char) (s : String) : Prop :=
  ∀ c ∈ s.toList, c.isAlphanum = true ∨ c ∈ marks

/-- Ids have 1 to 128 characters. -/
def Id (s : String) : Prop :=
  1 ≤ s.toList.length ∧ s.toList.length ≤ 128 ∧ Over ['_', '-'] s

/-- Names of hosts and containers. -/
def Name (s : String) : Prop :=
  s ≠ "" ∧ Over ['.', '_', '-'] s

/-- Names of hosts, alone or with `*.` in front. -/
def Domain (s : String) : Prop :=
  Name s ∨ ∃ host, Name host ∧ s = "*." ++ host

/-- Paths begin at the root, without white space and without what nginx gives a meaning. -/
def Path (s : String) : Prop :=
  (∃ rest, s = "/" ++ rest) ∧
    ∀ c ∈ s.toList, Text.isBlank c = false ∧ c ∉ [';', '{', '}', '#', '"', '\'', '\\']

/-- Names of headers. -/
def Header (s : String) : Prop :=
  s ≠ "" ∧ Over ['_', '-'] s

/-- Sizes are digits with a unit or without one. -/
def Size (s : String) : Prop :=
  ∃ digits unit, s.toList = digits ++ unit ∧ digits ≠ [] ∧ (∀ c ∈ digits, c.isDigit = true) ∧
    (unit = [] ∨ ∃ c ∈ ['k', 'K', 'm', 'M', 'g', 'G'], unit = [c])

/-- Texts that stay on their line. -/
def Line (s : String) : Prop :=
  ∀ c ∈ s.toList, c ∉ ['\n', '\r', '\x00']

end Form

/-! ## Characters -/

theorem isAlphanumeric_eq (c : Char) : isAlphanumeric c = c.isAlphanum := by
  have classes : c.isAlphanum = (decide ('A' ≤ c ∧ c ≤ 'Z') || ('a' ≤ c && c ≤ 'z') ||
    ('0' ≤ c && c ≤ '9')) := rfl
  rw [classes, isAlphanumeric, Bool.decide_and, Bool.or_comm (decide ('a' ≤ c) && _)]

theorem isUnit_iff {c : Char} : isUnit c = true ↔ c ∈ ['k', 'K', 'm', 'M', 'g', 'G'] := by
  simp only [isUnit, Bool.or_eq_true, beq_iff_eq, List.mem_cons, List.not_mem_nil, or_false]
  tauto

/-- No unit is a digit. -/
theorem isUnit_of_isDigit {c : Char} (digit : Text.isDigit c = true) : isUnit c = false := by
  rw [← Bool.not_eq_true, isUnit_iff]
  intro listed
  simp only [List.mem_cons, List.not_mem_nil, or_false] at listed
  rcases listed with rfl | rfl | rfl | rfl | rfl | rfl <;> exact absurd digit (by decide)

theorem all_isIdCharacter_iff {s : String} :
    s.toList.all isIdCharacter = true ↔ Form.Over ['_', '-'] s := by
  rw [List.all_eq_true]
  refine forall₂_congr fun c _ => ?_
  simp only [isIdCharacter, isAlphanumeric_eq, Bool.or_eq_true, beq_iff_eq, List.mem_cons,
    List.not_mem_nil, or_false]
  tauto

theorem all_isNameCharacter_iff {s : String} :
    s.toList.all isNameCharacter = true ↔ Form.Over ['.', '_', '-'] s := by
  rw [List.all_eq_true]
  refine forall₂_congr fun c _ => ?_
  simp only [isNameCharacter, isAlphanumeric_eq, Bool.or_eq_true, beq_iff_eq, List.mem_cons,
    List.not_mem_nil, or_false]
  tauto

/-! ## Texts -/

variable {s : String}

theorem isRuleId_iff : isRuleId s = true ↔ Form.Id s := by
  have some_character : (!s.isEmpty) = true ↔ 1 ≤ s.toList.length := by
    rw [Bool.not_eq_true', String.isEmpty_eq_false_iff, Nat.one_le_iff_ne_zero, Ne, Ne,
      List.length_eq_zero_iff, String.toList_eq_nil_iff]
  rw [isRuleId, Bool.and_eq_true, Bool.and_eq_true, some_character, decide_eq_true_iff,
    all_isIdCharacter_iff, and_assoc]
  rfl

theorem isSafeName_iff : isSafeName s = true ↔ Form.Name s := by
  rw [isSafeName, Bool.and_eq_true, all_isNameCharacter_iff, Bool.not_eq_true',
    String.isEmpty_eq_false_iff]
  rfl

theorem isHeaderName_iff : isHeaderName s = true ↔ Form.Header s := by
  rw [isHeaderName, Bool.and_eq_true, all_isIdCharacter_iff, Bool.not_eq_true',
    String.isEmpty_eq_false_iff]
  rfl

theorem isOneLine_iff : isOneLine s = true ↔ Form.Line s := by
  rw [isOneLine, Bool.not_eq_true', List.any_eq_false]
  refine forall₂_congr fun c _ => ?_
  simp only [isLineBreaker, Bool.or_eq_true, beq_iff_eq, List.mem_cons, List.not_mem_nil, or_false]
  tauto

theorem isSafePath_iff : isSafePath s = true ↔ Form.Path s := by
  have from_root : (s.toList.head? == some '/') = true ↔ ∃ rest, s = "/" ++ rest := by
    rw [beq_iff_eq, List.head?_eq_some_iff]
    constructor
    · rintro ⟨rest, split⟩
      exact ⟨String.ofList rest, String.toList_injective (by simpa using split)⟩
    · rintro ⟨rest, rfl⟩
      exact ⟨rest.toList, by simp⟩
  have unbroken : (!s.toList.any isPathBreaker) = true ↔
      ∀ c ∈ s.toList, Text.isBlank c = false ∧ c ∉ [';', '{', '}', '#', '"', '\'', '\\'] := by
    rw [Bool.not_eq_true', List.any_eq_false]
    refine forall₂_congr fun c _ => ?_
    simp only [isPathBreaker, Bool.or_eq_true, beq_iff_eq, List.mem_cons, List.not_mem_nil,
      or_false, Bool.eq_false_iff]
    tauto
  rw [isSafePath, Bool.and_eq_true, from_root, unbroken]
  rfl

theorem isDomain_iff : isDomain s = true ↔ Form.Domain s := by
  have starred {rest : List Char} (split : s.toList = ['*', '.'] ++ rest) :
      ¬ Form.Name s := by
    rintro ⟨-, each⟩
    rcases each '*' (by simp [split]) with letter | mark
    · exact absurd letter (by decide)
    · exact absurd mark (by decide)
  rw [isDomain, Form.Domain]
  cases stripped : Text.stripLead? ['*', '.'] s.toList with
  | none =>
    have plain (host : String) : s ≠ "*." ++ host := by
      rintro rfl
      simp [Text.stripLead?] at stripped
    simp [plain, isSafeName_iff]
  | some rest =>
    have split := Text.eq_append_of_stripLead? stripped
    have joined : s = "*." ++ String.ofList rest :=
      String.toList_injective (by simpa using split)
    have host : (!rest.isEmpty && rest.all isNameCharacter) = isSafeName (String.ofList rest) := by
      rw [isSafeName, String.toList_ofList, Bool.eq_iff_iff]
      simp
    show (!rest.isEmpty && rest.all isNameCharacter) = true ↔ _
    rw [host, isSafeName_iff]
    constructor
    · exact fun name => .inr ⟨_, name, joined⟩
    · rintro (name | ⟨other, name, same⟩)
      · exact absurd name (starred split)
      · rw [joined, String.append_right_inj] at same
        rwa [same]

/-- Read from its end a size is its unit and then its digits. -/
theorem takeWhile_isUnit {unit digits : List Char} (units : ∀ c ∈ unit, isUnit c = true)
    (digital : ∀ c ∈ digits, Text.isDigit c = true) :
    (unit ++ digits).takeWhile isUnit = unit ∧ (unit ++ digits).dropWhile isUnit = digits := by
  rw [List.takeWhile_append_of_pos units, List.dropWhile_append_of_pos units]
  cases digits with
  | nil => exact ⟨List.append_nil _, rfl⟩
  | cons c digits =>
    have stops := isUnit_of_isDigit (digital c (List.mem_cons_self ..))
    rw [List.takeWhile_cons, List.dropWhile_cons, stops]
    exact ⟨List.append_nil _, rfl⟩

theorem isSize_iff : isSize s = true ↔ Form.Size s := by
  simp only [isSize, Bool.and_eq_true, decide_eq_true_iff, Bool.not_eq_true', List.all_eq_true]
  constructor
  · rintro ⟨⟨short, some_digit⟩, digital⟩
    have split : s.toList = (s.toList.reverse.dropWhile isUnit).reverse ++
        (s.toList.reverse.takeWhile isUnit).reverse := by
      rw [← List.reverse_append, List.takeWhile_append_dropWhile, List.reverse_reverse]
    refine ⟨_, _, split, by simpa using some_digit, fun c inside => ?_, ?_⟩
    · exact digital c (List.mem_reverse.1 inside)
    · rcases unit : s.toList.reverse.takeWhile isUnit with _ | ⟨c, _ | ⟨d, others⟩⟩
      · exact .inl rfl
      · have listed : c ∈ s.toList.reverse.takeWhile isUnit := by simp [unit]
        exact .inr ⟨c, isUnit_iff.1 (List.mem_takeWhile_imp listed), rfl⟩
      · simp [unit] at short
  · rintro ⟨digits, unit, split, some_digit, digital, unit_form⟩
    have units : ∀ c ∈ unit.reverse, isUnit c = true := by
      rcases unit_form with rfl | ⟨c, listed, rfl⟩
      · simp
      · simpa using isUnit_iff.2 listed
    have short : unit.length ≤ 1 := by
      rcases unit_form with rfl | ⟨c, -, rfl⟩ <;> simp
    obtain ⟨taken, left⟩ := takeWhile_isUnit units fun c inside =>
      digital c (List.mem_reverse.1 inside)
    rw [split, List.reverse_append, taken, left]
    refine ⟨⟨by simpa using short, by simpa using some_digit⟩, fun c inside => ?_⟩
    exact digital c (List.mem_reverse.1 inside)

end ProxyKeeper
