import Mathlib.Tactic.Common
import ProxyKeeper.Rule.Rendering
import ProxyKeeper.Proofs.Rule.Valid
import ProxyKeeper.Proofs.Store.FileNames
import ProxyKeeper.Proofs.Text.Splitting

/-!
# What printed words tell

Numbers, addresses and settings are found again in the words they are printed as, and the name and
the id of a rule in the comment in front of its document.

## Main Results

* `number_inj`, `seconds_inj`, `setting_inj`, `address_inj` — words
* `Rule.titleNode_inj` — the comment in front
-/

namespace ProxyKeeper

open Nginx

/-- A choice between different things tells what it was made by. -/
theorem choice_inj {α : Type} {a b : α} (ne : a ≠ b) {p q : Bool} :
    (if p then a else b) = (if q then a else b) ↔ p = q := by
  cases p <;> cases q <;> simp [ne, ne.symm]

theorem number_inj {n m : Nat} : toString n = toString m ↔ n = m := by
  constructor
  · intro same
    have digits := congrArg (fun s => Nat.ofDigitChars 10 s.toList 0) same
    simpa only [Nat.toString_eq_ofList_toDigits, String.toList_ofList,
      Nat.ofDigitChars_ten_toDigits] using digits
  · rintro rfl
    rfl

theorem seconds_inj {n m : UInt64} : seconds n = seconds m ↔ n = m := by
  rw [seconds, seconds, String.append_left_inj, number_inj, UInt64.toNat_inj]

theorem setting_inj {name value otherValue : String} :
    setting name value = setting name otherValue ↔ value = otherValue :=
  String.append_right_inj _

theorem notMem_number {c : Char} (other : c.isDigit = false) (n : Nat) :
    c ∉ (toString n).toList := by
  rw [Nat.toString_eq_ofList_toDigits, String.toList_ofList]
  intro inside
  rw [Nat.isDigit_of_mem_toDigits (by decide) (by decide) inside] at other
  cases other

theorem colon_notMem_number (n : Nat) : ':' ∉ (toString n).toList :=
  notMem_number (by decide) n

/-- An address holds a container and a port, for the port has no colon. -/
theorem address_inj {container otherContainer : String} {port otherPort : UInt16} :
    address container port = address otherContainer otherPort ↔
      container = otherContainer ∧ port = otherPort := by
  have between : ":".toList.reverse = [':'] := rfl
  have colon (port : UInt16) : ':' ∉ (toString port.toNat).toList.reverse :=
    List.mem_reverse.not.2 (colon_notMem_number _)
  rw [address, address, ← String.toList_inj, ← List.reverse_inj]
  simp only [String.toList_append, List.reverse_append, between, List.singleton_append]
  rw [Text.append_cons_inj (colon port) (colon otherPort), List.reverse_inj, List.reverse_inj,
    String.toList_inj, String.toList_inj, number_inj, UInt16.toNat_inj, and_comm]

namespace Rule

variable {rule other : Rule}

/-- What stands in front of the id of a rule tells its name. -/
theorem lead_inj {name otherName : String} :
    (if name.isEmpty then "" else name ++ " ") =
        (if otherName.isEmpty then "" else otherName ++ " ") ↔
      name = otherName := by
  have blank (s : String) : s ++ " " ≠ "" := by
    intro none
    exact absurd (String.append_eq_empty_iff.1 none).2 (by decide)
  split_ifs with empty emptyOther emptyOther
  · rw [String.isEmpty_iff.1 empty, String.isEmpty_iff.1 emptyOther]
  · refine iff_of_false (blank otherName).symm ?_
    rintro rfl
    exact emptyOther empty
  · refine iff_of_false (blank name) ?_
    rintro rfl
    exact empty emptyOther
  · exact String.append_left_inj _

/-- The comment in front holds id and name, for the id has no parenthesis. -/
theorem titleNode_inj (valid : rule.validate = .ok ()) (validOther : other.validate = .ok ()) :
    rule.titleNode = other.titleNode ↔ rule.id = other.id ∧ rule.name = other.name := by
  have parenthesis {rule : Rule} (valid : rule.validate = .ok ()) : '(' ∉ rule.id.toList.reverse :=
    List.mem_reverse.not.2
      (Store.notMem_of_isRuleId (isRuleId_of_validate valid) (by decide))
  have between : "(".toList.reverse = ['('] := rfl
  rw [titleNode, titleNode, Node.comment.injEq, String.append_left_inj, ← String.toList_inj,
    ← List.reverse_inj]
  simp only [String.toList_append, List.reverse_append, between, List.singleton_append]
  rw [Text.append_cons_inj (parenthesis valid) (parenthesis validOther), List.reverse_inj,
    List.reverse_inj, String.toList_inj, String.toList_inj, lead_inj]

end Rule

end ProxyKeeper
