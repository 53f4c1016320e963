import Mathlib.Tactic.Common
import Mathlib.Data.List.Nodup
import ProxyKeeper.Decode

/-!
# Decoding what was encoded

A value that was made of a string, a number, a list or an option gives that back, and a record
gives for each of its fields what is stated there. With these facts a decoder is run on the record
of its encoder without opening any value.

## Main Results

* `Decode.list_map`, `Decode.option_ofOption`: lists and options, by what holds of their items
* `Decode.fields_bind`: a record without repeated names is decoded from what its members state
-/

namespace ProxyKeeper

namespace Decode

variable {α β : Type} {d : Dialect}

@[simp] theorem ok_bind (a : α) (f : α → Result β) : (Except.ok a : Result α) >>= f = f a :=
  rfl

/-! ## Values -/

@[simp] theorem string_string (s : String) : string (.string s) = .ok s :=
  rfl

@[simp] theorem bool_bool (b : Bool) : bool (.bool b) = .ok b :=
  rfl

theorem natBelow_ofNat {bound n : Nat} (h : n < bound) : natBelow bound (.ofNat n) = .ok n := by
  show (if n < bound then _ else _) = _
  rw [if_pos h]

@[simp] theorem uint16_ofNat (n : UInt16) : uint16 (.ofNat n.toNat) = .ok n := by
  rw [uint16, natBelow_ofNat n.toNat_lt]
  exact congrArg Except.ok n.ofNat_toNat

@[simp] theorem uint32_ofNat (n : UInt32) : uint32 (.ofNat n.toNat) = .ok n := by
  rw [uint32, natBelow_ofNat n.toNat_lt]
  exact congrArg Except.ok n.ofNat_toNat

@[simp] theorem uint64_ofNat (n : UInt64) : uint64 (.ofNat n.toNat) = .ok n := by
  rw [uint64, natBelow_ofNat n.toNat_lt]
  exact congrArg Except.ok n.ofNat_toNat

/-- A variant is found under each of its names. -/
theorem variant_string {names : List (String × α)} {name : String} {a : α}
    (listed : names.lookup name = some a) : variant d names (.string name) = .ok a := by
  rw [variant, listed]

variable {encode : α → Json} {item : Json → Result α}

theorem list_map (each : ∀ a, item (encode a) = .ok a) (as : List α) :
    list item (.array (as.map encode)) = .ok as := by
  show all item (as.map encode) = .ok as
  induction as with
  | nil => rfl
  | cons a as ih => rw [List.map_cons, all, each, ok_bind, ih, ok_bind]

/-- An option is told by its value as long as nothing that is present is written as `null`. -/
theorem option_ofOption (present : ∀ a, encode a ≠ .null) (each : ∀ a, item (encode a) = .ok a)
    (a? : Option α) : option item (.ofOption encode a?) = .ok a? := by
  cases a? with
  | none => rfl
  | some a =>
    rw [Json.ofOption, option]
    · rw [each]
      rfl
    · exact present a

theorem stringMembers_map (entries : List (String × String)) :
    stringMembers (entries.map fun (name, value) => (name, .string value)) = .ok entries := by
  induction entries with
  | nil => rfl
  | cons entry entries ih => rw [List.map_cons, stringMembers, string_string, ok_bind, ih, ok_bind]

/-! ## Records -/

variable {names : List String} {members : List (String × Json)}

/-- No name is repeated among members that all bear different names. -/
theorem repeated?_eq_none (nodup : (members.map Prod.fst).Nodup) :
    repeated? names members = none := by
  rw [repeated?, List.find?_eq_none]
  intro name _
  have once : (members.filter (·.1 == name)).length ≤ 1 := by
    calc (members.filter (·.1 == name)).length
      _ = (members.map Prod.fst).count name := by
        rw [List.count, List.countP_map, List.countP_eq_length_filter]
        rfl
      _ ≤ 1 := List.nodup_iff_count_le_one.1 nodup name
  simpa using once

/-- Under different names each member is found by its own. -/
theorem lookup_of_mem (nodup : (members.map Prod.fst).Nodup) {member : String × Json}
    (inside : member ∈ members) : members.lookup member.1 = some member.2 := by
  obtain ⟨before, after, rfl⟩ := List.append_of_mem inside
  refine List.lookup_eq_some_iff.2 ⟨before, after, rfl, fun other earlier => ?_⟩
  rw [List.map_append, List.map_cons, List.nodup_append] at nodup
  have apart := nodup.2.2 other.1 (List.mem_map_of_mem earlier) member.1 (List.mem_cons_self ..)
  simpa using apart.symm

/-- A decoder reads a record without repeated names as soon as it reads what the members state. -/
theorem fields_bind {read : Fields → Result α} {result : Result α}
    (nodup : (members.map Prod.fst).Nodup)
    (reads : ∀ given : Fields, (∀ member ∈ members, given member.1 = some member.2) →
      read given = result) :
    fields d names (.object members) >>= read = result := by
  rw [fields, repeated?_eq_none nodup, ok_bind]
  exact reads _ fun member inside => lookup_of_mem nodup inside

/-- A record that holds known fields only is not refused for the others. -/
theorem closedFields_object (known : ∀ member ∈ members, member.1 ∈ names) :
    closedFields d names (.object members) = fields d names (.object members) := by
  rw [closedFields, List.find?_eq_none.2]
  intro member inside
  simpa using known member inside

end Decode

end ProxyKeeper
