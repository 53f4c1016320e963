/-!
# Sets of names

Lists of names in strictly ascending order, by code point.

## Main Definitions

* `insertName`: a list with one more name at its place.
* `ascendingNames`: the names of a list, each once, in order.

## Main Results

* `mem_ascendingNames`, `pairwise_ascendingNames`: the same names, and in order.
-/

namespace ProxyKeeper

/-- Puts a name at its place, unless it is there already. -/
def insertName (name : String) : List String → List String
  | [] => [name]
  | first :: rest =>
    if name < first then name :: first :: rest
    else if first < name then first :: insertName name rest
    else first :: rest

/-- The names of a list, each once, in ascending order. -/
def ascendingNames (names : List String) : List String :=
  names.foldr insertName []

theorem mem_insertName {name x : String} {names : List String} :
    x ∈ insertName name names ↔ x = name ∨ x ∈ names := by
  induction names with
  | nil => simp [insertName]
  | cons first rest ih =>
    simp only [insertName]
    split
    · simp
    · split
      · simp only [List.mem_cons, ih]
        exact or_left_comm
      · rename_i notLt notGt
        have same : name = first := String.le_antisymm notGt notLt
        simp [same]

theorem pairwise_insertName {name : String} {names : List String}
    (h : names.Pairwise (· < ·)) : (insertName name names).Pairwise (· < ·) := by
  induction names with
  | nil => simp [insertName]
  | cons first rest ih =>
    obtain ⟨below, others⟩ := List.pairwise_cons.1 h
    simp only [insertName]
    split
    · rename_i lt
      refine List.pairwise_cons.2 ⟨fun x hx => ?_, h⟩
      rcases List.mem_cons.1 hx with rfl | hx
      · exact lt
      · exact String.lt_trans lt (below x hx)
    · split
      · rename_i lt
        refine List.pairwise_cons.2 ⟨fun x hx => ?_, ih others⟩
        rcases mem_insertName.1 hx with rfl | hx
        · exact lt
        · exact below x hx
      · exact h

theorem mem_ascendingNames {x : String} {names : List String} :
    x ∈ ascendingNames names ↔ x ∈ names := by
  induction names with
  | nil => simp [ascendingNames]
  | cons first rest ih =>
    rw [ascendingNames, List.foldr_cons, mem_insertName, ← ascendingNames, ih, List.mem_cons]

theorem pairwise_ascendingNames (names : List String) :
    (ascendingNames names).Pairwise (· < ·) := by
  induction names with
  | nil => simp [ascendingNames]
  | cons first rest ih =>
    rw [ascendingNames, List.foldr_cons]
    exact pairwise_insertName ih

end ProxyKeeper
