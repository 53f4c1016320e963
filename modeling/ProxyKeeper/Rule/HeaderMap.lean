/-!
# Header maps

A map from header names to values, kept in ascending order of the names. The order is that of
code points, which is also the order in which the headers are written.

## Main Definitions

* `HeaderMap`: the maps; `HeaderMap.insert`, `HeaderMap.ofList`.
-/

namespace ProxyKeeper

/-- Headers by name, in strictly ascending order of the names. -/
structure HeaderMap where
  entries : List (String × String)
  ascending : entries.Pairwise (fun a b => a.1 < b.1)
deriving DecidableEq

namespace HeaderMap

/-- No headers. -/
def empty : HeaderMap :=
  ⟨[], List.Pairwise.nil⟩

instance : Inhabited HeaderMap := ⟨empty⟩

/-- Puts an entry at its place, over an earlier one with its name. -/
def insertEntry (name value : String) : List (String × String) → List (String × String)
  | [] => [(name, value)]
  | entry :: rest =>
    if name < entry.1 then (name, value) :: entry :: rest
    else if entry.1 < name then entry :: insertEntry name value rest
    else (name, value) :: rest

theorem mem_of_mem_insertEntry {name value : String} {entries : List (String × String)}
    {e : String × String} (h : e ∈ insertEntry name value entries) :
    e = (name, value) ∨ e ∈ entries := by
  induction entries with
  | nil => simpa [insertEntry] using h
  | cons entry rest ih =>
    simp only [insertEntry] at h
    split at h
    · simpa using h
    · split at h
      · rcases List.mem_cons.1 h with rfl | h
        · simp
        · rcases ih h with rfl | h <;> simp_all
      · rcases List.mem_cons.1 h with rfl | h <;> simp_all

theorem pairwise_insertEntry {name value : String} {entries : List (String × String)}
    (h : entries.Pairwise (fun a b => a.1 < b.1)) :
    (insertEntry name value entries).Pairwise (fun a b => a.1 < b.1) := by
  induction entries with
  | nil => simp [insertEntry]
  | cons entry rest ih =>
    obtain ⟨first, others⟩ := List.pairwise_cons.1 h
    simp only [insertEntry]
    split
    · rename_i lt
      refine List.pairwise_cons.2 ⟨fun e he => ?_, h⟩
      rcases List.mem_cons.1 he with rfl | he
      · exact lt
      · exact String.lt_trans lt (first e he)
    · split
      · rename_i lt
        refine List.pairwise_cons.2 ⟨fun e he => ?_, ih others⟩
        rcases mem_of_mem_insertEntry he with rfl | he
        · exact lt
        · exact first e he
      · rename_i notLt notGt
        have same : name = entry.1 := String.le_antisymm notGt notLt
        subst same
        exact List.pairwise_cons.2 ⟨first, others⟩

/-- Puts a header at its place, over an earlier one with its name. -/
def insert (headers : HeaderMap) (name value : String) : HeaderMap where
  entries := insertEntry name value headers.entries
  ascending := pairwise_insertEntry headers.ascending

/-- The map of a list of headers; of several with one name the last one counts. -/
def ofList (entries : List (String × String)) : HeaderMap :=
  entries.foldl (fun headers (name, value) => headers.insert name value) empty

end HeaderMap

end ProxyKeeper
