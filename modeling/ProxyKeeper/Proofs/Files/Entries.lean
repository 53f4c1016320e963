import Mathlib.Tactic.Common
import ProxyKeeper.Files.Tree

/-!
# Entries of a tree

A tree as a map: what putting and erasing an entry do at each location. Two relations say how much
a tree differs from an earlier one. Walks pass only directories and links, so a tree that keeps
those leads a path to where it led before.

## Main Definitions

* `Tree.IsClosed` — what is somewhere is in a directory
* `Tree.Keeps` — the directories and links of a tree are in another one, at the same places

## Main Results

* `Tree.entry?_put`, `Tree.entry?_erase` — the map after a change
* `Tree.keeps_put`, `Tree.keeps_erase` — changes of files keep directories and links
* `Tree.IsClosed.put`, `Tree.IsClosed.erase` — and leave everything in a directory
-/

namespace ProxyKeeper

/-- Whether walks pass an entry. -/
def Entry.isPassage : Entry → Bool
  | .file _ => false
  | .directory => true
  | .link _ => true

namespace Tree

variable {tree tree' : Tree}

/-! ## The map -/

theorem entry?_of_ne_nil (tree : Tree) {location : Location} (h : location ≠ []) :
    tree.entry? location = tree.entries.lookup location := by
  cases location with
  | nil => exact absurd rfl h
  | cons name rest => rfl

theorem lookup_cons_of_ne {l place : Location} (h : l ≠ place) (entry : Entry)
    (rest : List (Location × Entry)) : ((place, entry) :: rest).lookup l = rest.lookup l := by
  rw [List.lookup_cons, beq_eq_false_iff_ne.2 h]

theorem lookup_putEntry (location l : Location) (entry : Entry)
    (entries : List (Location × Entry)) :
    (putEntry location entry entries).lookup l =
      if l = location then some entry else entries.lookup l := by
  induction entries with
  | nil =>
    by_cases h : l = location
    · simp [putEntry, h]
    · rw [putEntry, lookup_cons_of_ne h, if_neg h]
  | cons first rest ih =>
    obtain ⟨place, old⟩ := first
    rw [putEntry]
    by_cases here : place = location
    · subst here
      rw [if_pos rfl]
      by_cases h : l = place
      · simp [h]
      · rw [lookup_cons_of_ne h, lookup_cons_of_ne h, if_neg h]
    · rw [if_neg here]
      by_cases h : l = place
      · subst h
        rw [List.lookup_cons_self, List.lookup_cons_self, if_neg here]
      · rw [lookup_cons_of_ne h, lookup_cons_of_ne h, ih]

theorem lookup_filter_ne (location l : Location) (entries : List (Location × Entry)) :
    (entries.filter fun (place, _) => place != location).lookup l =
      if l = location then none else entries.lookup l := by
  induction entries with
  | nil => simp
  | cons first rest ih =>
    obtain ⟨place, old⟩ := first
    by_cases here : place = location
    · subst here
      rw [List.filter_cons_of_neg (by simp), ih]
      by_cases h : l = place
      · rw [if_pos h, if_pos h]
      · rw [if_neg h, if_neg h, lookup_cons_of_ne h]
    · rw [List.filter_cons_of_pos (by simpa using here)]
      by_cases h : l = place
      · subst h
        rw [List.lookup_cons_self, List.lookup_cons_self, if_neg here]
      · rw [lookup_cons_of_ne h, lookup_cons_of_ne h, ih]

/-- The map after an entry was put. -/
theorem entry?_put (tree : Tree) {location : Location} (h : location ≠ []) (entry : Entry)
    (l : Location) :
    entry? (tree.put location entry) l = if l = location then some entry else tree.entry? l := by
  by_cases root : l = []
  · subst root
    rw [if_neg (Ne.symm h)]
    rfl
  · rw [entry?_of_ne_nil _ root, entry?_of_ne_nil _ root]
    exact lookup_putEntry location l entry tree.entries

/-- The map after an entry was erased. -/
theorem entry?_erase (tree : Tree) {location : Location} (h : location ≠ []) (l : Location) :
    entry? (tree.erase location) l = if l = location then none else tree.entry? l := by
  by_cases root : l = []
  · subst root
    rw [if_neg (Ne.symm h)]
    rfl
  · rw [entry?_of_ne_nil _ root, entry?_of_ne_nil _ root]
    exact lookup_filter_ne location l tree.entries

/-- What is somewhere is among the entries. -/
theorem mem_entries {directory : Location} {name : String} {entry : Entry}
    (h : tree.entry? (directory ++ [name]) = some entry) :
    (directory ++ [name], entry) ∈ tree.entries := by
  rw [entry?_of_ne_nil _ (by simp)] at h
  obtain ⟨before, after, split, _⟩ := List.lookup_eq_some_iff.1 h
  rw [split]
  simp

/-- The names in a directory are those with an entry. -/
theorem mem_names_of_entry? {directory : Location} {name : String} {entry : Entry}
    (h : tree.entry? (directory ++ [name]) = some entry) : name ∈ tree.names directory :=
  List.mem_filterMap.2 ⟨(directory ++ [name], entry), mem_entries h, by simp [nameIn?]⟩

/-- Where no entry is a link, there is none. -/
theorem ne_link_of_entries (plain : ∀ held ∈ tree.entries, ∀ target, held.2 ≠ .link target)
    (directory : Location) (name : String) (target : Path) :
    tree.entry? (directory ++ [name]) ≠ some (.link target) :=
  fun there => plain _ (mem_entries there) target rfl

/-! ## What changes keep -/

/-- Whether the directories and links of a tree are in another one, at the same places. -/
structure Keeps (tree tree' : Tree) : Prop where
  origin : tree'.workingDirectory = tree.workingDirectory
  passage : ∀ location entry, tree.entry? location = some entry → entry.isPassage = true →
    tree'.entry? location = some entry

/-- Whether what is somewhere is in a directory. -/
structure IsClosed (tree : Tree) : Prop where
  parent : ∀ directory name entry, tree.entry? (directory ++ [name]) = some entry →
    tree.entry? directory = some .directory

theorem isClosed_of_entries
    (closed : ∀ held ∈ tree.entries, tree.entry? held.1.dropLast = some .directory) :
    tree.IsClosed := by
  refine ⟨fun directory name entry there => ?_⟩
  have container := closed _ (mem_entries there)
  rwa [List.dropLast_concat] at container

theorem Keeps.refl (tree : Tree) : Keeps tree tree :=
  ⟨rfl, fun _ _ there _ => there⟩

theorem Keeps.trans {one two three : Tree} (h : Keeps one two) (h' : Keeps two three) :
    Keeps one three :=
  ⟨h'.origin.trans h.origin,
    fun location entry there passage =>
      h'.passage location entry (h.passage location entry there passage) passage⟩

/-- What is put where no passage was keeps all passages. -/
theorem keeps_put {location : Location} (h : location ≠ []) (entry : Entry)
    (free : ∀ old, tree.entry? location = some old → old.isPassage = false) :
    Keeps tree (tree.put location entry) := by
  refine ⟨rfl, ?_⟩
  intro l old there passage
  rw [entry?_put tree h, if_neg, there]
  rintro rfl
  rw [free old there] at passage
  cases passage

theorem keeps_erase {location : Location} (h : location ≠ [])
    (free : ∀ old, tree.entry? location = some old → old.isPassage = false) :
    Keeps tree (tree.erase location) := by
  refine ⟨rfl, ?_⟩
  intro l old there passage
  rw [entry?_erase tree h, if_neg, there]
  rintro rfl
  rw [free old there] at passage
  cases passage

/-- A file is no passage, so putting one makes no new way. -/
theorem put_file_keeps {location : Location} (h : location ≠ []) (content : ByteArray) :
    Keeps (tree.put location (.file content)) tree := by
  refine ⟨rfl, ?_⟩
  intro l old there passage
  rw [entry?_put tree h] at there
  split at there
  next => cases there; cases passage
  next => exact there

theorem erase_keeps {location : Location} (h : location ≠ []) :
    Keeps (tree.erase location) tree := by
  refine ⟨rfl, ?_⟩
  intro l old there passage
  rw [entry?_erase tree h] at there
  split at there
  next => cases there
  next => exact there

namespace IsClosed

/-- A tree stays closed when something is put into a directory where no directory was. -/
theorem put (closed : tree.IsClosed) {directory : Location} {name : String} (entry : Entry)
    (there : tree.entry? directory = some .directory)
    (free : tree.entry? (directory ++ [name]) = some .directory → entry = .directory) :
    (tree.put (directory ++ [name]) entry).IsClosed := by
  refine ⟨?_⟩
  intro above below e inside
  rw [entry?_put tree (by simp)] at inside ⊢
  have container : tree.entry? above = some .directory := by
    split at inside
    next same => rwa [(List.append_inj' same rfl).1]
    next => exact closed.parent above below e inside
  split
  next same => rw [free (same ▸ container)]
  next => exact container

/-- A tree stays closed when what is no directory is erased. -/
theorem erase (closed : tree.IsClosed) {location : Location} (h : location ≠ [])
    (free : tree.entry? location ≠ some .directory) : (tree.erase location).IsClosed := by
  refine ⟨?_⟩
  intro above below e inside
  rw [entry?_erase tree h] at inside ⊢
  split at inside
  next => cases inside
  next =>
    have container := closed.parent above below e inside
    rw [if_neg, container]
    rintro rfl
    exact free container

/-- Nothing is in what is not there. -/
theorem entry?_eq_none (closed : tree.IsClosed) {directory : Location}
    (missing : tree.entry? directory ≠ some .directory) (name : String) :
    tree.entry? (directory ++ [name]) = none := by
  cases inside : tree.entry? (directory ++ [name]) with
  | none => rfl
  | some e => exact absurd (closed.parent directory name e inside) missing

end IsClosed

end Tree

end ProxyKeeper
