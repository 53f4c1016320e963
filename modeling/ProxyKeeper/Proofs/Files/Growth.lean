import ProxyKeeper.Proofs.Files.Contents

/-!
# Trees that grow

When directories are made, a tree gets more of them and keeps what it had. So a walk that found its
way finds the same one afterwards, and a walk that failed fails in the same way, unless it found
nothing. What a path shows before and after some directories are made, it shows at every moment in
between.

## Main Definitions

* `Tree.Grows` — a tree with more directories
* `Tree.Begins` — paths whose walks have somewhere to begin

## Main Results

* `Tree.grows_createDirectories` — directories that are made make a tree grow
* `Tree.Grows.entryAt`, `Tree.Grows.list` — what a path shows when a tree grows
* `Tree.read_between` — what a file shows in between
* `Tree.mem_names_iff` — the names in a directory
-/

namespace ProxyKeeper

namespace Tree

variable {tree tree' made : Tree} {path : Path}

/-- Whether a tree has some more directories than another one, and is the same otherwise. -/
structure Grows (tree tree' : Tree) : Prop where
  origin : tree'.workingDirectory = tree.workingDirectory
  entries : ∀ location, tree'.entry? location = tree.entry? location ∨
    tree.entry? location = none ∧ tree'.entry? location = some .directory

namespace Grows

theorem refl (tree : Tree) : Grows tree tree :=
  ⟨rfl, fun _ => .inl rfl⟩

theorem trans (h : Grows tree made) (h' : Grows made tree') : Grows tree tree' := by
  refine ⟨h'.origin.trans h.origin, fun location => ?_⟩
  rcases h'.entries location with same | ⟨none, some⟩
  · rw [same]
    exact h.entries location
  · rcases h.entries location with same | ⟨_, there⟩
    · exact .inr ⟨same ▸ none, some⟩
    · rw [none] at there
      cases there

/-- What is there stays there. -/
theorem entry? (grows : Grows tree tree') {location : Location} {entry : Entry}
    (there : tree.entry? location = some entry) : tree'.entry? location = some entry := by
  rcases grows.entries location with same | ⟨none, _⟩
  · rw [same, there]
  · rw [none] at there
    cases there

theorem keeps (grows : Grows tree tree') : Keeps tree tree' :=
  ⟨grows.origin, fun _ _ there _ => grows.entry? there⟩

end Grows

/-! ## Making directories -/

theorem grows_makeDirectory (made : tree.makeDirectory path = .ok tree') : tree.Grows tree' := by
  rw [makeDirectory] at made
  obtain ⟨place, _, made⟩ := exists_of_bind_ok made
  split at made
  next => cases made
  next vacant =>
    cases made
    refine ⟨rfl, fun location => ?_⟩
    rw [entry?_put tree (by simp [Place.location])]
    split
    next same => exact .inr ⟨same ▸ vacant, rfl⟩
    next => exact .inl rfl

theorem grows_makeDirectories (tree : Tree) (paths : List Path) :
    tree.Grows (tree.makeDirectories paths).2 :=
  makeDirectories_induction (.refl tree) fun _ _ _ _ grows made =>
    grows.trans (grows_makeDirectory made)

/-- Directories that are made make a tree grow, also when not all can be made. -/
theorem grows_createDirectories (tree : Tree) (path : Path) :
    tree.Grows (tree.createDirectories path).2 :=
  tree.grows_makeDirectories _

/-! ## Walks -/

/-- Whether a walk finds nothing, by a fault or in a directory. -/
def FindsNothing (result : Except IoFault Spot) : Prop :=
  result = .error .notFound ∨ ∃ directory name, result = .ok (.vacant directory name)

/-- What holds something has a directory above it. -/
theorem IsClosed.dropLast (closed : tree.IsClosed) {location : Location}
    (there : tree.entry? location ≠ none) : tree.entry? location.dropLast ≠ none := by
  rcases List.eq_nil_or_concat location with rfl | ⟨above, name, rfl⟩
  · exact there
  · rw [List.concat_eq_append] at there ⊢
    obtain ⟨entry, is⟩ := Option.ne_none_iff_exists'.1 there
    rw [List.dropLast_concat, closed.parent above name entry is]
    exact Option.some_ne_none _

/-- A walk that found something, or failed otherwise, comes to the same when the tree grows. -/
theorem Grows.walk (grows : Grows tree tree') (closed : tree.IsClosed) (links : Nat)
    {location : Location} (pieces : List String) (start : tree.entry? location ≠ none) :
    FindsNothing (tree.walk true links location pieces) ∨
      tree'.walk true links location pieces = tree.walk true links location pieces := by
  -- a link may make the list of pieces longer, but leaves fewer links to spare
  induction links using Nat.strongRecOn generalizing location pieces with
  | _ links ihLinks =>
    induction pieces generalizing location with
    | nil =>
      obtain ⟨entry, there⟩ := Option.ne_none_iff_exists'.1 start
      rw [walk_nil, walk_nil, there, grows.entry? there]
      exact .inr rfl
    | cons piece rest ih =>
      obtain ⟨entry, there⟩ := Option.ne_none_iff_exists'.1 start
      rw [walk_cons, walk_cons, there, grows.entry? there]
      cases entry with
      | file content => exact .inr rfl
      | link target => exact .inr rfl
      | directory =>
        dsimp only
        split_ifs with here above long
        · exact ih start
        · exact ih (closed.dropLast start)
        · exact .inr rfl
        · cases next : tree.entry? (location ++ [piece]) with
          | none =>
            left
            cases rest with
            | nil => exact .inr ⟨_, _, rfl⟩
            | cons _ _ => exact .inl rfl
          | some entry =>
            rw [grows.entry? next]
            cases entry with
            | file content => exact ih (by rw [next]; exact Option.some_ne_none _)
            | directory => exact ih (by rw [next]; exact Option.some_ne_none _)
            | link target =>
              cases links with
              | zero => exact .inr rfl
              | succ links =>
                -- a link begins at the root or where it stands
                refine ihLinks links (Nat.lt_succ_self _) _ ?_
                rw [Tree.origin]
                split
                · exact Option.some_ne_none _
                · exact start

/-- Whether the walks along a path have somewhere to begin. -/
def Begins (tree : Tree) (path : Path) : Prop :=
  tree.entry? (origin path tree.workingDirectory) ≠ none

theorem Grows.origin_eq (grows : Grows tree tree') (path : Path) :
    Tree.origin path tree'.workingDirectory = Tree.origin path tree.workingDirectory := by
  rw [grows.origin]

theorem Grows.begins (grows : Grows tree tree') (begins : tree.Begins path) :
    tree'.Begins path := by
  obtain ⟨entry, there⟩ := Option.ne_none_iff_exists'.1 begins
  rw [Begins, grows.origin_eq, grows.entry? there]
  exact Option.some_ne_none _

/-- What a path leads to, it leads to when the tree grows, and a walk that fails still does, unless
it found nothing. -/
theorem Grows.entryAt (grows : Grows tree tree') (closed : tree.IsClosed)
    (begins : tree.Begins path) :
    tree.entryAt path = .error .notFound ∨ tree'.entryAt path = tree.entryAt path := by
  cases check : checkPath path with
  | error fault =>
    right
    rw [Tree.entryAt, Tree.entryAt, find, find, check]
    rfl
  | ok _ =>
    rw [Tree.entryAt, Tree.entryAt, find_of_checkPath check, find_of_checkPath check,
      grows.origin_eq]
    rcases grows.walk closed maximalLinks (steps path) begins with
      (nothing | ⟨directory, name, nothing⟩) | same
    · rw [nothing]
      exact .inl rfl
    · rw [nothing]
      exact .inl rfl
    · exact .inr (by rw [same])

theorem Grows.read (grows : Grows tree tree') (closed : tree.IsClosed)
    (begins : tree.Begins path) :
    tree.read path = .error .notFound ∨ tree'.read path = tree.read path := by
  rcases grows.entryAt closed begins with nothing | same
  · rw [Tree.read, nothing]
    exact .inl rfl
  · rw [Tree.read, Tree.read, same]
    exact .inr rfl

/-- What a file shows before and after directories are made, it shows in between. -/
theorem read_between (first : Grows tree made) (second : Grows made tree')
    (closed : tree.IsClosed) (closed' : made.IsClosed) (begins : tree.Begins path)
    (same : tree'.read path = tree.read path) : made.read path = tree.read path := by
  rcases first.read closed begins with nothing | kept
  · rcases second.read closed' (first.begins begins) with nothing' | kept
    · rw [nothing, nothing']
    · rw [← kept, same]
  · exact kept

/-! ## Names -/

/-- The names in a directory are those of what is in it. -/
theorem mem_names_iff {directory : Location} {name : String} :
    name ∈ tree.names directory ↔ ∃ entry, tree.entry? (directory ++ [name]) = some entry := by
  refine ⟨fun listed => ?_, fun ⟨entry, there⟩ => mem_names_of_entry? there⟩
  obtain ⟨⟨location, entry⟩, held, is⟩ := List.mem_filterMap.1 listed
  have place : location = directory ++ [name] := by
    dsimp only [nameIn?] at is
    split at is
    next last ends =>
      obtain ⟨above, rfl⟩ := List.getLast?_eq_some_iff.1 ends
      rw [List.dropLast_concat] at is
      split at is
      next same => rw [← same, Option.some.inj is]
      next => cases is
    next => cases is
  rw [entry?_of_ne_nil tree (by simp), ← place, ← Option.isSome_iff_exists, List.lookup_isSome_iff]
  exact ⟨_, held, beq_self_eq_true location⟩

/-- The names that a path shows stay when the tree grows, and a fault stays unless it was that
nothing was found. -/
theorem Grows.list (grows : Grows tree tree') (closed : tree.IsClosed)
    (begins : tree.Begins path) :
    tree.list path = .error .notFound ∨
      (∃ fault, tree.list path = .error fault ∧ tree'.list path = .error fault) ∨
      ∃ names names', tree.list path = .ok names ∧ tree'.list path = .ok names' ∧
        names ⊆ names' := by
  rcases grows.entryAt closed begins with nothing | same
  · rw [Tree.list, nothing]
    exact .inl rfl
  · right
    rw [Tree.list, Tree.list, same]
    cases tree.entryAt path with
    | error fault => exact .inl ⟨fault, rfl, rfl⟩
    | ok found =>
      obtain ⟨location, entry⟩ := found
      cases entry with
      | file content => exact .inl ⟨_, rfl, rfl⟩
      | link target => exact .inl ⟨_, rfl, rfl⟩
      | directory =>
        refine .inr ⟨_, _, rfl, rfl, fun name listed => ?_⟩
        obtain ⟨entry, there⟩ := mem_names_iff.1 listed
        exact mem_names_iff.2 ⟨entry, grows.entry? there⟩

end Tree

end ProxyKeeper
