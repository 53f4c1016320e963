import ProxyKeeper.Files.Call
import ProxyKeeper.Proofs.Files.Walks

/-!
# Calls on a name in a directory

What each call of the file system says of a name in a directory and does to it, by its outcome: a
success tells what is there and what changes, the failure that nothing is found tells that nothing
is there, and any other failure tells nothing.

## Main Definitions

* `Tree.fileIn?` — the content of the file of a name in the directory a path leads to

## Main Results

* `Tree.read_child_ok`, `Tree.write_child_ok`, `Tree.remove_child_ok`, `Tree.rename_child_ok`
* `Tree.fileIn?_of_read_notFound`, `Tree.fileIn?_of_remove_notFound`
* `Tree.list_ok`, `Tree.createDirectories_directory`, `Tree.createDirectories_child`
* `Tree.fileIn?_put_file`, `Tree.fileIn?_erase_file` — what a change does to the contents
-/

namespace ProxyKeeper.Tree

variable {tree tree' : Tree} {path above : Path} {name : String}

/-- The content of the file of a name in the directory that a path leads to. -/
def fileIn? (tree : Tree) (path : Path) (name : String) : Option ByteArray :=
  match tree.directory? path with
  | none => none
  | some directory =>
    match tree.entry? (directory ++ [name]) with
    | some (.file content) => some content
    | _ => none

theorem fileIn?_of_directory? {directory : Location}
    (leads : tree.directory? path = some directory) :
    tree.fileIn? path name =
      match tree.entry? (directory ++ [name]) with
      | some (.file content) => some content
      | _ => none := by
  rw [fileIn?, leads]

/-- Whether no link stands for a name in the directory that a path leads to. -/
def NoLinkIn (tree : Tree) (path : Path) (name : String) : Prop :=
  ∀ directory, tree.directory? path = some directory →
    ∀ target, tree.entry? (directory ++ [name]) ≠ some (.link target)

/-! ## Answers -/

theorem changed_eq_ok_iff {result : Except IoFault Tree} :
    tree.changed result = (.ok (), tree') ↔ result = .ok tree' := by
  cases result with
  | ok _ => simp [changed]
  | error _ => simp [changed]

theorem changed_eq_error_iff {result : Except IoFault Tree} {fault : IoFault} :
    tree.changed result = (.error fault, tree') ↔ result = .error fault ∧ tree = tree' := by
  cases result with
  | ok _ => simp [changed]
  | error _ => simp [changed]

/-! ## Reading -/

theorem read_child_ok (given : path.text ≠ "") (plain : Path.IsPlainName name)
    (noLink : tree.NoLinkIn path name) {content : ByteArray}
    (h : tree.read (path.child name) = .ok content) : tree.fileIn? path name = some content := by
  rw [read, entryAt] at h
  cases found : tree.find (path.child name) with
  | error fault => rw [found] at h; cases h
  | ok spot =>
    obtain ⟨directory, leads, rfl⟩ := find_child_ok given plain noLink found
    rw [found, lookAt] at h
    rw [fileIn?_of_directory? leads]
    cases entry : tree.entry? (directory ++ [name]) with
    | none => rw [entry] at h; cases h
    | some e =>
      rw [entry] at h
      cases e <;> cases h
      rfl

/-- Nothing is there when nothing is found. -/
theorem fileIn?_of_read_notFound (given : path.text ≠ "") (plain : Path.IsPlainName name)
    (noLink : tree.NoLinkIn path name) (h : tree.read (path.child name) = .error .notFound) :
    tree.fileIn? path name = none := by
  cases leads : tree.directory? path with
  | none => rw [fileIn?, leads]
  | some directory =>
    rw [read, entryAt] at h
    rw [fileIn?_of_directory? leads]
    rcases find_child leads given plain (noLink directory leads) with ⟨fault, other, failed⟩ | found
    · rw [failed] at h
      cases h
      exact absurd rfl other
    · rw [found, lookAt] at h
      cases entry : tree.entry? (directory ++ [name]) with
      | none => rfl
      | some e =>
        rw [entry] at h
        cases e <;> cases h

/-! ## Writing -/

theorem write_child_ok (given : path.text ≠ "") (plain : Path.IsPlainName name)
    (noLink : tree.NoLinkIn path name) {content : ByteArray}
    (h : tree.write (path.child name) content = .ok tree') :
    ∃ directory, tree.directory? path = some directory ∧
      (∀ old, tree.entry? (directory ++ [name]) = some old → old.isPassage = false) ∧
      tree' = tree.put (directory ++ [name]) (.file content) := by
  rw [write] at h
  cases found : tree.find (path.child name) with
  | error fault => rw [found] at h; cases h
  | ok spot =>
    obtain ⟨directory, leads, rfl⟩ := find_child_ok given plain noLink found
    rw [found, lookAt] at h
    refine ⟨directory, leads, ?_⟩
    cases entry : tree.entry? (directory ++ [name]) with
    | none =>
      rw [entry] at h
      cases h
      exact ⟨by simp, rfl⟩
    | some e =>
      rw [entry] at h
      cases e <;> cases h
      refine ⟨?_, rfl⟩
      rintro old ⟨⟩
      rfl

theorem write_child_ne_notFound (given : path.text ≠ "") (plain : Path.IsPlainName name)
    (noLink : tree.NoLinkIn path name) {directory : Location}
    (leads : tree.directory? path = some directory) (content : ByteArray) :
    tree.write (path.child name) content ≠ .error .notFound := by
  rw [write]
  rcases find_child leads given plain (noLink directory leads) with ⟨fault, other, failed⟩ | found
  · rw [failed]
    rintro ⟨⟩
    exact other rfl
  · rw [found, lookAt]
    cases tree.entry? (directory ++ [name]) with
    | none => rintro ⟨⟩
    | some e => cases e <;> rintro ⟨⟩

/-! ## Removing -/

/-- Whatever is no directory is removed, a link itself. -/
theorem remove_child_erases (given : path.text ≠ "") (plain : Path.IsPlainName name)
    (h : tree.remove (path.child name) = .ok tree') :
    ∃ directory old, tree.directory? path = some directory ∧
      tree.entry? (directory ++ [name]) = some old ∧ old ≠ .directory ∧
      tree' = tree.erase (directory ++ [name]) := by
  rw [remove] at h
  cases found : tree.place .isADirectory (path.child name) with
  | error fault => rw [found] at h; cases h
  | ok place =>
    obtain ⟨directory, leads, rfl⟩ := place_child_ok given plain found
    rw [found] at h
    refine ⟨directory, ?_⟩
    cases entry : tree.entry? (directory ++ [name]) with
    | none => simp [Place.location, bind, Except.bind, entry] at h
    | some old =>
      refine ⟨old, leads, rfl, ?_⟩
      cases old with
      | directory => simp [Place.location, bind, Except.bind, entry] at h
      | file content =>
        simp only [Place.location, bind, Except.bind, entry, Bool.false_eq_true, if_false,
          Except.ok.injEq] at h
        exact ⟨nofun, h.symm⟩
      | link target =>
        simp only [Place.location, bind, Except.bind, entry, Bool.false_eq_true, if_false,
          Except.ok.injEq] at h
        exact ⟨nofun, h.symm⟩

theorem remove_child_ok (given : path.text ≠ "") (plain : Path.IsPlainName name)
    (noLink : tree.NoLinkIn path name) (h : tree.remove (path.child name) = .ok tree') :
    ∃ directory content, tree.directory? path = some directory ∧
      tree.entry? (directory ++ [name]) = some (.file content) ∧
      tree' = tree.erase (directory ++ [name]) := by
  obtain ⟨directory, old, leads, there, notDirectory, same⟩ := remove_child_erases given plain h
  cases old with
  | file content => exact ⟨directory, content, leads, there, same⟩
  | directory => exact absurd rfl notDirectory
  | link target => exact absurd there (noLink directory leads target)

/-- Nothing is there when nothing is found. -/
theorem entry?_of_remove_notFound {directory : Location}
    (leads : tree.directory? path = some directory) (given : path.text ≠ "")
    (plain : Path.IsPlainName name) (h : tree.remove (path.child name) = .error .notFound) :
    tree.entry? (directory ++ [name]) = none := by
  rw [remove] at h
  rcases place_child leads given plain .isADirectory with ⟨fault, other, failed⟩ | found
  · rw [failed] at h
    cases h
    exact absurd rfl other
  · rw [found] at h
    cases entry : tree.entry? (directory ++ [name]) with
    | none => rfl
    | some e =>
      simp only [Place.location, bind, Except.bind, entry] at h
      cases e with
      | file content => simp at h
      | directory => cases h
      | link target => simp at h

theorem fileIn?_of_remove_notFound (given : path.text ≠ "") (plain : Path.IsPlainName name)
    (h : tree.remove (path.child name) = .error .notFound) : tree.fileIn? path name = none := by
  cases leads : tree.directory? path with
  | none => rw [fileIn?, leads]
  | some directory =>
    rw [fileIn?_of_directory? leads, entry?_of_remove_notFound leads given plain h]

/-! ## Moving -/

theorem rename_of_place {source target : Path} {old new : Place} {content : ByteArray}
    (foundOld : tree.place .busy source = .ok old) (foundNew : tree.place .busy target = .ok new)
    (there : tree.entry? old.location = some (.file content))
    (unslashed : (old.slashed || new.slashed) = false) :
    tree.rename source target =
      if tree.entry? new.location = some .directory then .error .isADirectory
      else .ok ((tree.erase old.location).put new.location (.file content)) := by
  simp only [rename, bind, Except.bind, foundOld, foundNew, there, unslashed, Bool.false_eq_true,
    if_false]

section Rename

variable {source : String} {directory : Location} (givenAbove : above.text ≠ "")
  (plainSource : Path.IsPlainName source) (leadsAbove : tree.directory? above = some directory)
  (given : path.text ≠ "") (plain : Path.IsPlainName name)
  (leads : tree.directory? path = some directory) {content : ByteArray}
  (there : tree.entry? (directory ++ [source]) = some (.file content))

include givenAbove plainSource leadsAbove given plain leads there

/-- A file that is moved within a directory takes the place of the one that was there. -/
theorem rename_child_ok (h : tree.rename (above.child source) (path.child name) = .ok tree') :
    tree.entry? (directory ++ [name]) ≠ some .directory ∧
      tree' = (tree.erase (directory ++ [source])).put (directory ++ [name]) (.file content) := by
  cases foundOld : tree.place .busy (above.child source) with
  | error fault => rw [rename, foundOld] at h; cases h
  | ok old =>
    obtain ⟨_, leads', rfl⟩ := place_child_ok givenAbove plainSource foundOld
    rw [leadsAbove] at leads'
    cases leads'
    cases foundNew : tree.place .busy (path.child name) with
    | error fault => rw [rename, foundOld, foundNew] at h; cases h
    | ok new =>
      obtain ⟨_, leads', rfl⟩ := place_child_ok given plain foundNew
      rw [leads] at leads'
      cases leads'
      rw [rename_of_place foundOld foundNew there rfl] at h
      split at h
      next => cases h
      next free =>
        cases h
        exact ⟨free, rfl⟩

theorem rename_child_ne_notFound :
    tree.rename (above.child source) (path.child name) ≠ .error .notFound := by
  rcases place_child leadsAbove givenAbove plainSource .busy with ⟨fault, other, failed⟩ | foundOld
  · rw [rename, failed]
    rintro ⟨⟩
    exact other rfl
  · rcases place_child leads given plain .busy with ⟨fault, other, failed⟩ | foundNew
    · rw [rename, foundOld, failed]
      rintro ⟨⟩
      exact other rfl
    · rw [rename_of_place foundOld foundNew there rfl]
      split
      · rintro ⟨⟩
      · exact nofun

end Rename

/-! ## Listing -/

/-- A path that ends in a slash goes one dot further. -/
theorem steps_eq (path : Path) :
    ∃ dots, steps path = path.names ++ dots ∧ ∀ dot ∈ dots, dot = "." := by
  rw [steps]
  split
  · exact ⟨["."], rfl, by simp⟩
  · exact ⟨[], (List.append_nil _).symm, by simp⟩

/-- What is found to be a directory is the one the path leads to. -/
theorem directory?_of_entryAt {location : Location}
    (h : tree.entryAt path = .ok (location, .directory)) :
    tree.directory? path = some location := by
  rw [entryAt] at h
  cases check : checkPath path with
  | error fault => rw [find, check] at h; cases h
  | ok _ =>
    obtain ⟨dots, walk, silent⟩ := steps_eq path
    rw [find_of_checkPath check, walk] at h
    cases walked : tree.walk true maximalLinks (origin path tree.workingDirectory)
        (path.names ++ dots) with
    | error fault => rw [walked] at h; cases h
    | ok spot =>
      rw [walked] at h
      cases spot with
      | vacant _ _ => cases h
      | occupied place entry =>
        cases h
        -- the dots behind the names lead nowhere else
        obtain ⟨left, last, way⟩ := exists_way walked fun _ => ⟨location, rfl⟩
        rw [way.walk_append, walk_dots way.entry? silent] at walked
        cases walked
        exact directory?_eq_some_iff.2 ⟨left, way⟩

theorem list_ok {names : List String} (h : tree.list path = .ok names) :
    ∃ directory, tree.directory? path = some directory ∧ names = tree.names directory := by
  rw [list] at h
  cases found : tree.entryAt path with
  | error fault => rw [found] at h; cases h
  | ok place =>
    obtain ⟨location, entry⟩ := place
    rw [found] at h
    cases entry with
    | file _ => cases h
    | link _ => cases h
    | directory =>
      cases h
      exact ⟨location, directory?_of_entryAt found, rfl⟩

theorem exists_directory?_of_isDirectory (h : tree.isDirectory path = true) :
    ∃ directory, tree.directory? path = some directory := by
  rw [isDirectory] at h
  split at h
  next location found => exact ⟨location, directory?_of_entryAt found⟩
  next => cases h

/-- There is no directory when none is found. -/
theorem directory?_of_list_notFound (given : path.text ≠ "")
    (h : tree.list path = .error .notFound) : tree.directory? path = none := by
  cases leads : tree.directory? path with
  | none => rfl
  | some directory =>
    rw [list, entryAt] at h
    cases check : checkPath path with
    | error fault =>
      rw [find, check] at h
      cases h
      exact absurd rfl (checkPath_ne_notFound given check)
    | ok _ =>
      obtain ⟨dots, walk, silent⟩ := steps_eq path
      obtain ⟨left, way⟩ := directory?_eq_some_iff.1 leads
      rw [find_of_checkPath check, walk, way.walk_append, walk_dots way.entry? silent] at h
      cases h

/-! ## Making directories -/

/-- Where a directory can be made, or is already, those above it are left alone. -/
theorem createDirectories_of_makeDirectory (given : path.text ≠ "")
    (h : tree.makeDirectory path ≠ .error .notFound) :
    (tree.createDirectories path).1 ≠ .error .notFound ∧
      ((tree.createDirectories path).2 = tree ∧
          ((tree.createDirectories path).1 = .ok () → tree.isDirectory path = true) ∨
        tree.makeDirectory path = .ok (tree.createDirectories path).2) := by
  have full : path.text.isEmpty = false := by simpa using given
  rw [createDirectories, lineage, makeDirectories, full]
  cases made : tree.makeDirectory path with
  | ok tree' => exact ⟨nofun, .inr rfl⟩
  | error fault =>
    have other : fault ≠ .notFound := by
      rintro rfl
      exact h made
    simp only [Bool.false_eq_true, if_false, other]
    split
    next there => exact ⟨nofun, .inl ⟨rfl, fun _ => there⟩⟩
    next =>
      refine ⟨?_, .inl ⟨rfl, nofun⟩⟩
      rintro ⟨⟩
      exact other rfl

/-- Making a directory that is there changes nothing. -/
theorem createDirectories_directory (given : path.text ≠ "") {directory : Location}
    (leads : tree.directory? path = some directory) :
    (tree.createDirectories path).1 ≠ .error .notFound ∧
      (tree.createDirectories path).2 = tree := by
  -- the path is that of the root, or its last name is in use: either way it cannot be made
  have exists_fault : ∃ fault, fault ≠ .notFound ∧ tree.makeDirectory path = .error fault := by
    rw [makeDirectory]
    cases check : checkPath path with
    | error fault =>
      refine ⟨fault, checkPath_ne_notFound given check, ?_⟩
      rw [place, check]
      rfl
    | ok _ =>
      obtain ⟨left, way⟩ := directory?_eq_some_iff.1 leads
      have walked := walk_eq_directory_iff.2 ⟨left, way⟩
      rcases List.eq_nil_or_concat path.names with root | ⟨front, last, split⟩
      · refine ⟨.alreadyExists, by decide, ?_⟩
        have nameless : (path.pieces.filter (· != "")).getLast? = none := by
          show path.names.getLast? = none
          rw [root]
          rfl
        rw [place, check]
        simp only [nameless]
        rfl
      · rw [List.concat_eq_append] at split
        rw [split] at walked
        obtain ⟨left', above, way'⟩ := exists_way walked (by simp)
        rw [way'.walk_append, walk_cons, way'.entry?] at walked
        rw [place_of_checkPath check split, walk_eq_directory_iff.2 ⟨left', way'⟩]
        simp only [Except.bind, bind]
        split_ifs with dots long
        · exact ⟨_, by decide, rfl⟩
        · exact ⟨_, by decide, rfl⟩
        · refine ⟨.alreadyExists, by decide, ?_⟩
          simp only [Bool.or_eq_true, decide_eq_true_eq, not_or] at dots
          simp only [dots, long, if_false] at walked
          cases entry : tree.entry? (above ++ [last]) with
          | none => rw [entry] at walked; cases walked
          | some e => simp only [Place.location, entry]
  obtain ⟨fault, other, failed⟩ := exists_fault
  obtain ⟨answer, ⟨same, _⟩ | made⟩ := createDirectories_of_makeDirectory given (by
    rw [failed]
    rintro ⟨⟩
    exact other rfl)
  · exact ⟨answer, same⟩
  · rw [failed] at made
    cases made

/-- Making a directory in one that is there makes at most that. -/
theorem createDirectories_child (given : path.text ≠ "") (plain : Path.IsPlainName name)
    {directory : Location} (leads : tree.directory? path = some directory) :
    (tree.createDirectories (path.child name)).1 ≠ .error .notFound ∧
      ((tree.createDirectories (path.child name)).2 = tree ∧
          ((tree.createDirectories (path.child name)).1 = .ok () →
            ∃ directory, tree.directory? (path.child name) = some directory) ∨
        tree.entry? (directory ++ [name]) = none ∧
          (tree.createDirectories (path.child name)).2 =
            tree.put (directory ++ [name]) .directory) := by
  have here : tree.makeDirectory (path.child name) ≠ .error .notFound ∧
      ∀ tree', tree.makeDirectory (path.child name) = .ok tree' →
        tree.entry? (directory ++ [name]) = none ∧
          tree' = tree.put (directory ++ [name]) .directory := by
    rw [makeDirectory]
    rcases place_child leads given plain .alreadyExists with ⟨fault, other, failed⟩ | found
    · rw [failed]
      refine ⟨?_, nofun⟩
      rintro ⟨⟩
      exact other rfl
    · rw [found]
      cases entry : tree.entry? (directory ++ [name]) with
      | none =>
        simp only [Place.location, bind, Except.bind, entry]
        refine ⟨nofun, ?_⟩
        rintro tree' ⟨⟩
        exact ⟨trivial, rfl⟩
      | some e =>
        simp only [Place.location, bind, Except.bind, entry]
        refine ⟨?_, nofun⟩
        rintro ⟨⟩
  obtain ⟨answer, effect⟩ := createDirectories_of_makeDirectory (child_text_ne given plain) here.1
  refine ⟨answer, effect.imp ?_ fun made => here.2 _ made⟩
  rintro ⟨same, there⟩
  exact ⟨same, fun done => exists_directory?_of_isDirectory (there done)⟩

/-! ## Contents after a change -/

section Change

variable {directory : Location}
  (free : ∀ old, tree.entry? (directory ++ [name]) = some old → old.isPassage = false)

include free

theorem directory?_put_file (content : ByteArray) (other : Path) :
    (tree.put (directory ++ [name]) (.file content)).directory? other = tree.directory? other :=
  directory?_congr (keeps_put (by simp) _ free) (put_file_keeps (by simp) content) other

theorem directory?_erase_file (other : Path) :
    (tree.erase (directory ++ [name])).directory? other = tree.directory? other :=
  directory?_congr (keeps_erase (by simp) free) (erase_keeps (by simp)) other

/-- A file that is put somewhere is there, and all others are as before. -/
theorem fileIn?_put_file (content : ByteArray) (other : Path) (n : String) :
    (tree.put (directory ++ [name]) (.file content)).fileIn? other n =
      if tree.directory? other = some directory ∧ n = name then some content
      else tree.fileIn? other n := by
  rw [fileIn?, directory?_put_file free, fileIn?]
  cases tree.directory? other with
  | none => simp
  | some d =>
    dsimp only
    rw [entry?_put tree (by simp)]
    simp only [List.append_singleton_inj, Option.some.injEq]
    by_cases same : d = directory ∧ n = name
    · rw [if_pos same, if_pos same]
    · rw [if_neg same, if_neg same]

/-- A file that is erased is gone, and all others are as before. -/
theorem fileIn?_erase_file (other : Path) (n : String) :
    (tree.erase (directory ++ [name])).fileIn? other n =
      if tree.directory? other = some directory ∧ n = name then none
      else tree.fileIn? other n := by
  rw [fileIn?, directory?_erase_file free, fileIn?]
  cases tree.directory? other with
  | none => simp
  | some d =>
    dsimp only
    rw [entry?_erase tree (by simp)]
    simp only [List.append_singleton_inj, Option.some.injEq]
    by_cases same : d = directory ∧ n = name
    · rw [if_pos same, if_pos same]
    · rw [if_neg same, if_neg same]

theorem NoLinkIn.put_file {other : Path} {n : String} (noLink : tree.NoLinkIn other n)
    (content : ByteArray) : (tree.put (directory ++ [name]) (.file content)).NoLinkIn other n := by
  intro d leads target
  rw [directory?_put_file free] at leads
  rw [entry?_put tree (by simp)]
  split
  · exact nofun
  · exact noLink d leads target

theorem NoLinkIn.erase_file {other : Path} {n : String} (noLink : tree.NoLinkIn other n) :
    (tree.erase (directory ++ [name])).NoLinkIn other n := by
  intro d leads target
  rw [directory?_erase_file free] at leads
  rw [entry?_erase tree (by simp)]
  split
  · exact nofun
  · exact noLink d leads target

end Change

end ProxyKeeper.Tree
