import ProxyKeeper.Proofs.Files.Contents

/-!
# Places by the text of a path

In a tree without symbolic links, the text of a path tells its place: dots stay, double dots go up,
and names go down. A walk may fail on the way, but it ends nowhere else. So what a call touches can
be told from its paths, and files elsewhere stay where they are.

## Main Definitions

* `Path.target` — the place of a path, told from its text
* `Tree.HasNoLink` — the trees without symbolic links
* `FileCall.Touches` — the places whose files a call may change
* `Tree.Holds` — a tree in which the file at a place is still there

## Main Results

* `Tree.location_of_find`, `Tree.location_of_place` — walks end at the place of the path
* `Tree.holds_perform` — a call leaves the files that it does not touch
* `Tree.Holds.entryAt` — a path leads to the file that it led to before
-/

namespace ProxyKeeper

/-! ## The place of a path -/

/-- Where some pieces lead from a location, when no link is on the way. -/
def Location.follow (location : Location) : List String → Location
  | [] => location
  | piece :: rest =>
    if piece = "." then Location.follow location rest
    else if piece = ".." then Location.follow location.dropLast rest
    else Location.follow (location ++ [piece]) rest

/-- The place of a path, for one who begins at a location. -/
def Path.target (path : Path) (start : Location) : Location :=
  (Tree.origin path start).follow path.names

namespace Location

variable {location : Location} {front : List String} {name : String}

theorem follow_append (location : Location) (front back : List String) :
    location.follow (front ++ back) = (location.follow front).follow back := by
  induction front generalizing location with
  | nil => rfl
  | cons piece front ih =>
    rw [List.cons_append, follow, follow]
    split
    · exact ih location
    · split
      · exact ih location.dropLast
      · exact ih (location ++ [piece])

/-- Names that are no dots go down one after another. -/
theorem follow_names (location : Location) {names : List String}
    (plain : ∀ name ∈ names, name ≠ "." ∧ name ≠ "..") :
    location.follow names = location ++ names := by
  induction names generalizing location with
  | nil => rw [follow, List.append_nil]
  | cons name names ih =>
    obtain ⟨⟨notHere, notAbove⟩, plain⟩ := List.forall_mem_cons.1 plain
    rw [follow, if_neg notHere, if_neg notAbove, ih _ plain, List.append_assoc,
      List.singleton_append]

theorem follow_concat (location : Location) (front : List String) (plain : Path.IsPlainName name) :
    location.follow (front ++ [name]) = location.follow front ++ [name] := by
  rw [follow_append]
  exact follow_names _ (by simpa using ⟨plain.notHere, plain.notAbove⟩)

/-- Dots lead nowhere else. -/
theorem follow_dots (location : Location) {dots : List String}
    (silent : ∀ dot ∈ dots, dot = ".") : location.follow dots = location := by
  induction dots generalizing location with
  | nil => rfl
  | cons dot dots ih =>
    obtain ⟨is, silent⟩ := List.forall_mem_cons.1 silent
    rw [follow, if_pos is, ih location silent]

end Location

namespace Path

variable {directory : Path} {name fresh : String}

/-- The place of a name in a directory is the name in the place of the directory. -/
theorem target_child (given : directory.text ≠ "") (plain : IsPlainName name) (start : Location) :
    (directory.child name).target start = directory.target start ++ [name] := by
  rw [target, target, names_child given plain, Tree.origin, isAbsolute_child given plain]
  exact Location.follow_concat _ _ plain

/-- The path above a name in a directory has the place of the directory. -/
theorem target_parent? (given : directory.text ≠ "") (plain : IsPlainName name) :
    ∃ above, (directory.child name).parent? = some above ∧ above.text ≠ "" ∧
      ∀ start, above.target start = directory.target start := by
  obtain ⟨above, dots, parent, full, absolute, names, silent⟩ := parent?_child given plain
  refine ⟨above, parent, full, fun start => ?_⟩
  rw [target, target, names, Location.follow_append, Location.follow_dots _ silent, Tree.origin,
    Tree.origin, absolute]

end Path

/-- Whether a call may change the file at a place, by its paths. -/
def FileCall.Touches (start place : Location) : FileCall → Prop
  | .write path _ => path.target start = place
  | .rename source target => source.target start = place ∨ target.target start = place
  | .remove path => path.target start = place
  | _ => False

namespace Tree

variable {tree tree' : Tree} {path : Path} {place : Location}

/-! ## Walks without links -/

/-- Whether a tree has no symbolic links. -/
def HasNoLink (tree : Tree) : Prop :=
  ∀ location target, tree.entry? location ≠ some (.link target)

/-- Where no entry is a link, there is none. -/
theorem hasNoLink_of_entries (plain : ∀ held ∈ tree.entries, ∀ target, held.2 ≠ .link target) :
    tree.HasNoLink := by
  intro location target
  rcases List.eq_nil_or_concat location with rfl | ⟨directory, name, rfl⟩
  · exact nofun
  · rw [List.concat_eq_append]
    exact ne_link_of_entries plain directory name target

/-- The location that a walk ends at, or would make an entry at. -/
def Spot.location : Spot → Location
  | .occupied location _ => location
  | .vacant directory name => directory ++ [name]

/-- What a walk has found there. -/
def Spot.entry? : Spot → Option Entry
  | .occupied _ entry => some entry
  | .vacant _ _ => none

/-- Without links, a walk ends where the pieces lead, with what is there. -/
theorem location_of_walk (noLink : tree.HasNoLink) {links : Nat} {location : Location}
    {pieces : List String} {spot : Spot}
    (walked : tree.walk true links location pieces = .ok spot) :
    spot.location = location.follow pieces ∧ tree.entry? spot.location = spot.entry? := by
  induction pieces generalizing location with
  | nil =>
    rw [walk_nil] at walked
    split at walked
    next entry there => cases walked; exact ⟨rfl, there⟩
    next => cases walked
  | cons piece rest ih =>
    rw [walk_cons] at walked
    split at walked
    next =>
      rw [Location.follow]
      split_ifs at walked ⊢ with here above long
      · exact ih walked
      · exact ih walked
      · split at walked
        next nothing =>
          -- nothing bears the name, so it is the last one
          split at walked
          next => cases walked; exact ⟨rfl, nothing⟩
          next => cases walked
        next target next => exact absurd next (noLink _ target)
        next => exact ih walked
    next => cases walked

/-- The walk of a call and the names of its path differ in a dot at the end. -/
theorem follow_steps (path : Path) (location : Location) :
    location.follow (steps path) = location.follow path.names := by
  rw [steps]
  split
  · exact (Location.follow_append _ _ _).trans (Location.follow_dots _ (by simp))
  · rfl

theorem location_of_find (noLink : tree.HasNoLink) {spot : Spot}
    (found : tree.find path = .ok spot) :
    spot.location = path.target tree.workingDirectory ∧
      tree.entry? spot.location = spot.entry? := by
  cases check : checkPath path with
  | error fault => rw [find, check] at found; cases found
  | ok _ =>
    rw [find_of_checkPath check] at found
    obtain ⟨ends, there⟩ := location_of_walk noLink found
    exact ⟨ends.trans (follow_steps path _), there⟩

theorem location_of_entryAt (noLink : tree.HasNoLink) {location : Location} {entry : Entry}
    (found : tree.entryAt path = .ok (location, entry)) :
    location = path.target tree.workingDirectory ∧ tree.entry? location = some entry := by
  rw [entryAt] at found
  obtain ⟨spot, walked, there⟩ := exists_of_bind_ok found
  cases spot with
  | occupied l e => cases there; exact location_of_find noLink walked
  | vacant d n => cases there

theorem location_of_directory? (noLink : tree.HasNoLink) {directory : Location}
    (leads : tree.directory? path = some directory) :
    directory = path.target tree.workingDirectory := by
  rw [directory?] at leads
  split at leads
  next walked => cases leads; exact (location_of_walk noLink walked).1
  next => cases leads

/-- A path that has a place leads there by its last name. -/
theorem way_of_place {unnamed : IoFault} {place : Place}
    (found : tree.place unnamed path = .ok place) :
    ∃ front left, path.names = front ++ [place.name] ∧ (place.name ≠ "." ∧ place.name ≠ "..") ∧
      Way tree maximalLinks (origin path tree.workingDirectory) front left place.directory := by
  cases check : checkPath path with
  | error fault => rw [Tree.place, check] at found; cases found
  | ok _ =>
    rcases List.eq_nil_or_concat path.names with empty | ⟨front, name, names⟩
    · -- a path without names has no place
      have last : (path.pieces.filter (· != "")).getLast? = none := congrArg List.getLast? empty
      rw [Tree.place, check] at found
      simp only [last] at found
      cases found
    · rw [List.concat_eq_append] at names
      rw [place_of_checkPath check names] at found
      obtain ⟨spot, walked, there⟩ := exists_of_bind_ok found
      split at there
      next directory =>
        split_ifs at there with dots
        cases there
        obtain ⟨left, way⟩ := walk_eq_directory_iff.1 walked
        exact ⟨front, left, names, by simpa using dots, way⟩
      next => cases there
      next => cases there

theorem location_of_place (noLink : tree.HasNoLink) {unnamed : IoFault} {place : Place}
    (found : tree.place unnamed path = .ok place) :
    place.location = path.target tree.workingDirectory := by
  obtain ⟨front, left, names, dots, way⟩ := way_of_place found
  have ends : place.directory = _ :=
    (location_of_walk noLink (walk_eq_directory_iff.2 ⟨left, way⟩)).1
  rw [Place.location, Path.target, names, Location.follow_append, ← ends]
  exact (Location.follow_names _ (by simpa using dots)).symm

/-! ## Files that stay -/

/-- Whether a tree, after some changes of one without links, has none and leads paths where they
led before, with the file at a place as it was. -/
structure Holds (place : Location) (tree tree' : Tree) : Prop where
  keeps : Keeps tree tree'
  noLink : tree'.HasNoLink
  same : tree'.content? place = tree.content? place

namespace Holds

theorem refl (noLink : tree.HasNoLink) : Holds place tree tree :=
  ⟨.refl tree, noLink, rfl⟩

theorem trans {one two three : Tree} (first : Holds place one two) (second : Holds place two three) :
    Holds place one three :=
  ⟨first.keeps.trans second.keeps, second.noLink, second.same.trans first.same⟩

end Holds

/-- What is no link and no directory is no passage. -/
theorem isPassage_of_hasNoLink (noLink : tree.HasNoLink) {location : Location}
    (free : tree.entry? location ≠ some .directory) (old : Entry)
    (there : tree.entry? location = some old) : old.isPassage = false := by
  cases old with
  | file content => rfl
  | directory => exact absurd there free
  | link target => exact absurd there (noLink location target)

/-- Putting an entry elsewhere, over what is no directory, leaves a file. -/
theorem holds_put (noLink : tree.HasNoLink) {location : Location} (named : location ≠ [])
    {entry : Entry} (free : tree.entry? location ≠ some .directory)
    (plain : ∀ target, entry ≠ .link target) (other : location ≠ place) :
    Holds place tree (tree.put location entry) where
  keeps := keeps_put named entry (isPassage_of_hasNoLink noLink free)
  noLink := by
    intro l target there
    rw [entry?_put tree named] at there
    split at there
    next => exact plain target (Option.some.inj there)
    next => exact noLink l target there
  same := content?_put_of_ne named (Ne.symm other) entry

/-- Erasing what is elsewhere and no directory leaves a file. -/
theorem holds_erase (noLink : tree.HasNoLink) {location : Location} (named : location ≠ [])
    (free : tree.entry? location ≠ some .directory) (other : location ≠ place) :
    Holds place tree (tree.erase location) where
  keeps := keeps_erase named (isPassage_of_hasNoLink noLink free)
  noLink := by
    intro l target there
    rw [entry?_erase tree named] at there
    split at there
    next => cases there
    next => exact noLink l target there
  same := content?_erase_of_ne named (Ne.symm other)

/-! ### Directories -/

theorem holds_makeDirectory (noLink : tree.HasNoLink) (h : tree.makeDirectory path = .ok tree') :
    Holds place tree tree' := by
  have same := content?_makeDirectory h place
  rw [makeDirectory] at h
  obtain ⟨free, _, done⟩ := exists_of_bind_ok h
  split at done
  next => cases done
  next vacant =>
    cases done
    have named : free.location ≠ [] := by simp [Place.location]
    refine ⟨keeps_put named _ (by simp [vacant]), ?_, same⟩
    intro l target there
    rw [entry?_put tree named] at there
    split at there
    next => cases there
    next => exact noLink l target there

theorem holds_makeDirectories (noLink : tree.HasNoLink) (paths : List Path) :
    Holds place tree (tree.makeDirectories paths).2 :=
  makeDirectories_induction (.refl noLink) fun _ _ _ _ holds made =>
    holds.trans (holds_makeDirectory holds.noLink made)

/-! ### Calls -/

theorem Place.location_ne_nil (place : Place) : place.location ≠ [] := by
  simp [Place.location]

/-- What is written, is written to the place of the path. -/
theorem holds_write (noLink : tree.HasNoLink) {content : ByteArray}
    (other : path.target tree.workingDirectory ≠ place)
    (h : tree.write path content = .ok tree') : Holds place tree tree' := by
  rw [write] at h
  obtain ⟨spot, found, done⟩ := exists_of_bind_ok h
  obtain ⟨ends, there⟩ := location_of_find noLink found
  rw [← ends] at other
  have put (named : spot.location ≠ []) (free : spot.entry? ≠ some .directory) :
      Holds place tree (tree.put spot.location (.file content)) :=
    holds_put noLink named (there ▸ free) (by simp) other
  cases spot with
  | vacant directory name =>
    cases done
    exact put (by simp [Spot.location]) (by simp [Spot.entry?])
  | occupied location entry =>
    cases entry with
    | file old =>
      cases done
      refine put ?_ (by simp [Spot.entry?])
      rintro (rfl : location = [])
      cases there
    | directory => cases done
    | link target => cases done

/-- What is removed, is removed from the place of the path. -/
theorem holds_remove (noLink : tree.HasNoLink)
    (other : path.target tree.workingDirectory ≠ place)
    (h : tree.remove path = .ok tree') : Holds place tree tree' := by
  rw [remove] at h
  obtain ⟨old, found, done⟩ := exists_of_bind_ok h
  rw [← location_of_place noLink found] at other
  split at done
  next => cases done
  next => cases done
  next free there =>
    split_ifs at done
    cases done
    refine holds_erase noLink old.location_ne_nil ?_ other
    rw [there]
    simpa using free

/-- What is moved, is moved from the place of one path to that of another. -/
theorem holds_rename (noLink : tree.HasNoLink) {source target : Path}
    (fromOther : source.target tree.workingDirectory ≠ place)
    (toOther : target.target tree.workingDirectory ≠ place)
    (h : tree.rename source target = .ok tree') : Holds place tree tree' := by
  rw [rename] at h
  obtain ⟨old, foundOld, h⟩ := exists_of_bind_ok h
  obtain ⟨new, foundNew, done⟩ := exists_of_bind_ok h
  rw [← location_of_place noLink foundOld] at fromOther
  rw [← location_of_place noLink foundNew] at toOther
  split at done
  next => cases done
  next => cases done
  next entry moves there =>
    split_ifs at done with slashed taken
    cases done
    have erased : Holds place tree (tree.erase old.location) := by
      refine holds_erase noLink old.location_ne_nil ?_ fromOther
      rw [there]
      simpa using moves
    refine erased.trans (holds_put erased.noLink new.location_ne_nil ?_ ?_ toOther)
    · rw [entry?_erase tree old.location_ne_nil]
      split
      next => simp
      next => exact taken
    · rintro link rfl
      exact noLink _ link there

/-- A call leaves the files at places that it does not touch. -/
theorem holds_perform (noLink : tree.HasNoLink) {call : FileCall}
    (other : ¬ call.Touches tree.workingDirectory place) :
    Holds place tree (tree.perform call).2 := by
  have changed {result : Except IoFault Tree}
      (h : ∀ tree', result = .ok tree' → Holds place tree tree') :
      Holds place tree (tree.changed result).2 := by
    cases result with
    | error fault => exact .refl noLink
    | ok tree' => exact h tree' rfl
  cases call with
  | createDirectories path => exact holds_makeDirectories noLink _
  | write path content => exact changed fun _ written => holds_write noLink other written
  | rename source target =>
    obtain ⟨fromOther, toOther⟩ := not_or.1 other
    exact changed fun _ moved => holds_rename noLink fromOther toOther moved
  | remove path => exact changed fun _ removed => holds_remove noLink other removed
  | _ => exact .refl noLink

/-- A walk that ends at a file ends there also when the directories on the way were kept. -/
theorem walk_file_keep (noLink : tree.HasNoLink) (keeps : Keeps tree tree') {content : ByteArray}
    (there : tree'.entry? place = some (.file content)) {links : Nat} {location : Location}
    {pieces : List String}
    (walked : tree.walk true links location pieces = .ok (.occupied place (.file content))) :
    tree'.walk true links location pieces = .ok (.occupied place (.file content)) := by
  have ended {links : Nat} {location : Location}
      (walked : tree.walk true links location [] = .ok (.occupied place (.file content))) :
      tree'.walk true links location [] = .ok (.occupied place (.file content)) := by
    rw [walk_nil] at walked
    split at walked
    next => cases walked; rw [walk_nil, there]
    next => cases walked
  rcases List.eq_nil_or_concat pieces with rfl | ⟨front, name, rfl⟩
  · exact ended walked
  · rw [List.concat_eq_append] at walked ⊢
    obtain ⟨left, directory, way⟩ := exists_way walked (by simp)
    have kept := way.keep keeps
    rw [way.walk_append, walk_cons, way.entry?] at walked
    rw [kept.walk_append, walk_cons, kept.entry?]
    dsimp only at walked ⊢
    split_ifs at walked ⊢ with here above long
    · exact ended walked
    · exact ended walked
    · split at walked
      next => cases walked
      next target next => exact absurd next (noLink _ target)
      next entry _ next =>
        -- the last name is that of the file
        rw [walk_nil, next] at walked
        cases walked
        rw [there]
        exact (walk_nil tree' true left _).trans (by rw [there])

/-- A path that led to a file leads to it still. -/
theorem Holds.entryAt (holds : Holds place tree tree') (noLink : tree.HasNoLink)
    {content : ByteArray} (found : tree.entryAt path = .ok (place, .file content)) :
    tree'.entryAt path = .ok (place, .file content) := by
  have there : tree'.entry? place = some (.file content) := by
    have held : tree'.content? place = some content := by
      rw [holds.same, content?, (location_of_entryAt noLink found).2]
    rw [content?] at held
    split at held
    next is => rw [is, Option.some.inj held]
    next => cases held
  rw [Tree.entryAt] at found ⊢
  obtain ⟨spot, walked, is⟩ := exists_of_bind_ok found
  have kept : tree'.find path = .ok (.occupied place (.file content)) := by
    cases spot with
    | vacant directory name => cases is
    | occupied location entry =>
      cases is
      cases check : checkPath path with
      | error fault => rw [find, check] at walked; cases walked
      | ok _ =>
        rw [find_of_checkPath check] at walked ⊢
        rw [holds.keeps.origin]
        exact walk_file_keep noLink holds.keeps there walked
  rw [kept]
  rfl

end Tree

end ProxyKeeper
