import ProxyKeeper.Files.Call
import ProxyKeeper.Proofs.Files.Walks

/-!
# Contents by location

What calls do to the content of the file at a location, when all that is known of a path is the name
it ends in. Wherever the path leads, what it names is an entry of that name: the call can touch a
file of another name only as the target of a move.

## Main Definitions

* `Tree.content?` — the content of the file at a location
* `Tree.NoLinkNamed` — no symbolic link bears a name

## Main Results

* `Tree.write_named`, `Tree.remove_named`, `Tree.rename_named` — the location that a call touches
* `Tree.content?_createDirectories` — directories are made beside files
-/

namespace ProxyKeeper

namespace Path

variable {directory : Path} {name : String}

/-- A name by itself is a path of one piece. -/
theorem pieces_of_isPlainName (plain : IsPlainName name) : (⟨name⟩ : Path).pieces = [name] := by
  have made := pieces_intercalate (List.cons_ne_nil name []) (by simpa using plain.noSlash)
  rwa [String.intercalate_singleton] at made

theorem child_of_empty (empty : directory.text = "") (name : String) :
    directory.child name = ⟨name⟩ := by
  rw [child, join, empty]
  simp

/-- The path of a name in a directory ends in the name, also where the directory has no text. -/
theorem exists_names_child (directory : Path) (plain : IsPlainName name) :
    ∃ front, (directory.child name).names = front ++ [name] := by
  by_cases given : directory.text = ""
  · rw [child_of_empty given, names, pieces_of_isPlainName plain]
    exact ⟨[], by simpa using plain.notEmpty⟩
  · exact ⟨_, names_child given plain⟩

theorem exists_steps_child (directory : Path) (plain : IsPlainName name) :
    ∃ front, Tree.steps (directory.child name) = front ++ [name] := by
  by_cases given : directory.text = ""
  · rw [child_of_empty given, Tree.steps, pieces_of_isPlainName plain, if_neg]
    · exact ⟨[], by simpa using plain.notEmpty⟩
    · exact fun slash => plain.noSlash (List.mem_of_getLast? slash)
  · exact ⟨_, steps_child given plain⟩

/-- The last name of a path is one of its pieces. -/
theorem noSlash_of_fileName? {path : Path} (h : path.fileName? = some name) :
    '/' ∉ name.toList := by
  rw [fileName?] at h
  split at h
  next text last =>
    obtain rfl := Option.some.inj h
    have listed := List.mem_of_getLast? last
    rw [parts] at listed
    rcases List.mem_append.1 listed with front | piece
    · split_ifs at front <;> simp at front
    · obtain ⟨piece, inPath, is⟩ := List.mem_filterMap.1 piece
      rw [partOf?] at is
      split_ifs at is
      · cases is
      · obtain rfl := Part.name.inj (Option.some.inj is)
        exact noSlash_of_mem_pieces inPath
  next => cases h

end Path

namespace Tree

variable {tree tree' : Tree} {path source target : Path} {front : List String} {name : String}
  {location : Location}

/-- The content of the file at a location. -/
def content? (tree : Tree) (location : Location) : Option ByteArray :=
  match tree.entry? location with
  | some (.file content) => some content
  | _ => none

/-- Whether no symbolic link bears a name. -/
def NoLinkNamed (tree : Tree) (name : String) : Prop :=
  ∀ directory target, tree.entry? (directory ++ [name]) ≠ some (.link target)

theorem content?_of_entry? (same : tree'.entry? location = tree.entry? location) :
    tree'.content? location = tree.content? location := by
  rw [content?, content?, same]

theorem content?_put_of_ne {place : Location} (named : place ≠ []) (other : location ≠ place)
    (entry : Entry) : (tree.put place entry).content? location = tree.content? location := by
  refine content?_of_entry? ?_
  rw [entry?_put tree named, if_neg other]

theorem content?_erase_of_ne {place : Location} (named : place ≠ []) (other : location ≠ place) :
    (tree.erase place).content? location = tree.content? location := by
  refine content?_of_entry? ?_
  rw [entry?_erase tree named, if_neg other]

/-- Where there are no links, none bears a name. -/
theorem noLinkNamed_of_entries
    (h : (tree.entries.all fun e => match e.2 with | .link _ => false | _ => true) = true)
    (name : String) : tree.NoLinkNamed name := by
  intro directory target there
  have clear := List.all_eq_true.1 h _ (mem_entries there)
  cases clear

/-! ## The location that a path names -/

/-- What succeeds in two parts succeeds in both. -/
theorem exists_of_bind_ok {α β : Type} {first : Except IoFault α} {second : α → Except IoFault β}
    {b : β} (h : first >>= second = .ok b) : ∃ a, first = .ok a ∧ second a = .ok b := by
  cases first with
  | error fault => cases h
  | ok a => exact ⟨a, rfl, h⟩

/-- A path that ends in a name leads to what bears the name in some directory. -/
theorem find_named (steps : steps path = front ++ [name]) (plain : Path.IsPlainName name)
    (noLink : tree.NoLinkNamed name) {spot : Spot} (found : tree.find path = .ok spot) :
    ∃ directory, spot = tree.lookAt directory name := by
  cases check : checkPath path with
  | error fault => rw [find, check] at found; cases found
  | ok _ =>
    rw [find_of_checkPath check, steps] at found
    obtain ⟨left, directory, way⟩ := exists_way found (by simp)
    refine ⟨directory, ?_⟩
    rw [way.walk_append, walk_cons, way.entry?] at found
    simp only [plain.notHere, plain.notAbove, if_false] at found
    rw [lookAt]
    split_ifs at found with long
    cases entry : tree.entry? (directory ++ [name]) with
    | none =>
      rw [entry] at found
      cases found
      rfl
    | some e =>
      rw [entry] at found
      cases e with
      | link target => exact absurd entry (noLink directory target)
      | file content =>
        simp only [walk_nil, entry] at found
        cases found
        rfl
      | directory =>
        simp only [walk_nil, entry] at found
        cases found
        rfl

/-- The place of a path that ends in a name bears the name. -/
theorem place_named (names : path.names = front ++ [name]) {unnamed : IoFault} {place : Place}
    (found : tree.place unnamed path = .ok place) : place.name = name := by
  cases check : checkPath path with
  | error fault => rw [Tree.place, check] at found; cases found
  | ok _ =>
    rw [place_of_checkPath check names] at found
    obtain ⟨spot, _, there⟩ := exists_of_bind_ok found
    split at there
    next =>
      split_ifs at there
      cases there
      rfl
    next => cases there
    next => cases there

theorem write_named (steps : steps path = front ++ [name]) (plain : Path.IsPlainName name)
    (noLink : tree.NoLinkNamed name) {content : ByteArray}
    (h : tree.write path content = .ok tree') :
    ∃ directory, tree' = tree.put (directory ++ [name]) (.file content) := by
  rw [write] at h
  obtain ⟨spot, found, done⟩ := exists_of_bind_ok h
  obtain ⟨directory, rfl⟩ := find_named steps plain noLink found
  refine ⟨directory, ?_⟩
  rw [lookAt] at done
  cases entry : tree.entry? (directory ++ [name]) with
  | none => rw [entry] at done; cases done; rfl
  | some e => rw [entry] at done; cases e <;> cases done; rfl

theorem remove_named (names : path.names = front ++ [name]) (h : tree.remove path = .ok tree') :
    ∃ directory, tree' = tree.erase (directory ++ [name]) := by
  rw [remove] at h
  obtain ⟨place, found, done⟩ := exists_of_bind_ok h
  refine ⟨place.directory, ?_⟩
  rw [← place_named names found]
  split at done
  next => cases done
  next => cases done
  next =>
    split_ifs at done
    cases done
    rfl

/-- What is moved takes the place of its target. -/
theorem rename_named (names : source.names = front ++ [name])
    (h : tree.rename source target = .ok tree') :
    ∃ directory place entry, tree.place .busy target = .ok place ∧
      tree' = (tree.erase (directory ++ [name])).put place.location entry := by
  rw [rename] at h
  obtain ⟨old, foundOld, h⟩ := exists_of_bind_ok h
  obtain ⟨new, foundNew, done⟩ := exists_of_bind_ok h
  refine ⟨old.directory, new, ?_⟩
  rw [← place_named names foundOld]
  split at done
  next => cases done
  next => cases done
  next entry _ _ =>
    split_ifs at done
    cases done
    exact ⟨entry, foundNew, rfl⟩

/-! ## Directories -/

/-- A directory is made where nothing is. -/
theorem content?_makeDirectory (h : tree.makeDirectory path = .ok tree') (location : Location) :
    tree'.content? location = tree.content? location := by
  rw [makeDirectory] at h
  obtain ⟨place, _, done⟩ := exists_of_bind_ok h
  split at done
  next => cases done
  next vacant =>
    cases done
    have named : place.location ≠ [] := by simp [Place.location]
    by_cases here : location = place.location
    · rw [content?, content?, entry?_put tree named, if_pos here, here, vacant]
    · exact content?_put_of_ne named here _

/-- What holds of a tree and stays when one of some directories is made, holds when they are made. -/
theorem makeDirectories_induction {motive : Tree → Prop} {paths : List Path} (start : motive tree)
    (step : ∀ path ∈ paths, ∀ tree made, motive tree → tree.makeDirectory path = .ok made →
      motive made) : motive (tree.makeDirectories paths).2 := by
  induction paths generalizing tree with
  | nil => exact start
  | cons path above ih =>
    obtain ⟨own, others⟩ := List.forall_mem_cons.1 step
    rw [makeDirectories]
    split
    · exact start
    · split
      next made => exact own _ _ start made
      next =>
        split
        · -- those above it are made first, and may stay when this one fails
          have before := ih start others
          split
          next failed => rw [failed] at before; exact before
          next reached =>
            rw [reached] at before
            split
            next made => exact own _ _ before made
            next => split <;> exact before
        · split <;> exact start

theorem content?_makeDirectories (tree : Tree) (paths : List Path) (location : Location) :
    (tree.makeDirectories paths).2.content? location = tree.content? location :=
  makeDirectories_induction (motive := fun made => made.content? location = tree.content? location)
    rfl fun _ _ _ _ same made =>
      (content?_makeDirectory made location).trans same

/-- Making directories leaves every file as it is. -/
theorem content?_createDirectories (tree : Tree) (path : Path) (location : Location) :
    (tree.createDirectories path).2.content? location = tree.content? location :=
  tree.content?_makeDirectories _ location

end Tree

end ProxyKeeper
