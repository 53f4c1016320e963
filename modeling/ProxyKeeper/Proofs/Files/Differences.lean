import ProxyKeeper.Proofs.Files.Growth
import ProxyKeeper.Proofs.Files.Targets
import ProxyKeeper.Proofs.Store.Requests

/-!
# Where a call makes a difference

In a tree without symbolic links, what a call may change can be told from its paths. It changes the
entries at the places of its paths, and when it makes directories, these are where nothing was on
the way of its path. Every other entry is as before.

## Main Definitions

* `Path.Passes` — the places on the way of a path
* `FileCall.Makes` — the places where a call may make directories
* `Tree.Differs` — trees that are the same but for some places, and for new directories

## Main Results

* `Path.names_child_of_isPlainName` and others — names in directories, also in the one without text
* `Tree.differs_perform` — where a call makes a difference
-/

namespace ProxyKeeper

namespace Path

variable {directory path above : Path} {name : String} {start : Location}

/-! ## Names in directories -/

theorem isAbsolute_of_isPlainName (plain : IsPlainName name) :
    (⟨name⟩ : Path).isAbsolute = false := by
  rw [isAbsolute, beq_eq_false_iff_ne]
  exact fun head => plain.noSlash (List.mem_of_mem_head? head)

/-- The names of the path of a name in a directory, also where the directory has no text. -/
theorem names_child_of_isPlainName (directory : Path) (plain : IsPlainName name) :
    (directory.child name).names = directory.names ++ [name] := by
  by_cases given : directory.text = ""
  · obtain rfl : directory = ⟨""⟩ := congrArg Path.mk given
    rw [child_of_empty rfl, names, pieces_of_isPlainName plain, List.filter_cons_of_pos]
    · rfl
    · simpa using plain.notEmpty
  · exact names_child given plain

theorem target_child_of_isPlainName (directory : Path) (plain : IsPlainName name)
    (start : Location) :
    (directory.child name).target start = directory.target start ++ [name] := by
  by_cases given : directory.text = ""
  · obtain rfl : directory = ⟨""⟩ := congrArg Path.mk given
    rw [target, names_child_of_isPlainName _ plain, child_of_empty rfl, Tree.origin,
      isAbsolute_of_isPlainName plain]
    exact Location.follow_concat _ _ plain
  · exact target_child given plain start

theorem exists_parent?_child (directory : Path) (plain : IsPlainName name) :
    ∃ above, (directory.child name).parent? = some above ∧
      ∀ start, above.target start = directory.target start := by
  by_cases given : directory.text = ""
  · obtain rfl : directory = ⟨""⟩ := congrArg Path.mk given
    refine ⟨⟨""⟩, ?_, fun _ => rfl⟩
    rw [child_of_empty rfl, parent?, pieces_of_isPlainName plain]
    simp [isAbsolute_of_isPlainName plain, plain.notEmpty]
  · obtain ⟨above, parent, _, same⟩ := target_parent? given plain
    exact ⟨above, parent, same⟩

theorem fileName?_child_of_isPlainName (directory : Path) (plain : IsPlainName name) :
    (directory.child name).fileName? = some name := by
  by_cases given : directory.text = ""
  · have part : partOf? name = some (.name name) := by
      simp [partOf?, plain.notEmpty, plain.notHere, plain.notAbove]
    rw [child_of_empty given, fileName?, parts, isAbsolute_of_isPlainName plain,
      pieces_of_isPlainName plain, List.filterMap_cons_some part]
    simp
  · exact fileName?_child given plain

/-! ## The way of a path -/

/-- Whether a place is on the way of a path, for one who begins at a location. -/
def Passes (path : Path) (start place : Location) : Prop :=
  ∃ front, front <+: path.names ∧ (Tree.origin path start).follow front = place

/-- The path above a path has the beginning of its names. -/
theorem names_of_parent? (parent : path.parent? = some above) :
    above.isAbsolute = path.isAbsolute ∧ above.names <+: path.names := by
  rw [parent?] at parent
  split at parent
  next => cases parent
  next first rest cut =>
    -- a path whose pieces begin those of another one has the beginning of its names
    have begins {pieces : List String} (is : above.pieces = pieces)
        (begin : pieces <+: first :: rest) : above.names <+: path.names := by
      rw [Path.names, Path.names, is, cut]
      exact begin.filter _
    have noSlash {piece : String} (listed : piece ∈ first :: rest) : '/' ∉ piece.toList :=
      noSlash_of_mem_pieces (cut ▸ listed)
    split at parent
    next =>
      split_ifs at parent with nowhere
      cases parent
      rw [Bool.or_eq_true, not_or, Bool.not_eq_true] at nowhere
      exact ⟨nowhere.1.symm, List.nil_prefix⟩
    next last before counts =>
      split at parent
      next =>
        cases parent
        cases absolute : path.isAbsolute with
        | true =>
          rw [if_pos rfl]
          exact ⟨rfl, List.nil_prefix⟩
        | false =>
          simp only [absolute, Bool.false_eq_true, if_false] at begins ⊢
          have alone : (⟨first⟩ : Path).pieces = [first] := by
            have made := pieces_intercalate (List.cons_ne_nil first [])
              (by simpa using noSlash List.mem_cons_self)
            rwa [String.intercalate_singleton] at made
          refine ⟨Bool.eq_false_iff.2 fun is => ((isAbsolute_iff alone).1 is).2 rfl, begins alone ?_⟩
          exact ⟨rest, rfl⟩
      next kept =>
        cases parent
        have front : (before.dropWhile isSilent).reverse <+: rest := by
          rw [← List.reverse_suffix, List.reverse_reverse]
          have inside := List.dropWhile_suffix (l := rest.reverse) isSilent
          rw [counts] at inside
          exact (List.dropWhile_suffix _).trans ((List.suffix_cons last before).trans inside)
        have pieces : (⟨"/".intercalate (first :: (before.dropWhile isSilent).reverse)⟩ : Path).pieces =
            first :: (before.dropWhile isSilent).reverse := by
          refine pieces_intercalate (by simp) fun piece listed => noSlash ?_
          rcases List.mem_cons.1 listed with rfl | listed
          · exact List.mem_cons_self
          · exact List.mem_cons_of_mem _ (front.subset listed)
        refine ⟨?_, begins pieces (List.prefix_cons_inj first |>.2 front)⟩
        rw [Bool.eq_iff_iff, isAbsolute_iff pieces, isAbsolute_iff cut]
        refine and_congr_right fun _ => iff_of_true (by simpa using kept) ?_
        rintro rfl
        cases counts

/-- The paths above a path have the beginning of its names. -/
theorem names_of_mem_lineage {count : Nat} (listed : above ∈ Tree.lineage count path) :
    above.isAbsolute = path.isAbsolute ∧ above.names <+: path.names := by
  induction count generalizing path with
  | zero => cases listed
  | succ count ih =>
    rw [Tree.lineage] at listed
    rcases List.mem_cons.1 listed with rfl | listed
    · exact ⟨rfl, List.prefix_rfl⟩
    · split at listed
      next parent is =>
        obtain ⟨absolute, names⟩ := names_of_parent? is
        obtain ⟨absolute', names'⟩ := ih listed
        exact ⟨absolute'.trans absolute, names'.trans names⟩
      next => cases listed

/-- The places of a path and of those above it are on its way. -/
theorem passes_of_mem_lineage {count : Nat} (listed : above ∈ Tree.lineage count path) :
    path.Passes start (above.target start) := by
  obtain ⟨absolute, names⟩ := names_of_mem_lineage listed
  refine ⟨above.names, names, ?_⟩
  rw [target, Tree.origin, Tree.origin, absolute]

end Path

/-- The places where a call may make directories. -/
def FileCall.Makes (start place : Location) : FileCall → Prop
  | .createDirectories path => path.Passes start place
  | _ => False

namespace FileCall

variable {call : FileCall} {start place : Location}

/-- What changes nothing touches no place, -/
theorem not_touches (looks : call.changes = false) : ¬ call.Touches start place := by
  cases call <;> first | exact id | cases looks

/-- and makes no directory. -/
theorem not_makes (looks : call.changes = false) : ¬ call.Makes start place := by
  cases call <;> first | exact id | cases looks

end FileCall

namespace Tree

variable {tree tree' made : Tree} {path : Path} {places ways : Location → Prop}

/-! ## Trees with differences -/

/-- Whether a tree without links is another one but for some places, and for directories where
nothing was. -/
structure Differs (places ways : Location → Prop) (tree tree' : Tree) : Prop where
  origin : tree'.workingDirectory = tree.workingDirectory
  noLink : tree'.HasNoLink
  entries : ∀ location, tree'.entry? location = tree.entry? location ∨ places location ∨
    ways location ∧ tree.entry? location = none ∧ tree'.entry? location = some .directory

namespace Differs

theorem refl (noLink : tree.HasNoLink) : Differs places ways tree tree :=
  ⟨rfl, noLink, fun _ => .inl rfl⟩

/-- Differences that are among those that there may be add up. -/
theorem trans {places' ways' : Location → Prop} (first : Differs places ways tree made)
    (second : Differs places' ways' made tree')
    (within : ∀ location, places' location → places location)
    (withinWays : ∀ location, ways' location → ways location) : Differs places ways tree tree' := by
  refine ⟨second.origin.trans first.origin, second.noLink, fun location => ?_⟩
  rcases second.entries location with same | touched | ⟨way, vacant, is⟩
  · rw [same]
    exact first.entries location
  · exact .inr (.inl (within _ touched))
  · rcases first.entries location with same | touched | ⟨_, _, there⟩
    · exact .inr (.inr ⟨withinWays _ way, same.symm.trans vacant, is⟩)
    · exact .inr (.inl touched)
    · cases there.symm.trans vacant

theorem put (noLink : tree.HasNoLink) {location : Location} (named : location ≠ []) {entry : Entry}
    (plain : ∀ target, entry ≠ .link target) (own : places location) :
    Differs places ways tree (tree.put location entry) := by
  refine ⟨rfl, fun place target there => ?_, fun place => ?_⟩
  · rw [entry?_put tree named] at there
    split at there
    next => exact plain target (Option.some.inj there)
    next => exact noLink place target there
  · by_cases same : place = location
    · exact .inr (.inl (same ▸ own))
    · rw [entry?_put tree named, if_neg same]
      exact .inl rfl

theorem erase (noLink : tree.HasNoLink) {location : Location} (named : location ≠ [])
    (own : places location) : Differs places ways tree (tree.erase location) := by
  refine ⟨rfl, fun place target there => ?_, fun place => ?_⟩
  · rw [entry?_erase tree named] at there
    split at there
    next => cases there
    next => exact noLink place target there
  · by_cases same : place = location
    · exact .inr (.inl (same ▸ own))
    · rw [entry?_erase tree named, if_neg same]
      exact .inl rfl

end Differs

/-! ## Calls -/

theorem differs_write (noLink : tree.HasNoLink) {content : ByteArray}
    (own : places (path.target tree.workingDirectory))
    (written : tree.write path content = .ok tree') : Differs places ways tree tree' := by
  rw [write] at written
  obtain ⟨spot, found, done⟩ := exists_of_bind_ok written
  obtain ⟨ends, there⟩ := location_of_find noLink found
  rw [← ends] at own
  cases spot with
  | vacant directory name =>
    cases done
    exact .put noLink (by simp) (by simp) own
  | occupied location entry =>
    cases entry with
    | file old =>
      cases done
      refine .put noLink ?_ (by simp) own
      rintro rfl
      cases there
    | directory => cases done
    | link target => cases done

theorem differs_remove (noLink : tree.HasNoLink) (own : places (path.target tree.workingDirectory))
    (removed : tree.remove path = .ok tree') : Differs places ways tree tree' := by
  rw [remove] at removed
  obtain ⟨old, found, done⟩ := exists_of_bind_ok removed
  rw [← location_of_place noLink found] at own
  split at done
  next => cases done
  next => cases done
  next =>
    split_ifs at done
    cases done
    exact .erase noLink old.location_ne_nil own

theorem differs_rename (noLink : tree.HasNoLink) {source target : Path}
    (own : places (source.target tree.workingDirectory))
    (own' : places (target.target tree.workingDirectory))
    (moved : tree.rename source target = .ok tree') : Differs places ways tree tree' := by
  rw [rename] at moved
  obtain ⟨old, foundOld, moved⟩ := exists_of_bind_ok moved
  obtain ⟨new, foundNew, done⟩ := exists_of_bind_ok moved
  rw [← location_of_place noLink foundOld] at own
  rw [← location_of_place noLink foundNew] at own'
  split at done
  next => cases done
  next => cases done
  next entry moves there =>
    split_ifs at done
    cases done
    have erased : Differs places ways tree (tree.erase old.location) :=
      .erase noLink old.location_ne_nil own
    refine erased.trans (Differs.put erased.noLink new.location_ne_nil ?_ own') (fun _ => id)
      fun _ => id
    rintro link rfl
    exact noLink _ link there

theorem differs_makeDirectory (noLink : tree.HasNoLink)
    (way : ways (path.target tree.workingDirectory)) (h : tree.makeDirectory path = .ok made) :
    Differs places ways tree made := by
  rw [makeDirectory] at h
  obtain ⟨place, found, done⟩ := exists_of_bind_ok h
  rw [← location_of_place noLink found] at way
  split at done
  next => cases done
  next vacant =>
    cases done
    have put : Differs (· = place.location) ways tree (tree.put place.location .directory) :=
      .put noLink place.location_ne_nil (by simp) rfl
    refine ⟨put.origin, put.noLink, fun location => ?_⟩
    rw [entry?_put tree place.location_ne_nil]
    split
    next same => exact .inr (.inr ⟨same ▸ way, same ▸ vacant, rfl⟩)
    next => exact .inl rfl

theorem differs_makeDirectories (noLink : tree.HasNoLink) {paths : List Path}
    (along : ∀ path ∈ paths, ways (path.target tree.workingDirectory)) :
    Differs places ways tree (tree.makeDirectories paths).2 :=
  makeDirectories_induction (.refl noLink) fun path listed _ _ before made =>
    before.trans (differs_makeDirectory before.noLink (before.origin ▸ along path listed) made)
      (fun _ => id) fun _ => id

theorem differs_createDirectories (noLink : tree.HasNoLink) (path : Path) :
    Differs places (path.Passes tree.workingDirectory) tree (tree.createDirectories path).2 :=
  differs_makeDirectories noLink fun _ listed => Path.passes_of_mem_lineage listed

/-- Where a call makes a difference. -/
theorem differs_perform (noLink : tree.HasNoLink) (call : FileCall) :
    Differs (fun place => call.Touches tree.workingDirectory place)
      (fun place => call.Makes tree.workingDirectory place) tree (tree.perform call).2 := by
  have changed {places ways : Location → Prop} {result : Except IoFault Tree}
      (h : ∀ tree', result = .ok tree' → Differs places ways tree tree') :
      Differs places ways tree (tree.changed result).2 := by
    cases result with
    | error fault => exact .refl noLink
    | ok tree' => exact h tree' rfl
  cases call with
  | createDirectories path => exact differs_createDirectories noLink path
  | write path content => exact changed fun _ written => differs_write noLink rfl written
  | rename source target =>
    exact changed fun _ moved => differs_rename noLink (.inl rfl) (.inr rfl) moved
  | remove path => exact changed fun _ removed => differs_remove noLink rfl removed
  | _ => exact .refl noLink

end Tree

end ProxyKeeper
