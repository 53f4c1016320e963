import ProxyKeeper.Proofs.Files.Differences

/-!
# Where directories are made

The walk to a directory that is missing stops on its way. If the path does not go up again behind
that place, then whatever is made when the directory is made is on one line from there down. Where a
link or a file stops the walk, nothing is made at all. So a directory that was made is a new one,
with nothing in it but the next one on the line.

## Main Definitions

* `Tree.Descends` — paths that only go down once their walk has stopped
* `Tree.Stop` — where a walk stops
* `Tree.Extends` — trees that have grown along a line

## Main Results

* `Tree.Descends.exists_stop` — the walk to a missing directory stops
* `Tree.Stop.follow_of_way` — where a walk that stopped leads when the tree has grown
* `Tree.Stop.extends_createDirectories` — directories are made along the line
-/

namespace ProxyKeeper

namespace Location

variable {location : Location} {front names : List String}

/-- Without double dots, pieces lead down. -/
theorem prefix_follow (location : Location) (noAbove : ∀ name ∈ names, name ≠ "..") :
    location <+: location.follow names := by
  induction names generalizing location with
  | nil => exact List.prefix_rfl
  | cons name names ih =>
    obtain ⟨notAbove, noAbove⟩ := List.forall_mem_cons.1 noAbove
    rw [follow, if_neg notAbove]
    split
    · exact ih location noAbove
    · exact (List.prefix_append _ _).trans (ih _ noAbove)

/-- The first of some pieces lead to where the others go on. -/
theorem follow_prefix_follow (is : front <+: names) (noAbove : ∀ name ∈ names, name ≠ "..") :
    location.follow front <+: location.follow names := by
  obtain ⟨back, rfl⟩ := is
  rw [follow_append]
  exact prefix_follow _ fun name listed => noAbove name (List.mem_append_right _ listed)

end Location

namespace Tree

variable {tree made : Tree} {path : Path} {start directory : Location}
  {front names rest : List String} {piece : String} {links left : Nat}

/-! ## Ways -/

/-- A walk has one end. -/
theorem Way.unique {left' : Nat} {other : Location}
    (way : Way tree links start front left directory)
    (way' : Way tree links start front left' other) : other = directory := by
  have walked := walk_eq_directory_iff.2 ⟨_, way⟩
  rw [walk_eq_directory_iff.2 ⟨_, way'⟩] at walked
  cases walked
  rfl

/-- A walk that goes on by a name finds something of that name. -/
theorem Way.entry?_next {left' : Nat} {next : Location}
    (way : Way tree links start front left directory)
    (further : Way tree links start (front ++ [piece]) left' next)
    (named : piece ≠ "." ∧ piece ≠ "..") : tree.entry? (directory ++ [piece]) ≠ none := by
  have walked := walk_eq_directory_iff.2 ⟨_, further⟩
  rw [way.walk_append, walk_cons, way.entry?] at walked
  simp only [named, if_false] at walked
  intro nothing
  rw [nothing] at walked
  split at walked <;> cases walked

/-- The beginning of a way is a way. -/
theorem Way.exists_front {back : List String}
    (way : Way tree links start (front ++ back) left directory) :
    ∃ left next, Way tree links start front left next :=
  exists_way (walk_eq_directory_iff.2 ⟨_, way⟩) fun _ => ⟨_, rfl⟩

/-- Directories are made in directories. -/
theorem IsClosed.makeDirectory (closed : tree.IsClosed)
    (done : tree.makeDirectory path = .ok made) : made.IsClosed := by
  rw [Tree.makeDirectory] at done
  obtain ⟨place, found, done⟩ := exists_of_bind_ok done
  obtain ⟨front, left, _, _, way⟩ := way_of_place found
  split at done
  next => cases done
  next =>
    cases done
    exact closed.put _ way.entry? fun _ => rfl

theorem IsClosed.createDirectories (closed : tree.IsClosed) (path : Path) :
    (tree.createDirectories path).2.IsClosed :=
  makeDirectories_induction closed fun _ _ _ _ closed done => closed.makeDirectory done

/-- Nothing is below what is not there. -/
theorem IsClosed.entry?_eq_none_below (closed : tree.IsClosed) {above location : Location}
    (nothing : tree.entry? above = none) (below : above <+: location) :
    tree.entry? location = none := by
  obtain ⟨names, rfl⟩ := below
  induction names generalizing above with
  | nil => rwa [List.append_nil]
  | cons name names ih =>
    rw [← List.singleton_append, ← List.append_assoc]
    exact ih (closed.entry?_eq_none (by rw [nothing]; exact nofun) name)

/-- Where there is nothing but directories, a walk that only goes down ends where its pieces
lead. -/
theorem walk_below {above location : Location} {spot : Spot}
    (only : ∀ l entry, above <+: l → tree.entry? l = some entry → entry = .directory)
    (below : above <+: location) (noAbove : ∀ name ∈ names, name ≠ "..")
    (walked : tree.walk true links location names = .ok spot) :
    spot.location = location.follow names := by
  induction names generalizing location with
  | nil =>
    rw [walk_nil] at walked
    split at walked
    next => cases walked; rfl
    next => cases walked
  | cons name names ih =>
    obtain ⟨notAbove, noAbove⟩ := List.forall_mem_cons.1 noAbove
    rw [walk_cons] at walked
    rw [Location.follow, if_neg notAbove]
    split at walked
    next =>
      rw [if_neg notAbove] at walked
      split_ifs at walked ⊢ with here long
      · exact ih below noAbove walked
      · have next := below.trans (List.prefix_append location [name])
        split at walked
        next =>
          split at walked
          next => cases walked; rfl
          next => cases walked
        next target there => cases only _ _ next there
        next => exact ih next noAbove walked
    next => cases walked

/-! ## Stops -/

/-- Whether the way along a path leads to a directory behind which the path only goes down. -/
def Descends (tree : Tree) (path : Path) : Prop :=
  ∃ front back left directory, path.names = front ++ back ∧ (∀ name ∈ back, name ≠ "..") ∧
    Way tree maximalLinks (origin path tree.workingDirectory) front left directory

/-- Where the directory is there, no part of its path is missing. -/
theorem Descends.of_directory? (leads : tree.directory? path = some directory) :
    tree.Descends path := by
  obtain ⟨left, way⟩ := directory?_eq_some_iff.1 leads
  exact ⟨_, [], left, directory, (List.append_nil _).symm, nofun, way⟩

theorem Descends.keep (descends : tree.Descends path) (keeps : Keeps tree made) :
    made.Descends path := by
  obtain ⟨front, back, left, directory, names, noAbove, way⟩ := descends
  refine ⟨front, back, left, directory, names, noAbove, ?_⟩
  rw [keeps.origin]
  exact way.keep keeps

/-- Where a walk along some pieces stops: it comes to a directory, from which the next piece leads to
none, and no piece behind that goes up. -/
structure Stop (tree : Tree) (start : Location) (front : List String) (directory : Location)
    (piece : String) (rest : List String) : Prop where
  way : ∃ left, Way tree maximalLinks start front left directory
  noAbove : ∀ name ∈ piece :: rest, name ≠ ".."
  stuck : ∀ left next, ¬ Way tree maximalLinks start (front ++ [piece]) left next

/-- The walk to a missing directory stops. -/
theorem Descends.exists_stop (descends : tree.Descends path)
    (missing : tree.directory? path = none) :
    ∃ front directory piece rest, path.names = front ++ piece :: rest ∧
      Stop tree (origin path tree.workingDirectory) front directory piece rest := by
  obtain ⟨front, back, left, directory, names, noAbove, way⟩ := descends
  induction back generalizing front left directory with
  | nil =>
    rw [List.append_nil] at names
    rw [directory?_eq_some_iff.2 ⟨left, names ▸ way⟩] at missing
    cases missing
  | cons piece rest ih =>
    by_cases further : ∃ left next, Way tree maximalLinks (origin path tree.workingDirectory)
        (front ++ [piece]) left next
    · obtain ⟨left, next, way⟩ := further
      exact ih _ _ _ (by rw [names, List.append_assoc, List.singleton_append])
        (List.forall_mem_cons.1 noAbove).2 way
    · exact ⟨front, directory, piece, rest, names, ⟨left, way⟩, noAbove,
        fun left next way => further ⟨left, next, way⟩⟩

/-- Whether a tree has grown, along a line, where nothing was at its first place. -/
structure Extends (tree : Tree) (first line : Location) (made : Tree) : Prop where
  grows : tree.Grows made
  along : ∀ location, made.entry? location ≠ tree.entry? location →
    tree.entry? first = none ∧ location <+: line

namespace Extends

variable {first line : Location}

theorem refl (tree : Tree) : tree.Extends first line tree :=
  ⟨.refl tree, fun _ other => absurd rfl other⟩

/-- What was made by the way is on the line. -/
theorem of_halfway {half : Tree} (grown : tree.Extends first line made) (before : tree.Grows half)
    (after : half.Grows made) : tree.Extends first line half := by
  refine ⟨before, fun location other => grown.along location ?_⟩
  obtain ⟨nothing, there⟩ := (before.entries location).resolve_left other
  rw [after.entry? there, nothing]
  exact nofun

/-- Where something was at the first place, nothing is made. -/
theorem back (grown : tree.Extends first line made) (there : tree.entry? first ≠ none) :
    Keeps made tree := by
  refine ⟨grown.grows.origin.symm, fun location entry is _ => ?_⟩
  by_contra other
  exact there (grown.along location fun same => other (same ▸ is)).1

end Extends

namespace Stop

variable (stop : Stop tree start front directory piece rest)

include stop

theorem named : piece ≠ "." ∧ piece ≠ ".." := by
  refine ⟨?_, stop.noAbove piece List.mem_cons_self⟩
  rintro rfl
  obtain ⟨left, way⟩ := stop.way
  have walked : tree.walk true maximalLinks start (front ++ ["."]) =
      .ok (.occupied directory .directory) := by
    rw [way.walk_append]
    exact walk_dots way.entry? (by simp)
  obtain ⟨left, further⟩ := walk_eq_directory_iff.1 walked
  exact stop.stuck left directory further

/-- A walk that stops does not come to what is behind. -/
theorem concat {name : String} (notAbove : name ≠ "..") :
    tree.Stop start front directory piece (rest ++ [name]) := by
  refine ⟨stop.way, fun other listed => ?_, stop.stuck⟩
  rw [← List.cons_append] at listed
  rcases List.mem_append.1 listed with listed | listed
  · exact stop.noAbove other listed
  · rwa [List.mem_singleton.1 listed]

/-- The line begins where the walk stopped. -/
theorem prefix_follow {back : List String} (begins : back <+: rest) :
    directory ++ [piece] <+: directory.follow (piece :: back) := by
  rw [Location.follow, if_neg stop.named.1, if_neg stop.named.2]
  exact Location.prefix_follow _ fun name listed =>
    stop.noAbove name (List.mem_cons_of_mem _ (begins.subset listed))

section Grown

variable (closed : tree.IsClosed)
  (grown : tree.Extends (directory ++ [piece]) (directory.follow (piece :: rest)) made)

include closed grown

/-- Where a walk that stopped leads when the tree has grown along the line: it follows its pieces
down, or comes no further than before. -/
theorem follow_of_way {back : List String} (begins : back <+: piece :: rest) {next : Location}
    (way : Way made maximalLinks start (front ++ back) left next) :
    next = directory.follow back ∧ (back = [] ∨ tree.entry? (directory ++ [piece]) = none) := by
  obtain ⟨_, before⟩ := stop.way
  have before := before.keep grown.grows.keeps
  cases back with
  | nil =>
    rw [List.append_nil] at way
    exact ⟨before.unique way, .inl rfl⟩
  | cons piece' back =>
    obtain ⟨rfl, _⟩ := List.cons_prefix_cons.1 begins
    have nothing : tree.entry? (directory ++ [piece']) = none := by
      -- where something was, nothing was made, and the walk would not have stopped
      by_contra there
      have old := way.keep (grown.back there)
      rw [← List.singleton_append, ← List.append_assoc] at old
      obtain ⟨left, next, further⟩ := old.exists_front
      exact stop.stuck left next further
    refine ⟨?_, .inr nothing⟩
    have only (l : Location) (entry : Entry) (below : directory ++ [piece'] <+: l)
        (there : made.entry? l = some entry) : entry = .directory := by
      rcases grown.grows.entries l with same | ⟨_, is⟩
      · rw [same, closed.entry?_eq_none_below nothing below] at there
        cases there
      · exact Option.some.inj (there.symm.trans is)
    have walked := walk_eq_directory_iff.2 ⟨_, way⟩
    have named := stop.named
    rw [before.walk_append, walk_cons, before.entry?] at walked
    simp only [named, if_false] at walked
    rw [Location.follow, if_neg named.1, if_neg named.2]
    split at walked
    next => cases walked
    next =>
      split at walked
      next => split at walked <;> cases walked
      next target there => cases only _ _ List.prefix_rfl there
      next =>
        have noAbove : ∀ name ∈ back, name ≠ ".." := fun name listed =>
          stop.noAbove name (begins.subset (List.mem_cons_of_mem _ listed))
        exact walk_below only List.prefix_rfl noAbove walked

/-- A directory that is made by a path of these pieces is on the line. -/
theorem extends_makeDirectory {more : Tree} (begins : path.names <+: front ++ piece :: rest)
    (origin : Tree.origin path made.workingDirectory = start)
    (done : made.makeDirectory path = .ok more) :
    tree.Extends (directory ++ [piece]) (directory.follow (piece :: rest)) more := by
  have grows := grown.grows.trans (grows_makeDirectory done)
  rw [makeDirectory] at done
  obtain ⟨place, found, done⟩ := exists_of_bind_ok done
  obtain ⟨before, left, names, named, way⟩ := way_of_place found
  rw [origin] at way
  rw [names] at begins
  split at done
  next => cases done
  next vacant =>
    cases done
    refine ⟨grows, fun location other => ?_⟩
    by_cases same : location = place.location
    · -- what is before the place where the walk stopped is there already
      have notPassed : ¬ before ++ [place.name] <+: front := by
        rintro ⟨back, rfl⟩
        obtain ⟨_, old⟩ := stop.way
        obtain ⟨_, _, old⟩ := old.exists_front
        exact way.entry?_next (old.keep grown.grows.keeps) named vacant
      have further : front <+: before := by
        rcases List.prefix_or_prefix_of_prefix (List.prefix_append front (piece :: rest)) begins
          with is | is
        · refine (List.prefix_concat_iff.1 is).resolve_left ?_
          rintro rfl
          exact notPassed List.prefix_rfl
        · exact absurd is notPassed
      obtain ⟨back, rfl⟩ := further
      rw [List.append_assoc, List.prefix_append_right_inj] at begins
      obtain ⟨leads, nothing⟩ :=
        stop.follow_of_way closed grown ((List.prefix_append _ _).trans begins) way
      have is : location = directory.follow (back ++ [place.name]) := by
        rw [same, Place.location, leads, Location.follow_append]
        exact (Location.follow_names _ (by simpa using named)).symm
      refine ⟨?_, is ▸ Location.follow_prefix_follow begins stop.noAbove⟩
      rcases nothing with rfl | nothing
      · obtain ⟨rfl, _⟩ := List.cons_prefix_cons.1 begins
        have first : place.location = directory ++ [place.name] := by
          rw [Place.location, leads, Location.follow]
        rw [← first, ← vacant]
        exact (grown.grows.entries place.location).elim Eq.symm fun new =>
          new.1.trans vacant.symm
      · exact nothing
    · refine grown.along location ?_
      rwa [entry?_put made place.location_ne_nil, if_neg same] at other

end Grown

/-- Directories are made along the line. -/
theorem extends_createDirectories (closed : tree.IsClosed)
    (begins : path.names <+: front ++ piece :: rest)
    (origin : Tree.origin path tree.workingDirectory = start) :
    tree.Extends (directory ++ [piece]) (directory.follow (piece :: rest))
      (tree.createDirectories path).2 :=
  makeDirectories_induction (.refl tree) fun above listed _ _ grown done => by
    obtain ⟨absolute, names⟩ := Path.names_of_mem_lineage listed
    refine stop.extends_makeDirectory closed grown (names.trans begins) ?_ done
    rw [grown.grows.origin_eq, Tree.origin, absolute]
    exact origin

end Stop

end Tree

end ProxyKeeper
