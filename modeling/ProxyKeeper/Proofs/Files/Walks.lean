import ProxyKeeper.Proofs.Files.Entries
import ProxyKeeper.Proofs.Files.Paths

/-!
# Walks

Where paths lead in a tree that changes. A walk to a directory can be cut anywhere before its end,
and goes the same way in every tree that keeps the directories and links. So the way to a name in a
directory is the way to the directory, and one look at the entry of the name.

## Main Definitions

* `Tree.directory?` — the directory a path leads to

## Main Results

* `Tree.walk_append`, `Tree.exists_way` — walks in two parts
* `Tree.Keeps.directory?` — paths lead to the directories they led to before
* `Tree.find_child`, `Tree.place_child` — a name in a directory that a path leads to
* `Tree.find_child_of_none`, `Tree.place_child_of_none` — and in one that it does not lead to
-/

namespace ProxyKeeper.Tree

variable {tree tree' : Tree}

/-! ## One step -/

theorem walk_nil (tree : Tree) (follow : Bool) (links : Nat) (location : Location) :
    tree.walk follow links location [] =
      match tree.entry? location with
      | some entry => .ok (.occupied location entry)
      | none => .error .notFound := by
  cases links <;> rfl

/-- How a walk that follows links goes on behind one. -/
def walkLink (tree : Tree) : (links : Nat) → Location → List String → Except IoFault Spot
  | 0, _, _ => .error .tooManyLinks
  | links + 1, location, pieces => tree.walk true links location pieces

theorem walk_cons (tree : Tree) (links : Nat) (location : Location) (piece : String)
    (rest : List String) :
    tree.walk true links location (piece :: rest) =
      match tree.entry? location with
      | some .directory =>
        if piece = "." then tree.walk true links location rest
        else if piece = ".." then tree.walk true links location.dropLast rest
        else if maximalNameSize < piece.utf8ByteSize then .error .nameTooLong
        else match tree.entry? (location ++ [piece]) with
          | none =>
            match rest with
            | [] => .ok (.vacant location piece)
            | _ :: _ => .error .notFound
          | some (.link target) =>
            tree.walkLink links (origin target location) (steps target ++ rest)
          | some _ => tree.walk true links (location ++ [piece]) rest
      | _ => .error .notADirectory := by
  cases links <;> rfl

/-! ## Ways -/

/-- A walk to a directory, step by step: from a location, with a number of links to spare, along
some pieces, to a directory with some links left. -/
inductive Way (tree : Tree) :
    (links : Nat) → Location → List String → (left : Nat) → Location → Prop where
  | here {links : Nat} {location : Location} (there : tree.entry? location = some .directory) :
    Way tree links location [] links location
  | stay {links left : Nat} {location directory : Location} {rest : List String}
    (there : tree.entry? location = some .directory)
    (way : Way tree links location rest left directory) :
    Way tree links location ("." :: rest) left directory
  | up {links left : Nat} {location directory : Location} {rest : List String}
    (there : tree.entry? location = some .directory)
    (way : Way tree links location.dropLast rest left directory) :
    Way tree links location (".." :: rest) left directory
  | down {links left : Nat} {location directory : Location} {piece : String} {rest : List String}
    (there : tree.entry? location = some .directory) (named : piece ≠ "." ∧ piece ≠ "..")
    (short : ¬ maximalNameSize < piece.utf8ByteSize)
    (next : tree.entry? (location ++ [piece]) = some .directory)
    (way : Way tree links (location ++ [piece]) rest left directory) :
    Way tree links location (piece :: rest) left directory
  | link {links left : Nat} {location directory : Location} {piece : String} {rest : List String}
    {target : Path} (there : tree.entry? location = some .directory)
    (named : piece ≠ "." ∧ piece ≠ "..") (short : ¬ maximalNameSize < piece.utf8ByteSize)
    (next : tree.entry? (location ++ [piece]) = some (.link target))
    (way : Way tree links (origin target location) (steps target ++ rest) left directory) :
    Way tree (links + 1) location (piece :: rest) left directory

namespace Way

variable {links left : Nat} {location directory : Location} {front : List String}

theorem entry? (way : Way tree links location front left directory) :
    tree.entry? directory = some .directory := by
  induction way with
  | here there => exact there
  | stay _ _ ih => exact ih
  | up _ _ ih => exact ih
  | down _ _ _ _ _ ih => exact ih
  | link _ _ _ _ _ ih => exact ih

theorem entry?_start (way : Way tree links location front left directory) :
    tree.entry? location = some .directory := by
  cases way <;> assumption

/-- A walk along a way goes on from its end. -/
theorem walk_append (way : Way tree links location front left directory) (back : List String) :
    tree.walk true links location (front ++ back) = tree.walk true left directory back := by
  induction way with
  | here there => rfl
  | stay there _ ih => simpa [walk_cons, there] using ih
  | up there _ ih => simpa [walk_cons, there] using ih
  | down there named short next _ ih =>
    simpa [walk_cons, there, named, short, next] using ih
  | link there named short next _ ih =>
    simpa [walk_cons, there, named, short, next, walkLink] using ih

/-- A tree that keeps directories and links has the same ways. -/
theorem keep (way : Way tree links location front left directory) (keeps : Keeps tree tree') :
    Way tree' links location front left directory := by
  have kept {l : Location} (there : tree.entry? l = some .directory) :
      tree'.entry? l = some .directory := keeps.passage l _ there rfl
  induction way with
  | here there => exact .here (kept there)
  | stay there _ ih => exact .stay (kept there) ih
  | up there _ ih => exact .up (kept there) ih
  | down there named short next _ ih => exact .down (kept there) named short (kept next) ih
  | link there named short next _ ih =>
    exact .link (kept there) named short (keeps.passage _ _ next rfl) ih

/-- Where a file has come in the place of something else, a walk goes the old way, or the file is in
its way. -/
theorem kept_or_blocked (way : Way tree links location front left directory) {spot : Location}
    {content : ByteArray} (there : tree'.entry? spot = some (.file content))
    (others : ∀ l, l ≠ spot → tree'.entry? l = tree.entry? l) :
    Way tree' links location front left directory ∨
      tree'.walk true links location front = .error .notADirectory ∨
      tree'.walk true links location front = .ok (.occupied spot (.file content)) := by
  have behind (links : Nat) (pieces : List String) :
      tree'.walk true links spot pieces = .error .notADirectory ∨
        tree'.walk true links spot pieces = .ok (.occupied spot (.file content)) := by
    cases pieces with
    | nil => exact .inr (by rw [walk_nil, there])
    | cons piece rest => exact .inl (by rw [walk_cons, there])
  induction way with
  | @here links location is =>
    by_cases start : location = spot
    · exact .inr (start ▸ behind links [])
    · exact .inl (.here ((others _ start).trans is))
  | @stay links left location directory rest is _ ih =>
    by_cases start : location = spot
    · exact .inr (start ▸ behind links _)
    · have is' := (others _ start).trans is
      rw [walk_cons, is']
      exact ih.imp_left (.stay is')
  | @up links left location directory rest is _ ih =>
    by_cases start : location = spot
    · exact .inr (start ▸ behind links _)
    · have is' := (others _ start).trans is
      rw [walk_cons, is']
      exact ih.imp_left (.up is')
  | @down links left location directory piece rest is named short next _ ih =>
    by_cases start : location = spot
    · exact .inr (start ▸ behind links _)
    · have is' := (others _ start).trans is
      rw [walk_cons, is']
      simp only [named, short, if_false]
      by_cases last : location ++ [piece] = spot
      · rw [last, there]
        exact .inr (behind links rest)
      · have next' := (others _ last).trans next
        rw [next']
        exact ih.imp_left (.down is' named short next')
  | @link links left location directory piece rest target is named short next _ ih =>
    by_cases start : location = spot
    · exact .inr (start ▸ behind (links + 1) _)
    · have is' := (others _ start).trans is
      rw [walk_cons, is']
      simp only [named, short, if_false]
      by_cases last : location ++ [piece] = spot
      · rw [last, there]
        exact .inr (behind (links + 1) rest)
      · have next' := (others _ last).trans next
        rw [next']
        exact ih.imp_left (.link is' named short next')

end Way

/-- A walk that does not fail passes a directory wherever it goes on, and ends in one if it is said
to. -/
theorem exists_way {links : Nat} {location : Location} {front back : List String} {spot : Spot}
    (walked : tree.walk true links location (front ++ back) = .ok spot)
    (ends : back = [] → ∃ directory, spot = .occupied directory .directory) :
    ∃ left directory, Way tree links location front left directory := by
  -- a link may make the list of pieces longer, but leaves fewer links to spare
  induction links using Nat.strongRecOn generalizing location front with
  | _ links ihLinks =>
    induction front generalizing location with
    | nil =>
      refine ⟨links, location, .here ?_⟩
      cases back with
      | nil =>
        obtain ⟨directory, rfl⟩ := ends rfl
        rw [List.append_nil, walk_nil] at walked
        split at walked
        next entry there => cases walked; exact there
        next => cases walked
      | cons piece back =>
        rw [List.nil_append, walk_cons] at walked
        split at walked
        next there => exact there
        next => cases walked
    | cons piece rest ih =>
      rw [List.cons_append, walk_cons] at walked
      split at walked
      next there =>
        split_ifs at walked with here above long
        · subst here
          obtain ⟨left, directory, way⟩ := ih walked
          exact ⟨left, directory, .stay there way⟩
        · subst above
          obtain ⟨left, directory, way⟩ := ih walked
          exact ⟨left, directory, .up there way⟩
        · split at walked
          next =>
            -- nothing is there, which is an answer only to the last piece
            split at walked
            next nothing =>
              obtain ⟨directory, rfl⟩ := ends (List.append_eq_nil_iff.1 nothing).2
              cases walked
            next => cases walked
          next target next =>
            cases links with
            | zero => cases walked
            | succ links =>
              rw [walkLink, ← List.append_assoc] at walked
              obtain ⟨left, directory, way⟩ := ihLinks links (Nat.lt_succ_self _) walked
              exact ⟨left, directory, .link there ⟨here, above⟩ long next way⟩
          next entry _ next =>
            obtain ⟨left, directory, way⟩ := ih walked
            rw [way.entry?_start] at next
            exact ⟨left, directory, .down there ⟨here, above⟩ long way.entry?_start way⟩
      next => cases walked

/-- The walks to a directory are the ways. -/
theorem walk_eq_directory_iff {links : Nat} {location directory : Location} {pieces : List String} :
    tree.walk true links location pieces = .ok (.occupied directory .directory) ↔
      ∃ left, Way tree links location pieces left directory := by
  constructor
  · intro walked
    have whole := walked
    rw [← List.append_nil pieces] at whole
    obtain ⟨left, last, way⟩ := exists_way whole fun _ => ⟨directory, rfl⟩
    rw [way.walk_append, walk_nil, way.entry?] at whole
    cases whole
    exact ⟨left, way⟩
  · rintro ⟨left, way⟩
    have walked := way.walk_append []
    rwa [List.append_nil, walk_nil, way.entry?] at walked

/-! ## The directory of a path -/

/-- The directory that a path leads to, if it leads to one. -/
def directory? (tree : Tree) (path : Path) : Option Location :=
  match tree.walk true maximalLinks (origin path tree.workingDirectory) path.names with
  | .ok (.occupied directory .directory) => some directory
  | _ => none

theorem directory?_eq_some_iff {path : Path} {directory : Location} :
    tree.directory? path = some directory ↔
      ∃ left, Way tree maximalLinks (origin path tree.workingDirectory) path.names left
        directory := by
  rw [← walk_eq_directory_iff, directory?]
  split
  next last walked => simp [walked]
  next other =>
    simp only [reduceCtorEq, false_iff]
    exact other directory

/-- Paths lead to the directories they led to before. -/
theorem Keeps.directory? (keeps : Keeps tree tree') {path : Path} {directory : Location}
    (leads : tree.directory? path = some directory) : tree'.directory? path = some directory := by
  obtain ⟨left, way⟩ := directory?_eq_some_iff.1 leads
  refine directory?_eq_some_iff.2 ⟨left, ?_⟩
  rw [keeps.origin]
  exact way.keep keeps

/-- Trees that keep each other's directories and links lead paths to the same directories. -/
theorem directory?_congr (keeps : Keeps tree tree') (back : Keeps tree' tree) (path : Path) :
    tree'.directory? path = tree.directory? path := by
  cases leads : tree.directory? path with
  | some directory => exact keeps.directory? leads
  | none =>
    cases leads' : tree'.directory? path with
    | none => rfl
    | some directory =>
      rw [back.directory? leads'] at leads
      cases leads

theorem entry?_of_directory? {path : Path} {directory : Location}
    (leads : tree.directory? path = some directory) :
    tree.entry? directory = some .directory := by
  obtain ⟨left, way⟩ := directory?_eq_some_iff.1 leads
  exact way.entry?

/-- Dots lead nowhere else. -/
theorem walk_dots {links : Nat} {directory : Location} {dots : List String}
    (there : tree.entry? directory = some .directory) (silent : ∀ dot ∈ dots, dot = ".") :
    tree.walk true links directory dots = .ok (.occupied directory .directory) := by
  induction dots with
  | nil => rw [walk_nil, there]
  | cons dot dots ih =>
    obtain rfl := silent dot (List.mem_cons_self ..)
    rw [walk_cons, there]
    simpa using ih fun other listed => silent other (List.mem_cons_of_mem _ listed)

/-- A path that differs in dots at the end leads to the same directory. -/
theorem directory?_of_dots (tree : Tree) {path above : Path} {dots : List String}
    (same : above.isAbsolute = path.isAbsolute) (names : path.names = above.names ++ dots)
    (silent : ∀ dot ∈ dots, dot = ".") : tree.directory? above = tree.directory? path := by
  have origins : origin above tree.workingDirectory = origin path tree.workingDirectory := by
    rw [origin, origin, same]
  cases leads : tree.directory? above with
  | some directory =>
    obtain ⟨left, way⟩ := directory?_eq_some_iff.1 leads
    symm
    rw [directory?_eq_some_iff, ← walk_eq_directory_iff, names, ← origins, way.walk_append]
    exact walk_dots way.entry? silent
  | none =>
    cases leads' : tree.directory? path with
    | none => rfl
    | some directory =>
      rw [directory?_eq_some_iff, ← walk_eq_directory_iff, names, ← origins] at leads'
      obtain ⟨left, last, way⟩ := exists_way leads' fun _ => ⟨directory, rfl⟩
      rw [directory?_eq_some_iff.2 ⟨left, way⟩] at leads
      cases leads

/-! ## A name in a directory -/

theorem checkPath_ne_notFound {path : Path} (given : path.text ≠ "") {fault : IoFault}
    (h : checkPath path = .error fault) : fault ≠ .notFound := by
  rw [checkPath] at h
  split_ifs at h with nul empty long
  · cases h
    decide
  · exact absurd (String.isEmpty_iff.1 empty) given
  · cases h
    decide

theorem find_of_checkPath {path : Path} (h : checkPath path = .ok ()) :
    tree.find path =
      tree.walk true maximalLinks (origin path tree.workingDirectory) (steps path) := by
  rw [find, h]
  rfl

theorem place_of_checkPath {path : Path} {front : List String} {name : String}
    (h : checkPath path = .ok ()) (names : path.names = front ++ [name]) (unnamed : IoFault) :
    tree.place unnamed path =
      (tree.walk true maximalLinks (origin path tree.workingDirectory) front).bind fun
        | .occupied directory .directory =>
          if name = "." || name = ".." then .error unnamed
          else if maximalNameSize < name.utf8ByteSize then .error .nameTooLong
          else .ok ⟨directory, name, path.text.toList.getLast? = some '/'⟩
        | .occupied _ _ => .error .notADirectory
        | .vacant _ _ => .error .notFound := by
  have last : (path.pieces.filter (· != "")).getLast? = some name := by
    show path.names.getLast? = some name
    rw [names, List.getLast?_concat]
  have before : (path.pieces.filter (· != "")).dropLast = front := by
    show path.names.dropLast = front
    rw [names, List.dropLast_concat]
  rw [place, h]
  simp only [last, before]
  rfl

section Child

variable {path : Path} {directory : Location} {name : String}

theorem child_text_ne (given : path.text ≠ "") (plain : Path.IsPlainName name) :
    (path.child name).text ≠ "" := by
  intro empty
  have text := Path.child_text given plain
  rw [empty] at text
  split at text <;> simp [given] at text

/-- A directory in a directory that a path leads to. -/
theorem directory?_child (leads : tree.directory? path = some directory) (given : path.text ≠ "")
    (plain : Path.IsPlainName name) (short : name.utf8ByteSize ≤ maximalNameSize)
    (there : tree.entry? (directory ++ [name]) = some .directory) :
    tree.directory? (path.child name) = some (directory ++ [name]) := by
  obtain ⟨left, way⟩ := directory?_eq_some_iff.1 leads
  rw [directory?_eq_some_iff, ← walk_eq_directory_iff, Path.names_child given plain, origin,
    Path.isAbsolute_child given plain]
  show tree.walk true maximalLinks (origin path tree.workingDirectory) (path.names ++ [name]) = _
  rw [way.walk_append, walk_cons, way.entry?]
  simp only [plain.notHere, plain.notAbove, if_false, Nat.not_lt.2 short, there, walk_nil]

/-- Where a directory in a directory is there, the other one is. -/
theorem exists_directory?_of_child (given : path.text ≠ "") (plain : Path.IsPlainName name)
    (leads : tree.directory? (path.child name) = some directory) :
    ∃ above, tree.directory? path = some above := by
  obtain ⟨left, way⟩ := directory?_eq_some_iff.1 leads
  have walked := walk_eq_directory_iff.2 ⟨left, way⟩
  rw [Path.names_child given plain, origin, Path.isAbsolute_child given plain, ← origin] at walked
  obtain ⟨left, above, way⟩ := exists_way walked (by simp)
  exact ⟨above, directory?_eq_some_iff.2 ⟨left, way⟩⟩

/-- A name that is not in a directory leads nowhere. -/
theorem directory?_child_of_free (leads : tree.directory? path = some directory)
    (given : path.text ≠ "") (plain : Path.IsPlainName name)
    (free : ∀ entry, tree.entry? (directory ++ [name]) = some entry → entry.isPassage = false) :
    tree.directory? (path.child name) = none := by
  cases there : tree.directory? (path.child name) with
  | none => rfl
  | some last =>
    obtain ⟨left, way⟩ := directory?_eq_some_iff.1 leads
    rw [directory?_eq_some_iff, ← walk_eq_directory_iff, Path.names_child given plain, origin,
      Path.isAbsolute_child given plain] at there
    have walked : tree.walk true maximalLinks (origin path tree.workingDirectory)
        (path.names ++ [name]) = .ok (.occupied last .directory) := there
    rw [way.walk_append, walk_cons, way.entry?] at walked
    cases is : tree.entry? (directory ++ [name]) with
    | none =>
      simp only [plain.notHere, plain.notAbove, if_false, is] at walked
      split at walked <;> cases walked
    | some entry =>
      cases entry with
      | file content =>
        simp only [plain.notHere, plain.notAbove, if_false, is, walk_nil] at walked
        split at walked <;> cases walked
      | directory => exact absurd (free _ is) Bool.noConfusion
      | link target => exact absurd (free _ is) Bool.noConfusion

/-- What a walk finds of a name in a directory that is no link. -/
def lookAt (tree : Tree) (directory : Location) (name : String) : Spot :=
  match tree.entry? (directory ++ [name]) with
  | some entry => .occupied (directory ++ [name]) entry
  | none => .vacant directory name

/-- A name in a directory that a path leads to is found there by a path that can be walked, unless
the name is too long. -/
theorem find_child_of_checkPath (leads : tree.directory? path = some directory)
    (given : path.text ≠ "") (plain : Path.IsPlainName name)
    (noLink : ∀ target, tree.entry? (directory ++ [name]) ≠ some (.link target))
    (check : checkPath (path.child name) = .ok ()) :
    tree.find (path.child name) =
      if maximalNameSize < name.utf8ByteSize then .error .nameTooLong
      else .ok (tree.lookAt directory name) := by
  obtain ⟨left, way⟩ := directory?_eq_some_iff.1 leads
  have origins : origin (path.child name) tree.workingDirectory =
      origin path tree.workingDirectory := by
    rw [origin, origin, Path.isAbsolute_child given plain]
  have walked : tree.walk true maximalLinks (origin (path.child name) tree.workingDirectory)
      (steps (path.child name)) = tree.walk true left directory [name] := by
    rw [origins, Path.steps_child given plain]
    exact way.walk_append [name]
  rw [find_of_checkPath check, walked, walk_cons, way.entry?]
  simp only [plain.notHere, plain.notAbove, if_false, lookAt]
  congr 1
  cases entry : tree.entry? (directory ++ [name]) with
  | none => rfl
  | some e =>
    cases e with
    | link target => exact absurd entry (noLink target)
    | file content => simp only [walk_nil, entry]
    | directory => simp only [walk_nil, entry]

/-- A name in a directory that a path leads to is found there, unless the call fails for a reason of
its own. -/
theorem find_child (leads : tree.directory? path = some directory) (given : path.text ≠ "")
    (plain : Path.IsPlainName name)
    (noLink : ∀ target, tree.entry? (directory ++ [name]) ≠ some (.link target)) :
    (∃ fault, fault ≠ .notFound ∧ tree.find (path.child name) = .error fault) ∨
      tree.find (path.child name) = .ok (tree.lookAt directory name) := by
  cases check : checkPath (path.child name) with
  | error fault =>
    refine .inl ⟨fault, checkPath_ne_notFound (child_text_ne given plain) check, ?_⟩
    rw [find, check]
    rfl
  | ok _ =>
    rw [find_child_of_checkPath leads given plain noLink check]
    split_ifs with long
    · exact .inl ⟨_, by decide, rfl⟩
    · exact .inr rfl

/-- A name in a directory that a path does not lead to is not found. -/
theorem find_child_of_none (leads : tree.directory? path = none) (given : path.text ≠ "")
    (plain : Path.IsPlainName name) : ∃ fault, tree.find (path.child name) = .error fault := by
  cases found : tree.find (path.child name) with
  | error fault => exact ⟨fault, rfl⟩
  | ok spot =>
    cases check : checkPath (path.child name) with
    | error fault => rw [find, check] at found; cases found
    | ok _ =>
      rw [find_of_checkPath check] at found
      have walked : tree.walk true maximalLinks (origin path tree.workingDirectory)
          (path.names ++ [name]) = .ok spot := by
        rw [← Path.steps_child given plain]
        rw [origin, Path.isAbsolute_child given plain] at found
        exact found
      obtain ⟨left, directory, way⟩ := exists_way walked (by simp)
      rw [directory?_eq_some_iff.2 ⟨left, way⟩] at leads
      cases leads

/-- A name in a directory that a path leads to is a place there, unless the call fails for a reason
of its own. -/
theorem place_child (leads : tree.directory? path = some directory) (given : path.text ≠ "")
    (plain : Path.IsPlainName name) (unnamed : IoFault) :
    (∃ fault, fault ≠ .notFound ∧ tree.place unnamed (path.child name) = .error fault) ∨
      tree.place unnamed (path.child name) = .ok ⟨directory, name, false⟩ := by
  cases check : checkPath (path.child name) with
  | error fault =>
    refine .inl ⟨fault, checkPath_ne_notFound (child_text_ne given plain) check, ?_⟩
    rw [place, check]
    rfl
  | ok _ =>
    obtain ⟨left, way⟩ := directory?_eq_some_iff.1 leads
    have walked : tree.walk true maximalLinks (origin (path.child name) tree.workingDirectory)
        path.names = .ok (.occupied directory .directory) := by
      rw [origin, Path.isAbsolute_child given plain]
      exact walk_eq_directory_iff.2 ⟨left, way⟩
    rw [place_of_checkPath check (Path.names_child given plain), walked, Except.bind]
    simp only [plain.notHere, plain.notAbove, decide_false, Bool.or_self, Bool.false_eq_true,
      if_false, Path.getLast?_child given plain]
    split_ifs with long
    · exact .inl ⟨_, by decide, rfl⟩
    · exact .inr rfl

/-- A name in a directory that a path does not lead to is no place. -/
theorem place_child_of_none (leads : tree.directory? path = none) (given : path.text ≠ "")
    (plain : Path.IsPlainName name) (unnamed : IoFault) :
    ∃ fault, tree.place unnamed (path.child name) = .error fault := by
  cases check : checkPath (path.child name) with
  | error fault =>
    refine ⟨fault, ?_⟩
    rw [place, check]
    rfl
  | ok _ =>
    rw [place_of_checkPath check (Path.names_child given plain), origin,
      Path.isAbsolute_child given plain]
    rw [directory?] at leads
    rw [← origin]
    split at leads
    next => cases leads
    next other =>
      cases walked : tree.walk true maximalLinks (origin path tree.workingDirectory) path.names with
      | error fault => exact ⟨fault, rfl⟩
      | ok spot =>
        cases spot with
        | vacant _ _ => exact ⟨_, rfl⟩
        | occupied last entry =>
          cases entry with
          | directory => exact absurd walked (other last)
          | file _ => exact ⟨_, rfl⟩
          | link _ => exact ⟨_, rfl⟩

/-! Both lemmas for a directory, and both for none, by the outcome of the call. -/

theorem find_child_ok (given : path.text ≠ "") (plain : Path.IsPlainName name)
    (noLink : ∀ directory, tree.directory? path = some directory →
      ∀ target, tree.entry? (directory ++ [name]) ≠ some (.link target))
    {spot : Spot} (found : tree.find (path.child name) = .ok spot) :
    ∃ directory, tree.directory? path = some directory ∧ spot = tree.lookAt directory name := by
  cases leads : tree.directory? path with
  | none =>
    obtain ⟨fault, failed⟩ := find_child_of_none leads given plain
    rw [found] at failed
    cases failed
  | some directory =>
    rcases find_child leads given plain (noLink directory leads) with ⟨fault, _, failed⟩ | right
    · rw [found] at failed
      cases failed
    · rw [found] at right
      cases right
      exact ⟨directory, rfl, rfl⟩

theorem place_child_ok (given : path.text ≠ "") (plain : Path.IsPlainName name)
    {unnamed : IoFault} {place : Place}
    (found : tree.place unnamed (path.child name) = .ok place) :
    ∃ directory, tree.directory? path = some directory ∧ place = ⟨directory, name, false⟩ := by
  cases leads : tree.directory? path with
  | none =>
    obtain ⟨fault, failed⟩ := place_child_of_none leads given plain unnamed
    rw [found] at failed
    cases failed
  | some directory =>
    rcases place_child leads given plain unnamed with ⟨fault, _, failed⟩ | right
    · rw [found] at failed
      cases failed
    · rw [found] at right
      cases right
      exact ⟨directory, rfl, rfl⟩

end Child

end ProxyKeeper.Tree
