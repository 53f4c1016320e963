import ProxyKeeper.Proofs.Store.Changes

/-!
# Writing and crashes

A rule file is written beside its place, moved there in one step, and only then is the file of the
other context removed. Whoever reads at any moment in between, or after a crash, finds what was
there before or the new file, and once the new one it stays so. This rests on the order of the
steps: there is no moment at which neither file is in its place, and a reader asks for the file of
the one context before that of the other.

## Main Definitions

* `Store.AddsOnly` — trees with no new files but those of an id
* `Store.Restrained` — calls that break off without leaving a file that nobody removes
* `Store.Beside` — a file that is ready beside its place

## Main Results

* `Store.advances_put`, `Store.advances_remove` — the two steps that change places
* `Store.Beside.meets_move` — a file is moved to its place, or removed
* `Store.meets_write_tree` — writing on trees
* `Store.write_atomic` — writing at every crash point
-/

namespace ProxyKeeper

namespace Tree

variable {breaks : Breaks} {respects : Tree → Tree → Prop} {tree tree' left : Tree}
  {path : Path} {name : String} {directory : Location}

/-! ## Calls on their way -/

/-- What halfway trees have in common is respected until a call was carried out, and then the
tree it leaves is in line with them. -/
theorem Goes.pairwise {call : FileCall} {P : Tree → Prop} {passed : List Tree}
    {answer : call.Answer} (goes : tree.Goes breaks call passed answer left)
    (halfway : ∀ made, tree.Halfway call made → P made) (alike : ∀ a b, P a → P b → respects a b)
    (done : ∀ a, P a → respects a (tree.perform call).2) :
    (tree :: passed ++ [left]).Pairwise respects := by
  have through {passed : List Tree} (halfways : ∀ made ∈ passed, tree.Halfway call made) :
      ∀ made ∈ tree :: passed, P made :=
    List.forall_mem_cons.2
      ⟨halfway tree (.nothing call), fun made is => halfway made (halfways made is)⟩
  have among {trees : List Tree} (all : ∀ made ∈ trees, P made) : trees.Pairwise respects :=
    List.Pairwise.imp_of_mem (fun {a b} isA isB _ => alike a b (all a isA) (all b isB))
      (List.pairwise_of_forall fun _ _ => trivial)
  cases goes with
  | done halfways =>
    have all := through halfways
    refine List.pairwise_append.2 ⟨among all, List.pairwise_singleton _ _, fun a isA b isB => ?_⟩
    rw [List.mem_singleton.1 isB]
    exact done a (all a isA)
  | fails halfways stopped _ =>
    have all := through halfways
    refine List.pairwise_append.2 ⟨among all, List.pairwise_singleton _ _, fun a isA b isB => ?_⟩
    rw [List.mem_singleton.1 isB]
    exact alike a _ (all a isA) (halfway _ stopped)

end Tree

namespace Operation

variable {α : Type} {breaks : Breaks} {respects : Tree → Tree → Prop} {tree : Tree}
  {fails : OperationError → Tree → Prop}

/-- A call is carried out or breaks off. -/
theorem meets_attempt_tree {call : FileCall} {returns : call.Answer → Tree → Prop}
    {P : Tree → Prop} (halfway : ∀ made, tree.Halfway call made → P made)
    (alike : ∀ a b, P a → P b → respects a b)
    (done : ∀ a, P a → respects a (tree.perform call).2)
    (performed : ∀ answer left, tree.perform call = (answer, left) → returns answer left)
    (broken : ∀ fault left, tree.Halfway call left → breaks tree call left →
      returns (.error fault) left) :
    (attempt call).Meets (Tree.terms breaks respects) returns fails tree := by
  refine meets_request.2 ⟨fun _ _ _ goes => goes.pairwise halfway alike done, ?_⟩
  rintro answer left ⟨passed, goes⟩
  cases goes with
  | done => exact performed _ _ rfl
  | fails _ stopped may => exact broken _ _ stopped may

/-- A call whose faults are failures. -/
theorem meets_file_tree {path : Path} {call : FileCall} {returns : call.Result → Tree → Prop}
    {P : Tree → Prop} (halfway : ∀ made, tree.Halfway call made → P made)
    (alike : ∀ a b, P a → P b → respects a b)
    (done : ∀ a, P a → respects a (tree.perform call).2)
    (succeeds : ∀ result left, tree.perform call = (.ok result, left) → returns result left)
    (failed : ∀ fault left, tree.perform call = (.error fault, left) →
      fails (.io path.text fault) left)
    (broken : ∀ fault left, tree.Halfway call left → breaks tree call left →
      fails (.io path.text fault) left) :
    (file path call).Meets (Tree.terms breaks respects) returns fails tree := by
  refine meets_bind.2 (meets_attempt_tree halfway alike done ?_ fun fault left stopped may =>
    broken fault left stopped may)
  intro answer left performed
  cases answer with
  | ok result => exact succeeds result left performed
  | error fault => exact failed fault left performed

end Operation

/-! ## Files beside their places -/

namespace Tree

variable {tree tree' : Tree} {path : Path} {name : String} {directory : Location}

/-- A path along which a file was written can be walked. -/
theorem checkPath_of_write (leads : tree.directory? path = some directory)
    (given : path.text ≠ "") (plain : Path.IsPlainName name)
    (noLink : ∀ target, tree.entry? (directory ++ [name]) ≠ some (.link target))
    {content : ByteArray} (written : tree.write (path.child name) content = .ok tree') :
    checkPath (path.child name) = .ok () ∧ ¬ maximalNameSize < name.utf8ByteSize := by
  rw [write] at written
  obtain ⟨spot, found, _⟩ := exists_of_bind_ok written
  cases check : checkPath (path.child name) with
  | error fault => rw [find, check] at found; cases found
  | ok _ =>
    refine ⟨rfl, fun long => ?_⟩
    rw [find_child_of_checkPath leads given plain noLink check, if_pos long] at found
    cases found

/-- A file is removed by a path that can be walked. -/
theorem remove_child (leads : tree.directory? path = some directory) (given : path.text ≠ "")
    (plain : Path.IsPlainName name) (check : checkPath (path.child name) = .ok ())
    (short : ¬ maximalNameSize < name.utf8ByteSize) {content : ByteArray}
    (there : tree.entry? (directory ++ [name]) = some (.file content)) :
    tree.remove (path.child name) = .ok (tree.erase (directory ++ [name])) := by
  obtain ⟨links, way⟩ := directory?_eq_some_iff.1 leads
  have walked : tree.walk true maximalLinks (origin (path.child name) tree.workingDirectory)
      path.names = .ok (.occupied directory .directory) := by
    rw [origin, Path.isAbsolute_child given plain]
    exact walk_eq_directory_iff.2 ⟨links, way⟩
  have found : tree.place .isADirectory (path.child name) = .ok ⟨directory, name, false⟩ := by
    rw [place_of_checkPath check (Path.names_child given plain), walked, Except.bind]
    simp only [plain.notHere, plain.notAbove, decide_false, Bool.or_self, Bool.false_eq_true,
      if_false, short, Path.getLast?_child given plain]
  rw [remove, found]
  simp only [Place.location, bind, Except.bind, there, Bool.false_eq_true, if_false]

end Tree

namespace Store

open Operation

variable {store : Store} {tree tree' left : Tree} {id : String} {context : Context} {rack : Rack}
  {barred : Bool} {file : RuleFile} {breaks : Breaks}

/-! ## The steps that change places -/

/-- Trees that show the same are in line. -/
theorem SameBut.advances (same : store.SameBut [] tree tree') (id : String) (file : RuleFile) :
    store.Advances id file tree tree' :=
  ⟨same.mono (List.nil_subset _), .inl (same.read id List.not_mem_nil)⟩

/-- Trees with the same in their places show the same. -/
theorem Holds.sameBut (holds : store.Holds rack barred tree)
    (holds' : store.Holds rack barred tree') :
    store.SameBut [] tree tree' := by
  refine Sound.sameBut (.inl holds.settled) (.inl holds'.settled) ?_ fun _ _ => ?_
  · rw [holds.barred_eq, holds'.barred_eq]
  · rw [holds.held_eq, holds'.held_eq]

/-- Trees with the same in their places are in line. -/
theorem Holds.advances (holds : store.Holds rack barred tree)
    (holds' : store.Holds rack barred tree') (id : String) (file : RuleFile) :
    store.Advances id file tree tree' :=
  (holds.sameBut holds').advances id file

/-- A file that is in a place is read there. -/
theorem Holds.textOf_of_there (holds : store.Holds rack barred tree) (valid : isRuleId id = true)
    {text : String} (there : rack id context = some (.file text.toUTF8))
    (check : Tree.checkPath (store.place id context) = .ok ()) :
    textOf (store.place id context) (tree.read (store.place id context)) = .ok (some text) := by
  rw [Sound.read_eq (.inl holds.settled) valid, check, holds.held_eq, there]
  show textOf _ (.ok text.toUTF8) = _
  rw [textOf, Text.Utf8.strict?_toUTF8]

/-- Nothing is read where nothing is in a place of the active directory. -/
theorem Holds.textOf_of_none (holds : store.Holds rack barred tree) (valid : isRuleId id = true)
    (nothing : rack id .http = none) (check : Tree.checkPath (store.place id .http) = .ok ()) :
    textOf (store.place id .http) (tree.read (store.place id .http)) = .ok none := by
  rw [Sound.read_eq (.inl holds.settled) valid, check, holds.held_eq, nothing]
  rfl

/-- Trees with the same in a place are read alike there. -/
theorem Holds.read_congr {rack' : Rack} (holds : store.Holds rack barred tree)
    (holds' : store.Holds rack' barred tree') (valid : isRuleId id = true)
    (same : rack' id context = rack id context) :
    tree'.read (store.place id context) = tree.read (store.place id context) := by
  rw [Sound.read_eq (.inl holds.settled) valid, Sound.read_eq (.inl holds'.settled) valid,
    Sound.shut_congr (holds'.barred_eq.trans holds.barred_eq.symm), holds.held_eq, holds'.held_eq,
    same]

/-- The file of an id is read in its place, when none is in the place that is looked at first. -/
theorem Holds.readIn_eq (holds : store.Holds rack barred tree) (valid : isRuleId id = true)
    (there : rack id file.context = some (.file file.text.toUTF8))
    (check : Tree.checkPath (store.place id file.context) = .ok ())
    (first : file.context = .stream →
      rack id .http = none ∧ Tree.checkPath (store.place id .http) = .ok ()) :
    store.readIn tree id = .ok (some file) := by
  obtain ⟨context, text⟩ := file
  rw [Store.readIn_eq valid]
  have own := holds.textOf_of_there valid there check
  cases context with
  | http => rw [own]; rfl
  | stream =>
    obtain ⟨nothing, check⟩ := first rfl
    rw [holds.textOf_of_none valid nothing check, own]
    rfl

/-- When a file comes to its place, what is read for its id is the file, or as before. -/
theorem advances_put (valid : isRuleId id = true) (holds : store.Holds rack barred tree)
    (holds' : store.Holds (rack.put id file.context (some (.file file.text.toUTF8))) barred tree') :
    store.Advances id file tree tree' := by
  refine ⟨?_, ?_⟩
  · refine Sound.sameBut (.inl holds.settled) (.inl holds'.settled) ?_ fun i other => ?_
    · rw [holds.barred_eq, holds'.barred_eq]
    · rw [holds.held_eq, holds'.held_eq]
      exact Rack.put_of_ne (by simpa using other)
  · cases check : Tree.checkPath (store.place id file.context) with
    | error fault =>
      -- no file is read by such a path in any tree
      left
      refine readIn_congr fun context => ?_
      by_cases own : context = file.context
      · rw [own, Tree.read, Tree.read, Tree.entryAt, Tree.entryAt, Tree.find, Tree.find, check]
        rfl
      · exact holds.read_congr holds' valid (Rack.put_other own)
    | ok _ =>
      obtain ⟨context, text⟩ := file
      have own := holds'.textOf_of_there valid Rack.put_self check
      rw [Store.readIn_eq valid, Store.readIn_eq valid]
      cases context with
      | http =>
        rw [own]
        exact .inr rfl
      | stream =>
        rw [holds.read_congr holds' valid (Rack.put_other (by simp)), own]
        cases textOf (store.place id .http) (tree.read (store.place id .http)) with
        | error e => exact .inl rfl
        | ok text =>
          cases text with
          | some text => exact .inl rfl
          | none => exact .inr rfl

/-- When the other file of an id is removed, what is read for the id is its own file. -/
theorem advances_remove (valid : isRuleId id = true) (holds : store.Holds rack barred tree)
    (there : rack id file.context = some (.file file.text.toUTF8))
    (check : Tree.checkPath (store.place id file.context) = .ok ())
    (holds' : store.Holds (rack.put id file.context.other none) barred tree') :
    store.Advances id file tree tree' := by
  have own : rack.put id file.context.other none id file.context =
      some (.file file.text.toUTF8) := by
    rw [Rack.put_other (by cases file.context <;> simp [Context.other]), there]
  refine ⟨?_, ?_⟩
  · refine Sound.sameBut (.inl holds.settled) (.inl holds'.settled) ?_ fun i other => ?_
    · rw [holds.barred_eq, holds'.barred_eq]
    · rw [holds.held_eq, holds'.held_eq]
      exact Rack.put_of_ne (by simpa using other)
  · cases checkFirst : Tree.checkPath (store.place id .http) with
    | error fault =>
      left
      have failed (tree : Tree) : tree.read (store.place id .http) = .error fault := by
        rw [Tree.read, Tree.entryAt, Tree.find, checkFirst]
        rfl
      have other : fault ≠ .notFound :=
        Tree.checkPath_ne_notFound (Tree.child_text_ne
          (store.directory_ne_of_activeDir holds.settled.given .http) (isPlainName_fileName valid))
          checkFirst
      rw [Store.readIn_eq valid, Store.readIn_eq valid, failed, failed, textOf, if_neg other]
      rfl
    | ok _ =>
      right
      refine holds'.readIn_eq valid own check fun stream => ⟨?_, checkFirst⟩
      rw [stream]
      exact Rack.put_self

/-! ## Files that are left -/

/-- Whether every file of a later tree was there before, or is named for an id. -/
def AddsOnly (id : String) (tree left : Tree) : Prop :=
  ∀ location content, left.entry? location = some (.file content) →
    tree.entry? location = some (.file content) ∨ ∃ directory, location = directory ++ [fileName id]

theorem AddsOnly.refl (id : String) (tree : Tree) : AddsOnly id tree tree :=
  fun _ _ there => .inl there

theorem AddsOnly.trans (first : AddsOnly id tree tree') (second : AddsOnly id tree' left) :
    AddsOnly id tree left := by
  intro location content there
  rcases second location content there with before | own
  · exact first location content before
  · exact .inr own

/-- What is erased adds nothing. -/
theorem addsOnly_erase (id : String) (tree : Tree) {location : Location} (named : location ≠ []) :
    AddsOnly id tree (tree.erase location) := by
  intro other content there
  rw [Tree.entry?_erase tree named] at there
  split at there
  next => cases there
  next => exact .inl there

/-- What is put and erased again adds nothing. -/
theorem addsOnly_put_erase (id : String) (tree : Tree) (directory : Location) (name : String)
    (entry : Entry) :
    AddsOnly id tree ((tree.put (directory ++ [name]) entry).erase (directory ++ [name])) := by
  intro location content is
  rw [Tree.entry?_erase _ (by simp)] at is
  split at is
  next => cases is
  next elsewhere =>
    rw [Tree.entry?_put tree (by simp), if_neg elsewhere] at is
    exact .inl is

/-- Directories that are made are no files. -/
theorem addsOnly_of_grows (id : String) (grows : tree.Grows left) : AddsOnly id tree left := by
  intro location content there
  rcases grows.entries location with same | ⟨_, directory⟩
  · exact .inl (same.symm.trans there)
  · cases directory.symm.trans there

/-- Whether calls break off in such a way that no file is left which nobody removes: a file that
cannot be written is not there at all, and removing fails for the files of an id only. -/
structure Restrained (store : Store) (id : String) (breaks : Breaks) : Prop where
  write : ∀ tree path content left, breaks tree (.write path content) left → left = tree
  remove : ∀ tree path left, breaks tree (.remove path) left →
    ∃ context, path = store.place id context

/-! ## Writing -/

/-- Whether the file of an id is ready beside its place, under another name. -/
structure Beside (store : Store) (id : String) (file : RuleFile) (rack : Rack) (barred : Bool)
    (directory : Location) (above : Path) (temporary : String) (tree : Tree) : Prop where
  holds : store.Holds rack barred tree
  valid : isRuleId id = true
  leads : tree.directory? (store.directory file.context) = some directory
  givenAbove : above.text ≠ ""
  leadsAbove : tree.directory? above = some directory
  plainTemporary : Path.IsPlainName temporary
  notStream : temporary ≠ "stream"
  other : ∀ i, isRuleId i = true → temporary ≠ fileName i
  there : tree.entry? (directory ++ [temporary]) = some (.file file.text.toUTF8)
  walkable : Tree.checkPath (above.child temporary) = .ok ()
  short : ¬ Tree.maximalNameSize < temporary.utf8ByteSize

namespace Beside

variable {directory : Location} {above : Path} {temporary : String}
  (beside : store.Beside id file rack barred directory above temporary tree)

include beside

theorem isPassage_eq_false (old : Entry)
    (is : tree.entry? (directory ++ [temporary]) = some old) : old.isPassage = false := by
  rw [beside.there] at is
  cases is
  rfl

/-- Without the file that is ready, the places hold the same. -/
theorem erased : store.Holds rack barred (tree.erase (directory ++ [temporary])) :=
  beside.holds.erase_beside beside.isPassage_eq_false beside.notStream beside.other

/-- A file that is moved is in its place, and no longer beside it. -/
theorem moved
    (is : tree.rename (above.child temporary) (store.place id file.context) = .ok left) :
    store.Holds (rack.put id file.context (some (.file file.text.toUTF8))) barred left ∧
      Tree.checkPath (store.place id file.context) = .ok () ∧
      AddsOnly id (tree.erase (directory ++ [temporary])) left := by
  have given := store.directory_ne_of_activeDir beside.holds.settled.given file.context
  have plain := isPlainName_fileName beside.valid
  obtain ⟨_, _, _, found, _⟩ :=
    Tree.rename_named (Path.names_child beside.givenAbove beside.plainTemporary) is
  obtain ⟨notDirectory, rfl⟩ := Tree.rename_child_ok beside.givenAbove beside.plainTemporary
    beside.leadsAbove given plain beside.leads beside.there is
  have leadsErased : (tree.erase (directory ++ [temporary])).directory?
      (store.directory file.context) = some directory := by
    rw [Tree.directory?_erase_file beside.isPassage_eq_false, beside.leads]
  refine ⟨beside.erased.put_file beside.valid leadsErased ?_ _,
    (Tree.checkPath_of_place (Path.names_child given plain) found).1, ?_⟩
  · intro old is
    rw [Tree.entry?_erase tree (by simp)] at is
    split at is
    next => cases is
    next =>
      cases old with
      | file _ => rfl
      | directory => exact absurd is notDirectory
      | link target =>
        exact absurd is
          (beside.holds.settled.noLink file.context id beside.valid directory beside.leads target)
  · intro location content is
    rw [Tree.entry?_put _ (by simp)] at is
    split at is
    next place => exact .inr ⟨directory, place⟩
    next => exact .inl is

/-- A file that could not be moved is removed, and the failure is told. -/
theorem meets_clean {returns : Unit → Tree → Prop} (fault : IoFault) :
    (attempt (.remove (above.child temporary)) >>= fun _ =>
      throw (.io (store.place id file.context).text fault) : Operation Unit).Meets
      (Tree.terms breaks (store.Advances id file)) returns
      (fun e left => e.IsIo ∧
        (store.Restrained id breaks → AddsOnly id (tree.erase (directory ++ [temporary])) left))
      tree := by
  have removed := Tree.remove_child beside.leadsAbove beside.givenAbove beside.plainTemporary
    beside.walkable beside.short beside.there
  have performed : tree.perform (.remove (above.child temporary)) =
      (.ok (), tree.erase (directory ++ [temporary])) := by
    rw [Tree.perform, removed]
    rfl
  have halfway (made : Tree) (is : tree.Halfway (.remove (above.child temporary)) made) :
      store.Holds rack barred made := by
    cases is
    exact beside.holds
  refine meets_bind.2 (meets_attempt_tree halfway (fun a b isA isB => isA.advances isB id file)
    ?_ ?_ ?_)
  · intro a isA
    rw [performed]
    exact isA.advances beside.erased id file
  · intro answer left is
    obtain rfl : tree.erase (directory ++ [temporary]) = left :=
      congrArg Prod.snd (performed.symm.trans is)
    exact meets_throw.2 ⟨⟨_, _, rfl⟩, fun _ => .refl id _⟩
  · intro _ left _ broken
    refine meets_throw.2 ⟨⟨_, _, rfl⟩, fun restrained => ?_⟩
    obtain ⟨context, same⟩ := restrained.remove _ _ _ broken
    -- the name of the file is that of no rule file
    have names := congrArg Path.names same
    rw [Path.names_child beside.givenAbove beside.plainTemporary, place, Path.names_child
      (store.directory_ne_of_activeDir beside.holds.settled.given context)
      (isPlainName_fileName beside.valid), List.append_singleton_inj] at names
    exact absurd names.2 (beside.other id beside.valid)

/-- A file that is ready is moved to its place, or removed. -/
theorem meets_move {next : Except IoFault Unit → Operation Unit}
    (done : ∀ result, next (.ok result) = pure ())
    (failed : ∀ fault, next (.error fault) = do
      let _ ← attempt (.remove (above.child temporary))
      throw (.io (store.place id file.context).text fault)) :
    (attempt (.rename (above.child temporary) (store.place id file.context)) >>= next).Meets
      (Tree.terms breaks (store.Advances id file))
      (fun _ left =>
        store.Holds (rack.put id file.context (some (.file file.text.toUTF8))) barred left ∧
          Tree.checkPath (store.place id file.context) = .ok () ∧
          AddsOnly id (tree.erase (directory ++ [temporary])) left)
      (fun e left => e.IsIo ∧
        (store.Restrained id breaks → AddsOnly id (tree.erase (directory ++ [temporary])) left))
      tree := by
  have halfway (made : Tree) (is : tree.Halfway
      (.rename (above.child temporary) (store.place id file.context)) made) : made = tree := by
    cases is
    rfl
  refine meets_bind.2 (meets_attempt_tree halfway ?_ ?_ ?_ ?_)
  · rintro a b rfl rfl
    exact beside.holds.advances beside.holds id file
  · rintro a same
    rw [same]
    show store.Advances id file tree (tree.changed _).2
    cases is : tree.rename (above.child temporary) (store.place id file.context) with
    | ok left => exact advances_put beside.valid beside.holds (beside.moved is).1
    | error fault => exact beside.holds.advances beside.holds id file
  · intro answer left performed
    cases answer with
    | ok result =>
      show Meets _ _ _ (next (.ok result)) left
      rw [done result]
      exact meets_pure.2 (beside.moved (Tree.changed_eq_ok_iff.1 performed))
    | error fault =>
      obtain ⟨_, rfl⟩ := Tree.changed_eq_error_iff.1 performed
      show Meets _ _ _ (next (.error fault)) tree
      rw [failed]
      exact beside.meets_clean fault
  · intro fault left is _
    show Meets _ _ _ (next (.error fault)) left
    rw [halfway left is, failed]
    exact beside.meets_clean fault

end Beside

/-- A file is written beside its place and moved there. -/
theorem meets_writeWhole_tree (holds : store.Holds rack barred tree) (valid : isRuleId id = true)
    {directory : Location}
    (leads : tree.directory? (store.directory file.context) = some directory) :
    (writeWhole (store.place id file.context) file.text).Meets
      (Tree.terms breaks (store.Advances id file))
      (fun _ left =>
        store.Holds (rack.put id file.context (some (.file file.text.toUTF8))) barred left ∧
          Tree.checkPath (store.place id file.context) = .ok () ∧
          (store.Restrained id breaks → AddsOnly id tree left))
      (fun e left => e.IsIo ∧ (store.Restrained id breaks → AddsOnly id tree left)) tree := by
  have given := store.directory_ne_of_activeDir holds.settled.given file.context
  have plain := isPlainName_fileName valid
  obtain ⟨above, dots, parent, givenAbove, absolute, names, silent⟩ :=
    Path.parent?_child given plain
  have leadsAbove : tree.directory? above = some directory :=
    (Tree.directory?_of_dots tree absolute names silent).trans leads
  have parent : (store.place id file.context).parent? = some above := parent
  have named : (store.place id file.context).fileName? = some (fileName id) :=
    Path.fileName?_child given plain
  rw [writeWhole, parent, named]
  simp only [Option.getD_some]
  refine meets_bind.2 (meets_request.2 ⟨trivial, ?_⟩)
  rintro (fresh : String) s ⟨isFresh, same⟩
  obtain rfl : tree = s := same.symm
  have plainTemporary := isPlainName_temporaryName plain.noSlash isFresh.noSlash
  have other (i : String) (validI : isRuleId i = true) :
      temporaryName (fileName id) fresh ≠ fileName i := temporaryName_ne_fileName _ _ validI
  have notStream := temporaryName_ne_stream (fileName id) fresh
  have unused := isFresh.unused directory (fileName id)
  generalize temporaryName (fileName id) fresh = temporary at *
  have free : ∀ old, tree.entry? (directory ++ [temporary]) = some old →
      old.isPassage = false := by simp [unused]
  have noLink : ∀ target, tree.entry? (directory ++ [temporary]) ≠ some (.link target) := by
    simp [unused]
  have written {part : ByteArray} {made : Tree}
      (is : tree.write (above.child temporary) part = .ok made) :
      made = tree.put (directory ++ [temporary]) (.file part) := by
    obtain ⟨d, leadsTo, _, is⟩ := Tree.write_child_ok givenAbove plainTemporary
      (fun d leadsTo => Option.some.inj (leadsAbove.symm.trans leadsTo) ▸ noLink) is
    rw [is, Option.some.inj (leadsAbove.symm.trans leadsTo)]
  have keeps (part : ByteArray) :
      store.Holds rack barred (tree.put (directory ++ [temporary]) (.file part)) :=
    holds.put_beside free notStream other (Tree.entry?_of_directory? leads) part
  have halfway (made : Tree) (is : tree.Halfway (.write (above.child temporary)
      file.text.toUTF8) made) : store.Holds rack barred made := by
    cases is with
    | nothing => exact holds
    | part is => rw [written is]; exact keeps _
  refine meets_bind.2 (meets_file_tree halfway (fun a b isA isB => isA.advances isB id file)
    ?_ ?_ ?_ ?_)
  · intro a isA
    refine isA.advances ?_ id file
    show store.Holds rack barred (tree.changed _).2
    cases is : tree.write (above.child temporary) file.text.toUTF8 with
    | ok made => rw [written is]; exact keeps _
    | error fault => exact holds
  · intro _ left performed
    obtain is := Tree.changed_eq_ok_iff.1 performed
    obtain ⟨walkable, short⟩ :=
      Tree.checkPath_of_write leadsAbove givenAbove plainTemporary noLink is
    obtain rfl := written is
    have beside : store.Beside id file rack barred directory above temporary
        (tree.put (directory ++ [temporary]) (.file file.text.toUTF8)) := by
      refine ⟨keeps _, valid, ?_, givenAbove, ?_, plainTemporary, notStream, other, ?_, walkable,
        short⟩
      · rw [Tree.directory?_put_file free, leads]
      · rw [Tree.directory?_put_file free, leadsAbove]
      · rw [Tree.entry?_put tree (by simp), if_pos rfl]
    have gone := addsOnly_put_erase id tree directory temporary (.file file.text.toUTF8)
    refine Meets.mono (beside.meets_move (fun _ => rfl) fun _ => rfl) ?_ ?_
    · rintro _ left ⟨holds', check, adds⟩
      exact ⟨holds', check, fun _ => gone.trans adds⟩
    · rintro e left ⟨io, adds⟩
      exact ⟨io, fun restrained => gone.trans (adds restrained)⟩
  · intro fault left performed
    obtain ⟨_, rfl⟩ := Tree.changed_eq_error_iff.1 performed
    exact ⟨⟨_, _, rfl⟩, fun _ => .refl id tree⟩
  · intro fault left _ broken
    refine ⟨⟨_, _, rfl⟩, fun restrained => ?_⟩
    rw [restrained.write _ _ _ _ broken]
    exact .refl id tree

/-- A file that is removed was in its place. -/
theorem Holds.removed (holds : store.Holds rack barred tree) (valid : isRuleId id = true)
    (is : tree.remove (store.place id context) = .ok left) :
    AddsOnly id tree left ∧ (rack id context).isSome = true ∧
      store.Holds (rack.put id context none) barred left := by
  have given := store.directory_ne_of_activeDir holds.settled.given context
  obtain ⟨directory, content, leads, there, rfl⟩ := Tree.remove_child_ok given
    (isPlainName_fileName valid) (holds.settled.noLink context id valid) is
  refine ⟨addsOnly_erase id tree (by simp), ?_, holds.erase_file valid leads ?_⟩
  · rw [← holds.held_eq, held_of_isRuleId store tree valid, leads, Option.bind_some, there]
    rfl
  · intro old is
    rw [there] at is
    cases is
    rfl

/-- Where no file is found to remove, its place holds nothing. -/
theorem Holds.eq_none_of_remove (holds : store.Holds rack barred tree) (valid : isRuleId id = true)
    (is : tree.remove (store.place id context) = .error .notFound) : rack id context = none := by
  rw [← holds.held_eq]
  cases leads : tree.directory? (store.directory context) with
  | none => exact held_of_missing leads id
  | some directory =>
    rw [held_of_isRuleId store tree valid, leads, Option.bind_some]
    exact Tree.entry?_of_remove_notFound leads
      (store.directory_ne_of_activeDir holds.settled.given context) (isPlainName_fileName valid) is

/-- The path of a file can be walked when removing it does not fail, unless nothing is found. -/
theorem Holds.checkPath_of_remove (holds : store.Holds rack barred tree)
    (valid : isRuleId id = true) (only : ∀ fault,
      tree.remove (store.place id context) = .error fault → fault = .notFound) :
    Tree.checkPath (store.place id context) = .ok () := by
  have given := Tree.child_text_ne (store.directory_ne_of_activeDir holds.settled.given context)
    (isPlainName_fileName valid)
  cases check : Tree.checkPath (store.place id context) with
  | ok _ => rfl
  | error fault =>
    have failed : tree.remove (store.place id context) = .error fault := by
      rw [Tree.remove, Tree.place, check]
      rfl
    exact absurd (only fault failed) (Tree.checkPath_ne_notFound given check)

/-- A file is removed from its place, where there is one. A removal that breaks off may be said to
have found nothing. -/
theorem meets_removeIfPresent_tree {respects : Tree → Tree → Prop}
    (holds : store.Holds rack barred tree) (valid : isRuleId id = true) (same : respects tree tree)
    (removed : ∀ left, store.Holds (rack.put id context none) barred left → respects tree left) :
    (removeIfPresent (store.place id context)).Meets (Tree.terms breaks respects)
      (fun found left => AddsOnly id tree left ∧
        ((found = (rack id context).isSome ∧ store.Holds (rack.put id context none) barred left ∧
          Tree.checkPath (store.place id context) = .ok ()) ∨
        ∃ tree path, breaks tree (.remove path) left))
      (fun e left => e.IsIo ∧ left = tree) tree := by
  have halfway (made : Tree) (is : tree.Halfway (.remove (store.place id context)) made) :
      made = tree := by
    cases is
    rfl
  refine meets_bind.2 (meets_attempt_tree halfway ?_ ?_ ?_ ?_)
  · rintro a b rfl rfl
    exact same
  · rintro a isA
    rw [isA]
    show respects tree (tree.changed _).2
    cases is : tree.remove (store.place id context) with
    | ok left => exact removed left (holds.removed valid is).2.2
    | error fault => exact same
  · intro answer left performed
    cases answer with
    | ok _ =>
      have is := Tree.changed_eq_ok_iff.1 performed
      obtain ⟨adds, held, holds'⟩ := holds.removed valid is
      exact ⟨adds, .inl ⟨held.symm, holds', holds.checkPath_of_remove valid (by simp [is])⟩⟩
    | error fault =>
      obtain ⟨is, rfl⟩ := Tree.changed_eq_error_iff.1 performed
      dsimp only
      split
      next nothing =>
        subst nothing
        have vacant := holds.eq_none_of_remove valid is
        have check := holds.checkPath_of_remove valid fun fault failed =>
          Except.error.inj (failed.symm.trans is)
        refine ⟨.refl id tree, .inl ⟨by rw [vacant]; rfl, ?_, check⟩⟩
        rw [Rack.put_eq_self vacant]
        exact holds
      next => exact ⟨⟨_, _, rfl⟩, rfl⟩
  · intro fault left is broken
    obtain rfl := halfway left is
    dsimp only
    split
    · exact ⟨.refl id left, .inr ⟨_, _, broken⟩⟩
    · exact ⟨⟨_, _, rfl⟩, rfl⟩

/-- A rule file is written, and then it is the only one of its id. -/
theorem meets_write_tree (sound : store.Sound tree) (valid : isRuleId id = true)
    (file : RuleFile) :
    (store.write id file).Meets (Tree.terms breaks (store.Advances id file))
      (fun _ left => (store.Restrained id breaks → AddsOnly id tree left) ∧
        ((store.readIn left id = .ok (some file) ∧
          store.Holds (((store.held tree).put id file.context
            (some (.file file.text.toUTF8))).put id file.context.other none) (store.barred tree)
            left) ∨
        ∃ tree path, breaks tree (.remove path) left))
      (fun e left => e.IsIo ∧ (store.Restrained id breaks → AddsOnly id tree left)) tree := by
  rw [write, path_of_isRuleId store valid]
  obtain ⟨holds, leads⟩ := sound.makes file.context
  have same : store.SameBut [] tree (tree.createDirectories (store.directory file.context)).2 :=
    sound.sameBut (.inl holds.settled) holds.barred_eq fun _ _ => by rw [holds.held_eq]
  have grows := tree.grows_createDirectories (store.directory file.context)
  refine meets_bind.2 (meets_ok.2 (meets_bind.2 (meets_file_tree
    (fun made is => sound.sameBut_of_halfway is)
    (fun a b isA isB => (isA.symm.trans isB).advances id file)
    (fun a isA => (isA.symm.trans same).advances id file) ?_ ?_ ?_)))
  · intro _ made performed
    have performed : tree.createDirectories (store.directory file.context) = (.ok (), made) :=
      performed
    rw [performed] at holds leads grows
    obtain ⟨directory, leads⟩ := leads rfl
    refine meets_bind.2 (Meets.mono (meets_writeWhole_tree holds valid leads) ?_ ?_)
    · rintro _ written ⟨holds', check, adds⟩
      have adds restrained := (addsOnly_of_grows id grows).trans (adds restrained)
      rw [path_of_isRuleId store valid]
      refine meets_bind.2 (meets_ok.2 (meets_bind.2 (Meets.mono (meets_removeIfPresent_tree holds'
        valid ((SameBut.refl store [] written).advances id file)
        fun left => advances_remove valid holds' Rack.put_self check) ?_ ?_)))
      · rintro found left ⟨adds', removed⟩
        refine meets_pure.2 ⟨fun restrained => (adds restrained).trans adds', ?_⟩
        refine removed.imp_left ?_
        rintro ⟨_, holds'', checkOther⟩
        refine ⟨holds''.readIn_eq valid ?_ check fun stream => ⟨?_, ?_⟩, holds''⟩
        · rw [Rack.put_other (by cases file.context <;> simp [Context.other]), Rack.put_self]
        · rw [stream]
          exact Rack.put_self
        · rw [stream] at checkOther
          exact checkOther
      · rintro e left ⟨io, rfl⟩
        exact ⟨io, adds⟩
    · rintro e left ⟨io, adds⟩
      exact ⟨io, fun restrained => (addsOnly_of_grows id grows).trans (adds restrained)⟩
  · intro fault made performed
    have performed : tree.createDirectories (store.directory file.context) = (.error fault, made) :=
      performed
    rw [performed] at grows
    exact ⟨⟨_, _, rfl⟩, fun _ => addsOnly_of_grows id grows⟩
  · intro fault made is _
    refine ⟨⟨_, _, rfl⟩, fun _ => ?_⟩
    cases is with
    | nothing => exact .refl id tree
    | directories first => exact addsOnly_of_grows id first

/-- Writing is atomic at every crash point. Over every run of writing a rule file from a sound tree,
however far it has come and whichever calls have broken off, any two moments in their order are in
line: no other id is read or listed differently, and what is read for the id is what was read before
or the new file, so it is never lost, never half of a text, and stays the new file once it is. When
the writing has ended, with success or not, all files are those that were there or are named for the
id, provided that a file which cannot be written is not there and that a file which cannot be moved
can be removed. After a success the new file is read, unless removing the other one broke off. -/
theorem write_atomic (store : Store) {tree : Tree} (sound : store.Sound tree) {id : String}
    (valid : isRuleId id = true) (file : RuleFile) (breaks : Breaks) :
    (∀ rest history, (store.write id file).run.Reaches (History.terms breaks) { tree } rest history →
      history.trees.Pairwise (store.Advances id file)) ∧
    ∀ result history, (store.write id file).run.Ends (History.terms breaks) { tree } result history →
      (store.Restrained id breaks → AddsOnly id tree history.tree) ∧
        (result = .ok () → store.readIn history.tree id = .ok (some file) ∨
          ∃ tree path, breaks tree (.remove path) history.tree) := by
  have meets : (store.write id file).run.Meets (Tree.terms breaks (store.Advances id file)) _ tree :=
    meets_write_tree sound valid file
  refine ⟨fun rest history reached => ?_, fun result history ends => ?_⟩
  · exact History.pairwise_of_reaches meets (List.pairwise_singleton _ _) reached
  · have promised := meets.of_ends ends.tree
    cases result with
    | ok _ => exact ⟨promised.1, fun _ => promised.2.imp_left And.left⟩
    | error e => exact ⟨promised.2, nofun⟩

/-- A rule changes sides. It is read on the old side until the old file is removed, and on the new
side then. -/
theorem write_atomic_moved :
    let store : Store := ⟨{ activeDir := ⟨"/a"⟩ }⟩
    let tree : Tree :=
      { entries := [(["a"], .directory), (["a", "web.conf"], .file "old".toUTF8)] }
    let file : RuleFile := ⟨.stream, "new"⟩
    isRuleId "web" = true ∧ ∃ history,
      (store.write "web" file).run.Ends (History.terms .never) { tree } (.ok ()) history ∧
        history.trees.map (store.readIn · "web") =
          [.ok (some ⟨.http, "old"⟩), .ok (some ⟨.http, "old"⟩), .ok (some ⟨.http, "old"⟩),
            .ok (some ⟨.http, "old"⟩), .ok (some file)] ∧
        history.trees.Pairwise (store.Advances "web" file) ∧
        AddsOnly "web" tree history.tree := by
  intro store tree file
  have sound : store.Sound tree := by
    refine .inl ⟨.of_entries (by decide) ?_ ?_ ⟨["a"], ?_⟩ (by decide), ?_⟩
    · decide
    · simp [tree]
    · decide
    · intro directory target _ there
      exact absurd there (Tree.ne_link_of_entries (by simp [tree]) directory "stream" target)
  have ends := @History.ends_act _ .never (store.write "web" file).run ([], { tree })
  have told : (fun ended : _ × _ × History => (ended.1, ended.2.2.trees.map (store.readIn · "web")))
      ((store.write "web" file).run.run History.act ([], { tree })) =
        (.ok (), [.ok (some ⟨.http, "old"⟩), .ok (some ⟨.http, "old"⟩), .ok (some ⟨.http, "old"⟩),
          .ok (some ⟨.http, "old"⟩), .ok (some file)]) := by decide +kernel
  obtain ⟨result, reads⟩ := Prod.mk.inj told
  rw [result] at ends
  obtain ⟨always, after⟩ := @write_atomic store tree sound "web" (by decide) file .never
  have restrained : store.Restrained "web" .never :=
    ⟨fun _ _ _ _ broken => broken.elim, fun _ _ _ broken => broken.elim⟩
  exact ⟨by decide, _, ends, reads, always _ _ ends.reaches, (after _ _ ends).1 restrained⟩

/-- Where the directory for plain connections is the active directory itself, by way of a link, a
rule is lost. The one file there is gives way to the new one, which is removed at once. -/
theorem not_write_atomic_link :
    let store : Store := ⟨{ activeDir := ⟨"/a"⟩ }⟩
    let tree : Tree :=
      { entries := [(["a"], .directory), (["a", "web.conf"], .file "old".toUTF8),
        (["a", "stream"], .link ⟨"."⟩)] }
    (∀ location content, tree.entry? location = some (.file content) →
        location = ["a", "web.conf"] ∧ content = "old".toUTF8) ∧
      store.readIn tree "web" = .ok (some ⟨.http, "old"⟩) ∧ ∃ history,
        (store.write "web" ⟨.http, "new"⟩).run.Ends (History.terms .never) { tree } (.ok ()) history ∧
          store.readIn history.tree "web" = .ok none := by
  intro store tree
  have ends := @History.ends_act _ .never (store.write "web" ⟨.http, "new"⟩).run ([], { tree })
  have told : (fun ended : _ × _ × History => (ended.1, store.readIn ended.2.2.tree "web"))
      ((store.write "web" ⟨.http, "new"⟩).run.run History.act ([], { tree })) =
        (.ok (), .ok none) := by decide +kernel
  obtain ⟨result, nothing⟩ := Prod.mk.inj told
  rw [result] at ends
  refine ⟨fun location content there => ?_, by decide +kernel, _, ends, nothing⟩
  obtain rfl | ⟨directory, name, rfl⟩ := List.eq_nil_or_concat location
  · cases there
  rw [List.concat_eq_append] at there ⊢
  have listed := Tree.mem_entries there
  simp only [tree, List.mem_cons, Prod.mk.injEq, Entry.file.injEq, reduceCtorEq, and_false,
    List.not_mem_nil, or_false, false_or] at listed
  exact listed

end Store

end ProxyKeeper
