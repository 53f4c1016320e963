import ProxyKeeper.Proofs.Files.Calls
import ProxyKeeper.Proofs.Files.Contents
import ProxyKeeper.Proofs.Rule.Loaded
import ProxyKeeper.Proofs.Store.Effects

/-!
# Files that were written

What is at the path of a rule file once it was written, in any tree. The file is beside its place
first, then moved there, and then a file in the other context is removed. The text is found again
unless the last two steps cut the way to it: the path of the other file leads to the same place, or
a symbolic link that they replace or remove stands on the way to the directory. Then nothing is.

## Main Definitions

* `Store.clear` — a tree without what stands for the files of an id
* `Store.Separates` — trees in which the way to a file does not lead through the files of its id
* `Store.Replaces`, `Store.Clears` — what the two steps leave

## Main Results

* `Store.read_eq_ok_iff_of_ends_write` — what is read at the path of a file that was written
-/

namespace ProxyKeeper

namespace Tree

variable {tree tree' : Tree} {path : Path} {name : String} {directory : Location}

/-- A path that names a place can be walked, and its last name is short enough. -/
theorem checkPath_of_place {front : List String} {unnamed : IoFault} {place : Place}
    (names : path.names = front ++ [name]) (found : tree.place unnamed path = .ok place) :
    checkPath path = .ok () ∧ ¬ maximalNameSize < name.utf8ByteSize := by
  cases check : checkPath path with
  | error fault => rw [Tree.place, check] at found; cases found
  | ok _ =>
    refine ⟨rfl, ?_⟩
    rw [place_of_checkPath check names] at found
    cases walked : tree.walk true maximalLinks (origin path tree.workingDirectory) front with
    | error fault => rw [walked] at found; cases found
    | ok spot =>
      rw [walked] at found
      intro long
      cases spot with
      | vacant _ _ => cases found
      | occupied _ entry =>
        cases entry with
        | file _ => cases found
        | link _ => cases found
        | directory =>
          simp only [Except.bind, long, if_true] at found
          split at found <;> cases found

/-- A file in a directory that a path leads to is read, where the path can be walked. -/
theorem read_child (given : path.text ≠ "") (plain : Path.IsPlainName name)
    (check : checkPath (path.child name) = .ok ()) (short : ¬ maximalNameSize < name.utf8ByteSize)
    (leads : tree.directory? path = some directory) {content : ByteArray}
    (there : tree.entry? (directory ++ [name]) = some (.file content)) :
    tree.read (path.child name) = .ok content := by
  rw [read, entryAt, find_child_of_checkPath leads given plain (by simp [there]) check,
    if_neg short, lookAt, there]
  rfl

/-- Where a file has come in the place of something else, a name can only be missing in a directory
that is found as before: a walk that meets the file does not fail in this way. -/
theorem missing_of_remove_notFound (given : path.text ≠ "") (plain : Path.IsPlainName name)
    (leads : tree.directory? path = some directory)
    (origins : tree'.workingDirectory = tree.workingDirectory) {spot : Location}
    {content : ByteArray} (there : tree'.entry? spot = some (.file content))
    (others : ∀ l, l ≠ spot → tree'.entry? l = tree.entry? l)
    (missing : tree'.remove (path.child name) = .error .notFound) :
    tree'.entry? (directory ++ [name]) = none := by
  obtain ⟨left, way⟩ := directory?_eq_some_iff.1 leads
  rw [← origins] at way
  rcases way.kept_or_blocked there others with way' | blocked
  · exact entry?_of_remove_notFound (directory?_eq_some_iff.2 ⟨left, way'⟩) given plain missing
  · rw [remove] at missing
    cases check : checkPath (path.child name) with
    | error fault =>
      rw [place, check] at missing
      cases missing
      exact absurd rfl (checkPath_ne_notFound (child_text_ne given plain) check)
    | ok _ =>
      rw [place_of_checkPath check (Path.names_child given plain), origin,
        Path.isAbsolute_child given plain, ← origin] at missing
      rcases blocked with failed | met
      · rw [failed] at missing
        cases missing
      · rw [met] at missing
        cases missing

end Tree

namespace Store

open Program Operation

variable {store : Store} {tree : Tree} {id : String} {context : Context} {faults : Bool}
  {site after : Site}

/-- The places of the files of an id. -/
def places (store : Store) (id : String) (tree : Tree) : List Location :=
  [Context.http, Context.stream].filterMap fun context =>
    (tree.directory? (store.directory context)).map (· ++ [fileName id])

/-- A tree without what stands for the files of an id. -/
def clear (store : Store) (id : String) (tree : Tree) : Tree :=
  (store.places id tree).foldl Tree.erase tree

/-- Whether the directories of the contexts are different ones, and the way to one of them does not
lead through what stands for the files of an id. -/
structure Separates (store : Store) (id : String) (context : Context) (tree : Tree) : Prop where
  apart : tree.directory? (store.directory context.other) ≠
    tree.directory? (store.directory context)
  passes : (store.clear id tree).directory? (store.directory context) =
    tree.directory? (store.directory context)

instance : Decidable (store.Separates id context tree) :=
  decidable_of_iff
    (tree.directory? (store.directory context.other) ≠ tree.directory? (store.directory context) ∧
      (store.clear id tree).directory? (store.directory context) =
        tree.directory? (store.directory context))
    ⟨fun h => ⟨h.1, h.2⟩, fun h => ⟨h.1, h.2⟩⟩

theorem mem_places {location : Location} :
    location ∈ store.places id tree ↔
      ∃ context directory, tree.directory? (store.directory context) = some directory ∧
        directory ++ [fileName id] = location := by
  simp only [places, List.mem_filterMap, Option.map_eq_some_iff]
  constructor
  · rintro ⟨context, _, directory, leads, same⟩
    exact ⟨context, directory, leads, same⟩
  · rintro ⟨context, directory, leads, same⟩
    exact ⟨context, by cases context <;> simp, directory, leads, same⟩

/-- What is left after some entries were erased was there before, and is none of them. -/
theorem entry?_foldl_erase {locations : List Location} (named : [] ∉ locations)
    {location : Location} {entry : Entry}
    (there : Tree.entry? (locations.foldl Tree.erase tree) location = some entry) :
    tree.entry? location = some entry ∧ location ∉ locations := by
  induction locations generalizing tree with
  | nil => exact ⟨there, List.not_mem_nil⟩
  | cons first locations ih =>
    obtain ⟨root, others⟩ := not_or.1 (List.mem_cons.not.1 named)
    obtain ⟨left, inOthers⟩ := ih others there
    rw [Tree.entry?_erase tree (Ne.symm root)] at left
    split at left
    next => cases left
    next other => exact ⟨left, List.mem_cons.not.2 (not_or.2 ⟨other, inOthers⟩)⟩

theorem entry?_foldl_erase_of_notMem {locations : List Location} (named : [] ∉ locations)
    {location : Location} (other : location ∉ locations) :
    Tree.entry? (locations.foldl Tree.erase tree) location = tree.entry? location := by
  induction locations generalizing tree with
  | nil => rfl
  | cons first locations ih =>
    obtain ⟨root, others⟩ := not_or.1 (List.mem_cons.not.1 named)
    obtain ⟨apart, notIn⟩ := not_or.1 (List.mem_cons.not.1 other)
    rw [List.foldl_cons, ih others notIn, Tree.entry?_erase tree (Ne.symm root), if_neg apart]

theorem workingDirectory_foldl_erase (locations : List Location) (tree : Tree) :
    (locations.foldl Tree.erase tree).workingDirectory = tree.workingDirectory := by
  induction locations generalizing tree with
  | nil => rfl
  | cons first locations ih => exact ih _

theorem nil_notMem_places : [] ∉ store.places id tree := by
  intro listed
  obtain ⟨_, directory, _, same⟩ := mem_places.1 listed
  simp at same

/-- A tree in which the files of an id came and went keeps the ways beside them. -/
theorem keeps_clear {tree' : Tree} (origin : tree'.workingDirectory = tree.workingDirectory)
    (others : ∀ location, location ∉ store.places id tree →
      tree'.entry? location = tree.entry? location) : (store.clear id tree).Keeps tree' := by
  refine ⟨origin.trans (workingDirectory_foldl_erase _ tree).symm, ?_⟩
  intro location entry there _
  obtain ⟨before, other⟩ := entry?_foldl_erase nil_notMem_places there
  rw [others location other, before]

/-- A tree that leads nowhere through the files of an id has no other ways than those beside
them. -/
theorem clear_keeps {tree' : Tree} (keeps : tree'.Keeps tree)
    (ends : ∀ location ∈ store.places id tree, ∀ entry, tree'.entry? location = some entry →
      entry.isPassage = false) : tree'.Keeps (store.clear id tree) := by
  refine ⟨(workingDirectory_foldl_erase _ tree).trans keeps.origin, ?_⟩
  intro location entry there passage
  have other : location ∉ store.places id tree := fun listed =>
    Bool.noConfusion (passage.symm.trans (ends location listed entry there))
  exact (entry?_foldl_erase_of_notMem nil_notMem_places other).trans
    (keeps.passage location entry there passage)

/-! ## What the steps of writing leave -/

/-- What is there after a file was written whole: the file, at the place that its path named, and
all else as before. -/
structure Replaces (path : Path) (name : String) (content : ByteArray) (directory : Location)
    (tree tree' : Tree) : Prop where
  leads : tree.directory? path = some directory
  walkable : Tree.checkPath (path.child name) = .ok ()
  short : ¬ Tree.maximalNameSize < name.utf8ByteSize
  origin : tree'.workingDirectory = tree.workingDirectory
  entries : ∀ location, tree'.entry? location =
    if location = directory ++ [name] then some (.file content) else tree.entry? location

/-- What is replaced by a file makes no new ways. -/
theorem Replaces.keeps {path : Path} {name : String} {content : ByteArray} {directory : Location}
    {tree' : Tree} (replaces : Replaces path name content directory tree tree') :
    tree'.Keeps tree := by
  refine ⟨replaces.origin.symm, ?_⟩
  intro location entry there passage
  rw [replaces.entries] at there
  split at there
  next =>
    cases there
    cases passage
  next => exact there

theorem Replaces.there {path : Path} {name : String} {content : ByteArray} {directory : Location}
    {tree' : Tree} (replaces : Replaces path name content directory tree tree') :
    tree'.entry? (directory ++ [name]) = some (.file content) := by
  rw [replaces.entries, if_pos rfl]

theorem ends_freshName_ok {fresh : String} :
    (Operation.request .freshName).run.Ends (Site.terms faults) site (.ok fresh) after ↔
      site.tree.IsFresh fresh ∧ after = site := by
  refine (ends_lift_ok.trans ends_ask : _ ↔ _).trans ?_
  constructor
  · rintro ⟨given, u, answered, last⟩
    obtain ⟨rfl, rfl⟩ := ends_done.1 last
    exact answered
  · intro answered
    exact ⟨fresh, after, answered, .done _ _⟩

theorem replaces_of_ends_writeWhole {path : Path} {name text : String} (given : path.text ≠ "")
    (plain : Path.IsPlainName name)
    (ends : (writeWhole (path.child name) text).run.Ends (Site.terms faults) site (.ok ()) after) :
    ∃ directory, Replaces path name text.toUTF8 directory site.tree after.tree := by
  obtain ⟨above, dots, parent, givenAbove, absolute, names, silent⟩ :=
    Path.parent?_child given plain
  have leadsAlike (tree : Tree) : tree.directory? above = tree.directory? path :=
    Tree.directory?_of_dots tree absolute names silent
  rw [writeWhole, parent, Path.fileName?_child given plain] at ends
  simp only [Option.getD_some] at ends
  obtain ⟨fresh, u, given', step⟩ := ends_bind_ok.1 ends
  obtain ⟨isFresh, rfl⟩ := ends_freshName_ok.1 given'
  obtain ⟨_, v, wrote, step'⟩ := ends_bind_ok.1 step
  obtain ⟨answer, w, called, last⟩ := ends_bind_ok.1 step'
  obtain ⟨tree, answered, rfl⟩ := ends_attempt_ok.1 called
  cases answer with
  | error fault =>
    obtain ⟨_, _, _, failed⟩ := ends_bind_ok.1 last
    exact absurd failed not_ends_throw_ok
  | ok _ =>
    obtain ⟨-, rfl⟩ := ends_pure_ok.1 last
    -- first the file is written under a name that nothing bears
    have plainTemporary := @isPlainName_temporaryName name fresh plain.noSlash isFresh.noSlash
    obtain ⟨directory, leadsAbove, free, written⟩ :=
      Tree.write_child_ok givenAbove plainTemporary (fun d _ target => by simp [isFresh.unused])
        (Tree.changed_eq_ok_iff.1 (perform_of_ends wrote).1)
    have there : v.tree.entry? (directory ++ [temporaryName name fresh]) =
        some (.file text.toUTF8) := by
      rw [written, Tree.entry?_put _ (by simp), if_pos rfl]
    have stays (other : Path) : v.tree.directory? other = u.tree.directory? other := by
      rw [written, Tree.directory?_put_file free]
    -- then it is moved within its directory
    have renamed := Tree.changed_eq_ok_iff.1 answered.ok
    have leads : v.tree.directory? path = some directory := by
      rw [stays, ← leadsAlike, leadsAbove]
    obtain ⟨_, moved⟩ := Tree.rename_child_ok givenAbove plainTemporary
      ((stays above).trans leadsAbove) given plain leads there renamed
    obtain ⟨_, _, _, place, _⟩ := Tree.rename_named (Path.names_child givenAbove plainTemporary)
      renamed
    obtain ⟨walkable, short⟩ := Tree.checkPath_of_place (Path.names_child given plain) place
    refine ⟨directory, leadsAlike u.tree ▸ leadsAbove, walkable, short, ?_, fun location => ?_⟩
    · rw [moved, written]
      rfl
    · rw [moved, Tree.entry?_put _ (by simp), Tree.entry?_erase _ (by simp), written,
        Tree.entry?_put _ (by simp)]
      by_cases temporary : location = directory ++ [temporaryName name fresh]
      · rw [if_pos temporary, temporary, isFresh.unused]
      · rw [if_neg temporary, if_neg temporary]

/-- What is there after what a path names in a directory was removed, if it was there. -/
def Clears (path : Path) (name : String) (tree tree' : Tree) : Prop :=
  (tree.remove (path.child name) = .error .notFound ∧ tree' = tree) ∨
    ∃ directory, tree.directory? path = some directory ∧ tree' = tree.erase (directory ++ [name])

theorem clears_of_ends_removeIfPresent {path : Path} {name : String} (given : path.text ≠ "")
    (plain : Path.IsPlainName name) {found : Bool}
    (ends : (removeIfPresent (path.child name)).run.Ends (Site.terms faults) site (.ok found)
      after) :
    Clears path name site.tree after.tree := by
  obtain ⟨answer, u, called, last⟩ := ends_bind_ok.1 ends
  obtain ⟨tree, answered, rfl⟩ := ends_attempt_ok.1 called
  cases answer with
  | ok _ =>
    obtain ⟨-, rfl⟩ := ends_pure_ok.1 last
    have removed := Tree.changed_eq_ok_iff.1 answered.ok
    rw [Tree.remove] at removed
    obtain ⟨place, foundPlace, erased⟩ := Tree.exists_of_bind_ok removed
    obtain ⟨directory, leads, rfl⟩ := Tree.place_child_ok given plain foundPlace
    refine .inr ⟨directory, leads, ?_⟩
    split at erased
    next => cases erased
    next => cases erased
    next => exact (Except.ok.inj erased).symm
  | error fault =>
    dsimp only at last
    split at last
    next missing =>
      obtain ⟨-, rfl⟩ := ends_pure_ok.1 last
      subst missing
      obtain ⟨missing, same⟩ := Tree.changed_eq_error_iff.1 answered.notFound
      exact .inl ⟨missing, same.symm⟩
    next => exact absurd last not_ends_throw_ok

/-- To write the file of a rule is to put it at its place and to remove the one that the rule may
have in the other context. -/
theorem exists_of_ends_write (given : store.config.activeDir.text ≠ "") (valid : isRuleId id = true)
    {file : RuleFile}
    (ends : (store.write id file).run.Ends (Site.terms faults) site (.ok ()) after) :
    ∃ directory written,
      Replaces (store.directory file.context) (fileName id) file.text.toUTF8 directory
        (site.tree.createDirectories (store.directory file.context)).2 written ∧
      Clears (store.directory file.context.other) (fileName id) written after.tree := by
  have given' := store.directory_ne_of_activeDir given
  have plain := isPlainName_fileName valid
  rw [write, path_of_isRuleId store valid] at ends
  obtain ⟨_, u, checked, step⟩ := ends_bind_ok.1 ends
  obtain ⟨same, rfl⟩ := ends_ofExcept_ok.1 checked
  obtain rfl := Except.ok.inj same
  obtain ⟨_, v, made, step'⟩ := ends_bind_ok.1 step
  obtain ⟨_, w, whole, step''⟩ := ends_bind_ok.1 step'
  rw [path_of_isRuleId store valid] at step''
  obtain ⟨_, x, checked', step⟩ := ends_bind_ok.1 step''
  obtain ⟨same, rfl⟩ := ends_ofExcept_ok.1 checked'
  obtain rfl := Except.ok.inj same
  obtain ⟨_, y, removed, last⟩ := ends_bind_ok.1 step
  obtain ⟨-, rfl⟩ := ends_pure_ok.1 last
  have madeTree : (site.tree.createDirectories (store.directory file.context)).2 = v.tree :=
    congrArg Prod.snd (perform_of_ends made).1
  rw [madeTree]
  obtain ⟨directory, replaces⟩ := replaces_of_ends_writeWhole (given' _) plain whole
  exact ⟨directory, w.tree, replaces, clears_of_ends_removeIfPresent (given' _) plain removed⟩

section Steps

variable {content : ByteArray} {directory : Location} {written tree' : Tree}
  (given : store.config.activeDir.text ≠ "") (valid : isRuleId id = true)
  (replaces : Replaces (store.directory context) (fileName id) content directory tree written)
  (clears : Clears (store.directory context.other) (fileName id) written tree')

include replaces clears

/-- Both steps leave alone what does not stand for a file of the id. -/
theorem entry?_of_notMem_places {location : Location}
    (other : location ∉ store.places id tree) : tree'.entry? location = tree.entry? location := by
  have written : written.entry? location = tree.entry? location := by
    rw [replaces.entries, if_neg]
    rintro rfl
    exact other (mem_places.2 ⟨context, directory, replaces.leads, rfl⟩)
  obtain ⟨_, rfl⟩ | ⟨beside, leadsBeside, rfl⟩ := clears
  · exact written
  · rw [Tree.entry?_erase _ (by simp), if_neg, written]
    rintro rfl
    exact other (mem_places.2 ⟨_, beside, replaces.keeps.directory? leadsBeside, rfl⟩)

theorem keeps_of_steps : tree'.Keeps tree := by
  obtain ⟨_, rfl⟩ | ⟨beside, _, rfl⟩ := clears
  · exact replaces.keeps
  · exact (Tree.erase_keeps (by simp)).trans replaces.keeps

include given valid

/-- In the directory of the other context nothing is left. -/
theorem entry?_other {beside : Location}
    (leads : tree.directory? (store.directory context.other) = some beside) :
    tree'.entry? (beside ++ [fileName id]) = none := by
  obtain ⟨missing, rfl⟩ | ⟨removed, leadsRemoved, rfl⟩ := clears
  · exact Tree.missing_of_remove_notFound (store.directory_ne_of_activeDir given _)
      (isPlainName_fileName valid) leads replaces.origin replaces.there
      (fun l other => by rw [replaces.entries, if_neg other]) missing
  · obtain rfl := Option.some.inj ((replaces.keeps.directory? leadsRemoved).symm.trans leads)
    rw [Tree.entry?_erase _ (by simp), if_pos rfl]

/-- Nothing is left in the places of the id but the file that was written. -/
theorem entry?_of_mem_places {location : Location} (listed : location ∈ store.places id tree)
    {entry : Entry} (there : tree'.entry? location = some entry) : entry = .file content := by
  obtain ⟨context', directory', leads, rfl⟩ := mem_places.1 listed
  have either : context' = context ∨ context' = context.other := by
    cases context <;> cases context' <;> decide
  obtain rfl | rfl := either
  · obtain rfl := Option.some.inj (leads.symm.trans replaces.leads)
    obtain ⟨_, rfl⟩ | ⟨beside, _, rfl⟩ := clears
    · rw [replaces.there] at there
      exact (Option.some.inj there).symm
    · rw [Tree.entry?_erase _ (by simp), replaces.there] at there
      split at there
      next => cases there
      next => exact (Option.some.inj there).symm
  · rw [entry?_other given valid replaces clears leads] at there
    cases there

/-- What can be read at the path of a file that was written is what was written, and can be read
exactly when nothing was in the way. -/
theorem read_eq_ok_iff_of_steps {found : ByteArray} :
    tree'.read ((store.directory context).child (fileName id)) = .ok found ↔
      found = content ∧ store.Separates id context tree := by
  have given' := store.directory_ne_of_activeDir given
  have plain := isPlainName_fileName valid
  have place : directory ++ [fileName id] ∈ store.places id tree :=
    mem_places.2 ⟨context, directory, replaces.leads, rfl⟩
  have keeps := keeps_of_steps replaces clears
  have left {location : Location} (listed : location ∈ store.places id tree) {entry : Entry}
      (there : tree'.entry? location = some entry) : entry = .file content :=
    entry?_of_mem_places given valid replaces clears listed there
  constructor
  · intro read
    have noLink : tree'.NoLinkIn (store.directory context) (fileName id) := by
      intro directory' leads target there
      have same := (keeps.directory? leads).symm.trans replaces.leads
      obtain rfl := Option.some.inj same
      cases left place there
    have held := Tree.read_child_ok (given' _) plain noLink read
    rw [Tree.fileIn?] at held
    cases leads : tree'.directory? (store.directory context) with
    | none => rw [leads] at held; cases held
    | some directory' =>
      obtain rfl := Option.some.inj ((keeps.directory? leads).symm.trans replaces.leads)
      rw [leads] at held
      cases there : tree'.entry? (directory' ++ [fileName id]) with
      | none => simp [there] at held
      | some entry =>
        obtain rfl := left place there
        simp only [there, Option.some.injEq] at held
        refine ⟨held.symm, ?_, ?_⟩
        · -- in a shared directory the file would have been removed
          intro shared
          rw [replaces.leads] at shared
          rw [entry?_other given valid replaces clears shared] at there
          cases there
        · have cleared := (clear_keeps keeps fun location listed entry there => by
            rw [left listed there]; rfl).directory? leads
          rw [cleared, replaces.leads]
  · rintro ⟨rfl, separates⟩
    have leads := (keeps_clear keeps.origin.symm fun location other =>
      entry?_of_notMem_places replaces clears other).directory?
        (separates.passes.trans replaces.leads)
    refine Tree.read_child (given' _) plain replaces.walkable replaces.short leads ?_
    obtain ⟨_, rfl⟩ | ⟨beside, leadsBeside, rfl⟩ := clears
    · exact replaces.there
    · rw [Tree.entry?_erase _ (by simp), if_neg, replaces.there]
      intro same
      obtain rfl := List.append_cancel_right same
      exact separates.apart ((replaces.keeps.directory? leadsBeside).trans replaces.leads.symm)

end Steps

/-- What is read at the path of a rule file that was written. -/
theorem read_eq_ok_iff_of_ends_write (given : store.config.activeDir.text ≠ "")
    (valid : isRuleId id = true) {file : RuleFile} {found : ByteArray}
    (ends : (store.write id file).run.Ends (Site.terms faults) site (.ok ()) after) :
    after.tree.read ((store.directory file.context).child (fileName id)) = .ok found ↔
      found = file.text.toUTF8 ∧ store.Separates id file.context
        (site.tree.createDirectories (store.directory file.context)).2 := by
  obtain ⟨directory, written, replaces, clears⟩ := exists_of_ends_write given valid ends
  exact read_eq_ok_iff_of_steps given valid replaces clears

end Store

end ProxyKeeper
