import ProxyKeeper.Proofs.Store.Readings

/-!
# What a tree holds for the store

The calls by which the store looks at a tree depend on few of its entries: on what is in the places
of rule files, and on whether a file stands where the directory for plain connections should be.
Trees that agree on these show the same. So the effect of a call is told by what it does to the
places.

A tree is settled when the active directory is there, the directory for plain connections is another
one, and no link stands for a rule file. It is bare when the active directory is missing and comes
to be an empty one as soon as it is made. The store works with both.

## Main Definitions

* `Rack` — what may be in the places of rule files, with `Rack.put` for one place
* `Store.held` — what is in the places
* `Store.barred` — a file in the place of the directory for plain connections
* `Store.Settled`, `Store.Bare`, `Store.Sound` — the trees that the store works with

## Main Results

* `Store.Sound.read_eq`, `Store.Sound.idsOf_eq` — what looking at a tree tells
* `Store.Sound.sameBut` — trees with the same in all other places show the same of other ids
-/

namespace ProxyKeeper

/-- What may be in the places of rule files: the file of an id in a context. -/
abbrev Rack := String → Context → Option Entry

/-- The places with another entry, or none, in one of them. -/
def Rack.put (rack : Rack) (id : String) (context : Context) (entry : Option Entry) : Rack :=
  Function.update rack id (Function.update (rack id) context entry)

namespace Rack

variable {rack : Rack} {id : String} {context : Context} {entry : Option Entry}

theorem put_apply (rack : Rack) (id : String) (context : Context) (entry : Option Entry)
    (i : String) (c : Context) :
    rack.put id context entry i c = if i = id ∧ c = context then entry else rack i c := by
  by_cases same : i = id
  · subst same
    by_cases inContext : c = context
    · subst inContext
      simp [put]
    · simp [put, inContext]
  · simp [put, same]

theorem put_self : rack.put id context entry id context = entry := by
  rw [put_apply, if_pos ⟨rfl, rfl⟩]

theorem put_of_ne {i : String} (other : i ≠ id) : rack.put id context entry i = rack i := by
  rw [put, Function.update_of_ne other]

theorem put_other {c : Context} (other : c ≠ context) :
    rack.put id context entry id c = rack id c := by
  rw [put_apply, if_neg fun same => other same.2]

/-- To put what is there changes nothing. -/
theorem put_eq_self (there : rack id context = entry) : rack.put id context entry = rack := by
  rw [put, ← there, Function.update_eq_self, Function.update_eq_self]

end Rack

namespace Store

variable {store : Store} {tree tree' : Tree} {id : String} {context : Context}

/-- What is in the places of rule files. -/
def held (store : Store) (tree : Tree) : Rack := fun id context =>
  if isRuleId id then
    (tree.directory? (store.directory context)).bind fun directory =>
      tree.entry? (directory ++ [fileName id])
  else none

/-- Whether a file stands in the place of the directory for plain connections. -/
def barred (store : Store) (tree : Tree) : Bool :=
  match tree.directory? (store.directory .http) with
  | some directory =>
    match tree.entry? (directory ++ ["stream"]) with
    | some (.file _) => true
    | _ => false
  | none => false

/-- Whether the directory of a context cannot be there. -/
def shut (store : Store) (tree : Tree) : Context → Bool
  | .http => false
  | .stream => store.barred tree

theorem held_of_isRuleId (store : Store) (tree : Tree) (valid : isRuleId id = true)
    (context : Context) :
    store.held tree id context =
      (tree.directory? (store.directory context)).bind fun directory =>
        tree.entry? (directory ++ [fileName id]) := by
  rw [held, if_pos valid]

theorem held_of_not_isRuleId (store : Store) (tree : Tree) (invalid : isRuleId id = false)
    (context : Context) : store.held tree id context = none := by
  rw [held, invalid, if_neg Bool.false_ne_true]

theorem barred_eq_of_directory? {directory : Location}
    (leads : tree.directory? (store.directory .http) = some directory) :
    store.barred tree = match tree.entry? (directory ++ ["stream"]) with
      | some (.file _) => true
      | _ => false := by
  rw [barred, leads]

/-- Whether the active directory is there, the directory for plain connections is another one, and
no link stands for a rule file, or leads to no directory where that one should be. -/
structure Settled (store : Store) (tree : Tree) : Prop extends store.Tidy tree where
  firm : ∀ directory target, tree.directory? (store.directory .http) = some directory →
    tree.entry? (directory ++ ["stream"]) = some (.link target) →
      tree.directory? (store.directory .stream) ≠ none

/-- Whether the active directory is missing, can be made, and is an empty one of its own then. -/
structure Bare (store : Store) (tree : Tree) : Prop where
  given : store.config.activeDir.text ≠ ""
  closed : tree.IsClosed
  working : tree.entry? tree.workingDirectory = some .directory
  missing : ∀ context, tree.directory? (store.directory context) = none
  made : ∀ context, (tree.createDirectories (store.directory context)).1 = .ok () ∧
    let made := (tree.createDirectories (store.directory context)).2
    store.Settled made ∧ store.held made = (fun _ _ => none) ∧ store.barred made = false ∧
      ∃ directory, made.directory? (store.directory context) = some directory

/-- Whether the store can work with a tree, or can once it has made the active directory. -/
def Sound (store : Store) (tree : Tree) : Prop :=
  store.Settled tree ∨ store.Bare tree

/-! ## What the calls answer -/

/-- What reading a file answers, by what is in its place, and whether its directory cannot be
there. -/
def contentOf (shut : Bool) : Option Entry → Except IoFault ByteArray
  | some (.file content) => .ok content
  | some .directory => .error .isADirectory
  | some (.link _) => .error .tooManyLinks
  | none => .error (if shut then .notADirectory else .notFound)

/-- What listing the directory of a context answers, by the names in it, if it is there. -/
def namesOf (shut : Bool) : Option (List String) → Except IoFault (List String)
  | some names => .ok names
  | none => .error (if shut then .notADirectory else .notFound)

/-- The ids of a context, by those in its directory, unless they cannot be listed. -/
def idsFrom (directory : Path) (shut : Bool) (ids : List String) :
    Except OperationError (List String) :=
  match Tree.checkPath directory with
  | .error fault => .error (.io directory.text fault)
  | .ok _ => if shut then .error (.io directory.text .notADirectory) else .ok ids

namespace Settled

/-- A tree is settled when only files and directories are in the active directory and in its
directory for plain connections. -/
theorem of_plain (given : store.config.activeDir.text ≠ "") (closed : tree.IsClosed)
    {directory : Location} (leads : tree.directory? (store.directory .http) = some directory)
    (plain : ∀ name target, tree.entry? (directory ++ [name]) ≠ some (.link target))
    (plainBelow : ∀ name target,
      tree.entry? (directory ++ ["stream"] ++ [name]) ≠ some (.link target)) :
    store.Settled tree := by
  refine ⟨.of_plain given closed leads plain plainBelow, fun other target leads' there => ?_⟩
  obtain rfl := Option.some.inj (leads.symm.trans leads')
  exact absurd there (plain "stream" target)

/-- Where the directory for plain connections is there, no file is in its place. -/
theorem shut_eq_false (settled : store.Settled tree) {directory : Location}
    (leads : tree.directory? (store.directory context) = some directory) :
    store.shut tree context = false := by
  cases context with
  | http => rfl
  | stream =>
    obtain ⟨active, leadsActive⟩ := settled.active
    show store.barred tree = false
    rw [barred_eq_of_directory? leadsActive]
    split
    next content there =>
      have missing := Tree.directory?_child_of_free leadsActive settled.given isPlainName_stream
        (by simp [there, Entry.isPassage])
      exact absurd (leads.symm.trans missing) (by simp)
    next => rfl

/-- Where the directory of a context is missing, it is that for plain connections, and nothing or a
file is in its place. -/
theorem exists_place (settled : store.Settled tree)
    (missing : tree.directory? (store.directory context) = none) :
    ∃ links directory, tree.directory? (store.directory .http) = some directory ∧ (∀ rest,
      tree.walk true Tree.maximalLinks
          (Tree.origin (store.directory context) tree.workingDirectory)
          ((store.directory context).names ++ rest) =
        tree.walk true links directory ("stream" :: rest)) ∧
      ((tree.entry? (directory ++ ["stream"]) = none ∧ store.shut tree context = false) ∨
        (∃ content, tree.entry? (directory ++ ["stream"]) = some (.file content)) ∧
          store.shut tree context = true) := by
  obtain ⟨directory, leads⟩ := settled.active
  cases context with
  | http => exact absurd (leads.symm.trans missing) (by simp)
  | stream =>
    obtain ⟨links, way⟩ := Tree.directory?_eq_some_iff.1 leads
    have names : (store.directory .stream).names = (store.directory .http).names ++ ["stream"] :=
      Path.names_child settled.given isPlainName_stream
    have absolute : (store.directory .stream).isAbsolute = (store.directory .http).isAbsolute :=
      Path.isAbsolute_child settled.given isPlainName_stream
    refine ⟨links, directory, leads, fun rest => ?_, ?_⟩
    · rw [names, List.append_assoc, Tree.origin, absolute]
      exact way.walk_append _
    · show (_ ∧ store.barred tree = false) ∨ _ ∧ store.barred tree = true
      rw [barred_eq_of_directory? leads]
      cases there : tree.entry? (directory ++ ["stream"]) with
      | none => exact .inl ⟨rfl, rfl⟩
      | some entry =>
        cases entry with
        | file content => exact .inr ⟨⟨content, rfl⟩, rfl⟩
        | directory =>
          have found :=
            Tree.directory?_child leads settled.given isPlainName_stream (by decide) there
          exact absurd (missing.symm.trans found) (by simp)
        | link target => exact absurd missing (settled.firm directory target leads there)

/-- Reading a rule file answers what is in its place. -/
theorem read_eq (settled : store.Settled tree) (valid : isRuleId id = true) :
    tree.read (store.place id context) =
      (Tree.checkPath (store.place id context)).bind fun _ =>
        contentOf (store.shut tree context) (store.held tree id context) := by
  have given := store.directory_ne_of_activeDir settled.given context
  have plain := isPlainName_fileName valid
  cases check : Tree.checkPath (store.place id context) with
  | error fault =>
    rw [Tree.read, Tree.entryAt, Tree.find, check]
    rfl
  | ok _ =>
    rw [held_of_isRuleId store tree valid, Tree.read, Tree.entryAt]
    show _ = contentOf _ _
    cases leads : tree.directory? (store.directory context) with
    | some directory =>
      have noLink := settled.noLink context id valid directory leads
      rw [place, Tree.find_child_of_checkPath leads given plain noLink check,
        if_neg (Nat.not_lt.2 (utf8ByteSize_fileName valid)), Tree.lookAt,
        settled.shut_eq_false leads]
      show _ = contentOf _ (tree.entry? (directory ++ [fileName id]))
      cases tree.entry? (directory ++ [fileName id]) with
      | none => rfl
      | some entry => cases entry <;> rfl
    | none =>
      obtain ⟨links, directory, active, walked, there⟩ := settled.exists_place leads
      rw [Tree.find_of_checkPath check, place, Path.steps_child given plain, Tree.origin,
        Path.isAbsolute_child given plain, ← Tree.origin, walked, Tree.walk_cons,
        Tree.entry?_of_directory? active]
      dsimp only
      rw [if_neg (by decide), if_neg (by decide), if_neg (by decide)]
      rcases there with ⟨nothing, shut⟩ | ⟨⟨content, file⟩, shut⟩
      · rw [nothing, shut]
        rfl
      · rw [file, shut]
        dsimp only
        rw [Tree.walk_cons, file]
        rfl

/-- Listing the directory of a context answers the names in it. -/
theorem list_eq (settled : store.Settled tree) :
    tree.list (store.directory context) =
      (Tree.checkPath (store.directory context)).bind fun _ =>
        namesOf (store.shut tree context)
          ((tree.directory? (store.directory context)).map tree.names) := by
  cases check : Tree.checkPath (store.directory context) with
  | error fault =>
    rw [Tree.list, Tree.entryAt, Tree.find, check]
    rfl
  | ok _ =>
    rw [Tree.list, Tree.entryAt, Tree.find_of_checkPath check]
    show _ = namesOf _ _
    cases leads : tree.directory? (store.directory context) with
    | some directory =>
      obtain ⟨links, way⟩ := Tree.directory?_eq_some_iff.1 leads
      obtain ⟨dots, steps, silent⟩ := Tree.steps_eq (store.directory context)
      rw [steps, way.walk_append, Tree.walk_dots way.entry? silent]
      rfl
    | none =>
      obtain ⟨links, directory, active, walked, there⟩ := settled.exists_place leads
      have steps : Tree.steps (store.directory context) = (store.directory context).names ++ [] := by
        cases context with
        | http => exact absurd (leads.symm.trans active) (by simp)
        | stream =>
          rw [List.append_nil]
          exact (Path.steps_child settled.given isPlainName_stream).trans
            (Path.names_child settled.given isPlainName_stream).symm
      rw [steps, walked, Tree.walk_cons, Tree.entry?_of_directory? active]
      dsimp only
      rw [if_neg (by decide), if_neg (by decide), if_neg (by decide)]
      rcases there with ⟨nothing, shut⟩ | ⟨⟨content, file⟩, shut⟩
      · rw [nothing, shut]
        rfl
      · rw [file, shut]
        dsimp only
        rw [Tree.walk_nil, file]
        rfl

/-- The ids in a directory are those with something in their places. -/
theorem mem_ids_iff {directory : Location}
    (leads : tree.directory? (store.directory context) = some directory) :
    id ∈ (tree.names directory).filterMap ruleId? ↔ store.held tree id context ≠ none := by
  rw [List.mem_filterMap]
  constructor
  · rintro ⟨name, listed, is⟩
    have valid := isRuleId_of_ruleId? is
    obtain rfl := eq_fileName_of_ruleId? is
    obtain ⟨entry, there⟩ := Tree.mem_names_iff.1 listed
    rw [held_of_isRuleId store tree valid, leads, Option.bind_some, there]
    exact Option.some_ne_none _
  · intro held
    cases valid : isRuleId id with
    | false => exact absurd (held_of_not_isRuleId store tree valid context) held
    | true =>
      rw [held_of_isRuleId store tree valid, leads, Option.bind_some] at held
      exact ⟨_, Tree.mem_names_iff.2 (Option.ne_none_iff_exists'.1 held), ruleId?_fileName valid⟩

end Settled

/-- Where the directory of a context is missing, its places hold nothing. -/
theorem held_of_missing (missing : tree.directory? (store.directory context) = none)
    (id : String) : store.held tree id context = none := by
  rw [held, missing]
  split <;> rfl

namespace Bare

/-- Paths of a bare tree have somewhere to begin. -/
theorem begins (bare : store.Bare tree) (path : Path) : tree.Begins path := by
  rw [Tree.Begins, Tree.origin]
  split
  · exact Option.some_ne_none _
  · rw [bare.working]
    exact Option.some_ne_none _

theorem barred_eq (bare : store.Bare tree) : store.barred tree = false := by
  rw [barred, bare.missing .http]

theorem held_eq (bare : store.Bare tree) : store.held tree = fun _ _ => none := by
  funext id context
  exact held_of_missing (bare.missing context) id

theorem read_eq (bare : store.Bare tree) (valid : isRuleId id = true) :
    tree.read (store.place id context) =
      (Tree.checkPath (store.place id context)).bind fun _ => contentOf false none := by
  obtain ⟨_, settled, held, barred, _⟩ := bare.made context
  have grows := tree.grows_createDirectories (store.directory context)
  have later := @Settled.read_eq store _ id context settled valid
  have shut : store.shut (tree.createDirectories (store.directory context)).2 context = false := by
    cases context with
    | http => rfl
    | stream => exact barred
  rw [held, shut] at later
  rcases grows.read bare.closed (bare.begins (store.place id context)) with nothing | same
  · rw [nothing]
    cases check : Tree.checkPath (store.place id context) with
    | ok _ => rfl
    | error fault =>
      rw [Tree.read, Tree.entryAt, Tree.find, check] at nothing
      exact nothing.symm
  · exact same.symm.trans later

theorem list_eq (bare : store.Bare tree) :
    tree.list (store.directory context) =
      (Tree.checkPath (store.directory context)).bind fun _ => namesOf false none := by
  obtain ⟨_, settled, _, _, directory, leads⟩ := bare.made context
  have grows := tree.grows_createDirectories (store.directory context)
  have later := @Settled.list_eq store _ context settled
  rw [leads] at later
  cases check : Tree.checkPath (store.directory context) with
  | error fault =>
    rw [Tree.list, Tree.entryAt, Tree.find, check]
    rfl
  | ok _ =>
    rw [check] at later
    rcases grows.list bare.closed (bare.begins (store.directory context)) with
      nothing | ⟨fault, _, failed⟩ | ⟨names, _, listed, _⟩
    · exact nothing
    · cases failed.symm.trans later
    · obtain ⟨old, leadsNow, _⟩ := Tree.list_ok listed
      cases (bare.missing context).symm.trans leadsNow

end Bare

namespace Sound

/-- Reading a rule file answers what is in its place. -/
theorem read_eq (sound : store.Sound tree) (valid : isRuleId id = true) :
    tree.read (store.place id context) =
      (Tree.checkPath (store.place id context)).bind fun _ =>
        contentOf (store.shut tree context) (store.held tree id context) := by
  rcases sound with settled | bare
  · exact settled.read_eq valid
  · rw [bare.read_eq valid, bare.held_eq]
    cases context with
    | http => rfl
    | stream => rw [shut, bare.barred_eq]

/-- The ids of a context are those with something in their places, unless they cannot be listed. -/
theorem idsOf_eq (sound : store.Sound tree) (context : Context) :
    ∃ ids, (∀ id, id ∈ ids ↔ store.held tree id context ≠ none) ∧
      idsOf (store.directory context) (tree.list (store.directory context)) =
        idsFrom (store.directory context) (store.shut tree context) ids := by
  have given : (store.directory context).text ≠ "" := by
    refine store.directory_ne_of_activeDir ?_ context
    rcases sound with settled | bare
    · exact settled.given
    · exact bare.given
  have refused {fault : IoFault} (check : Tree.checkPath (store.directory context) = .error fault)
      (ids : List String) : idsOf (store.directory context) (.error fault) =
        idsFrom (store.directory context) (store.shut tree context) ids := by
    rw [idsFrom, check]
    exact if_neg (Tree.checkPath_ne_notFound given check)
  have nowhere (missing : tree.directory? (store.directory context) = none)
      (answered : tree.list (store.directory context) =
        (Tree.checkPath (store.directory context)).bind fun _ =>
          namesOf (store.shut tree context) none) :
      ∃ ids, (∀ id, id ∈ ids ↔ store.held tree id context ≠ none) ∧
        idsOf (store.directory context) (tree.list (store.directory context)) =
          idsFrom (store.directory context) (store.shut tree context) ids := by
    refine ⟨[], fun id => by simp [held_of_missing missing], ?_⟩
    rw [answered]
    cases check : Tree.checkPath (store.directory context) with
    | error fault => exact refused check []
    | ok _ =>
      rw [idsFrom, check]
      cases store.shut tree context <;> rfl
  rcases sound with settled | bare
  · cases leads : tree.directory? (store.directory context) with
    | none => exact nowhere leads (by rw [settled.list_eq, leads]; rfl)
    | some directory =>
      refine ⟨(tree.names directory).filterMap ruleId?, fun id => Settled.mem_ids_iff leads, ?_⟩
      rw [settled.list_eq, leads]
      cases check : Tree.checkPath (store.directory context) with
      | error fault => exact refused check _
      | ok _ =>
        rw [idsFrom, check, settled.shut_eq_false leads]
        rfl
  · refine nowhere (bare.missing context) ?_
    rw [bare.list_eq]
    cases context with
    | http => rfl
    | stream => rw [shut, bare.barred_eq]

section Same

variable (sound : store.Sound tree) (sound' : store.Sound tree') {ids : List String}
  (barred : store.barred tree' = store.barred tree)
  (others : ∀ id, id ∉ ids → store.held tree' id = store.held tree id)

include barred

omit sound sound' others in
theorem shut_congr (context : Context) : store.shut tree' context = store.shut tree context := by
  cases context with
  | http => rfl
  | stream => exact barred

include sound sound' others

/-- Trees with the same in the places of all other ids list the same of these. -/
theorem alikeBut (context : Context) :
    AlikeBut ids (idsOf (store.directory context) (tree.list (store.directory context)))
      (idsOf (store.directory context) (tree'.list (store.directory context))) := by
  obtain ⟨listed, holds, is⟩ := sound.idsOf_eq context
  obtain ⟨listed', holds', is'⟩ := sound'.idsOf_eq context
  rw [is, is', shut_congr barred, idsFrom, idsFrom]
  split
  · rfl
  · split
    · rfl
    · intro id other
      rw [holds, holds', others id other]

/-- Trees with the same in the places of all other ids show the same of these. -/
theorem sameBut : store.SameBut ids tree tree' := by
  refine sameBut_of_lists (fun id valid other context => ?_) (sound.alikeBut sound' barred others)
  rw [sound.read_eq valid, sound'.read_eq valid, shut_congr barred, others id other]

end Same

end Sound

end Store

end ProxyKeeper
