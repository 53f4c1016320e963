import ProxyKeeper.Proofs.Files.Differences
import ProxyKeeper.Proofs.Program.Invariants
import ProxyKeeper.Proofs.Store.Calls
import ProxyKeeper.Proofs.Store.Readings

/-!
# Where the store works

An id becomes part of a path only after it was checked, so it cannot lead anywhere else. In a tree
without symbolic links, the store changes the entries in the places of its rule files and beside
them, under names that nothing bore, and makes the directories that are missing on the way there.
All other entries stay as they were, at every moment of every run, also when calls break off.

## Main Definitions

* `Store.Open` — the places where the store may work, for some ids
* `Store.Confines` — trees that differ from another one there only

## Main Results

* `Store.place_inj` — every file of an id has a place of its own
* `Store.sustains_write`, `Store.sustains_remove` — the operations stay confined
* `Store.Confines.kept` — what is no rule file is kept
-/

namespace ProxyKeeper

/-! ## Calls -/

namespace Tree

variable {breaks : Breaks} {tree made left : Tree} {call : FileCall}

/-- Also when it breaks off, a call makes no difference elsewhere. -/
theorem differs_of_halfway (noLink : tree.HasNoLink) (halfway : tree.Halfway call made) :
    Differs (fun place => call.Touches tree.workingDirectory place)
      (fun place => call.Makes tree.workingDirectory place) tree made := by
  cases halfway with
  | nothing => exact .refl noLink
  | part written => exact differs_write noLink rfl written
  | @directories path _ first rest closed =>
    have whole : Differs (fun _ => False) (path.Passes tree.workingDirectory) tree
        (tree.createDirectories path).2 := differs_createDirectories noLink path
    refine ⟨first.origin, fun location target there => ?_, fun location => ?_⟩
    · exact whole.noLink location target (rest.entry? there)
    · rcases first.entries location with same | ⟨vacant, is⟩
      · exact .inl same
      · refine .inr (.inr ⟨?_, vacant, is⟩)
        rcases whole.entries location with same | none | ⟨way, _, _⟩
        · cases (rest.entry? is).symm.trans (same.trans vacant)
        · exact none.elim
        · exact way

/-- However a call goes, it makes no difference elsewhere on the way. -/
theorem Goes.differs (noLink : tree.HasNoLink) {passed : List Tree} {answer : call.Answer}
    (goes : tree.Goes breaks call passed answer left) :
    ∀ made ∈ passed ++ [left], Differs (fun place => call.Touches tree.workingDirectory place)
      (fun place => call.Makes tree.workingDirectory place) tree made := by
  have through {passed : List Tree} (halfways : ∀ made ∈ passed, tree.Halfway call made)
      {left : Tree} (last : Differs (fun place => call.Touches tree.workingDirectory place)
        (fun place => call.Makes tree.workingDirectory place) tree left) :
      ∀ made ∈ passed ++ [left], Differs (fun place => call.Touches tree.workingDirectory place)
        (fun place => call.Makes tree.workingDirectory place) tree made :=
    List.forall_mem_append.2 ⟨fun made listed => differs_of_halfway noLink (halfways made listed),
      by simpa using last⟩
  cases goes with
  | done halfways => exact through halfways (differs_perform noLink call)
  | fails halfways stopped => exact through halfways (differs_of_halfway noLink stopped)

end Tree

namespace Store

open Operation

variable {store : Store} {ids : String → Prop} {start tree : Tree} {id : String}
  {context : Context} {location : Location} {breaks : Breaks}

/-! ## Places -/

/-- Only what is an id has paths of its files. -/
theorem path_eq_ok_iff {path : Path} : store.path id context = .ok path ↔
    isRuleId id = true ∧ path = store.place id context := by
  rw [Store.path]
  split
  next valid => simp [valid, place, eq_comm]
  next invalid => simp [invalid]

theorem names_place (store : Store) (valid : isRuleId id = true) (context : Context) :
    (store.place id context).names = (store.directory context).names ++ [fileName id] :=
  Path.names_child_of_isPlainName _ (isPlainName_fileName valid)

theorem target_place (store : Store) (valid : isRuleId id = true) (context : Context)
    (start : Location) : (store.place id context).target start =
      (store.directory context).target start ++ [fileName id] :=
  Path.target_child_of_isPlainName _ (isPlainName_fileName valid) start

/-- Every file of an id has a place of its own. -/
theorem place_inj {id' : String} {context' : Context} (valid : isRuleId id = true)
    (valid' : isRuleId id' = true)
    (same : (store.place id context).names = (store.place id' context').names) :
    id = id' ∧ context = context' := by
  have below : (store.directory .stream).names = (store.directory .http).names ++ ["stream"] :=
    Path.names_child_of_isPlainName _ isPlainName_stream
  rw [names_place store valid, names_place store valid', List.append_singleton_inj] at same
  obtain ⟨directories, names⟩ := same
  refine ⟨fileName_injective names, ?_⟩
  cases context <;> cases context'
  · rfl
  · rw [below] at directories
    exact absurd directories (by simp)
  · rw [below] at directories
    exact absurd directories (by simp)
  · rfl

/-- The places where the store may work on the files of some ids, from some tree on: those of their
files, and those beside them that nothing bore. -/
inductive Open (store : Store) (ids : String → Prop) (start : Tree) (location : Location) :
    Prop where
  | rule {id : String} (own : ids id) (valid : isRuleId id = true) (context : Context)
    (is : (store.place id context).target start.workingDirectory = location)
  | temporary {id : String} (own : ids id) (valid : isRuleId id = true) (context : Context)
    (fresh : String)
    (is : (store.directory context).target start.workingDirectory ++
      [temporaryName (fileName id) fresh] = location)
    (vacant : start.entry? location = none)

/-- The places on the way to the directories of the store. -/
def OnWay (store : Store) (start : Tree) (location : Location) : Prop :=
  ∃ context, (store.directory context).Passes start.workingDirectory location

/-- Whether a tree differs from an earlier one only where the store may work on the files of some
ids, or in a directory that was made on the way there. -/
def Confines (store : Store) (ids : String → Prop) (start tree : Tree) : Prop :=
  start.Differs (store.Open ids start) (store.OnWay start) tree

/-- What is no rule file is kept: whatever bears no name of one. -/
theorem Confines.kept (confines : store.Confines ids start tree) {directory : Location}
    {name : String} (other : ∀ id, isRuleId id = true → name ≠ fileName id) {entry : Entry}
    (there : start.entry? (directory ++ [name]) = some entry) :
    tree.entry? (directory ++ [name]) = some entry := by
  rcases confines.entries (directory ++ [name]) with same | within | ⟨_, vacant, _⟩
  · exact same.trans there
  · cases within with
    | rule _ valid context is =>
      rw [target_place store valid, List.append_singleton_inj] at is
      exact absurd is.2.symm (other _ valid)
    | temporary _ _ _ _ _ vacant => cases there.symm.trans vacant
  · cases there.symm.trans vacant

/-! ## Terms -/

/-- Terms on which no call makes a difference elsewhere. -/
def confined (store : Store) (ids : String → Prop) (breaks : Breaks) (start : Tree) : Terms Tree :=
  Tree.terms breaks fun _ made => store.Confines ids start made

section Sustains

variable {call : FileCall}

/-- A call whose paths lead where the store may work stays confined. -/
theorem sustains_call (touched : ∀ location, call.Touches start.workingDirectory location →
      store.Open ids start location)
    (ways : ∀ location, call.Makes start.workingDirectory location → store.OnWay start location) :
    (Program.request (.file call)).Sustains (store.confined ids breaks start)
      (store.Confines ids start) := by
  intro tree here
  have confined {passed : List Tree} {answer : call.Answer} {left : Tree}
      (goes : tree.Goes breaks call passed answer left) :
      ∀ made ∈ passed ++ [left], store.Confines ids start made := by
    intro made listed
    have differs := goes.differs here.noLink made listed
    rw [here.origin] at differs
    exact here.trans differs touched ways
  refine Program.meets_request.2 ⟨fun passed answer left goes => ?_, ?_⟩
  · have all : ∀ made ∈ tree :: passed ++ [left], store.Confines ids start made :=
      List.forall_mem_cons.2 ⟨here, confined goes⟩
    exact List.Pairwise.imp_of_mem (fun _ is _ => all _ is)
      (List.pairwise_of_forall fun _ _ => trivial)
  · rintro answer left ⟨passed, goes⟩
    exact confined goes left (by simp)

theorem sustains_file (path : Path) (touched : ∀ location,
      call.Touches start.workingDirectory location → store.Open ids start location)
    (ways : ∀ location, call.Makes start.workingDirectory location → store.OnWay start location) :
    (file path call).run.Sustains (store.confined ids breaks start) (store.Confines ids start) := by
  refine sustains_bind (sustains_lift (sustains_call touched ways)) fun answer => ?_
  cases answer with
  | ok result => exact sustains_pure _
  | error fault => exact sustains_throw _

/-- What changes no file stays confined. -/
theorem sustains_quiet {r : Request} (quiet : ∀ call, r = .file call → call.changes = false) :
    (Program.request r).Sustains (store.confined ids breaks start) (store.Confines ids start) := by
  have kept (others : ∀ s answer s', (store.confined ids breaks start).answers r s answer s' →
      s' = s) (allowed : ∀ s, (store.confined ids breaks start).allows r s) :
      (Program.request r).Sustains (store.confined ids breaks start) (store.Confines ids start) :=
    fun s here => Program.meets_request.2 ⟨allowed s, fun answer s' answered =>
      others s answer s' answered ▸ here⟩
  cases r with
  | file call =>
    exact sustains_call (fun _ touches => absurd touches (FileCall.not_touches (quiet call rfl)))
      fun _ makes => absurd makes (FileCall.not_makes (quiet call rfl))
  | freshName => exact kept (fun _ _ _ answered => answered.2) fun _ => trivial
  | _ => exact kept (fun _ _ _ answered => answered) fun _ => trivial

end Sustains

/-! ## Operations -/

section Operations

variable (own : ids id)

include own

/-- Removing the file of an id stays confined. -/
theorem sustains_removeIfPresent (valid : isRuleId id = true) (context : Context) :
    (removeIfPresent (store.place id context)).run.Sustains (store.confined ids breaks start)
      (store.Confines ids start) := by
  refine sustains_bind (sustains_lift (sustains_call
    (fun _ touches => .rule own valid context touches) fun _ => False.elim)) fun answer => ?_
  cases answer with
  | ok _ => exact sustains_pure _
  | error fault =>
    dsimp only
    split
    · exact sustains_pure _
    · exact sustains_throw _

/-- Writing a file beside its place and moving it there stays confined. -/
theorem sustains_writeWhole (valid : isRuleId id = true) (context : Context) (text : String) :
    (writeWhole (store.place id context) text).run.Sustains (store.confined ids breaks start)
      (store.Confines ids start) := by
  have plain := isPlainName_fileName valid
  obtain ⟨above, parent, same⟩ := Path.exists_parent?_child (store.directory context) plain
  have parent : (store.place id context).parent? = some above := parent
  have named : (store.place id context).fileName? = some (fileName id) :=
    Path.fileName?_child_of_isPlainName _ plain
  rw [writeWhole, parent, named]
  simp only [Option.getD_some]
  refine sustains_iff_meets.2 fun tree here => meets_bind.2 (meets_request.2 ⟨trivial, ?_⟩)
  rintro (fresh : String) s ⟨isFresh, unchanged⟩
  obtain rfl : tree = s := unchanged.symm
  have plainTemporary := isPlainName_temporaryName plain.noSlash isFresh.noSlash
  have beside : (above.child (temporaryName (fileName id) fresh)).target start.workingDirectory =
      (store.directory context).target start.workingDirectory ++
        [temporaryName (fileName id) fresh] := by
    rw [Path.target_child_of_isPlainName _ plainTemporary, same]
  -- a name that nothing bears now is one that nothing bore, or one of the store
  have free : store.Open ids start
      ((store.directory context).target start.workingDirectory ++
        [temporaryName (fileName id) fresh]) := by
    rcases here.entries ((store.directory context).target start.workingDirectory ++
      [temporaryName (fileName id) fresh]) with same | within | ⟨_, vacant, _⟩
    · exact .temporary own valid context fresh rfl (same.symm.trans (isFresh.unused _ _))
    · exact within
    · exact .temporary own valid context fresh rfl vacant
  refine sustains_iff_meets.1 ?_ tree here
  refine sustains_bind (sustains_file _ ?_ fun _ => False.elim) fun _ => ?_
  · rintro _ rfl
    exact beside ▸ free
  refine sustains_bind (sustains_lift (sustains_call ?_ fun _ => False.elim)) fun answer => ?_
  · rintro _ (rfl | touches)
    · exact beside ▸ free
    · exact .rule own valid context touches
  cases answer with
  | ok _ => exact sustains_pure _
  | error fault =>
    refine sustains_bind (sustains_lift (sustains_call ?_ fun _ => False.elim)) fun _ =>
      sustains_throw _
    rintro _ rfl
    exact beside ▸ free

theorem sustains_write (file : RuleFile) :
    (store.write id file).run.Sustains (store.confined ids breaks start)
      (store.Confines ids start) := by
  cases valid : isRuleId id with
  | false =>
    rw [write, path, valid, if_neg Bool.false_ne_true]
    exact sustains_throw _
  | true =>
    rw [write, path_of_isRuleId store valid, path_of_isRuleId store valid]
    refine sustains_ok_bind (sustains_bind (sustains_file _ ?_ ?_) fun _ => ?_)
    · exact fun _ => False.elim
    · exact fun _ passes => ⟨file.context, passes⟩
    · refine sustains_bind (sustains_writeWhole own valid file.context file.text) fun _ => ?_
      refine sustains_ok_bind (sustains_bind ?_ fun _ => sustains_pure _)
      exact sustains_removeIfPresent own valid file.context.other

theorem sustains_remove : (store.remove id).run.Sustains (store.confined ids breaks start)
    (store.Confines ids start) := by
  cases valid : isRuleId id with
  | false =>
    rw [remove, path, valid, if_neg Bool.false_ne_true]
    exact sustains_throw _
  | true =>
    rw [remove, path_of_isRuleId store valid, path_of_isRuleId store valid]
    refine sustains_ok_bind (sustains_bind (sustains_removeIfPresent own valid .http) fun _ => ?_)
    refine sustains_ok_bind (sustains_bind ?_ fun _ => sustains_pure _)
    exact sustains_removeIfPresent own valid .stream

theorem sustains_restore (snapshot : Option RuleFile) :
    (store.restore id snapshot).run.Sustains (store.confined ids breaks start)
      (store.Confines ids start) := by
  cases snapshot with
  | some file => exact sustains_write own file
  | none => exact sustains_bind (sustains_remove own) fun _ => sustains_pure _

end Operations

/-- What only looks stays confined. -/
theorem sustains_of_looks {α : Type} {p : Program α} (asks : p.Asks Looks) :
    p.Sustains (store.confined ids breaks start) (store.Confines ids start) := by
  refine asks.sustains fun r look => sustains_quiet ?_
  rintro call rfl
  simpa [Looks, Request.isLook] using look

/-- Every call of the store about an id stays confined to its files. -/
theorem sustains_program {call : StoreCall} (own : ∀ id, call.id? = some id → ids id) :
    (call.program store).run.Sustains (store.confined ids breaks start)
      (store.Confines ids start) := by
  cases call with
  | write id file => exact sustains_bind (sustains_write (own id rfl) file) fun _ => sustains_pure _
  | read id => exact sustains_bind (sustains_of_looks (store.asks_read id)) fun _ => sustains_pure _
  | restore id snapshot =>
    exact sustains_bind (sustains_restore (own id rfl) snapshot) fun _ => sustains_pure _
  | remove id => exact sustains_bind (sustains_remove (own id rfl)) fun _ => sustains_pure _
  | list => exact sustains_bind (sustains_of_looks store.asks_list) fun _ => sustains_pure _

/-! ## Lists -/

/-- Answers that list the files of some ids only, in the directories of the store. -/
def Lists (store : Store) (ids : String → Prop) : (r : Request) → r.Answer → Prop
  | .file (.list path), answer => ∀ context names, path = store.directory context →
    answer = .ok names → ∀ id ∈ List.filterMap ruleId? names, ids id
  | _, _ => True

/-- The ids that the store lists are those of the files that were listed. -/
theorem meets_list_confined (here : store.Confines ids start tree) :
    store.list.Meets ((store.confined ids breaks start).within (store.Lists ids))
      (fun listed left => (∀ id ∈ listed, ids id) ∧ store.Confines ids start left)
      (fun _ left => store.Confines ids start left) tree := by
  have lists (context : Context) {tree : Tree} (here : store.Confines ids start tree) :
      (listDirectory (store.directory context)).Meets
        ((store.confined ids breaks start).within (store.Lists ids))
        (fun listed left => (∀ id ∈ listed, ids id) ∧ store.Confines ids start left)
        (fun _ left => store.Confines ids start left) tree := by
    have looks : (Program.request (.file (.list (store.directory context)))).Sustains
        (store.confined ids breaks start) (store.Confines ids start) :=
      sustains_quiet (by rintro _ ⟨⟩; rfl)
    obtain ⟨allowed, answers⟩ := Program.meets_request.1 (looks tree here)
    refine meets_bind.2 (meets_request.2 ⟨allowed, ?_⟩)
    rintro (answer : FileCall.Answer (.list (store.directory context))) left ⟨answered, kind⟩
    have here := answers answer left answered
    cases answer with
    | ok names => exact ⟨kind context names rfl rfl, here⟩
    | error fault =>
      dsimp only
      split
      · exact meets_pure.2 ⟨by simp, here⟩
      · exact here
  refine (lists .http here).bind fun http made promised => ?_
  refine (lists .stream promised.2).bind fun stream left promised' => ?_
  refine meets_pure.2 ⟨fun id listed => ?_, promised'.2⟩
  rcases List.mem_append.1 (mem_ascendingNames.1 listed) with there | there
  · exact promised.1 id there
  · exact promised'.1 id there

end Store

end ProxyKeeper
