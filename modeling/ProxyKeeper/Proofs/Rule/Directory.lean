import ProxyKeeper.Proofs.Files.Contents
import ProxyKeeper.Proofs.Program.Enumeration
import ProxyKeeper.Proofs.Program.Outcomes
import ProxyKeeper.Proofs.Rule.Loaded
import ProxyKeeper.Proofs.Store.Readings

/-!
# Directories of rules

Which rules are loaded from a directory. Each of its entries gives one rule or none, and which one
can be told from the tree and the name of the entry alone: the path it stands for, links followed,
has to lie in the directory and to be that of a rule file, and a rule has to be loaded from there.
So what is passed over has no part in what is loaded, and the order of the entries shows only in the
order in which rules with the same id come.

## Main Definitions

* `Rule.IsRuleFile` — the paths that rules of a directory are loaded from
* `Rule.IsGivenBy` — the rule that an entry of a directory gives
* `Rule.given` — the same, as it is found, and `Rule.rulesOf` the rules of some entries

## Main Results

* `Rule.onTree_load_eq_ok_iff` — rules are loaded from what is there, and from nothing else
* `Rule.given_eq_some_iff` — the entries that are not passed over
* `Rule.ends_loadAll_iff` — the rules of a directory whose names are listed in any order
-/

namespace ProxyKeeper

open Program

variable {α β : Type} {tree : Tree}

/-! ## Programs that inspect entries -/

/-- Requests that look at one entry: they change nothing and list nothing. -/
def Request.Inspects (request : Request) : Prop :=
  request.isLook = true ∧ request.IsSingle

namespace Operation

theorem inspects_file {call : FileCall} (looks : call.changes = false)
    (single : call.lists = false) : (Request.file call).Inspects :=
  ⟨by rw [Request.isLook, looks, Bool.not_false], single⟩

/-- What comes of an operation that begins with a call that only looks. -/
theorem onTree_attempt_bind {call : FileCall} (looks : call.changes = false)
    (f : call.Answer → Operation β) :
    (attempt call >>= f).run.onTree tree = (f (tree.perform call).1).run.onTree tree :=
  onTree_ask (tree.perform_of_not_changes looks) fun answer => (f answer).run

/-- What comes of an operation that goes on with the outcome of one that only looks. -/
theorem onTree_outcome_bind {operation : Operation α} (looks : operation.run.Asks Store.Looks)
    (f : Except OperationError α → Operation β) :
    (outcome operation >>= f).run.onTree tree =
      (f (operation.run.onTree tree)).run.onTree tree := by
  have first : (outcome operation).run.onTree tree = .ok (operation.run.onTree tree) := by
    rw [outcome, ExceptT.run_lift, ← bind_pure_comp, onTree, runIn]
    show ((operation.run.bind _).run _ _).1 = _
    rw [run_bind]
    rfl
  have asks : (outcome operation).run.Asks Store.Looks := by
    rw [outcome, ExceptT.run_lift, ← bind_pure_comp]
    exact looks.bind fun _ => trivial
  rw [onTree_bind asks, first]
  rfl

end Operation

/-- A program that only looks ends on any site as it does on the tree. -/
theorem Program.ends_onTree {p : Program α} (looks : p.Asks Store.Looks) (site : Site) :
    p.Ends (Site.terms true) site (p.onTree site.tree) site := by
  induction p with
  | done a => exact .done a site
  | ask request next ih =>
    obtain ⟨look, looks⟩ := looks
    obtain ⟨call, rfl, kept⟩ := look.exists_call
    refine .ask ⟨_, .performs (.inl rfl), rfl⟩ ?_
    have rest := ih _ (looks (site.tree.perform call).1)
    rw [← onTree_ask (kept _) next] at rest
    rw [kept]
    exact rest

/-- A program that only looks meets no outcome, and comes to what it comes to on the tree. -/
theorem Program.run_meet_of_looks {p : Program α} (looks : p.Asks Store.Looks)
    (replies : List Nginx.Reply) (world : World) :
    p.run World.meet ({ replies }, world) = (p.onTree world.tree, ({ replies }, world)) := by
  induction p with
  | done a => rfl
  | ask request next ih =>
    obtain ⟨look, looks⟩ := looks
    obtain ⟨call, rfl, kept⟩ := look.exists_call
    have same : World.meet (.file call) ({ replies }, world) =
        ((world.tree.perform call).1, ({ replies }, world)) := by
      show (_, _, { world with tree := (world.tree.perform call).2 }) = _
      rw [kept]
      rfl
    rw [run, same]
    refine (ih _ (looks _)).trans ?_
    rw [← onTree_ask (kept _) next]

namespace Rule

variable {readers : Readers} {now : Timestamp} {root path directory : Path} {rule : Rule}

/-! ## One file -/

/-- A call that only looks, with its faults told as failures to load. -/
theorem asks_loadCall {call : FileCall} (activity : String) (looks : call.changes = false)
    (single : call.lists = false) : (loadCall path activity call).run.Asks Request.Inspects := by
  refine Asks.bind_except ⟨Operation.inspects_file looks single, fun _ => trivial⟩ fun answer => ?_
  cases answer <;> trivial

/-- To load a rule is to look at its file. -/
theorem asks_load (readers : Readers) (now : Timestamp) (path : Path) :
    (load readers now path).run.Asks Request.Inspects := by
  rw [load]
  refine Asks.bind_except (asks_loadCall _ rfl rfl) fun status => ?_
  split
  · trivial
  · refine Asks.bind_except (asks_loadCall _ rfl rfl) fun content => ?_
    split
    · trivial
    · dsimp only
      split
      · trivial
      · exact Asks.bind_except trivial fun _ => trivial

theorem looks_load (readers : Readers) (now : Timestamp) (path : Path) :
    (load readers now path).run.Asks Store.Looks :=
  (asks_load readers now path).mono fun _ => And.left

theorem onTree_loadCall {call : FileCall} {activity : String} (looks : call.changes = false) :
    (loadCall path activity call).run.onTree tree =
      (tree.perform call).1.mapError fun fault =>
        .ruleLoad path.text ("failed to " ++ activity ++ ": " ++ fault.message) := by
  rw [loadCall, Operation.onTree_attempt_bind looks]
  cases (tree.perform call).1 <;> rfl

/-- Rules are loaded from what is there, and from nothing else. -/
theorem onTree_load_eq_ok_iff :
    (load readers now path).run.onTree tree = .ok rule ↔ IsLoaded readers now path tree rule := by
  constructor
  · intro loaded
    have ends := ends_onTree (looks_load readers now path) ⟨tree, ⟨tree, 0⟩⟩
    rw [loaded] at ends
    exact (isLoaded_of_ends ends).1
  · intro loaded
    have finds : Finds World.withoutNginx { tree } (load readers now path) rule := loaded.finds
    exact congrArg Prod.fst finds

/-! ## One entry -/

/-- Whether a path without links is that of a rule file in a directory. -/
structure IsRuleFile (tree : Tree) (root path : Path) : Prop where
  inside : path.startsWith root = true
  isFile : ∃ status, tree.status path = .ok status ∧ status.isFile = true
  ending : hasRuleEnding path = true

/-- Whether an entry of a directory gives a rule: the path it stands for is that of a rule file in
the directory, and the rule is loaded from there. -/
def IsGivenBy (readers : Readers) (now : Timestamp) (tree : Tree) (directory : Path)
    (name : String) (rule : Rule) : Prop :=
  ∃ root path, tree.canonical directory = .ok root ∧
    tree.canonical (directory.child name) = .ok path ∧
    IsRuleFile tree root path ∧ IsLoaded readers now path tree rule

/-- The rule that an entry gives, if any. -/
def given (readers : Readers) (now : Timestamp) (tree : Tree) (root path : Path) : Option Rule :=
  ((loadEntry readers now root path).run.onTree tree).toOption.join

theorem asks_loadEntry (readers : Readers) (now : Timestamp) (root path : Path) :
    (loadEntry readers now root path).run.Asks Request.Inspects := by
  have attempted {call : FileCall} (looks : call.changes = false) (single : call.lists = false) :
      (Operation.attempt call).run.Asks Request.Inspects :=
    Operation.asks_attempt (Operation.inspects_file looks single)
  refine Asks.bind_except (attempted rfl rfl) fun answer => ?_
  cases answer with
  | error fault => trivial
  | ok canonical =>
    dsimp only
    split
    · trivial
    · refine Asks.bind_except (attempted rfl rfl) fun answer => ?_
      cases answer with
      | error fault => trivial
      | ok status =>
        dsimp only
        split
        · trivial
        · refine Asks.bind_except ?_ fun result => ?_
          · exact Asks.bind (asks_load readers now canonical) fun _ => trivial
          · cases result <;> trivial

/-- An entry is passed over, or its rule is loaded. -/
theorem exists_onTree_loadEntry (readers : Readers) (now : Timestamp) (tree : Tree)
    (root path : Path) :
    ∃ found, (loadEntry readers now root path).run.onTree tree = .ok found ∧
      ∀ rule, found = some rule ↔ ∃ canonical, tree.canonical path = .ok canonical ∧
        IsRuleFile tree root canonical ∧ IsLoaded readers now canonical tree rule := by
  rw [loadEntry, Operation.onTree_attempt_bind rfl]
  have answered : (tree.perform (.canonical path)).1 = tree.canonical path := rfl
  rw [answered]
  cases located : tree.canonical path with
  | error fault => exact ⟨none, rfl, by simp⟩
  | ok canonical =>
    have located (rule : Rule) :
        (∃ canonical', (Except.ok canonical : Except IoFault Path) = .ok canonical' ∧
          IsRuleFile tree root canonical' ∧ IsLoaded readers now canonical' tree rule) ↔
        IsRuleFile tree root canonical ∧ IsLoaded readers now canonical tree rule := by simp
    simp only [located]
    split
    next outside =>
      refine ⟨none, rfl, fun rule => ⟨nofun, fun gives => ?_⟩⟩
      simp [gives.1.inside] at outside
    next inside =>
      rw [Operation.onTree_attempt_bind rfl]
      have answered : (tree.perform (.status canonical)).1 = tree.status canonical := rfl
      rw [answered]
      cases known : tree.status canonical with
      | error fault =>
        refine ⟨none, rfl, fun rule => ⟨nofun, fun gives => ?_⟩⟩
        obtain ⟨status, is, -⟩ := gives.1.isFile
        rw [known] at is
        cases is
      | ok status =>
        dsimp only
        split
        next other =>
          refine ⟨none, rfl, fun rule => ⟨nofun, fun gives => ?_⟩⟩
          obtain ⟨status', is, file⟩ := gives.1.isFile
          obtain rfl := Except.ok.inj (known.symm.trans is)
          simp [file, gives.1.ending] at other
        next file =>
          rw [Operation.onTree_outcome_bind (looks_load readers now canonical)]
          have isRuleFile : IsRuleFile tree root canonical := by
            simp only [Bool.or_eq_true, Bool.not_eq_true', not_or, Bool.not_eq_false] at file inside
            exact ⟨inside, ⟨status, known, file.1⟩, file.2⟩
          cases loaded : (load readers now canonical).run.onTree tree with
          | error e =>
            refine ⟨none, rfl, fun rule => ⟨nofun, fun gives => ?_⟩⟩
            rw [onTree_load_eq_ok_iff.2 gives.2] at loaded
            cases loaded
          | ok own =>
            refine ⟨some own, rfl, fun rule => ?_⟩
            rw [← onTree_load_eq_ok_iff, loaded, Except.ok.injEq, Option.some.injEq]
            exact (and_iff_right isRuleFile).symm

/-- What comes of an entry on a tree is what it gives. -/
theorem onTree_loadEntry (readers : Readers) (now : Timestamp) (tree : Tree) (root path : Path) :
    (loadEntry readers now root path).run.onTree tree = .ok (given readers now tree root path) := by
  obtain ⟨found, is, -⟩ := exists_onTree_loadEntry readers now tree root path
  rw [given, is]
  rfl

/-- The entries that are not passed over, and the rules that they give. -/
theorem given_eq_some_iff : given readers now tree root path = some rule ↔
    ∃ canonical, tree.canonical path = .ok canonical ∧ IsRuleFile tree root canonical ∧
      IsLoaded readers now canonical tree rule := by
  obtain ⟨found, is, tells⟩ := exists_onTree_loadEntry readers now tree root path
  rw [given, is]
  exact tells rule

/-! ## All entries -/

theorem asks_loadEntries (readers : Readers) (now : Timestamp) (root directory : Path)
    (names : List String) :
    (loadEntries readers now root directory names).run.Asks Request.Inspects := by
  induction names with
  | nil => trivial
  | cons name names ih =>
    rw [loadEntries]
    exact Asks.bind_except (asks_loadEntry _ _ _ _) fun _ => Asks.bind_except ih fun _ => trivial

/-- Every entry gives what it gives by itself. -/
theorem onTree_loadEntries (readers : Readers) (now : Timestamp) (tree : Tree)
    (root directory : Path) (names : List String) :
    (loadEntries readers now root directory names).run.onTree tree =
      .ok (names.filterMap fun name => given readers now tree root (directory.child name)) := by
  induction names with
  | nil => rfl
  | cons name names ih =>
    have looks := (asks_loadEntry readers now root (directory.child name)).mono fun _ => And.left
    have looks' := (asks_loadEntries readers now root directory names).mono fun _ => And.left
    rw [loadEntries, onTree_bind looks, onTree_loadEntry]
    show onTree (ExceptT.run (loadEntries readers now root directory names >>= _)) tree = _
    rw [onTree_bind looks', ih, List.filterMap_cons]
    cases given readers now tree root (directory.child name) <;> rfl

/-- The rules that some entries of a directory give, by id. -/
def rulesOf (readers : Readers) (now : Timestamp) (tree : Tree) (root directory : Path)
    (names : List String) : List Rule :=
  (names.filterMap fun name =>
    given readers now tree root (directory.child name)).mergeSort precedes

/-- What is left of loading a directory when its names are known. -/
def loadNames (readers : Readers) (now : Timestamp) (directory : Path) (names : List String) :
    Operation (List Rule) := do
  let root ← loadCall directory "canonicalize directory" (.canonical directory)
  let rules ← loadEntries readers now root directory names
  return rules.mergeSort precedes

/-- To load a directory is to list its names, and to go on with them. -/
theorem loadAll_eq (readers : Readers) (now : Timestamp) (directory : Path) :
    (loadAll readers now directory).run = .ask (.file (.list directory)) fun answer =>
      match (answer : Except IoFault (List String)) with
      | .ok names => (loadNames readers now directory names).run
      | .error fault => .done (.error (.ruleLoad directory.text
          ("failed to read directory: " ++ fault.message))) := by
  refine congrArg (Program.ask (.file (.list directory))) (funext fun answer => ?_)
  cases answer <;> rfl

theorem asks_loadNames (readers : Readers) (now : Timestamp) (directory : Path)
    (names : List String) :
    (loadNames readers now directory names).run.Asks Request.Inspects :=
  Asks.bind_except (asks_loadCall _ rfl rfl) fun _ =>
    Asks.bind_except (asks_loadEntries _ _ _ _ _) fun _ => trivial

theorem onTree_loadNames (located : tree.canonical directory = .ok root)
    (readers : Readers) (now : Timestamp)
    (names : List String) : (loadNames readers now directory names).run.onTree tree =
      .ok (rulesOf readers now tree root directory names) := by
  have looks := (asks_loadEntries readers now root directory names).mono fun _ => And.left
  have first : (tree.perform (.canonical directory)).1 = .ok root := located
  rw [loadNames, onTree_bind ((asks_loadCall _ rfl rfl).mono fun _ => And.left),
    onTree_loadCall rfl, first]
  show onTree (ExceptT.run (loadEntries readers now root directory names >>= _)) tree = _
  rw [onTree_bind looks, onTree_loadEntries]
  rfl

/-- A directory that can be listed has a path without links. -/
theorem exists_canonical_of_list {names : List String} (listed : tree.list path = .ok names) :
    ∃ root, tree.canonical path = .ok root := by
  rw [Tree.list] at listed
  obtain ⟨⟨location, entry⟩, found, -⟩ := Tree.exists_of_bind_ok listed
  refine ⟨location.path, ?_⟩
  rw [Tree.canonical, found]
  rfl

section Ends

variable {replies : List Nginx.Reply} {world : World}
  {result : Except OperationError (List Rule)} {after : Outcomes × World}

/-- Names that are known give the rules of their entries in one way. -/
theorem ends_loadNames_iff (located : world.tree.canonical directory = .ok root)
    {names : List String} :
    (loadNames readers now directory names).run.Ends (inAnyOrder World.meet) ({ replies }, world)
        result after ↔
      result = .ok (rulesOf readers now world.tree root directory names) ∧
      after = ({ replies }, world) := by
  have asks := asks_loadNames readers now directory names
  have ignores := (asks.mono fun _ => And.right).ignoresOrder
  rw [ignores.ends_iff, run_meet_of_looks (asks.mono fun _ => And.left),
    onTree_loadNames located, Prod.mk.injEq]
  exact and_congr eq_comm eq_comm

/-- A directory whose names are listed in any order gives the rules of its entries, by id. -/
theorem ends_loadAll_iff {names : List String} (listed : world.tree.list directory = .ok names)
    (located : world.tree.canonical directory = .ok root) :
    (loadAll readers now directory).run.Ends (inAnyOrder World.meet) ({ replies }, world)
        result after ↔
      (∃ names' : List String, names.Perm names' ∧
        result = .ok (rulesOf readers now world.tree root directory names')) ∧
      after = ({ replies }, world) := by
  have met : World.meet (.file (.list directory)) ({ replies }, world) =
    ((.ok names : Except IoFault (List String)), ({ replies }, world)) := by rw [← listed]; rfl
  rw [loadAll_eq, ends_ask]
  constructor
  · rintro ⟨answer, u, ⟨rfl, shuffles⟩, ends⟩
    rw [met] at shuffles ends
    obtain ⟨names', rfl, perm⟩ := shuffles.list_ok
    obtain ⟨is, same⟩ := (ends_loadNames_iff located).1 ends
    exact ⟨⟨names', perm, is⟩, same⟩
  · rintro ⟨⟨names', perm, is⟩, same⟩
    refine ⟨(.ok names' : Except IoFault (List String)), _, ⟨rfl, ?_⟩, ?_⟩
    · rw [met]
      exact .names perm
    · rw [met]
      exact (ends_loadNames_iff located).2 ⟨is, same⟩

/-- A directory that cannot be listed gives a failure. -/
theorem ends_loadAll_iff_of_error {fault : IoFault}
    (fails : world.tree.list directory = .error fault) :
    (loadAll readers now directory).run.Ends (inAnyOrder World.meet) ({ replies }, world)
        result after ↔
      result = .error (.ruleLoad directory.text
        ("failed to read directory: " ++ fault.message)) ∧
      after = ({ replies }, world) := by
  have met : World.meet (.file (.list directory)) ({ replies }, world) =
    ((.error fault : Except IoFault (List String)), ({ replies }, world)) := by rw [← fails]; rfl
  rw [loadAll_eq, ends_ask]
  constructor
  · rintro ⟨answer, u, ⟨rfl, shuffles⟩, ends⟩
    rw [met] at shuffles ends
    obtain rfl := shuffles.list_error
    obtain ⟨is, same⟩ := ends_done.1 ends
    exact ⟨is.symm, same.symm⟩
  · rintro ⟨rfl, rfl⟩
    refine ⟨(.error fault : Except IoFault (List String)), _, ⟨rfl, ?_⟩, ?_⟩
    · rw [met]
      exact .refl _ _
    · rw [met]
      exact .done _ _

end Ends

end Rule

end ProxyKeeper
