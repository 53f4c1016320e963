import ProxyKeeper.Proofs.Store.Effects
import ProxyKeeper.Proofs.Store.History
import ProxyKeeper.World

/-!
# What the store shows

What would be read for an id, and which ids would be listed, if the store were asked on a tree at
this moment. Both follow from what two calls answer, one for each context. So two trees on which
these calls answer the same show the same, and a tree can be compared with a later one id by id.

## Main Definitions

* `Program.onTree` — what a program comes to by itself on a tree
* `Store.readIn`, `Store.listIn` — what is read and listed
* `Store.SameBut` — trees that show the same but for some ids
* `Store.Advances` — the same with a rule file for one id, or not yet

## Main Results

* `Program.meets_of_isLook` — a program that only looks comes to this in any run
* `Store.readIn_congr`, `Store.sameBut_of_lists` — trees on which the calls answer the same
-/

namespace ProxyKeeper

/-! ## Programs that only look -/

/-- A request that only looks is a call that leaves every tree as it is. -/
theorem Store.Looks.exists_call {request : Request} (looks : Store.Looks request) :
    ∃ call, request = .file call ∧ ∀ tree : Tree, (tree.perform call).2 = tree := by
  cases request with
  | file call =>
    refine ⟨call, rfl, fun tree => tree.perform_of_not_changes ?_⟩
    simpa [Store.Looks, Request.isLook] using looks
  | freshName => cases looks
  | nginx call => cases looks
  | acquire => cases looks
  | release => cases looks
  | publish phase => cases looks
  | count event => cases looks

namespace Program

variable {α β ε : Type} {p : Program α} {tree : Tree}

/-- What a program comes to by itself on a tree. -/
def onTree (p : Program α) (tree : Tree) : α :=
  (p.runIn World.withoutNginx { tree }).1

theorem onTree_ask {call : FileCall} (kept : (tree.perform call).2 = tree)
    (next : call.Answer → Program α) :
    (ask (.file call) next).onTree tree = (next (tree.perform call).1).onTree tree := by
  show (run _ _ ({ tree := (tree.perform call).2 } : World)).1 = _
  rw [kept]
  rfl

/-- A program that only looks comes to the same in every run, and changes nothing. -/
theorem meets_of_looks (looks : p.Asks Store.Looks) :
    p.Meets Tree.exactly (fun a left => a = p.onTree tree ∧ left = tree) tree := by
  induction p with
  | done a => exact ⟨rfl, rfl⟩
  | ask request next ih =>
    obtain ⟨look, looks⟩ := looks
    obtain ⟨call, rfl, kept⟩ := look.exists_call
    refine ⟨fun _ _ _ _ => List.pairwise_of_forall fun _ _ => trivial, ?_⟩
    rintro answer left ⟨passed, goes⟩
    have performed := goes.perform_eq
    obtain rfl : (tree.perform call).1 = answer := congrArg Prod.fst performed
    obtain rfl : tree = left := (kept tree).symm.trans (congrArg Prod.snd performed)
    refine (ih _ (looks _)).mono ?_
    rintro a left ⟨is, same⟩
    exact ⟨is.trans (onTree_ask (kept tree) next).symm, same⟩

/-- A program that only looks leaves the world as it is. -/
theorem runIn_of_looks (looks : p.Asks Store.Looks) (nginx : NginxModel) (world : World) :
    (p.runIn nginx world).2 = world := by
  induction p with
  | done a => rfl
  | ask request next ih =>
    obtain ⟨look, looks⟩ := looks
    obtain ⟨call, rfl, kept⟩ := look.exists_call
    show (run _ _ { world with tree := (world.tree.perform call).2 }).2 = _
    rw [kept]
    exact ih _ (looks _)

/-- What comes of a program whose first part only looks is what its second part comes to. -/
theorem onTree_bind {x : ExceptT ε Program α} {f : α → ExceptT ε Program β}
    (looks : x.run.Asks Store.Looks) :
    (x >>= f).run.onTree tree = (x.run.onTree tree).bind fun a => (f a).run.onTree tree := by
  have kept := runIn_of_looks looks World.withoutNginx { tree }
  rw [runIn] at kept
  rw [onTree, runIn, ExceptT.run_bind]
  show ((x.run.bind _).run _ _).1 = _
  rw [run_bind, kept, onTree, runIn]
  cases (x.run.run (World.answer World.withoutNginx) { tree }).1 with
  | ok a => rfl
  | error e => rfl

end Program

namespace Store

variable {store : Store} {tree tree' made : Tree} {id : String} {context : Context}
  {ids : List String}

/-- What is read for an id. -/
def readIn (store : Store) (tree : Tree) (id : String) : Except OperationError (Option RuleFile) :=
  (store.read id).run.onTree tree

/-- The ids that are listed. -/
def listIn (store : Store) (tree : Tree) : Except OperationError (List String) :=
  store.list.run.onTree tree

/-! ## From the answers of calls -/

/-- What the text of a file is, when reading it answers so. -/
def textOf (path : Path) : Except IoFault ByteArray → Except OperationError (Option String)
  | .ok content =>
    match Text.Utf8.strict? content with
    | some text => .ok (some text)
    | none => .error (.io path.text .notText)
  | .error fault => if fault = .notFound then .ok none else .error (.io path.text fault)

theorem onTree_readIfPresent (path : Path) :
    (readIfPresent path).run.onTree tree = textOf path (tree.read path) := by
  have looks : (Operation.attempt (.read path)).run.Asks Looks := Operation.asks_attempt rfl
  have first : (Operation.attempt (.read path)).run.onTree tree = .ok (tree.read path) := rfl
  rw [readIfPresent, Program.onTree_bind looks, first]
  show Program.onTree _ tree = _
  cases tree.read path with
  | error fault =>
    dsimp only [textOf]
    split <;> rfl
  | ok content =>
    dsimp only [textOf]
    cases Text.Utf8.strict? content <;> rfl

/-- The ids in a directory, when listing it answers so. -/
def idsOf (directory : Path) : Except IoFault (List String) → Except OperationError (List String)
  | .ok names => .ok (names.filterMap ruleId?)
  | .error fault => if fault = .notFound then .ok [] else .error (.io directory.text fault)

theorem onTree_listDirectory (directory : Path) :
    (listDirectory directory).run.onTree tree = idsOf directory (tree.list directory) := by
  have looks : (Operation.attempt (.list directory)).run.Asks Looks := Operation.asks_attempt rfl
  have first : (Operation.attempt (.list directory)).run.onTree tree =
    .ok (tree.list directory) := rfl
  rw [listDirectory, Program.onTree_bind looks, first]
  show Program.onTree _ tree = _
  cases tree.list directory with
  | error fault =>
    dsimp only [idsOf]
    split <;> rfl
  | ok names => rfl

/-- The path of the file of an id in a context. -/
def place (store : Store) (id : String) (context : Context) : Path :=
  (store.directory context).child (fileName id)

/-- What is read for an id is the first of its texts. -/
theorem readIn_eq (valid : isRuleId id = true) :
    store.readIn tree id =
      (textOf (store.place id .http) (tree.read (store.place id .http))).bind fun
        | some text => .ok (some ⟨.http, text⟩)
        | none => (textOf (store.place id .stream) (tree.read (store.place id .stream))).map
            (·.map fun text => ⟨.stream, text⟩) := by
  have step (context : Context) (contexts : List Context) :
      (store.readFrom id (context :: contexts)).run.onTree tree =
        (textOf (store.place id context) (tree.read (store.place id context))).bind fun
          | some text => .ok (some ⟨context, text⟩)
          | none => (store.readFrom id contexts).run.onTree tree := by
    rw [readFrom, path_of_isRuleId store valid, Program.onTree_bind (Operation.asks_ofExcept _)]
    show Program.onTree (ExceptT.run (readIfPresent _ >>= _)) tree = _
    rw [Program.onTree_bind (asks_readIfPresent _), onTree_readIfPresent]
    congr 1
    funext text
    cases text <;> rfl
  rw [readIn, read, step]
  congr 1
  funext text
  cases text with
  | some text => rfl
  | none =>
    dsimp only
    rw [step]
    cases textOf (store.place id .stream) (tree.read (store.place id .stream)) with
    | error e => rfl
    | ok text => cases text <;> rfl

/-- Nothing is read for what is no id. -/
theorem readIn_of_not_isRuleId (invalid : isRuleId id = false) :
    store.readIn tree id = .error (.validation id "id" "not a valid file name component") := by
  rw [readIn, read, readFrom, path, invalid]
  rfl

/-- The ids that are listed are those of both contexts. -/
theorem listIn_eq :
    store.listIn tree = (idsOf (store.directory .http) (tree.list (store.directory .http))).bind
      fun http => (idsOf (store.directory .stream) (tree.list (store.directory .stream))).map
        fun stream => ascendingNames (http ++ stream) := by
  rw [listIn, list, Program.onTree_bind (asks_listDirectory _), onTree_listDirectory]
  congr 1
  funext http
  rw [Program.onTree_bind (asks_listDirectory _), onTree_listDirectory]
  cases idsOf (store.directory .stream) (tree.list (store.directory .stream)) <;> rfl

/-! ## Trees that show the same -/

/-- What is read for an id is the same where reading its files is. -/
theorem readIn_congr (same : ∀ context,
    tree'.read (store.place id context) = tree.read (store.place id context)) :
    store.readIn tree' id = store.readIn tree id := by
  cases valid : isRuleId id with
  | true => rw [readIn_eq valid, readIn_eq valid, same, same]
  | false => rw [readIn_of_not_isRuleId valid, readIn_of_not_isRuleId valid]

/-- Whether two trees show the same, but for some ids. -/
structure SameBut (store : Store) (ids : List String) (tree tree' : Tree) : Prop where
  read : ∀ id, id ∉ ids → store.readIn tree' id = store.readIn tree id
  list : (store.listIn tree').map (·.filter (· ∉ ids)) =
    (store.listIn tree).map (·.filter (· ∉ ids))

namespace SameBut

theorem refl (store : Store) (ids : List String) (tree : Tree) : store.SameBut ids tree tree :=
  ⟨fun _ _ => rfl, rfl⟩

theorem symm (same : store.SameBut ids tree tree') : store.SameBut ids tree' tree :=
  ⟨fun id other => (same.read id other).symm, same.list.symm⟩

theorem trans (first : store.SameBut ids tree made) (second : store.SameBut ids made tree') :
    store.SameBut ids tree tree' :=
  ⟨fun id other => (second.read id other).trans (first.read id other),
    second.list.trans first.list⟩

/-- Where ids are listed of one tree, they are listed of the other, and are the same but for some.
-/
theorem exists_listIn (same : store.SameBut ids tree tree') {listed : List String}
    (is : store.listIn tree = .ok listed) :
    ∃ listed', store.listIn tree' = .ok listed' ∧
      listed'.filter (· ∉ ids) = listed.filter (· ∉ ids) := by
  have alike := same.list
  rw [is] at alike
  cases other : store.listIn tree' with
  | error e =>
    rw [other] at alike
    cases alike
  | ok listed' =>
    rw [other] at alike
    exact ⟨listed', rfl, Except.ok.inj alike⟩

/-- Trees that differ in fewer ids differ in more at most. -/
theorem mono {wider : List String} (same : store.SameBut ids tree tree') (widens : ids ⊆ wider) :
    store.SameBut wider tree tree' := by
  refine ⟨fun id other => same.read id fun inside => other (widens inside), ?_⟩
  have twice (listed : Except OperationError (List String)) :
      listed.map (·.filter (· ∉ wider)) =
        (listed.map (·.filter (· ∉ ids))).map (·.filter (· ∉ wider)) := by
    cases listed with
    | error e => rfl
    | ok names =>
      have narrow : names.filter (· ∉ wider) = (names.filter (· ∉ ids)).filter (· ∉ wider) := by
        rw [List.filter_filter]
        refine List.filter_congr fun name _ => ?_
        have inside : name ∉ wider → name ∉ ids := fun other inside => other (widens inside)
        simpa using inside
      exact congrArg Except.ok narrow
  rw [twice, same.list, ← twice]

end SameBut

/-- Whether a later tree shows the same as a tree, but may show a rule file for its id. -/
structure Advances (store : Store) (id : String) (file : RuleFile) (tree tree' : Tree) : Prop where
  others : store.SameBut [id] tree tree'
  own : store.readIn tree' id = store.readIn tree id ∨ store.readIn tree' id = .ok (some file)

theorem Advances.trans {file : RuleFile} (first : store.Advances id file tree made)
    (second : store.Advances id file made tree') : store.Advances id file tree tree' := by
  refine ⟨first.others.trans second.others, ?_⟩
  rcases second.own with same | new
  · rw [same]
    exact first.own
  · exact .inr new

instance (store : Store) (id : String) (file : RuleFile) :
    IsTrans Tree (store.Advances id file) :=
  ⟨fun _ _ _ first second => first.trans second⟩

/-- Whether two lists of ids are the same but for some, or fail alike. -/
def AlikeBut (ids : List String) :
    Except OperationError (List String) → Except OperationError (List String) → Prop
  | .ok listed, .ok listed' => ∀ id, id ∉ ids → (id ∈ listed' ↔ id ∈ listed)
  | .error e, .error e' => e' = e
  | _, _ => False

/-- Names in strictly ascending order are told by what they are. -/
theorem eq_of_pairwise_lt {names names' : List String} (sorted : names.Pairwise (· < ·))
    (sorted' : names'.Pairwise (· < ·)) (same : ∀ name, name ∈ names' ↔ name ∈ names) :
    names' = names := by
  have nodup {names : List String} (sorted : names.Pairwise (· < ·)) : names.Nodup :=
    sorted.imp fun lt => String.ne_of_lt lt
  refine List.Perm.eq_of_pairwise ?_ sorted' sorted
    ((List.perm_ext_iff_of_nodup (nodup sorted') (nodup sorted)).2 same)
  intro a b _ _ lt gt
  exact absurd (String.lt_trans lt gt) (String.lt_irrefl a)

/-- Where the lists of both contexts are the same but for some ids, so is the list of all. -/
theorem sameBut_of_lists (reads : ∀ id, isRuleId id = true → id ∉ ids → ∀ context,
      tree'.read (store.place id context) = tree.read (store.place id context))
    (lists : ∀ context, AlikeBut ids
      (idsOf (store.directory context) (tree.list (store.directory context)))
      (idsOf (store.directory context) (tree'.list (store.directory context)))) :
    store.SameBut ids tree tree' := by
  refine ⟨fun id other => ?_, ?_⟩
  · cases valid : isRuleId id with
    | true => exact readIn_congr (reads id valid other)
    | false => rw [readIn_of_not_isRuleId valid, readIn_of_not_isRuleId valid]
  · rw [listIn_eq, listIn_eq]
    have http := lists .http
    have stream := lists .stream
    revert http stream
    generalize idsOf _ (tree.list (store.directory .http)) = http
    generalize idsOf _ (tree'.list (store.directory .http)) = http'
    generalize idsOf _ (tree.list (store.directory .stream)) = stream
    generalize idsOf _ (tree'.list (store.directory .stream)) = stream'
    intro alike alike'
    match http, http', alike with
    | .error e, .error _, rfl => rfl
    | .ok names, .ok names', alike =>
      match stream, stream', alike' with
      | .error e, .error _, rfl => rfl
      | .ok more, .ok more', alike' =>
        refine congrArg Except.ok (eq_of_pairwise_lt ((pairwise_ascendingNames _).filter _)
          ((pairwise_ascendingNames _).filter _) fun id => ?_)
        simp only [List.mem_filter, mem_ascendingNames, List.mem_append, decide_eq_true_eq]
        refine and_congr_left fun other => ?_
        rw [alike id other, alike' id other]

end Store

end ProxyKeeper
