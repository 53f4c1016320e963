import ProxyKeeper.Proofs.Controller.Desired
import ProxyKeeper.Proofs.Store.Readings

/-!
# Files in step with rules

Where every id that is called for shows its file, and no other id is listed, a synchronization finds
nothing to do. It looks at the files with the lock held, tells that it does, and succeeds; nobody is
asked for anything else. What it looks at does not depend on the order of the rules.

## Main Definitions

* `Request.isIdle` — requests that neither change a file, nor call nginx, nor count
* `History.Idles` — a history that goes on with such requests only
* `Store.InStep` — the files that are called for, and no others

## Main Results

* `Program.Meets.idles` — a program that asks for no more goes on so
* `Controller.meets_sync_of_inStep` — a synchronization with nothing to do
-/

namespace ProxyKeeper

open Operation

/-! ## Nothing to do -/

/-- Whether a request neither changes a file, nor calls nginx, nor counts. -/
def Request.isIdle : Request → Bool
  | .file call => !call.changes
  | .acquire => true
  | .release => true
  | .publish _ => true
  | _ => false

theorem Request.isIdle_of_isLook {r : Request} (look : r.isLook = true) : r.isIdle = true := by
  cases r with
  | file call => exact look
  | _ => cases look

/-- How trees go on while only idle requests are made. -/
def Tree.idly : Terms Tree :=
  { Tree.exactly with allows := fun request _ => request.isIdle = true }

/-- A call that changes nothing passes through nothing else. -/
theorem Tree.Halfway.eq_of_not_changes {tree made : Tree} {call : FileCall}
    (looks : call.changes = false) (halfway : tree.Halfway call made) : made = tree := by
  cases halfway with
  | nothing => rfl
  | directories => cases looks
  | part => cases looks

namespace History

variable {history made next : History}

/-- Whether a history goes on with idle requests only. The tree is the same at every moment. -/
structure Idles (history next : History) : Prop where
  tree_eq : next.tree = history.tree
  moments : ∀ tree ∈ next.trees, tree ∈ history.trees
  told : ∃ told, next.exchanges = history.exchanges ++ told ∧
    ∀ exchange ∈ told, exchange.request.isIdle = true

theorem Idles.refl (history : History) : history.Idles history :=
  ⟨rfl, fun _ is => is, [], (List.append_nil _).symm, nofun⟩

theorem Idles.trans (first : history.Idles made) (second : made.Idles next) :
    history.Idles next := by
  obtain ⟨told, is, idle⟩ := first.told
  obtain ⟨more, is', idle'⟩ := second.told
  refine ⟨second.tree_eq.trans first.tree_eq, fun tree is => first.moments _ (second.moments _ is),
    told ++ more, ?_, List.forall_mem_append.2 ⟨idle, idle'⟩⟩
  rw [is', is, List.append_assoc]

/-- An answer to an idle request changes no file. -/
theorem idles_of_answers {request : Request} {answer : request.Answer}
    (idle : request.isIdle = true)
    (answered : (terms .never).answers request history answer next) : history.Idles next := by
  suffices next.tree = history.tree ∧ ∀ tree ∈ next.trees, tree ∈ history.trees from
    ⟨this.1, this.2, [⟨request, answer⟩], exchanges_of_answers answered, by simpa using idle⟩
  cases request with
  | file call =>
    obtain ⟨passed, left, goes, rfl⟩ := answered
    have looks : call.changes = false := by simpa [Request.isIdle] using idle
    cases goes with
    | done through =>
      have same := history.tree.perform_of_not_changes looks
      refine ⟨same, fun tree is => ?_⟩
      have current : history.tree ∈ history.trees :=
        List.mem_append_right _ (List.mem_singleton_self _)
      rw [trees, after, List.append_assoc, List.mem_append] at is
      rcases is with old | is
      · exact List.mem_append_left _ old
      · rw [List.cons_append, List.mem_cons, List.mem_append, List.mem_singleton] at is
        rcases is with rfl | is | rfl
        · exact current
        · rwa [(through tree is).eq_of_not_changes looks]
        · rwa [same]
    | fails _ _ may => exact may.elim
  | acquire =>
    obtain rfl := answered
    exact ⟨rfl, fun _ is => is⟩
  | release =>
    obtain rfl := answered
    exact ⟨rfl, fun _ is => is⟩
  | publish phase =>
    obtain rfl := answered
    exact ⟨rfl, fun _ is => is⟩
  | freshName => cases idle
  | nginx call => cases idle
  | count event => cases idle

end History

namespace Program

variable {α σ : Type} {p : Program α}

/-- A program that asks only for requests of a kind keeps to terms that allow these. -/
theorem Meets.of_asks {kind : Request → Prop} {terms : Terms σ} {promise : α → σ → Prop} {s : σ}
    (h : p.Meets terms promise s) (asks : p.Asks kind) :
    p.Meets { terms with allows := fun request _ => kind request } promise s := by
  induction p generalizing s with
  | done a => exact h
  | ask request next ih =>
    exact ⟨asks.1, fun answer s' answered => ih answer (h.2 answer s' answered) (asks.2 answer)⟩

/-- A program that only looks is idle. -/
theorem meets_idly_of_looks {tree : Tree} (looks : p.Asks Store.Looks) :
    p.Meets Tree.idly (fun a left => a = p.onTree tree ∧ left = tree) tree :=
  (meets_of_looks looks).of_asks (looks.mono fun _ => Request.isIdle_of_isLook)

/-- A program that makes only idle requests ends as promised, and nothing was done. -/
theorem Meets.idles {promise : α → Tree → Prop} {history next : History} {a : α}
    (meets : p.Meets Tree.idly promise history.tree)
    (ends : p.Ends (History.terms .never) history a next) :
    promise a next.tree ∧ history.Idles next := by
  induction ends with
  | done a history => exact ⟨meets, .refl history⟩
  | @ask request _ history next _ answer _ answered _ ih =>
    have onTrees : Tree.exactly.answers request history.tree answer next.tree :=
      History.answers_tree answered
    obtain ⟨promised, idles⟩ := ih (meets.2 _ _ onTrees)
    exact ⟨promised, (History.idles_of_answers meets.1 answered).trans idles⟩

end Program

/-! ## Files in step -/

/-- Whether the store shows the files that are called for, and lists no other ids. -/
structure Store.InStep (store : Store) (files : List (String × RuleFile)) (tree : Tree) : Prop where
  right : ∀ named ∈ files, store.readIn tree named.1 = .ok (some named.2)
  listed : ∃ ids, store.listIn tree = .ok ids ∧ ids ⊆ files.map Prod.fst

/-- The order of the files does not matter. -/
theorem Store.InStep.perm {store : Store} {files files' : List (String × RuleFile)} {tree : Tree}
    (inStep : store.InStep files tree) (perm : files'.Perm files) : store.InStep files' tree := by
  obtain ⟨ids, listed, within⟩ := inStep.listed
  refine ⟨fun named is => inStep.right named (perm.mem_iff.1 is), ids, listed, fun id is => ?_⟩
  exact (perm.map Prod.fst).mem_iff.2 (within is)

namespace Controller

variable {controller : Controller} {files : List (String × RuleFile)} {tree : Tree}

/-- Files that are right are passed over. -/
theorem meets_writeFiles_of_right
    (right : ∀ named ∈ files, controller.store.readIn tree named.1 = .ok (some named.2))
    (progress : SyncProgress) :
    (controller.writeFiles files progress).Meets Tree.idly (fun made left =>
      made = { progress with report := { progress.report with
        unchanged := progress.report.unchanged ++ files.map Prod.fst } } ∧ left = tree) tree := by
  induction files generalizing progress with
  | nil =>
    refine Program.meets_pure.2 ⟨?_, rfl⟩
    rw [List.map_nil, List.append_nil]
  | cons named files ih =>
    obtain ⟨id, file⟩ := named
    obtain ⟨own, others⟩ := List.forall_mem_cons.1 right
    refine Program.Meets.bind
      (Program.meets_idly_of_looks (controller.store.asks_read id)) ?_
    rintro current left ⟨is, rfl⟩
    obtain rfl : current = .ok (some file) := is.trans own
    dsimp only
    rw [if_pos rfl]
    refine (ih others _).mono ?_
    rintro made left ⟨rfl, rfl⟩
    refine ⟨?_, rfl⟩
    rw [List.map_cons, List.append_assoc, List.singleton_append]

/-- Where files are in step, nothing is written and nothing removed. -/
theorem meets_writeDesired_of_inStep (inStep : controller.store.InStep files tree) :
    (controller.writeDesired files).Meets Tree.idly (fun made left =>
      made = { report := { unchanged := files.map Prod.fst } } ∧ left = tree) tree := by
  refine Program.Meets.bind (meets_writeFiles_of_right inStep.right {}) ?_
  rintro made left ⟨rfl, rfl⟩
  dsimp only
  rw [if_neg (by simp)]
  refine Program.Meets.bind (Program.meets_idly_of_looks controller.store.asks_list) ?_
  rintro outcome left ⟨is, rfl⟩
  obtain ⟨ids, listed, within⟩ := inStep.listed
  obtain rfl : outcome = .ok ids := is.trans listed
  have nothing : ids.filter (fun id => !(files.map Prod.fst).contains id) = [] :=
    List.filter_eq_nil_iff.2 fun id listed => by simpa using within listed
  dsimp only
  rw [nothing]
  exact ⟨rfl, rfl⟩

/-- A change that does nothing with the lock held is not counted. -/
theorem meets_exclusively_of_idle {α : Type} {kind : OperationKind} {isIdle : α → Bool}
    {change : Operation α} {a : α} (idle : isIdle a = true)
    (meets : change.Meets Tree.idly (fun b left => b = a ∧ left = tree) (fun _ _ => False) tree) :
    (controller.exclusively kind isIdle change).Meets Tree.idly
      (fun b left => b = a ∧ left = tree) (fun _ _ => False) tree := by
  refine meets_bind.2 (meets_request.2 ⟨rfl, ?_⟩)
  rintro _ _ rfl
  refine meets_bind.2 (meets_request.2 ⟨rfl, ?_⟩)
  rintro _ _ rfl
  refine meets_bind.2 (meets_outcome.2 (meets.mono ?_ fun _ _ failed => failed.elim))
  rintro _ _ ⟨rfl, rfl⟩
  refine meets_bind.2 (meets_request.2 ⟨rfl, ?_⟩)
  rintro _ _ rfl
  dsimp only
  rw [idle, if_neg (by decide)]
  refine meets_bind.2 (meets_request.2 ⟨rfl, ?_⟩)
  rintro _ _ rfl
  exact meets_ok.2 ⟨rfl, rfl⟩

/-- Rules whose files are in step leave nothing to do. -/
theorem meets_sync_of_inStep {rules : List Rule}
    (desired : controller.desiredFiles rules = .ok files)
    (inStep : controller.store.InStep files tree) :
    (controller.sync rules).Meets Tree.idly
      (fun report left => report = { unchanged := files.map Prod.fst } ∧ left = tree)
      (fun _ _ => False) tree := by
  rw [sync, desired]
  refine meets_bind.2 (meets_ok.2 (meets_exclusively_of_idle rfl ?_))
  refine meets_bind.2 (meets_lift.2 ((meets_writeDesired_of_inStep inStep).mono ?_))
  rintro _ _ ⟨rfl, rfl⟩
  exact meets_pure.2 ⟨rfl, rfl⟩

end Controller

end ProxyKeeper
