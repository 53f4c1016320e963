import ProxyKeeper.Controller.Basic
import ProxyKeeper.Proofs.Store.Frail

/-!
# What is put back when not all can be

A rollback goes through the snapshots of a change from the latest to the first, and does not stop
when one of them cannot be put back. An attempt that fails may leave its own id half restored, but it
disturbs no other id, so every attempt that succeeds leaves its id as the snapshot shows it, whatever
becomes of the others. That needs a tree in which the places of rule files stay where they are: a
path that leads elsewhere once a link is gone or a directory is made would find the files of another
moment.

## Main Definitions

* `Attempt` — a snapshot that was tried, and what came of it
* `Controller.Tries` — one attempt after another
* `Controller.verdict` — what the attempts end with
* `Controller.Loses` — a rollback that succeeds and does not bring back what it was to

## Main Results

* `Controller.ends_restoreAll` — all snapshots are tried, and all failures told
* `Controller.Tries.restores` — what was put back stays
* `Controller.restoreAll_tries` — both, for every content of the directories
* `Controller.not_restoreAll_tries` — where a path does not keep its place
-/

namespace ProxyKeeper

/-- A snapshot that was tried, and what came of it. -/
structure Attempt where
  snapshot : Snapshot
  outcome : Except OperationError Unit

/-- The line that tells of an attempt that failed. -/
def Attempt.failure? (attempt : Attempt) : Option String :=
  match attempt.outcome with
  | .ok _ => none
  | .error error => some (attempt.snapshot.1 ++ ": " ++ error.message)

namespace Controller

open Operation Program

variable {controller : Controller} {tree left : Tree} {attempts : List Attempt}
  {snapshots : List Snapshot} {cause : String}

/-- One attempt after another: each begins with the tree that the one before it has left, and calls
may fail in any of them. -/
inductive Tries (controller : Controller) : Tree → List Attempt → Tree → Prop where
  | nil (tree : Tree) : Tries controller tree [] tree
  | cons {attempt : Attempt} {attempts : List Attempt} {tree between left : Tree}
    (tried : (controller.store.restore attempt.snapshot.1 attempt.snapshot.2).run.Ends Tree.frail
      tree attempt.outcome between)
    (rest : Tries controller between attempts left) :
    Tries controller tree (attempt :: attempts) left

/-- What attempts to put snapshots back end with. -/
def verdict (cause : String) (attempts : List Attempt) : Except OperationError Unit :=
  if attempts.all (·.outcome.isOk) then .ok ()
  else .error (.rollbackFailed cause ("; ".intercalate (attempts.filterMap Attempt.failure?)))

/-! ## Every snapshot is tried -/

/-- No line is told exactly when all attempts succeeded. -/
theorem isEmpty_failures (attempts : List Attempt) :
    (attempts.filterMap Attempt.failure?).isEmpty = attempts.all (·.outcome.isOk) := by
  rw [Bool.eq_iff_iff, List.isEmpty_iff, List.filterMap_eq_nil_iff, List.all_eq_true]
  refine forall₂_congr fun attempt _ => ?_
  rw [Attempt.failure?]
  cases attempt.outcome <;> simp [Except.isOk, Except.toBool]

/-- Snapshots are tried one after another, and there is a line for each that failed. -/
theorem ends_restoreEach {lines : List String} :
    (controller.restoreEach snapshots).Ends Tree.frail tree lines left ↔
      ∃ attempts, controller.Tries tree attempts left ∧
        attempts.map Attempt.snapshot = snapshots ∧
        lines = attempts.filterMap Attempt.failure? := by
  induction snapshots generalizing tree lines left with
  | nil =>
    rw [restoreEach]
    constructor
    · intro ends
      obtain ⟨rfl, rfl⟩ := ends_done.1 ends
      exact ⟨[], .nil _, rfl, rfl⟩
    · rintro ⟨attempts, tries, order, rfl⟩
      obtain rfl := List.map_eq_nil_iff.1 order
      cases tries
      exact .done _ _
  | cons snapshot snapshots ih =>
    obtain ⟨id, file⟩ := snapshot
    rw [restoreEach, ends_bind]
    constructor
    · rintro ⟨outcome, between, tried, ends⟩
      obtain ⟨failures, left', rest, ends⟩ := ends_bind.1 ends
      obtain ⟨attempts, tries, rfl, rfl⟩ := ih.1 rest
      refine ⟨⟨(id, file), outcome⟩ :: attempts, ?_⟩
      cases outcome with
      | ok _ =>
        obtain ⟨rfl, rfl⟩ := ends_done.1 ends
        exact ⟨.cons tried tries, rfl, rfl⟩
      | error error =>
        obtain ⟨rfl, rfl⟩ := ends_done.1 ends
        exact ⟨.cons tried tries, rfl, rfl⟩
    · rintro ⟨attempts, tries, order, rfl⟩
      cases tries with
      | nil => cases order
      | @cons attempt attempts _ between _ tried rest =>
        obtain ⟨snapshot, outcome⟩ := attempt
        obtain ⟨is, others⟩ := List.cons.inj order
        obtain rfl : snapshot = (id, file) := is
        refine ⟨outcome, between, tried, ends_bind.2 ⟨_, left, ih.2 ⟨_, rest, others, rfl⟩, ?_⟩⟩
        cases outcome with
        | ok _ => exact .done _ _
        | error error => exact .done _ _

theorem run_restoreAll (controller : Controller) (snapshots : List Snapshot) (cause : String) :
    (controller.restoreAll snapshots cause).run =
      ask (.count .rollback (some .rollbacks)) fun _ =>
        controller.restoreEach snapshots.reverse >>= fun failures =>
          done (if failures.isEmpty then .ok ()
            else .error (.rollbackFailed cause ("; ".intercalate failures))) := by
  rw [restoreAll]
  refine (ExceptT.run_bind_lift (Program.request _) _).trans (congrArg (ask _) (funext fun _ => ?_))
  refine (ExceptT.run_bind_lift _ _).trans (congrArg (Bind.bind _) (funext fun failures => ?_))
  split <;> rfl

/-- All snapshots are tried, the latest first, and the result tells of those that failed. -/
theorem ends_restoreAll {result : Except OperationError Unit} :
    (controller.restoreAll snapshots cause).run.Ends Tree.frail tree result left ↔
      ∃ attempts, controller.Tries tree attempts left ∧
        attempts.map Attempt.snapshot = snapshots.reverse ∧ result = verdict cause attempts := by
  have told (attempts : List Attempt) : verdict cause attempts =
      if (attempts.filterMap Attempt.failure?).isEmpty then .ok ()
      else .error (.rollbackFailed cause
        ("; ".intercalate (attempts.filterMap Attempt.failure?))) := by
    rw [verdict, isEmpty_failures]
  rw [run_restoreAll, ends_ask]
  constructor
  · rintro ⟨_, u, counted, ends⟩
    obtain rfl : tree = u := counted.symm
    obtain ⟨lines, _, each, ends⟩ := ends_bind.1 ends
    obtain ⟨rfl, rfl⟩ := ends_done.1 ends
    obtain ⟨attempts, tries, order, rfl⟩ := ends_restoreEach.1 each
    exact ⟨attempts, tries, order, (told attempts).symm⟩
  · rintro ⟨attempts, tries, order, rfl⟩
    refine ⟨(), tree, rfl, ends_bind.2 ⟨_, left, ends_restoreEach.2 ⟨_, tries, order, rfl⟩, ?_⟩⟩
    rw [told]
    exact .done _ _

/-! ## What was put back stays -/

/-- An attempt that succeeds leaves its id as its snapshot shows it, and none disturbs another id. -/
theorem Tries.restores (tries : controller.Tries tree attempts left)
    (firm : controller.store.Firm tree) (distinct : (attempts.map (·.snapshot.1)).Nodup) :
    controller.store.Firm left ∧
      (∀ attempt ∈ attempts, attempt.outcome = .ok () →
        controller.store.HoldsOnly left attempt.snapshot.1 attempt.snapshot.2) ∧
      ∀ id, id ∉ attempts.map (·.snapshot.1) →
        controller.store.held left id = controller.store.held tree id := by
  induction tries with
  | nil tree => exact ⟨firm, nofun, fun _ _ => rfl⟩
  | @cons attempt attempts tree between left tried rest ih =>
    obtain ⟨absent, distinct⟩ := List.nodup_cons.1 distinct
    obtain ⟨but, restored⟩ := firm.restores tried
    obtain ⟨firm, holds, others⟩ := ih but.firm distinct
    refine ⟨firm, List.forall_mem_cons.2 ⟨fun succeeded context => ?_, holds⟩, fun id outside => ?_⟩
    · rw [others _ absent]
      exact restored succeeded context
    · obtain ⟨other, outside⟩ := List.ne_and_not_mem_of_not_mem_cons outside
      rw [others id outside, but.others id other]

/-- Every snapshot is tried, the latest first, whatever happens to the others, and the result is a
success exactly when all attempts succeeded, and tells of those that failed, in their order. This
holds whatever is in the directories and whichever calls fail. On a firm tree, every id that could be
put back has in the end exactly what its snapshot shows, and an id without a snapshot has what it
had. -/
theorem restoreAll_tries (controller : Controller) {snapshots : List Snapshot}
    (distinct : (snapshots.map Prod.fst).Nodup) (cause : String) (tree : Tree) :
    (∃ result left, (controller.restoreAll snapshots cause).run.Ends Tree.frail tree result left) ∧
    (∀ result left, (controller.restoreAll snapshots cause).run.Ends Tree.frail tree result left ↔
      ∃ attempts, controller.Tries tree attempts left ∧
        attempts.map Attempt.snapshot = snapshots.reverse ∧ result = verdict cause attempts) ∧
    (controller.store.Firm tree → ∀ attempts left, controller.Tries tree attempts left →
      attempts.map Attempt.snapshot = snapshots.reverse →
        (∀ attempt ∈ attempts, attempt.outcome = .ok () →
          controller.store.HoldsOnly left attempt.snapshot.1 attempt.snapshot.2) ∧
        ∀ id, id ∉ snapshots.map Prod.fst →
          controller.store.held left id = controller.store.held tree id) := by
  refine ⟨⟨_, _, Tree.ends_act _ tree⟩, fun result left => ends_restoreAll, ?_⟩
  intro firm attempts left tries order
  have ids : attempts.map (·.snapshot.1) = (snapshots.map Prod.fst).reverse := by
    rw [← List.map_reverse, ← order, List.map_map]
    rfl
  have distinct : (attempts.map (·.snapshot.1)).Nodup :=
    ids ▸ List.pairwise_reverse.2 (distinct.imp Ne.symm)
  obtain ⟨_, holds, others⟩ := tries.restores firm distinct
  refine ⟨holds, fun id outside => others id ?_⟩
  rwa [ids, List.mem_reverse]

/-- A link stands in the place of a rule file, and a directory in that of another one. The second id
cannot be put back, which is told, and the first one has its file again. -/
theorem restoreAll_tries_both :
    let controller : Controller := ⟨{ activeDir := ⟨"/a"⟩ }⟩
    let snapshots : List Snapshot :=
      [("web", some ⟨.http, "old"⟩), ("api", some ⟨.http, "older"⟩)]
    let tree : Tree :=
      { entries := [(["a"], .directory), (["a", "web.conf"], .link ⟨"/x"⟩),
        (["a", "stream"], .directory), (["a", "stream", "api.conf"], .directory)] }
    (snapshots.map Prod.fst).Nodup ∧ controller.store.Firm tree ∧
      ∃ left, (controller.restoreAll snapshots "no").run.Ends Tree.frail tree
          (.error (.rollbackFailed "no"
            "api: io error at /a/stream/api.conf: Is a directory (os error 21)")) left ∧
        controller.store.HoldsOnly left "web" (some ⟨.http, "old"⟩) := by
  intro controller snapshots tree
  let base : Tree := tree.erase ["a", "web.conf"]
  have active : tree.directory? (controller.store.directory .http) = some ["a"] := by decide
  have stream : tree.directory? (controller.store.directory .stream) = some ["a", "stream"] := by
    decide
  have plain : ∀ held ∈ base.entries, ∀ target, held.2 ≠ .link target := by
    simp [base, tree, Tree.erase]
  have firm : controller.store.Firm tree := by
    refine ⟨by decide, Tree.isClosed_of_entries (by decide), fun directory leads => ?_,
      .of_directory? active, base, Tree.erase_keeps (by simp), fun context directory leads => ?_,
      fun _ directory _ id _ target => Tree.ne_link_of_entries plain directory _ target⟩
    · obtain rfl := Option.some.inj (active.symm.trans leads)
      rw [stream]
      decide
    · cases context with
      | http =>
        obtain rfl := Option.some.inj (active.symm.trans leads)
        decide
      | stream =>
        obtain rfl := Option.some.inj (stream.symm.trans leads)
        decide
  have distinct : (snapshots.map Prod.fst).Nodup := by decide
  let api := (controller.store.restore "api" (some ⟨.http, "older"⟩)).run.run Tree.act tree
  let web := (controller.store.restore "web" (some ⟨.http, "old"⟩)).run.run Tree.act api.2
  let attempts : List Attempt :=
    [⟨("api", some ⟨.http, "older"⟩), api.1⟩, ⟨("web", some ⟨.http, "old"⟩), web.1⟩]
  have tries : controller.Tries tree attempts web.2 :=
    .cons (Tree.ends_act _ tree) (.cons (Tree.ends_act _ api.2) (.nil _))
  have told : .error (.rollbackFailed "no"
      "api: io error at /a/stream/api.conf: Is a directory (os error 21)") =
      verdict "no" attempts := by decide +kernel
  obtain ⟨_, tells, restores⟩ := restoreAll_tries controller distinct "no" tree
  exact ⟨distinct, firm, web.2, (tells _ _).2 ⟨attempts, tries, rfl, told⟩,
    (restores firm attempts web.2 tries rfl).1 ⟨("web", some ⟨.http, "old"⟩), web.1⟩
      (by simp [attempts]) (by decide +kernel)⟩

/-! ## What does not stay -/

/-- Whether snapshots that were read one by one are all put back, in a tree in which no call fails,
and yet some id does not have what its snapshot shows. -/
def Loses (controller : Controller) (before tree : Tree) (snapshots : List Snapshot) : Prop :=
  (controller.store.shelf before).IsSingle ∧ (snapshots.map Prod.fst).Nodup ∧
    (∀ snapshot ∈ snapshots, isRuleId snapshot.1 = true ∧
      controller.store.readIn before snapshot.1 = .ok snapshot.2) ∧
    ∃ left, (controller.restoreAll snapshots "no").run.Ends Tree.frail tree (.ok ()) left ∧
      ∃ snapshot ∈ snapshots, ¬ controller.store.HoldsOnly left snapshot.1 snapshot.2

/-- What is lost can be seen by carrying out every call. -/
theorem Loses.of_act {before : Tree} (single : (controller.store.shelf before).IsSingle)
    (distinct : (snapshots.map Prod.fst).Nodup)
    (taken : ∀ snapshot ∈ snapshots, isRuleId snapshot.1 = true ∧
      controller.store.readIn before snapshot.1 = .ok snapshot.2)
    (told : ((controller.restoreAll snapshots "no").run.run Tree.act tree).1 = .ok ())
    (gone : ∃ snapshot ∈ snapshots, ∃ context, controller.store.held
      ((controller.restoreAll snapshots "no").run.run Tree.act tree).2 snapshot.1 context ≠
        (Shelf.row snapshot.2 context).map .file) : controller.Loses before tree snapshots := by
  obtain ⟨snapshot, listed, context, other⟩ := gone
  exact ⟨single, distinct, taken, _, told ▸ Tree.ends_act _ tree, snapshot, listed,
    fun holds => other (holds context)⟩

/-- Not everything that is put back stays. Where the directory for plain connections is the active
directory itself, a file is written and removed again. Where the active directory is reached by a way
that is missing at first, a file is not found where it is later. Where the directory for plain
connections is reached by way of a link in the place of a rule file, the link is removed, and with
it the way. -/
theorem not_restoreAll_tries :
    Loses ⟨{ activeDir := ⟨"/a"⟩ }⟩
        { entries := [(["a"], .directory), (["a", "web.conf"], .file "old".toUTF8)] }
        { entries := [(["a"], .directory), (["a", "web.conf"], .file "new".toUTF8),
          (["a", "stream"], .link ⟨"."⟩)] }
        [("web", some ⟨.http, "old"⟩)] ∧
      Loses ⟨{ activeDir := ⟨"/new/../a"⟩ }⟩
        { entries := [(["a"], .directory), (["a", "web.conf"], .file "old".toUTF8),
          (["new"], .directory)] }
        { entries := [(["a"], .directory), (["a", "web.conf"], .file "new".toUTF8),
          (["a", "api.conf"], .file "new".toUTF8)] }
        [("web", some ⟨.http, "old"⟩), ("api", none)] ∧
      Loses ⟨{ activeDir := ⟨"/a"⟩ }⟩
        { entries := [(["a"], .directory), (["a", "stream"], .directory),
          (["a", "stream", "web.conf"], .file "old".toUTF8)] }
        { entries := [(["a"], .directory), (["a", "stream"], .link ⟨"api.conf"⟩),
          (["a", "api.conf"], .link ⟨"/other"⟩), (["other"], .directory)] }
        [("api", none), ("web", some ⟨.stream, "old"⟩)] := by
  refine ⟨.of_act (Store.isSingle_of_directory? (by decide)) (by decide) (by decide +kernel)
      (by decide +kernel) ⟨("web", some ⟨.http, "old"⟩), by decide, .http, by decide +kernel⟩,
    .of_act (Store.isSingle_of_directory? (by decide)) (by decide) (by decide +kernel)
      (by decide +kernel) ⟨("api", none), by decide, .http, by decide +kernel⟩,
    .of_act (fun id => .inl ?_) (by decide) (by decide +kernel)
      (by decide +kernel) ⟨("web", some ⟨.stream, "old"⟩), by decide, .stream, by decide +kernel⟩⟩
  -- the only file is in the directory for plain connections
  unfold Store.shelf
  split
  next =>
    rw [Tree.fileIn?_of_directory? (show _ = some ["a"] by decide)]
    split
    next content there => simpa using Tree.mem_entries there
    next => rfl
  next => rfl

end Controller

end ProxyKeeper
