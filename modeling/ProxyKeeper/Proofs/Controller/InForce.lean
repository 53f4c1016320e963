import ProxyKeeper.Controller.Task
import ProxyKeeper.Proofs.Controller.AllOrNothing
import ProxyKeeper.Proofs.Controller.Removal
import ProxyKeeper.Proofs.Controller.Stage

/-!
# What is in force

The rule files on disk and those nginx works with, over a run of changes one after another in a
world without faults, when files are put back after a failed reload. A change leaves the two as
they were, or ends in a reload and makes them the same. The one exception is a removal that nginx
refuses: its files stay away, though they are in force still. So after a success both are the same,
except for ids whose removal was refused since the last reload.

## Main Definitions

* `Task.removes?` — the id that a task takes away
* `TaskResult.isOk`, `TaskResult.isRefused` — how they end
* `Controller.Reached` — the sites that runs of changes lead to, with the removals refused
* `Controller.Runs` — tasks one after another, with what each of them comes to

## Main Results

* `Task.meets_change` — what one change does
* `Controller.inForce` — what is in force after a success
-/

namespace ProxyKeeper

namespace Task

/-- The id whose files a task is to remove. -/
def removes? : Task → Option String
  | .apply rule => if rule.enabled then none else some rule.id
  | .remove id => some id
  | _ => none

end Task

deriving instance DecidableEq for TaskResult

namespace TaskResult

/-- Whether a change of rules succeeds. -/
def isOk : TaskResult → Bool
  | .applied (.ok _) => true
  | .removed (.ok _) => true
  | .synced (.ok _) => true
  | _ => false

/-- Whether a change of rules fails since nginx refuses the files, or does not take them up. -/
def isRefused : TaskResult → Bool
  | .applied (.error error) => error.isRefusal
  | .removed (.error error) => error.isRefusal
  | .synced (.error error) => error.isRefusal
  | _ => false

end TaskResult

/-- The ids whose removal by a task was refused. -/
def Task.refused (task : Task) (result : TaskResult) : List String :=
  if result.isRefused then task.removes?.toList else []

/-! ## One change -/

/-- Without faults, when files are put back, a failed change of files leaves them as before. -/
theorem OperationError.Tells.eq {error : OperationError} {requested : Shelf → Prop}
    {before after : Shelf} (h : error.Tells true false requested before after) :
    after = before := by
  cases error with
  | rollbackFailed _ _ => exact absurd h Bool.false_ne_true
  | _ => exact h

namespace Shelf

variable {shelf : Shelf} {id : String}

/-- A shelf with the files of rules has one for each id at most. -/
theorem IsExactly.isSingle {options : RenderOptions} {rules : List Rule}
    (exactly : shelf.IsExactly options rules) : shelf.IsSingle := by
  intro id
  by_cases called : ∃ rule ∈ rules, rule.id = id
  · obtain ⟨rule, listed, rfl⟩ := called
    obtain ⟨⟨context, text⟩, _, row⟩ := exactly.holds rule listed
    rw [row]
    cases context
    · exact .inr rfl
    · exact .inl rfl
  · have row := exactly.nothingElse id fun rule listed same => called ⟨rule, listed, same⟩
    rw [row]
    exact .inl rfl

end Shelf

namespace Task

open Site

variable {controller : Controller} {site : Site} {live : Live} {before : Shelf}

/-- How a change of rules ends: it comes into force, or files and what is in force are as before, or
it was to remove the files of an id, did so, and was refused. -/
def Changed (controller : Controller) (task : Task) (live : Live) (before : Shelf)
    (result : TaskResult) (site : Site) : Prop :=
  ∃ after : Shelf, after.IsSingle ∧
    (controller.store.At ⟨site.tree, live.reloads + 1⟩ after site ∨
      controller.store.At live after site ∧
        (after = before ∨ ∃ id ∈ task.refused result, after = before.set id none))

section Changed

variable {task : Task} {result : TaskResult} {id : String} {after : Shelf}

theorem changed_of_reload (single : after.IsSingle)
    (there : controller.store.At ⟨site.tree, live.reloads + 1⟩ after site) :
    task.Changed controller live before result site :=
  ⟨after, single, .inl there⟩

theorem changed_of_same (single : before.IsSingle)
    (there : controller.store.At live before site) :
    task.Changed controller live before result site :=
  ⟨before, single, .inr ⟨there, .inl rfl⟩⟩

/-- A removal that succeeds came into force, or there was nothing to remove. -/
theorem changed_of_removal (single : before.IsSingle)
    (removed : controller.Removed live before id site) :
    task.Changed controller live before result site := by
  rcases removed with ⟨_, there⟩ | there
  · exact changed_of_same single there
  · exact changed_of_reload (single.set id none) there

/-- A removal that fails was refused, or has changed nothing. -/
theorem changed_of_failedRemoval (single : before.IsSingle) (removes : task.removes? = some id)
    {error : OperationError} (told : result.isRefused = error.isRefusal)
    (fails : controller.RemovalFails false live before id error site) :
    task.Changed controller live before result site := by
  cases fails with
  | invalid _ _ there => exact changed_of_same single there
  | io _ faulty _ => cases faulty
  | refused refusal there =>
    have listed : id ∈ task.refused result := by
      rw [Task.refused, told, refusal, if_pos rfl, removes]
      exact List.mem_singleton_self id
    exact ⟨_, single.set id none, .inr ⟨there, .inr ⟨id, listed, rfl⟩⟩⟩

/-- A change of files that fails has put them back. -/
theorem changed_of_failure (single : before.IsSingle) {requested : Shelf → Prop}
    {error : OperationError} (there : controller.store.At live after site)
    (tells : error.Tells true false requested before after) :
    task.Changed controller live before result site := by
  obtain rfl := tells.eq
  exact changed_of_same single there

end Changed

/-- One change comes into force, has no effect, or is a removal that is refused. -/
theorem meets_change (rollback : controller.config.rollbackOnApplyFailure = true)
    (here : controller.store.At live before site) (single : before.IsSingle) {task : Task}
    (change : task.isChange = true) :
    (task.program controller).Meets (terms false) (task.Changed controller live before) site := by
  cases task with
  | apply rule =>
    refine Program.meets_bind.2 ?_
    cases enabled : rule.enabled with
    | true =>
      let requested (_ : Shelf) : Prop := True
      have wanted (file : RuleFile) (_ : rule.file controller.options = .ok file) :
          requested (before.set rule.id (some file)) := trivial
      refine Program.Meets.mono (meets_apply here single enabled wanted) ?_
      intro result s ended
      cases result with
      | ok _ =>
        obtain ⟨file, _, there⟩ := ended
        exact changed_of_reload (single.set rule.id (some file)) there
      | error e =>
        obtain ⟨after, there, tells⟩ := ended
        rw [rollback] at tells
        exact changed_of_failure single there tells
    | false =>
      refine Program.Meets.mono (removes_disabled here enabled) ?_
      intro result s ended
      cases result with
      | ok _ => exact changed_of_removal single ended.2
      | error e =>
        have removes : (Task.apply rule).removes? = some rule.id := by
          rw [removes?, enabled, if_neg Bool.false_ne_true]
        rcases ended with ⟨_, there⟩ | ⟨_, fails⟩
        · exact changed_of_same single there
        · exact changed_of_failedRemoval single removes rfl fails
  | remove id =>
    refine Program.Meets.bind (Site.removes here id) ?_
    intro result s ended
    cases result with
    | ok _ => exact changed_of_removal single ended
    | error e => exact changed_of_failedRemoval single rfl rfl ended
  | sync rules =>
    refine Program.Meets.bind (meets_sync here single rules) ?_
    intro result s ended
    cases result with
    | ok _ =>
      obtain ⟨after, exactly, there | ⟨same, there⟩⟩ := ended
      · exact changed_of_reload exactly.isSingle there
      · -- the files are the requested ones already, and nginx is not called
        exact changed_of_same single there
    | error e =>
      obtain ⟨after, there, tells⟩ := ended
      rw [rollback] at tells
      exact changed_of_failure single there tells
  | bootstrap => cases change
  | status => cases change
  | gate => cases change
  | list => cases change

end Task

/-! ## Runs of changes -/

namespace Controller

open Site

/-- The sites that runs of changes lead to from one where the rule files on disk are in force, with
the ids whose removal was refused since nginx last reloaded. -/
inductive Reached (controller : Controller) : Site → List String → Prop where
  | start {site : Site} (tidy : controller.store.Tidy site.tree)
    (single : (controller.store.shelf site.tree).IsSingle)
    (inForce : controller.store.shelf site.live.tree = controller.store.shelf site.tree) :
    Reached controller site []
  | call {site site' : Site} {refused : List String} {task : Task} {result : TaskResult}
    (reached : Reached controller site refused) (change : task.isChange = true)
    (ends : (task.program controller).Ends (terms false) site result site') :
    Reached controller site'
      (if site'.live.reloads = site.live.reloads then refused ++ task.refused result else [])

/-- What holds of the sites that are reached: what is on disk is in force, but for ids without files
whose removal was refused. -/
structure InStep (controller : Controller) (site : Site) (refused : List String) : Prop where
  tidy : controller.store.Tidy site.tree
  single : (controller.store.shelf site.tree).IsSingle
  inForce : ∀ id context, controller.store.shelf site.tree id context =
      controller.store.shelf site.live.tree id context ∨
    id ∈ refused ∧ controller.store.shelf site.tree id context = none

variable {controller : Controller} {site site' : Site} {refused : List String} {task : Task}
  {result : TaskResult}

/-- A change that ends in a reload brings all files into force; any other one leaves what is in
force, and adds what it has removed without success to what was refused. -/
theorem InStep.call (inStep : controller.InStep site refused)
    (rollback : controller.config.rollbackOnApplyFailure = true) (change : task.isChange = true)
    (ends : (task.program controller).Ends (terms false) site result site') :
    controller.InStep site'
      (if site'.live.reloads = site.live.reloads then refused ++ task.refused result else []) := by
  have here : controller.store.At site.live (controller.store.shelf site.tree) site :=
    ⟨rfl, inStep.tidy, rfl⟩
  obtain ⟨after, single, there | ⟨there, kept⟩⟩ :=
    (Task.meets_change rollback here inStep.single change).of_ends ends
  · -- nginx has reloaded
    refine ⟨there.tidy, there.shelf_eq ▸ single, ?_⟩
    intro id context
    left
    rw [there.live_eq]
  · -- nginx works with the files it had
    refine ⟨there.tidy, there.shelf_eq ▸ single, ?_⟩
    rw [there.live_eq, if_pos rfl, there.shelf_eq]
    intro id context
    have asBefore := inStep.inForce id context
    rcases kept with rfl | ⟨removed, listed, rfl⟩
    · exact asBefore.imp_right fun ⟨was, gone⟩ => ⟨List.mem_append_left _ was, gone⟩
    · by_cases same : id = removed
      · subst same
        right
        rw [Shelf.set_self]
        exact ⟨List.mem_append_right _ listed, rfl⟩
      · rw [Shelf.set_of_ne same]
        exact asBefore.imp_right fun ⟨was, gone⟩ => ⟨List.mem_append_left _ was, gone⟩

/-- Every run of changes keeps the disk and nginx in step. -/
theorem Reached.inStep (reached : controller.Reached site refused)
    (rollback : controller.config.rollbackOnApplyFailure = true) :
    controller.InStep site refused := by
  induction reached with
  | start tidy single inForce => exact ⟨tidy, single, fun id context => .inl (by rw [inForce])⟩
  | call _ change ends ih => exact ih.call rollback change ends

/-- In a run of changes without faults, when files are put back after a failed reload: whenever a
change succeeds, what is on disk is in force, but for ids whose removal was refused since nginx last
reloaded. Those have no files on disk, and they are left apart only when this change does not make
nginx reload. -/
theorem inForce (controller : Controller)
    (rollback : controller.config.rollbackOnApplyFailure = true) {site site' : Site}
    {refused : List String} (reached : controller.Reached site refused) {task : Task}
    (change : task.isChange = true) {result : TaskResult}
    (ends : (task.program controller).Ends (terms false) site result site')
    (ok : result.isOk = true) (id : String) (context : Context) :
    controller.store.shelf site'.tree id context =
        controller.store.shelf site'.live.tree id context ∨
      site'.live.reloads = site.live.reloads ∧ id ∈ refused ∧
        controller.store.shelf site'.tree id context = none := by
  have inStep := (reached.inStep rollback).call rollback change ends
  have nothing : task.refused result = [] := by
    have accepted : result.isRefused = false := by
      cases result with
      | applied outcome => cases outcome <;> first | rfl | cases ok
      | removed outcome => cases outcome <;> first | rfl | cases ok
      | synced outcome => cases outcome <;> first | rfl | cases ok
      | _ => rfl
    rw [Task.refused, accepted, if_neg Bool.false_ne_true]
  rw [nothing, List.append_nil] at inStep
  rcases inStep.inForce id context with same | ⟨listed, none⟩
  · exact .inl same
  · split at listed
    next kept => exact .inr ⟨kept, listed, none⟩
    next => cases listed

/-- A removal is refused, and then another rule is applied: the removal comes into force with it. -/
theorem inForce_afterRefusal :
    let controller : Controller := ⟨{ activeDir := ⟨"/a"⟩ }⟩
    let rule : Rule :=
      { id := "api", targetContainer := "api", targetPort := 80, created := .epoch }
    ∃ site₁ site₂, controller.Reached site₁ ["web"] ∧
      ((Task.apply rule).program controller).Ends (terms false) site₁ (.applied (.ok rule)) site₂ ∧
      ∀ id context, controller.store.shelf site₂.tree id context =
        controller.store.shelf site₂.live.tree id context := by
  intro controller rule
  let tree : Tree :=
    { entries := [(["a"], .directory), (["a", "web.conf"], .file "old".toUTF8)] }
  have run : ((((Task.remove "web").program controller).follow? act?
      ([.finished { stderr := "no" }], ⟨tree, ⟨tree, 0⟩⟩)).bind fun first =>
        (((Task.apply rule).program controller).follow? act? first.2).map fun second =>
          ([first.1, second.1], first.2.2.live.reloads, second.2.2.live.reloads)) =
      some ([.removed (.error (.testFailed "no")), .applied (.ok rule)], 0, 1) := by
    decide +kernel
  obtain ⟨⟨result₁, left₁, site₁⟩, first, run⟩ := Option.bind_eq_some_iff.1 run
  obtain ⟨⟨result₂, left₂, site₂⟩, second, told⟩ := Option.map_eq_some_iff.1 run
  simp only [Prod.mk.injEq, List.cons.injEq, and_true] at told
  obtain ⟨⟨rfl, rfl⟩, none, one⟩ := told
  have tidy : controller.store.Tidy tree := by
    refine Store.Tidy.of_entries (by decide) ?_ ?_ ⟨["a"], ?_⟩ (by decide)
    · decide
    · simp [tree]
    · decide
  have start : controller.Reached ⟨tree, ⟨tree, 0⟩⟩ [] :=
    .start tidy (Store.isSingle_of_directory? (by decide)) rfl
  have reached := start.call rfl (ends_act? first false)
  rw [if_pos none] at reached
  refine ⟨site₁, site₂, reached, ends_act? second false, ?_⟩
  intro id context
  have inForce := controller.inForce rfl reached rfl (ends_act? second false) rfl id context
  -- the second call has made nginx reload
  refine inForce.resolve_right fun ⟨kept, _⟩ => ?_
  rw [none, one] at kept
  cases kept

/-- Tasks one after another, with what each of them comes to. -/
inductive Runs (controller : Controller) : Site → List (Task × TaskResult) → Site → Prop where
  | nil (site : Site) : Runs controller site [] site
  | cons {site site' site'' : Site} {task : Task} {result : TaskResult}
    {rest : List (Task × TaskResult)}
    (ends : (task.program controller).Ends (terms false) site result site')
    (runs : Runs controller site' rest site'') :
    Runs controller site ((task, result) :: rest) site''

/-- Tasks one after another where every call is carried out. -/
def followAll? (controller : Controller) : List Task → List Nginx.Reply × Site →
    Option (List (Task × TaskResult) × (List Nginx.Reply × Site))
  | [], world => some ([], world)
  | task :: tasks, world =>
    ((task.program controller).follow? act? world).bind fun (result, world) =>
      (controller.followAll? tasks world).map fun (rest, world) => ((task, result) :: rest, world)

theorem runs_followAll? {tasks : List Task} {run : List (Task × TaskResult)}
    {world world' : List Nginx.Reply × Site}
    (h : controller.followAll? tasks world = some (run, world')) :
    controller.Runs world.2 run world'.2 := by
  induction tasks generalizing world run with
  | nil =>
    cases h
    exact .nil _
  | cons task tasks ih =>
    obtain ⟨⟨result, world''⟩, first, rest⟩ := Option.bind_eq_some_iff.1 h
    obtain ⟨⟨run', last⟩, others, same⟩ := Option.map_eq_some_iff.1 rest
    cases same
    exact .cons (ends_act? first false) (ih others)

/-- What is in force is no longer on disk after a removal that was refused. The same happens after a
change that was refused when the id had two files, of which one is put back, or when both contexts
share a directory, where the file that is put back is removed at once. In each case the next removal
succeeds without a reload, for it finds no file. -/
theorem not_inForce :
    let controller : Controller := ⟨{ activeDir := ⟨"/a"⟩ }⟩
    let rule : Rule :=
      { id := "web", targetContainer := "web", targetPort := 80, created := .epoch }
    let refusal : OperationError := .testFailed "no"
    let one : Tree := { entries := [(["a"], .directory), (["a", "web.conf"], .file "old".toUTF8)] }
    let two : Tree :=
      { entries := [(["a"], .directory), (["a", "web.conf"], .file "old".toUTF8),
        (["a", "stream"], .directory), (["a", "stream", "web.conf"], .file "old".toUTF8)] }
    let shared : Tree :=
      { entries := [(["a"], .directory), (["a", "web.conf"], .file "old".toUTF8),
        (["a", "stream"], .link ⟨"."⟩)] }
    let parts (tree : Tree) (run : List (Task × TaskResult)) : Prop :=
      ∃ site, controller.Runs ⟨tree, ⟨tree, 0⟩⟩ run site ∧
        controller.store.shelf site.tree ≠ controller.store.shelf site.live.tree
    controller.config.rollbackOnApplyFailure = true ∧
      parts one
        [(.remove "web", .removed (.error refusal)), (.remove "web", .removed (.ok false))] ∧
      parts two
        [(.apply rule, .applied (.error refusal)), (.remove "api", .removed (.ok false))] ∧
      parts shared
        [(.apply rule, .applied (.error refusal)), (.remove "api", .removed (.ok false))] := by
  intro controller rule refusal one two shared parts
  let refuse : Nginx.Reply := .finished { stderr := "no" }
  have apart (tree : Tree) (run : List (Task × TaskResult)) (context : Context)
      (followed : ((controller.followAll? (run.map Prod.fst) ([refuse], ⟨tree, ⟨tree, 0⟩⟩)).map
        fun ended => (ended.1, controller.store.shelf ended.2.2.tree "web" context,
          (controller.store.shelf ended.2.2.live.tree "web" context).isSome)) =
        some (run, none, true)) : parts tree run := by
    obtain ⟨⟨run', left, site⟩, followed, told⟩ := Option.map_eq_some_iff.1 followed
    simp only [Prod.mk.injEq] at told
    obtain ⟨rfl, gone, live⟩ := told
    refine ⟨site, runs_followAll? followed, ?_⟩
    intro same
    rw [← same, gone] at live
    cases live
  refine ⟨rfl, ?_, ?_, ?_⟩
  · exact apart _ _ .http (by decide +kernel)
  · exact apart _ _ .stream (by decide +kernel)
  · exact apart _ _ .http (by decide +kernel)

end Controller

end ProxyKeeper
