import ProxyKeeper.Proofs.Controller.AllOrNothing
import ProxyKeeper.Proofs.Controller.Removal
import ProxyKeeper.Proofs.Store.Vacant

/-!
# What is left when nginx refuses

An operation that nginx refuses says so, and a command ends with the exit code of a refused rule.
What that means for the rule files depends on the operation. To bring rules into force is undone; to
take a rule out of force is not, for the rule is meant to go.

## Main Definitions

* `Store.Ready` — trees in which the active directory is there, or can be made

## Main Results

* `Controller.left_of_testFailed` — the rule files after a refusal
-/

namespace ProxyKeeper

/-- Whether the store can work with a tree, or can once it has made the active directory. -/
def Store.Ready (store : Store) (tree : Tree) : Prop :=
  store.Tidy tree ∨ store.Vacant tree

/-- Whether a site has the expected rule files when an error says that nginx refused them. -/
def Controller.Left (controller : Controller) (expected : Shelf) (error : OperationError)
    (site : Site) : Prop :=
  ∀ message, error = .testFailed message → controller.store.shelf site.tree = expected

/-- A change that is undone leaves what was before, where no id had two files. -/
theorem Controller.Undoes.left {controller : Controller} {faults : Bool} {live : Live}
    {within : List String → Prop} {requested : Shelf → Prop} {before : Shelf}
    {error : OperationError} {site : Site}
    (undoes : controller.Undoes faults live within requested before error site)
    (single : before.IsSingle) : controller.Left before error site := by
  rintro message rfl
  obtain ⟨after, there, tells⟩ := undoes.tells single
  exact there.shelf_eq.trans tells

theorem OperationError.IsInvalid.left {controller : Controller} {expected : Shelf}
    {error : OperationError} {site : Site} (invalid : error.IsInvalid) :
    controller.Left expected error site := by
  rintro message rfl
  rcases invalid with ⟨_, _, _, same⟩ | ⟨_, _, same⟩ <;> cases same

/-- A removal that nginx refuses leaves the files of all other ids. -/
theorem Controller.RemovalFails.left {controller : Controller} {faults : Bool} {live : Live}
    {before : Shelf} {id : String} {error : OperationError} {site : Site}
    (fails : controller.RemovalFails faults live before id error site) :
    controller.Left (before.set id none) error site := by
  rintro message rfl
  cases fails with
  | invalid _ told => obtain ⟨_, _, same⟩ := told; cases same
  | io io => obtain ⟨_, _, same⟩ := io; cases same
  | refused _ there => exact there.shelf_eq

namespace Site

open Operation

variable {controller : Controller} {site : Site}

/-! ## Where the active directory is missing -/

/-- The first rule file is removed again. -/
theorem undoes_applyFile_vacant (vacant : controller.store.Vacant site.tree) {id : String}
    (valid : isRuleId id = true) (file : RuleFile) :
    (controller.applyFile id file).Meets (terms false) (fun _ _ => True)
      (controller.Undoes false site.live (fun _ => True) (fun _ => True) .empty) site := by
  refine meets_bind.2 ((vacant.meets_read valid).mono ?_ fun _ _ => False.elim)
  rintro _ s ⟨rfl, rfl⟩
  refine meets_bind.2 (meets_outcome.2 ((vacant.meets_write valid file).mono ?_
    fun _ _ => False.elim))
  intro _ s written
  have covers : Covers [(id, none)] .empty (Shelf.empty.set id (some file)) :=
    (Covers.nil _).append valid ⟨rfl, fun _ => rfl⟩ fun i ne => Shelf.set_of_ne ne _ _
  exact (meets_settle written covers trivial trivial).mono (fun _ _ _ => trivial)
    fun _ _ undoes => undoes

theorem left_apply_vacant (vacant : controller.store.Vacant site.tree) {rule : Rule}
    (enabled : rule.enabled = true) :
    (controller.apply rule).Meets (terms false) (fun _ _ => True)
      (controller.Left .empty) site := by
  rw [Controller.apply, enabled, Bool.not_true, if_neg Bool.false_ne_true]
  refine meets_bind.2 ?_
  cases valid : rule.validate with
  | error e => exact meets_error.2 (Rule.isInvalid_of_validate valid).left
  | ok _ =>
    refine meets_ok.2 (meets_bind.2 ?_)
    cases own : rule.file controller.options with
    | error e => exact meets_error.2 (Rule.isInvalid_of_file own).left
    | ok file =>
      have id := Rule.isRuleId_of_validate valid
      refine meets_ok.2 (Meets.bind (meets_exclusively
        ((undoes_applyFile_vacant vacant id file).mono (fun _ _ done => done)
          fun _ _ undoes => undoes.left Shelf.isSingle_empty)) ?_)
      exact fun _ _ _ => trivial

/-- The first of several rule files makes the directory, and then the others are written. -/
theorem meets_writeFiles_vacant (vacant : controller.store.Vacant site.tree)
    {files : List (String × RuleFile)} (nonempty : files ≠ [])
    (nodup : (files.map Prod.fst).Nodup) (valid : ∀ named ∈ files, isRuleId named.1 = true) :
    (controller.writeFiles files {}).Meets (terms false)
      (controller.Comes site.live .empty (Shelf.empty.outOfStep (Shelf.calledFor files))
        fun after =>
          (∀ named ∈ files, after named.1 = Shelf.inStepWith (Shelf.empty named.1) named.2) ∧
            ∀ id, id ∉ files.map Prod.fst → after id = Shelf.empty id) site := by
  cases files with
  | nil => exact absurd rfl nonempty
  | cons named files =>
    obtain ⟨id, file⟩ := named
    obtain ⟨absent, nodup⟩ := List.nodup_cons.1 nodup
    obtain ⟨validId, valid⟩ := List.forall_mem_cons.1 valid
    refine Program.Meets.bind (vacant.meets_read validId) ?_
    intro outcome s ended
    cases outcome with
    | error e => exact ended.elim
    | ok current =>
      obtain ⟨same, rfl⟩ := ended
      obtain rfl : site = s := same.symm
      refine Program.Meets.bind (vacant.meets_write validId file) ?_
      intro outcome s ended
      cases outcome with
      | error e => exact ended.elim
      | ok _ =>
        have there : controller.store.At site.live (Shelf.empty.set id (some file)) s := ended
        have covers : Covers [(id, none)] .empty (Shelf.empty.set id (some file)) :=
          (Covers.nil _).append validId ⟨rfl, fun _ => rfl⟩ fun i ne => Shelf.set_of_ne ne _ _
        have others {named : String × RuleFile} (listed : named ∈ files) : named.1 ≠ id := by
          intro same
          exact absent (List.mem_map.2 ⟨named, listed, same⟩)
        have nothing : Shelf.Shows (Shelf.empty id) none := ⟨rfl, fun _ => rfl⟩
        have differs : ¬ Shelf.Shows (Shelf.empty id) (some file) := fun shows => by
          cases shows.unique nothing
        have step : Shelf.empty.outOfStep (Shelf.calledFor ((id, file) :: files)) =
            [(id, (none : Option RuleFile))].map Prod.fst ++
              Shelf.empty.outOfStep (Shelf.calledFor files) :=
          Shelf.outOfStep_cons_of_not_shows differs
        rw [step]
        refine Program.Meets.mono
          (meets_writeFiles there (show Covers _ .empty _ from covers) rfl ?_ nodup valid ?_) ?_
        · intro unchanged
          simp [SyncReport.hasChanges] at unchanged
        · exact fun named listed => Shelf.set_of_ne (others listed) _ _
        intro progress s comes
        refine comes.mono fun after reached => ⟨?_, ?_⟩
        · refine List.forall_mem_cons.2 ⟨?_, reached.1⟩
          rw [reached.2 id absent, Shelf.set_self, Shelf.inStepWith, if_neg differs]
        · exact Shelf.eq_outside_cons reached.2

theorem left_sync_vacant (vacant : controller.store.Vacant site.tree) (rules : List Rule) :
    (controller.sync rules).Meets (terms false) (fun _ _ => True)
      (controller.Left .empty) site := by
  refine meets_bind.2 ?_
  cases desired : controller.desiredFiles rules with
  | error e => exact meets_error.2 (Controller.desiredFiles_error desired).left
  | ok files =>
    obtain ⟨nodup, valid, _⟩ := Controller.desiredFiles_ok desired
    refine meets_ok.2 (meets_exclusively ?_)
    by_cases nonempty : files = []
    · -- nothing is called for and nothing is there
      subst nonempty
      have listed : (controller.writeDesired []).Meets (terms false)
          (fun progress _ => progress = {}) site := by
        have wrote : (controller.writeFiles [] {}).Meets (terms false)
            (fun progress s => progress = {} ∧ s = site) site := ⟨rfl, rfl⟩
        refine Program.Meets.bind wrote ?_
        rintro _ s ⟨rfl, rfl⟩
        refine Program.Meets.bind vacant.meets_list ?_
        intro outcome s ended
        cases outcome with
        | error e => exact ended.elim
        | ok ids =>
          obtain ⟨rfl, rfl⟩ := ended
          rfl
      refine meets_bind.2 (meets_lift.2 (listed.mono ?_))
      rintro _ s rfl
      exact meets_pure.2 trivial
    · have wrote := meets_writeDesired_of_writeFiles
        (meets_writeFiles_vacant vacant nonempty nodup valid)
      have settled := meets_syncFiles_of_writeDesired wrote fun _ _ _ => trivial
      exact settled.mono (fun _ _ _ => trivial) fun _ _ undoes => undoes.left Shelf.isSingle_empty

/-- There is nothing to remove, so nginx is not asked. -/
theorem left_remove_vacant (vacant : controller.store.Vacant site.tree) (id : String)
    {expected : Shelf} :
    (controller.remove id).Meets (terms false) (fun _ _ => True) (controller.Left expected)
      site := by
  refine meets_exclusively (meets_bind.2 ?_)
  by_cases valid : isRuleId id = true
  · refine (vacant.meets_remove valid).mono ?_ fun _ _ => False.elim
    rintro _ s ⟨rfl, rfl⟩
    exact meets_pure.2 trivial
  · have refused : controller.store.path id .http =
        .error (.validation id "id" "not a valid file name component") := by
      rw [Store.path, if_neg valid]
    rw [Store.remove, refused]
    refine meets_bind.2 (meets_error.2 ?_)
    rintro message ⟨⟩

/-! ## With or without the active directory -/

section Ready

variable (ready : controller.store.Ready site.tree)

include ready

theorem left_apply (single : (controller.store.shelf site.tree).IsSingle) {rule : Rule}
    (enabled : rule.enabled = true) :
    (controller.apply rule).Meets (terms false) (fun _ _ => True)
      (controller.Left (controller.store.shelf site.tree)) site := by
  rcases ready with tidy | vacant
  · have here : controller.store.At site.live (controller.store.shelf site.tree) site :=
      ⟨rfl, tidy, rfl⟩
    let requested (_ : Shelf) : Prop := True
    have wanted (file : RuleFile) (_ : rule.file controller.options = .ok file) :
        requested ((controller.store.shelf site.tree).set rule.id (some file)) := trivial
    exact (undoes_apply here enabled wanted).mono (fun _ _ _ => trivial)
      fun _ _ undoes => undoes.left single
  · rw [vacant.shelf_eq]
    exact left_apply_vacant vacant enabled

theorem left_sync (single : (controller.store.shelf site.tree).IsSingle) (rules : List Rule) :
    (controller.sync rules).Meets (terms false) (fun _ _ => True)
      (controller.Left (controller.store.shelf site.tree)) site := by
  rcases ready with tidy | vacant
  · have here : controller.store.At site.live (controller.store.shelf site.tree) site :=
      ⟨rfl, tidy, rfl⟩
    exact (undoes_sync here rules).mono (fun _ _ _ => trivial) fun _ _ undoes => undoes.left single
  · rw [vacant.shelf_eq]
    exact left_sync_vacant vacant rules

theorem left_remove (id : String) :
    (controller.remove id).Meets (terms false) (fun _ _ => True)
      (controller.Left ((controller.store.shelf site.tree).set id none)) site := by
  rcases ready with tidy | vacant
  · have here : controller.store.At site.live (controller.store.shelf site.tree) site :=
      ⟨rfl, tidy, rfl⟩
    exact (removes here id).mono (fun _ _ _ => trivial) fun _ _ fails => fails.left
  · exact left_remove_vacant vacant id

/-- To apply a rule that is not enabled is to remove its id. -/
theorem left_disabled {rule : Rule} (disabled : rule.enabled = false) :
    (controller.apply rule).Meets (terms false) (fun _ _ => True)
      (controller.Left ((controller.store.shelf site.tree).set rule.id none)) site := by
  rw [Controller.apply, disabled, Bool.not_false, if_pos rfl]
  refine meets_bind.2 ?_
  cases valid : rule.validate with
  | error e => exact meets_error.2 (Rule.isInvalid_of_validate valid).left
  | ok _ => exact meets_ok.2 ((left_remove ready rule.id).bind fun _ _ _ => trivial)

end Ready

end Site

namespace Controller

open Site

/-- What is left when nginx refuses: where no id has two files, the rule files are as before when an
enabled rule was to be applied or a list of rules to be brought into step, and when an id was to be
removed, or a rule that is not enabled to be applied, its files are gone and all others are as
before. A command that ends so has the exit code of a refused rule. -/
theorem left_of_testFailed (controller : Controller) {site : Site}
    (ready : controller.store.Ready site.tree)
    (single : (controller.store.shelf site.tree).IsSingle) (message : String) :
    (∀ rule after, rule.enabled = true →
      (controller.apply rule).run.Ends (terms false) site (.error (.testFailed message)) after →
        controller.store.shelf after.tree = controller.store.shelf site.tree) ∧
    (∀ rules after,
      (controller.sync rules).run.Ends (terms false) site (.error (.testFailed message)) after →
        controller.store.shelf after.tree = controller.store.shelf site.tree) ∧
    (∀ id after,
      (controller.remove id).run.Ends (terms false) site (.error (.testFailed message)) after →
        controller.store.shelf after.tree = (controller.store.shelf site.tree).set id none) ∧
    (∀ rule after, rule.enabled = false →
      (controller.apply rule).run.Ends (terms false) site (.error (.testFailed message)) after →
        controller.store.shelf after.tree =
          (controller.store.shelf site.tree).set rule.id none) ∧
    (OperationError.testFailed message).toCommand.exitCode = 3 :=
  ⟨fun _ _ enabled ends =>
      Program.Meets.of_ends (left_apply ready single enabled) ends message rfl,
    fun rules _ ends => Program.Meets.of_ends (left_sync ready single rules) ends message rfl,
    fun id _ ends => Program.Meets.of_ends (left_remove ready id) ends message rfl,
    fun _ _ disabled ends =>
      Program.Meets.of_ends (left_disabled ready disabled) ends message rfl,
    rfl⟩

/-- nginx refuses a rule in the place of another one, and the removal of that one, and the first
rule in a place where the active directory is still to be made. -/
theorem left_of_testFailed_first :
    let controller : Controller := ⟨{ activeDir := ⟨"/a"⟩ }⟩
    let rule : Rule :=
      { id := "web", targetContainer := "web", targetPort := 80, created := .epoch }
    let tree : Tree :=
      { entries := [(["a"], .directory), (["a", "web.conf"], .file "old".toUTF8),
        (["a", "api.conf"], .file "api".toUTF8)] }
    let refuses {α : Type} (change : Operation α) (tree : Tree) (expected : Shelf) : Prop :=
      ∃ after, change.run.Ends (terms false) ⟨tree, ⟨tree, 0⟩⟩ (.error (.testFailed "no")) after ∧
        controller.store.shelf after.tree = expected
    refuses (controller.apply rule) tree (controller.store.shelf tree) ∧
      refuses (controller.remove "web") tree ((controller.store.shelf tree).set "web" none) ∧
      refuses (controller.apply rule) {} (controller.store.shelf {}) := by
  intro controller rule tree refuses
  let refusal : List Nginx.Reply := [.finished { stderr := "no" }]
  have refuses_of {α : Type} {change : Operation α} {tree : Tree} {expected : Shelf}
      (followed : ((change.run.follow? act? (refusal, ⟨tree, ⟨tree, 0⟩⟩)).map fun ended =>
        match ended.1 with
        | .error e => some e
        | .ok _ => none) = some (some (.testFailed "no")))
      (left : ∀ after,
        change.run.Ends (terms false) ⟨tree, ⟨tree, 0⟩⟩ (.error (.testFailed "no")) after →
          controller.store.shelf after.tree = expected) : refuses change tree expected := by
    obtain ⟨⟨result, _, after⟩, followed, told⟩ := Option.map_eq_some_iff.1 followed
    cases result with
    | ok a => cases told
    | error e =>
      obtain rfl := Option.some.inj told
      have ends := ends_act? followed false
      exact ⟨after, ends, left after ends⟩
  have tidy : controller.store.Tidy tree := by
    refine Store.Tidy.of_entries (by decide) (by decide) ?_ ⟨["a"], by decide⟩ (by decide)
    simp [tree]
  have single : (controller.store.shelf tree).IsSingle :=
    Store.isSingle_of_directory? (by decide)
  have vacant : controller.store.Vacant {} := by
    refine ⟨by decide, fun context => by cases context <;> decide, fun context => ?_⟩
    have plain : ∀ held ∈ (Tree.createDirectories {} (controller.store.directory context)).2.entries,
        held.2 = .directory := by
      cases context <;> decide
    refine ⟨by cases context <;> decide, ?_, ?_, ?_⟩
    · refine Store.Tidy.of_entries (by decide) ?_ ?_ ⟨["a"], ?_⟩ ?_
      · cases context <;> decide
      · intro held listed target link
        cases (plain held listed).symm.trans link
      · cases context <;> decide
      · cases context <;> decide
    · funext id other
      refine Store.shelf_eq_none fun _ directory _ name content listed => ?_
      cases plain _ listed
    · cases context with
      | http => exact ⟨["a"], by decide⟩
      | stream => exact ⟨["a", "stream"], by decide⟩
  have one := @left_of_testFailed controller ⟨tree, ⟨tree, 0⟩⟩ (.inl tidy) single "no"
  have none := @left_of_testFailed controller ⟨{}, ⟨{}, 0⟩⟩ (.inr vacant)
    (vacant.shelf_eq ▸ Shelf.isSingle_empty) "no"
  refine ⟨refuses_of ?_ fun after => one.1 rule after rfl, refuses_of ?_ (one.2.2.1 "web"),
    refuses_of ?_ fun after => none.1 rule after rfl⟩ <;> decide +kernel

/-- Not all is as before when nginx refuses. The files of an id that was to be removed are gone,
whether by itself or since its rule is not enabled. Links are what the files may not be reached by:
where one stands for the file of a rule, a file is put back in its place, and where the directory of
plain connections is the active directory itself, by way of a link, the file that is put back is
removed again. Where a part of the path to the active directory is still to be made, the files
behind it are not seen before they are written over. -/
theorem not_left_of_testFailed :
    let controller : Controller := ⟨{ activeDir := ⟨"/a"⟩ }⟩
    let astray : Controller := ⟨{ activeDir := ⟨"/new/../a"⟩ }⟩
    let rule : Rule :=
      { id := "web", targetContainer := "web", targetPort := 80, created := .epoch }
    let plain : Tree :=
      { entries := [(["a"], .directory), (["a", "web.conf"], .file "old".toUTF8)] }
    let linked : Tree :=
      { entries := [(["a"], .directory), (["a", "web.conf"], .link ⟨"/x"⟩),
        (["x"], .file "old".toUTF8)] }
    let shared : Tree :=
      { entries := [(["a"], .directory), (["a", "stream"], .link ⟨"."⟩),
        (["a", "web.conf"], .file "old".toUTF8)] }
    let changes {α : Type} (change : Operation α) (tree : Tree) : Prop :=
      ∃ after, change.run.Ends (terms false) ⟨tree, ⟨tree, 0⟩⟩ (.error (.testFailed "no")) after ∧
        controller.store.shelf after.tree "web" .http ≠ controller.store.shelf tree "web" .http
    rule.enabled = true ∧ (controller.store.shelf plain).IsSingle ∧
      changes (controller.remove "web") plain ∧
      changes (controller.apply { rule with enabled := false }) plain ∧
      changes (controller.apply rule) linked ∧
      changes (controller.apply rule) shared ∧
      changes (astray.apply rule) plain := by
  intro controller astray rule plain linked shared changes
  let refusal : List Nginx.Reply := [.finished { stderr := "no" }]
  have changes_of {α : Type} {change : Operation α} {tree : Tree}
      (followed : ((change.run.follow? act? (refusal, ⟨tree, ⟨tree, 0⟩⟩)).map fun ended =>
        match ended.1 with
        | .error e => some (e, decide (controller.store.shelf ended.2.2.tree "web" .http =
            controller.store.shelf tree "web" .http))
        | .ok _ => none) = some (some (.testFailed "no", false))) :
      changes change tree := by
    obtain ⟨⟨result, _, after⟩, followed, told⟩ := Option.map_eq_some_iff.1 followed
    cases result with
    | ok a => cases told
    | error e =>
      obtain ⟨rfl, differs⟩ := Prod.mk.inj (Option.some.inj told)
      exact ⟨after, ends_act? followed false, of_decide_eq_false differs⟩
  refine ⟨rfl, Store.isSingle_of_directory? (by decide), changes_of ?_, changes_of ?_, changes_of ?_,
    changes_of ?_, changes_of ?_⟩ <;> decide +kernel

end Controller

end ProxyKeeper
