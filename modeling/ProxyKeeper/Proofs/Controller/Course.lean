import ProxyKeeper.Proofs.Controller.Facts
import ProxyKeeper.Proofs.Controller.Requests

/-!
# The facts of a change

What happens in a change of rules, from its beginning to its end. There are few possibilities: a
change is refused before it takes the lock, or takes it and finds nothing to do, or nginx checks the
files and takes them up, or one of these steps fails. What is counted is counted beside the step it
is about.

## Main Definitions

* `Ending` — how a change ends that has taken the lock
* `Courses`, `Counted`, `Carried` — the facts of such a change
* `Task.kind`, `Task.rejection?` — what a change is counted as, and why it is not begun
* `Task.Accounts`, `Task.Explains` — the facts of a change, by its result

## Main Results

* `Task.meets_accounts` — there are no other facts, however the requests are answered
-/

namespace ProxyKeeper

/-- How a change ends that has taken the lock. -/
inductive Ending where
  /-- There was nothing to do. -/
  | idle
  /-- What it did is in force. -/
  | done
  | failed
deriving DecidableEq

/-- How a change ends that has not failed. -/
def Ending.ofIdle : Bool → Ending
  | true => .idle
  | false => .done

theorem Ending.ofIdle_ne_failed (idle : Bool) : Ending.ofIdle idle ≠ .failed := by
  cases idle <;> nofun

/-- The facts of a check. -/
def Fact.ofCheck (ok : Bool) : List Fact :=
  if ok then [.tested true, .counts .test] else [.tested false, .counts .test, .counts .testFailure]

/-- The facts of putting files back. -/
def Fact.ofUndoing (undone : Bool) : List Fact :=
  if undone then [.undoes, .counts .rollback, .tallies .rollbacks] else []

/-- The facts of counting a change, and the rule files if they can be listed. -/
def Fact.ofCounting (kind : OperationKind) (ok : Bool) (listed : Option Nat) : List Fact :=
  .counts (.operation kind ok) :: .tallies (.ofOk ok) ::
    (listed.map fun n => .counts (.activeRules n)).toList

/-- The facts of changing files, by how it ends. -/
inductive Courses : Ending → List Fact → Prop where
  | idle : Courses .idle []
  | done : Courses .done (Fact.ofCheck true ++ [.reloaded true])
  /-- The files could not be read or written. -/
  | unwritten (undone : Bool) : Courses .failed (Fact.ofUndoing undone)
  /-- nginx refused the files, or did not answer. -/
  | refused (undone : Bool) : Courses .failed (Fact.ofCheck false ++ Fact.ofUndoing undone)
  /-- nginx did not take up what it had accepted. -/
  | notTakenUp (undone : Bool) :
    Courses .failed (Fact.ofCheck true ++ [.reloaded false, .counts .reloadFailure] ++
      Fact.ofUndoing undone)

/-- The facts of counting a change that has ended: one that was idle is not counted. -/
inductive Counted (kind : OperationKind) : Ending → List Fact → Prop where
  | idle : Counted kind .idle []
  | done (listed : Option Nat) : Counted kind .done (Fact.ofCounting kind true listed)
  | failed (listed : Option Nat) : Counted kind .failed (Fact.ofCounting kind false listed)

/-- The facts of a change that takes the lock. -/
def Carried (kind : OperationKind) (ending : Ending) (facts : List Fact) : Prop :=
  ∃ course counts, Courses ending course ∧ Counted kind ending counts ∧
    facts = .locks :: course ++ counts

namespace Controller

open Operation

variable {controller : Controller} {α : Type} {s : List Fact}

/-! ## Requests -/

/-- What only works on files is no fact. -/
theorem factless_of_stores {p : Program α} (stores : p.Asks Store.Stores) :
    p.Meets factTerms (fun _ t => t = s) s := by
  refine stores.meets (fun _ _ => trivial) fun r answer t stores answered => ?_
  rw [answered]
  cases r with
  | file call => exact List.append_nil s
  | freshName => exact List.append_nil s
  | _ => cases stores

/-- The same for what may fail. -/
theorem factless_operation {operation : Operation α} (stores : operation.run.Asks Store.Stores) :
    operation.Meets factTerms (fun _ t => t = s) (fun _ t => t = s) s := by
  refine Program.Meets.mono (factless_of_stores stores) fun result t same => ?_
  cases result <;> exact same

theorem facts_publish (phase : Phase) (forth : phase ≠ .rollingBack)
    {fails : OperationError → List Fact → Prop} :
    (publish phase).Meets factTerms (fun _ t => t = s) fails s := by
  refine meets_request.2 ⟨trivial, fun _ t answered => ?_⟩
  rw [answered, Request.facts, if_neg forth, List.append_nil]

theorem facts_count (event : Event) (tally : Option Tally) :
    (Program.request (.count event tally)).Meets factTerms
      (fun _ t => t = s ++ .counts event :: tally.toList.map .tallies) s :=
  Program.meets_request.2 ⟨trivial, fun _ _ answered => answered⟩

/-! ## Parts of changes -/

theorem facts_gate :
    controller.gate.Meets factTerms (fun outcome t => t = s ++ Fact.ofCheck outcome.ok) s := by
  refine Program.meets_bind.2 ⟨trivial, fun (reply : Nginx.Reply) t answered => ?_⟩
  replace answered : t = s ++ [.tested reply.isSuccess] := answered
  refine (facts_count .test none).bind ?_
  rintro _ _ rfl
  cases success : reply.isSuccess with
  | true => simp [Program.meets_pure, answered, success, Fact.ofCheck]
  | false =>
    refine (facts_count .testFailure none).bind ?_
    rintro _ _ rfl
    simp [Program.meets_pure, answered, success, Fact.ofCheck]

theorem facts_reload :
    controller.reload.Meets factTerms (fun _ t => t = s ++ [.reloaded true])
      (fun _ t => t = s ++ [.reloaded false, .counts .reloadFailure]) s := by
  refine meets_bind.2 (meets_request.2 ⟨trivial, fun (reply : Nginx.Reply) t answered => ?_⟩)
  replace answered : t = s ++ [.reloaded reply.isSuccess] := answered
  cases success : reply.isSuccess with
  | true => simp [success, meets_pure, answered]
  | false =>
    simp only [success, Bool.false_eq_true, if_false]
    refine meets_bind.2 (meets_lift.2 ((facts_count .reloadFailure none).mono ?_))
    rintro _ _ rfl
    simp [meets_throw, answered, success]

/-- Putting files back always ends with the failure that made it necessary, or with its own. -/
theorem facts_rollBack (snapshots : List Snapshot) (error : OperationError)
    {returns : Unit → List Fact → Prop} :
    (controller.rollBack snapshots error).Meets factTerms returns
      (fun _ t => t = s ++ Fact.ofUndoing true) s := by
  refine meets_bind.2 (meets_request.2 ⟨trivial, ?_⟩)
  rintro _ _ rfl
  refine meets_bind.2 (meets_bind.2
    (meets_lift.2 ((facts_count .rollback (some .rollbacks)).mono ?_)))
  rintro _ _ rfl
  have restores := factless_of_stores
    (s := s ++ [.undoes] ++ [.counts .rollback, .tallies .rollbacks])
    (controller.asks_restoreEach snapshots.reverse)
  refine meets_bind.2 (meets_lift.2 (restores.mono ?_))
  rintro failures _ rfl
  split
  · exact List.append_assoc _ _ _
  · exact List.append_assoc _ _ _

/-- Whether the facts of changing files are among those that there can be. -/
def HasCourse (isIdle : α → Bool) (change : Operation α) : Prop :=
  ∀ s, change.Meets factTerms
    (fun a t => ∃ course, Courses (.ofIdle (isIdle a)) course ∧ t = s ++ course)
    (fun _ t => ∃ course, Courses .failed course ∧ t = s ++ course) s

theorem hasCourse_settle (snapshots : List Snapshot) :
    HasCourse (fun _ => false) (controller.settle snapshots) := by
  intro s
  refine (facts_publish .testing nofun).bind ?_
  rintro _ _ rfl
  refine meets_bind.2 (meets_lift.2 (facts_gate.mono ?_))
  rintro ⟨ok, message⟩ _ rfl
  cases ok with
  | false =>
    refine (controller.facts_rollBack _ _).mono (fun _ _ taken => taken) ?_
    rintro _ _ rfl
    exact ⟨_, .refused true, List.append_assoc _ _ _⟩
  | true =>
    refine (facts_publish .applying nofun).bind ?_
    rintro _ _ rfl
    refine meets_bind.2 (meets_outcome.2 (facts_reload.mono ?_ ?_))
    · rintro _ _ rfl
      exact ⟨_, .done, List.append_assoc _ _ _⟩
    · rintro error _ rfl
      dsimp only
      split
      · refine (controller.facts_rollBack _ _).mono (fun _ _ taken => taken) ?_
        rintro _ _ rfl
        exact ⟨_, .notTakenUp true, by simp⟩
      · exact meets_throw.2 ⟨_, .notTakenUp false, by simp [Fact.ofUndoing]⟩

/-- Putting files back that could not all be written. -/
theorem hasCourse_unwritten (snapshots : List Snapshot) (error : OperationError)
    (isIdle : Unit → Bool) : HasCourse isIdle (controller.rollBack snapshots error) := by
  intro s
  refine (controller.facts_rollBack snapshots error).mono (fun _ _ taken => taken) ?_
  rintro _ _ rfl
  exact ⟨_, .unwritten true, rfl⟩

/-! ## Changes of files -/

theorem hasCourse_applyFile (id : String) (file : RuleFile) :
    HasCourse (fun _ => false) (controller.applyFile id file) := by
  intro s
  refine meets_bind.2 ((factless_operation (controller.asks_read id)).mono ?_ ?_)
  · rintro before _ rfl
    refine meets_bind.2 (meets_outcome.2
      ((factless_operation (controller.store.asks_write id file)).mono ?_ ?_))
    · rintro _ _ rfl
      exact controller.hasCourse_settle _ _
    · rintro error _ rfl
      exact controller.hasCourse_unwritten _ _ _ _
  · rintro error _ rfl
    exact ⟨_, .unwritten false, (List.append_nil _).symm⟩

theorem hasCourse_removeFiles (id : String) : HasCourse (!·) (controller.removeFiles id) := by
  intro s
  refine meets_bind.2 ((factless_operation (controller.store.asks_remove id)).mono ?_ ?_)
  · rintro found _ rfl
    cases found with
    | false => exact ⟨_, .idle, (List.append_nil _).symm⟩
    | true =>
      refine (facts_publish .testing nofun).bind ?_
      rintro _ _ rfl
      refine meets_bind.2 (meets_lift.2 (facts_gate.mono ?_))
      rintro ⟨ok, message⟩ _ rfl
      cases ok with
      | false => exact meets_throw.2 ⟨_, .refused false, by simp [Fact.ofUndoing]⟩
      | true =>
        refine (facts_publish .applying nofun).bind ?_
        rintro _ _ rfl
        refine meets_bind.2 (facts_reload.mono ?_ ?_)
        · rintro _ _ rfl
          exact ⟨_, .done, List.append_assoc _ _ _⟩
        · rintro error _ rfl
          exact ⟨_, .notTakenUp false, by simp [Fact.ofUndoing]⟩
  · rintro error _ rfl
    exact ⟨_, .unwritten false, (List.append_nil _).symm⟩

theorem hasCourse_syncFiles (files : List (String × RuleFile)) :
    HasCourse (!·.hasChanges) (controller.syncFiles files) := by
  intro s
  refine meets_bind.2 (meets_lift.2
    ((factless_of_stores (controller.asks_writeDesired files)).mono ?_))
  rintro ⟨report, snapshots, failure⟩ _ rfl
  cases failure with
  | some error =>
    refine meets_bind.2 ((controller.facts_rollBack snapshots error).mono
      (fun _ _ (impossible : False) => impossible.elim) ?_)
    rintro _ _ rfl
    exact ⟨_, .unwritten true, rfl⟩
  | none =>
    dsimp only
    cases changes : report.hasChanges with
    | false =>
      refine ⟨[], ?_, (List.append_nil _).symm⟩
      rw [changes]
      exact .idle
    | true =>
      refine (controller.hasCourse_settle snapshots _).bind ?_
      rintro _ _ ⟨course, courses, rfl⟩
      have changes' : { report with reloaded := true : SyncReport }.hasChanges = true := changes
      refine ⟨course, ?_, rfl⟩
      rw [changes']
      exact courses

/-! ## Changes -/

/-- A change is counted beside the rule files there are, unless these cannot be listed. -/
theorem facts_record (kind : OperationKind) (ok : Bool) :
    (controller.record kind ok).Meets factTerms
      (fun _ t => ∃ listed, t = s ++ Fact.ofCounting kind ok listed) s := by
  refine (facts_count _ _).bind ?_
  rintro _ _ rfl
  have lists := factless_of_stores
    (s := s ++ [.counts (.operation kind ok), .tallies (.ofOk ok)])
    (controller.store.asks_list.mono fun _ => Request.isStorage_of_isLook)
  refine lists.bind ?_
  rintro listed _ rfl
  cases listed with
  | error e => exact ⟨none, rfl⟩
  | ok ids =>
    refine (facts_count _ none).mono ?_
    rintro _ _ rfl
    exact ⟨some ids.length, by simp [Fact.ofCounting]⟩

/-- A change that takes the lock runs its course and is counted. -/
theorem facts_exclusively (kind : OperationKind) {isIdle : α → Bool} {change : Operation α}
    (course : HasCourse isIdle change) :
    (controller.exclusively kind isIdle change).Meets factTerms
      (fun a t => Carried kind (.ofIdle (isIdle a)) t)
      (fun _ t => Carried kind .failed t) [] := by
  have release {result : Except OperationError α} {t : List Fact}
      {returns : α → List Fact → Prop} {fails : OperationError → List Fact → Prop}
      (promised : (Operation.ofExcept result).Meets factTerms returns fails t) :
      (request .release >>= fun _ => Operation.ofExcept result).Meets factTerms returns fails
        t := by
    refine meets_bind.2 (meets_request.2 ⟨trivial, ?_⟩)
    rintro _ _ rfl
    rwa [show t ++ Request.facts .release _ = t from List.append_nil t]
  refine meets_bind.2 (meets_request.2 ⟨trivial, ?_⟩)
  rintro _ _ rfl
  refine (facts_publish .writing nofun).bind ?_
  rintro _ _ rfl
  refine meets_bind.2 (meets_outcome.2 ((course _).mono ?_ ?_))
  · rintro a _ ⟨course, courses, rfl⟩
    refine (facts_publish .idle nofun).bind ?_
    rintro _ _ rfl
    dsimp only
    cases idle : isIdle a with
    | true =>
      rw [idle] at courses
      refine release (meets_ok.2 ?_)
      rw [idle]
      exact ⟨course, [], courses, .idle, (List.append_nil _).symm⟩
    | false =>
      rw [idle] at courses
      refine meets_bind.2 (meets_lift.2 ((controller.facts_record kind true).mono ?_))
      rintro _ _ ⟨listed, rfl⟩
      refine release (meets_ok.2 ?_)
      rw [idle]
      exact ⟨course, _, courses, .done listed, rfl⟩
  · rintro error _ ⟨course, courses, rfl⟩
    refine (facts_publish .idle nofun).bind ?_
    rintro _ _ rfl
    refine meets_bind.2 (meets_lift.2 ((controller.facts_record kind false).mono ?_))
    rintro _ _ ⟨listed, rfl⟩
    exact release (meets_error.2 ⟨course, _, courses, .failed listed, rfl⟩)

end Controller

/-! ## Tasks -/

/-- The failure in a result. -/
def TaskResult.error? : TaskResult → Option OperationError
  | .applied (.error e) => some e
  | .removed (.error e) => some e
  | .synced (.error e) => some e
  | .bootstrapped (.error e) => some e
  | .listed (.error e) => some e
  | _ => none

/-- Whether a change with a result ends in a way. A rule that is not enabled may have had no files.
-/
def TaskResult.Ends : TaskResult → Ending → Prop
  | .applied (.ok _), ending => ending ≠ .failed
  | .removed (.ok found), ending => ending = .ofIdle (!found)
  | .synced (.ok report), ending => ending = .ofIdle (!report.hasChanges)
  | .applied (.error _), ending => ending = .failed
  | .removed (.error _), ending => ending = .failed
  | .synced (.error _), ending => ending = .failed
  | _, _ => False

namespace Task

/-- What a change is counted as. A rule that is not enabled is removed. -/
def kind? : Task → Option OperationKind
  | .apply rule => some (if rule.enabled then .apply else .remove)
  | .remove _ => some .remove
  | .sync _ => some .sync
  | _ => none

/-- Why a change is not begun: a rule is not valid, or two have the same id. -/
def rejection? (controller : Controller) : Task → Option OperationError
  | .apply rule =>
    match rule.validate, rule.file controller.options with
    | .error e, _ => some e
    | .ok _, .error e => if rule.enabled then some e else none
    | .ok _, .ok _ => none
  | .sync rules =>
    match controller.desiredFiles rules with
    | .error e => some e
    | .ok _ => none
  | _ => none

/-- The facts of a change, by its result. -/
inductive Accounts (controller : Controller) (task : Task) : TaskResult → List Fact → Prop where
  | rejected {result : TaskResult} {e : OperationError}
    (why : task.rejection? controller = some e) (told : result.error? = some e) :
    Accounts controller task result []
  | carried {result : TaskResult} {kind : OperationKind} {ending : Ending} {facts : List Fact}
    (begun : task.rejection? controller = none) (known : task.kind? = some kind)
    (ends : result.Ends ending) (carried : Carried kind ending facts) :
    Accounts controller task result facts

open Controller Operation

variable {controller : Controller} {task : Task} {α : Type}
  {result : Except OperationError α → TaskResult}

/-- Whether the facts of an operation are those of a task, whose result its own becomes. -/
def Explains (controller : Controller) (task : Task) (result : Except OperationError α → TaskResult)
    (operation : Operation α) : Prop :=
  operation.Meets factTerms (fun a => task.Accounts controller (result (.ok a)))
    (fun e => task.Accounts controller (result (.error e))) []

/-- A change that takes the lock, for a task that is not rejected. -/
theorem explains_exclusively (begun : task.rejection? controller = none) {kind : OperationKind}
    (known : task.kind? = some kind) {isIdle : α → Bool} {change : Operation α}
    (course : HasCourse isIdle change) (returns : ∀ a, (result (.ok a)).Ends (.ofIdle (isIdle a)))
    (fails : ∀ e, (result (.error e)).Ends .failed) :
    Explains controller task result (controller.exclusively kind isIdle change) :=
  (controller.facts_exclusively kind course).mono
    (fun a _ carried => .carried begun known (returns a) carried)
    (fun e _ carried => .carried begun known (fails e) carried)

theorem explains_apply (rule : Rule) :
    Explains controller (.apply rule) .applied (controller.apply rule) := by
  rw [Controller.apply]
  cases valid : rule.validate with
  | error e => exact .rejected (by simp only [rejection?, valid]) rfl
  | ok _ =>
    refine meets_bind.2 (meets_ok.2 ?_)
    -- the rule is returned, whatever the change comes to
    let applied {β : Type} (result : Except OperationError β) : TaskResult :=
      .applied (result.map fun _ => rule)
    cases enabled : rule.enabled with
    | false =>
      have begun : (Task.apply rule).rejection? controller = none := by
        cases compiled : rule.file controller.options <;>
          simp [rejection?, valid, compiled, enabled]
      have removes : Explains controller (.apply rule) applied (controller.remove rule.id) :=
        explains_exclusively begun (by simp [kind?, enabled])
          (controller.hasCourse_removeFiles rule.id) (fun _ => Ending.ofIdle_ne_failed _)
          (fun _ => rfl)
      exact meets_bind.2 removes
    | true =>
      cases compiled : rule.file controller.options with
      | error e => exact .rejected (by simp [rejection?, valid, compiled, enabled]) rfl
      | ok file =>
        have begun : (Task.apply rule).rejection? controller = none := by
          simp only [rejection?, valid, compiled]
        have writes : Explains controller (.apply rule) applied
            (controller.exclusively .apply (fun _ => false) (controller.applyFile rule.id file)) :=
          explains_exclusively begun (by simp [kind?, enabled])
            (controller.hasCourse_applyFile rule.id file) (fun _ => Ending.ofIdle_ne_failed _)
            (fun _ => rfl)
        exact meets_bind.2 (meets_ok.2 (meets_bind.2 writes))

theorem explains_remove (id : String) :
    Explains controller (.remove id) .removed (controller.remove id) :=
  explains_exclusively rfl rfl (controller.hasCourse_removeFiles id) (fun _ => rfl) (fun _ => rfl)

theorem explains_sync (rules : List Rule) :
    Explains controller (.sync rules) .synced (controller.sync rules) := by
  rw [Controller.sync]
  cases desired : controller.desiredFiles rules with
  | error e => exact .rejected (by simp only [rejection?, desired]) rfl
  | ok files =>
    exact meets_bind.2 (meets_ok.2 (explains_exclusively (by simp only [rejection?, desired]) rfl
      (controller.hasCourse_syncFiles files) (fun _ => rfl) (fun _ => rfl)))

/-- The facts of a change are accounted for by its result, however its requests are answered. -/
theorem meets_accounts (controller : Controller) {task : Task} (change : task.isChange = true) :
    (task.program controller).Meets factTerms (task.Accounts controller) [] := by
  have explained {α : Type} {result : Except OperationError α → TaskResult}
      {operation : Operation α} (explains : Explains controller task result operation) :
      (operation.run >>= fun outcome => pure (result outcome)).Meets factTerms
        (task.Accounts controller) [] := by
    refine Program.meets_bind.2 (Program.Meets.mono explains fun outcome t accounts => ?_)
    cases outcome <;> exact accounts
  cases task with
  | apply rule => exact explained (explains_apply rule)
  | remove id => exact explained (explains_remove id)
  | sync rules => exact explained (explains_sync rules)
  | _ => cases change

end Task

end ProxyKeeper
