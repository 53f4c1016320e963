import ProxyKeeper.Cli.Execution
import ProxyKeeper.Controller.Task
import ProxyKeeper.Proofs.Controller.Desired

/-!
# Kinds of failures

How operations can fail at all, whatever they are answered: the store fails on ids and on files,
changes fail on rules, on files and on nginx, and loading fails on the file or on the rule in it.
What is not among these kinds is never seen.

## Main Definitions

* `Terms.free` — a world in which anything may be answered
* `Operation.Raises` — an operation whose failures are of a kind
* `OperationError.isOfStore`, `OperationError.isOfChange`, `OperationError.isOfLoading` — the kinds

## Main Results

* `Controller.raises_apply`, `Controller.raises_remove`, `Controller.raises_sync` — changes
* `Rule.meets_load` — loading, which ends in valid rules
* `Cli.meets_runRender` — showing the document of a rule
-/

namespace ProxyKeeper

/-- A world in which anything may be answered. -/
def Terms.free : Terms Unit where
  allows _ _ := True
  answers _ _ _ _ := True

namespace Program

variable {α σ : Type}

theorem meets_free {p : Program α} : p.Meets .free (fun _ _ => True) () := by
  induction p with
  | done a => trivial
  | ask r next ih => exact ⟨trivial, fun answer _ _ => ih answer⟩

end Program

namespace Operation

variable {α β : Type} {kind wider : OperationError → Prop}

/-- Whether the failures of an operation are of a kind, however it is answered. -/
def Raises (kind : OperationError → Prop) (operation : Operation α) : Prop :=
  operation.Meets .free (fun _ _ => True) (fun e _ => kind e) ()

theorem Raises.mono {operation : Operation α} (h : operation.Raises kind)
    (widens : ∀ e, kind e → wider e) : operation.Raises wider :=
  Meets.mono h (fun _ _ _ => trivial) fun e _ => widens e

theorem Raises.bind {operation : Operation α} {f : α → Operation β} (h : operation.Raises kind)
    (rest : ∀ a, (f a).Raises kind) : (operation >>= f).Raises kind :=
  Meets.bind h fun a _ _ => rest a

theorem raises_pure (a : α) : (pure a : Operation α).Raises kind :=
  trivial

theorem raises_throw {e : OperationError} (h : kind e) : (throw e : Operation α).Raises kind :=
  h

theorem raises_ofExcept {result : Except OperationError α} (h : ∀ e, result = .error e → kind e) :
    (ofExcept result).Raises kind := by
  cases result with
  | ok a => trivial
  | error e => exact h e rfl

theorem raises_lift (p : Program α) : Raises kind (ExceptT.lift p : Operation α) :=
  meets_lift.2 Program.meets_free

theorem raises_request (r : Request) : (request r).Raises kind :=
  raises_lift _

/-- An operation that goes on with the outcome of another goes on with failures of its kind. -/
theorem Raises.bind_outcome {operation : Operation α} {f : Except OperationError α → Operation β}
    (h : operation.Raises kind) (ok : ∀ a, (f (.ok a)).Raises wider)
    (error : ∀ e, kind e → (f (.error e)).Raises wider) :
    (outcome operation >>= f).Raises wider :=
  meets_bind.2 <| meets_outcome.2 <| Meets.mono h (fun a _ _ => ok a) fun e _ => error e

theorem raises_file {path : Path} {call : FileCall} (h : ∀ fault, kind (.io path.text fault)) :
    (file path call).Raises kind := by
  refine (raises_request _).bind fun answer => ?_
  cases answer with
  | ok result => exact raises_pure result
  | error fault => exact raises_throw (h fault)

end Operation

namespace OperationError

/-- The failures of the store: an id that cannot name a file, and files. -/
def isOfStore : OperationError → Bool
  | .validation .. => true
  | .io .. => true
  | _ => false

/-- The failures of changes: those of rules and of the store, and what nginx says of the files. -/
def isOfChange : OperationError → Bool
  | .testFailed _ => true
  | .applyFailed _ => true
  | .rollbackFailed .. => true
  | error => error.isOfStore

/-- The failures to load a rule: those of the rule, and of the file it is in. -/
def isOfLoading : OperationError → Bool
  | .validation .. => true
  | .ruleLoad .. => true
  | _ => false

theorem isOfChange_of_isOfStore {error : OperationError} (h : error.isOfStore = true) :
    error.isOfChange = true := by
  cases error <;> simp [isOfStore, isOfChange] at h ⊢

end OperationError

open Operation OperationError

/-! ## The store -/

namespace Store

theorem raises_path (store : Store) (id : String) (context : Context) :
    (ofExcept (store.path id context)).Raises (·.isOfStore = true) := by
  refine raises_ofExcept fun e refused => ?_
  rw [path] at refused
  split at refused
  · cases refused
  · cases refused
    rfl

theorem raises_writeWhole (path : Path) (text : String) :
    (writeWhole path text).Raises (·.isOfStore = true) := by
  refine (raises_request _).bind fun fresh => ?_
  refine (raises_file fun _ => rfl).bind fun _ => ?_
  refine (raises_request _).bind fun answer => ?_
  cases answer with
  | ok result => exact raises_pure _
  | error fault => exact (raises_request _).bind fun _ => raises_throw rfl

theorem raises_removeIfPresent (path : Path) :
    (removeIfPresent path).Raises (·.isOfStore = true) := by
  refine (raises_request _).bind fun answer => ?_
  cases answer with
  | ok result => exact raises_pure _
  | error fault =>
    dsimp only
    split
    · exact raises_pure _
    · exact raises_throw rfl

theorem raises_readIfPresent (path : Path) :
    (readIfPresent path).Raises (·.isOfStore = true) := by
  refine (raises_request _).bind fun answer => ?_
  cases answer with
  | ok content =>
    dsimp only
    split
    · exact raises_pure _
    · exact raises_throw rfl
  | error fault =>
    dsimp only
    split
    · exact raises_pure _
    · exact raises_throw rfl

variable (store : Store)

theorem raises_write (id : String) (file : RuleFile) :
    (store.write id file).Raises (·.isOfStore = true) :=
  (store.raises_path id _).bind fun _ => (raises_file fun _ => rfl).bind fun _ =>
    (raises_writeWhole _ _).bind fun _ => (store.raises_path id _).bind fun _ =>
      (raises_removeIfPresent _).bind fun _ => raises_pure _

theorem raises_readFrom (id : String) (contexts : List Context) :
    (store.readFrom id contexts).Raises (·.isOfStore = true) := by
  induction contexts with
  | nil => exact raises_pure _
  | cons context contexts ih =>
    refine (store.raises_path id context).bind fun path => ?_
    refine (raises_readIfPresent path).bind fun text => ?_
    cases text with
    | some text => exact raises_pure _
    | none => exact ih

theorem raises_read (id : String) : (store.read id).Raises (·.isOfStore = true) :=
  store.raises_readFrom id _

theorem raises_remove (id : String) : (store.remove id).Raises (·.isOfStore = true) :=
  (store.raises_path id _).bind fun _ => (raises_removeIfPresent _).bind fun _ =>
    (store.raises_path id _).bind fun _ => (raises_removeIfPresent _).bind fun _ => raises_pure _

theorem raises_listDirectory (directory : Path) :
    (listDirectory directory).Raises (·.isOfStore = true) := by
  refine (raises_request _).bind fun answer => ?_
  cases answer with
  | ok names => exact raises_pure _
  | error fault =>
    dsimp only
    split
    · exact raises_pure _
    · exact raises_throw rfl

theorem raises_list : store.list.Raises (·.isOfStore = true) :=
  (raises_listDirectory _).bind fun _ => (raises_listDirectory _).bind fun _ => raises_pure _

end Store

/-! ## Changes -/

namespace Controller

variable (controller : Controller)

theorem raises_reload : controller.reload.Raises (·.isOfChange = true) := by
  refine (raises_request _).bind fun (reply : Nginx.Reply) => ?_
  dsimp only
  split
  · exact raises_pure _
  · exact (raises_request _).bind fun _ => raises_throw rfl

theorem raises_rollBack (snapshots : List Snapshot) {error : OperationError}
    (cause : error.isOfChange = true) :
    (controller.rollBack snapshots error).Raises (·.isOfChange = true) := by
  refine (raises_request _).bind fun _ => Raises.bind ?_ fun _ => raises_throw cause
  refine (raises_request _).bind fun _ => (raises_lift _).bind fun failures => ?_
  split
  · exact raises_pure _
  · exact raises_throw rfl

theorem raises_settle (snapshots : List Snapshot) :
    (controller.settle snapshots).Raises (·.isOfChange = true) := by
  refine (raises_request _).bind fun _ => (raises_lift _).bind fun outcome => ?_
  split
  · exact controller.raises_rollBack snapshots rfl
  · refine (raises_request _).bind fun _ => controller.raises_reload.bind_outcome raises_pure ?_
    intro e raised
    dsimp only
    split
    · exact controller.raises_rollBack snapshots raised
    · exact raises_throw raised

theorem raises_exclusively {α : Type} (kind : OperationKind) (isIdle : α → Bool)
    {change : Operation α} (h : change.Raises (·.isOfChange = true)) :
    (controller.exclusively kind isIdle change).Raises (·.isOfChange = true) := by
  refine (raises_request _).bind fun _ => (raises_request _).bind fun _ => h.bind_outcome ?_ ?_
  · intro a
    have ends : (request .release >>= fun _ => Operation.ofExcept (.ok a)).Raises
        (·.isOfChange = true) :=
      (raises_request _).bind fun _ => raises_pure a
    refine (raises_request _).bind fun _ => ?_
    dsimp only
    split
    · exact (raises_lift _).bind fun _ => ends
    · exact ends
  · intro e raised
    exact (raises_request _).bind fun _ => (raises_lift _).bind fun _ =>
      (raises_request _).bind fun _ => raises_throw raised

theorem raises_applyFile (id : String) (file : RuleFile) :
    (controller.applyFile id file).Raises (·.isOfChange = true) := by
  have reads := (controller.store.raises_read id).mono fun _ => isOfChange_of_isOfStore
  refine reads.bind fun before => (controller.store.raises_write id file).bind_outcome ?_ ?_
  · intro _
    exact controller.raises_settle _
  · intro e raised
    exact controller.raises_rollBack _ (isOfChange_of_isOfStore raised)

theorem raises_removeFiles (id : String) :
    (controller.removeFiles id).Raises (·.isOfChange = true) := by
  have removes := (controller.store.raises_remove id).mono fun _ => isOfChange_of_isOfStore
  refine removes.bind fun removed => ?_
  split
  · exact raises_pure _
  · refine (raises_request _).bind fun _ => (raises_lift _).bind fun outcome => ?_
    split
    · exact raises_throw rfl
    · exact (raises_request _).bind fun _ => controller.raises_reload.bind fun _ => raises_pure _

/-- A removal fails on the id, on files or on nginx. -/
theorem raises_remove (id : String) : (controller.remove id).Raises (·.isOfChange = true) :=
  controller.raises_exclusively _ _ (controller.raises_removeFiles id)

/-- To apply a rule fails on the rule, on files or on nginx: a valid rule has a document. -/
theorem raises_apply (rule : Rule) : (controller.apply rule).Raises (·.isOfChange = true) := by
  cases valid : rule.validate with
  | error e =>
    obtain ⟨id, field, reason, rfl⟩ := Rule.validation_of_validate valid
    rw [apply, valid]
    exact raises_throw rfl
  | ok _ =>
    obtain ⟨document, _, compiled⟩ := Rule.exists_document_of_validate valid controller.options
    rw [apply, valid, Rule.file, compiled]
    refine (raises_pure _).bind fun _ => ?_
    split
    · exact (controller.raises_remove rule.id).bind fun _ => raises_pure _
    · refine (raises_pure _).bind fun file => ?_
      exact (controller.raises_exclusively _ _ (controller.raises_applyFile rule.id file)).bind
        fun _ => raises_pure _

/-! ### Synchronization -/

/-- Valid rules have files. -/
theorem exists_filesOf {options : RenderOptions} {rules : List Rule}
    (valid : ∀ rule ∈ rules, rule.validate = .ok ()) :
    ∃ files, filesOf options rules = .ok files := by
  induction rules with
  | nil => exact ⟨[], rfl⟩
  | cons rule rules ih =>
    obtain ⟨first, rest⟩ := List.forall_mem_cons.1 valid
    obtain ⟨document, _, compiled⟩ := Rule.exists_document_of_validate first options
    obtain ⟨files, others⟩ := ih rest
    rw [filesOf, Rule.file, compiled, others]
    exact ⟨_, rfl⟩

/-- Rules that are not accepted are refused since one of them, or its id, is not valid. -/
theorem validation_of_desiredFiles {rules : List Rule} {error : OperationError}
    (refused : controller.desiredFiles rules = .error error) :
    ∃ id field reason, error = .validation id field reason := by
  rw [desiredFiles] at refused
  cases checked : checkRules [] rules with
  | error e =>
    rw [checked] at refused
    cases refused
    exact checkRules_error checked
  | ok _ =>
    have made : ∃ files, filesOf controller.options (rules.filter (·.enabled)) = .ok files :=
      exists_filesOf fun rule listed =>
        ((checkRules_ok checked).2 rule (List.mem_filter.1 listed).1).2
    obtain ⟨files, made⟩ := made
    rw [checked, made] at refused
    cases refused

/-- Whether the failure that ended a synchronization, if one did, is one of the store. -/
def FailsInStore (progress : SyncProgress) : Prop :=
  ∀ e, progress.failure = some e → e.isOfStore = true

theorem failsInStore (progress : SyncProgress) {e : OperationError}
    (raised : e.isOfStore = true) : FailsInStore { progress with failure := some e } := by
  rintro _ ⟨⟩
  exact raised

theorem writeFiles_failsInStore (files : List (String × RuleFile)) {progress : SyncProgress}
    (h : FailsInStore progress) :
    (controller.writeFiles files progress).Meets .free (fun p _ => FailsInStore p) () := by
  induction files generalizing progress with
  | nil => exact h
  | cons named files ih =>
    obtain ⟨id, file⟩ := named
    refine Program.Meets.bind (controller.store.raises_read id) fun outcome _ raised => ?_
    cases outcome with
    | error e => exact failsInStore _ raised
    | ok current =>
      dsimp only
      split
      · exact ih h
      · refine Program.Meets.bind (controller.store.raises_write id file) fun outcome _ raised => ?_
        cases outcome with
        | error e =>
          let snapshots := progress.snapshots ++ [(id, current)]
          exact failsInStore { progress with snapshots := snapshots } raised
        | ok _ => exact ih h

theorem removeEach_failsInStore (ids : List String) {progress : SyncProgress}
    (h : FailsInStore progress) :
    (controller.removeEach ids progress).Meets .free (fun p _ => FailsInStore p) () := by
  induction ids generalizing progress with
  | nil => exact h
  | cons id ids ih =>
    refine Program.Meets.bind (controller.store.raises_read id) fun outcome _ raised => ?_
    cases outcome with
    | error e => exact failsInStore _ raised
    | ok current =>
      refine Program.Meets.bind (controller.store.raises_remove id) fun outcome _ raised => ?_
      cases outcome with
      | error e => exact failsInStore _ raised
      | ok _ => exact ih h

theorem writeDesired_failsInStore (files : List (String × RuleFile)) :
    (controller.writeDesired files).Meets .free (fun p _ => FailsInStore p) () := by
  refine Program.Meets.bind (controller.writeFiles_failsInStore files nofun) fun progress _ here => ?_
  split
  · exact here
  · refine Program.Meets.bind controller.store.raises_list fun outcome _ raised => ?_
    cases outcome with
    | error e => exact failsInStore _ raised
    | ok ids => exact controller.removeEach_failsInStore _ here

theorem raises_syncFiles (files : List (String × RuleFile)) :
    (controller.syncFiles files).Raises (·.isOfChange = true) := by
  refine meets_bind.2 (meets_lift.2 ((controller.writeDesired_failsInStore files).mono ?_))
  intro progress _ inStore
  dsimp only
  split
  next e failed =>
    exact (controller.raises_rollBack _ (isOfChange_of_isOfStore (inStore e failed))).bind
      fun _ => raises_pure _
  next =>
    split
    · exact raises_pure _
    · exact (controller.raises_settle _).bind fun _ => raises_pure _

/-- A synchronization fails on rules, on files or on nginx. -/
theorem raises_sync (rules : List Rule) :
    (controller.sync rules).Raises (·.isOfChange = true) := by
  refine Raises.bind (raises_ofExcept fun e refused => ?_) fun files => ?_
  · obtain ⟨id, field, reason, rfl⟩ := controller.validation_of_desiredFiles refused
    rfl
  · exact controller.raises_exclusively _ _ (controller.raises_syncFiles files)

end Controller

/-! ## Loading -/

namespace Rule

theorem raises_loadCall (path : Path) (activity : String) (call : FileCall) :
    (loadCall path activity call).Raises (·.isOfLoading = true) := by
  refine (raises_request _).bind fun answer => ?_
  cases answer with
  | ok result => exact raises_pure result
  | error fault => exact raises_throw rfl

/-- What is loaded is valid, and what is not loaded is not a valid rule in a readable file. -/
theorem meets_load (readers : Readers) (now : Timestamp) (path : Path) :
    (load readers now path).Meets .free (fun rule _ => rule.validate = .ok ())
      (fun e _ => e.isOfLoading = true) () := by
  refine Operation.Meets.bind (raises_loadCall _ _ _) fun status _ _ => ?_
  dsimp only
  split
  · exact meets_throw.2 rfl
  · refine Operation.Meets.bind (raises_loadCall _ _ _) fun content _ _ => ?_
    split
    · exact meets_throw.2 rfl
    · split
      · exact meets_throw.2 rfl
      next rule _ =>
        refine meets_bind.2 ?_
        cases valid : rule.validate with
        | error e =>
          obtain ⟨id, field, reason, rfl⟩ := validation_of_validate valid
          exact meets_error.2 rfl
        | ok _ => exact meets_ok.2 valid

end Rule

namespace Cli

namespace Task

variable {α β : Type} {returns : α → Prop} {fails : CommandError → Prop}

/-- Whether a part of a command ends as promised, however it is answered. -/
def Meets (returns : α → Prop) (fails : CommandError → Prop) (task : Task α) : Prop :=
  Program.Meets .free (fun result _ =>
    match result with
    | .ok a => returns a
    | .error e => fails e) task.run ()

theorem Meets.bind {task : Task α} {f : α → Task β} {returns' : β → Prop}
    (h : task.Meets returns fails) (rest : ∀ a, returns a → (f a).Meets returns' fails) :
    (task >>= f).Meets returns' fails := by
  rw [Meets, ExceptT.run_bind]
  refine Program.Meets.bind h fun result _ promised => ?_
  cases result with
  | ok a => exact rest a promised
  | error e => exact promised

theorem meets_ofOperation {operation : Operation α} {raised : OperationError → Prop}
    (h : operation.Meets .free (fun a _ => returns a) (fun e _ => raised e) ())
    (reports : ∀ e, raised e → fails e.toCommand) : (ofOperation operation).Meets returns fails := by
  refine Program.Meets.bind h fun result _ promised => ?_
  cases result with
  | ok a => exact promised
  | error e => exact reports e promised

theorem meets_ofLoading {loading : Settings.Loading α}
    (h : Program.Meets .free (fun result _ => ∀ e, result = .error e → fails e.toCommand)
      loading.run ()) : (ofLoading loading).Meets (fun _ => True) fails := by
  refine Program.Meets.bind h fun result _ promised => ?_
  cases result with
  | ok a => trivial
  | error e => exact promised e rfl

end Task

/-- Whether a failure is of the settings, of a rule or of a file, and not one to carry out a
command. -/
def IsOfInput : CommandError → Prop
  | .config _ => True
  | .rejected _ => True
  | .io _ => True
  | _ => False

theorem isOfInput_of_isOfLoading {error : OperationError} (h : error.isOfLoading = true) :
    IsOfInput error.toCommand := by
  cases error <;> simp [isOfLoading, toCommand, IsOfInput] at h ⊢

theorem isOfInput_of_checked {settings : Settings} {error : ServiceError}
    (h : settings.checked = .error error) : IsOfInput error.toCommand := by
  rw [Settings.checked] at h
  split at h
  · cases h
  · cases h
    trivial

theorem isOfInput_of_ofContent {readers : Readers} {path : Path}
    {content : Except IoFault ByteArray} {error : ServiceError}
    (h : Settings.ofContent readers path content = .error error) :
    IsOfInput error.toCommand := by
  cases content with
  | error fault =>
    rw [Settings.ofContent] at h
    cases h
    split <;> trivial
  | ok content =>
    rw [Settings.ofContent] at h
    split at h
    · rw [Settings.ofText] at h
      split at h
      · exact isOfInput_of_checked h
      · cases h
        trivial
    · cases h
      trivial

/-- Settings that cannot be loaded are a failure of the settings or of their file. -/
theorem meets_load (readers : Readers) (environment : Environment) (path : Path) :
    (Settings.load readers environment path).run.Meets .free
      (fun result _ => ∀ e, result = .error e → IsOfInput e.toCommand) () := by
  refine ⟨trivial, fun (content : Except IoFault ByteArray) _ _ => ?_⟩
  show Program.Meets .free _ (ExceptT.bindCont
    (fun settings : Settings => ExceptT.mk (.done (settings.override environment).checked))
    (Settings.ofContent readers path content)) ()
  cases read : Settings.ofContent readers path content with
  | error e =>
    rintro _ ⟨⟩
    exact isOfInput_of_ofContent read
  | ok settings => exact fun e refused => isOfInput_of_checked refused

theorem meets_loadIfPresent (surroundings : Surroundings) :
    surroundings.loadIfPresent.Meets (fun _ => True) IsOfInput := by
  have loads := Task.meets_ofLoading
    (meets_load surroundings.readers surroundings.environment surroundings.settings)
  have asks : Task.Meets (fun _ => True) IsOfInput
      (ExceptT.lift (Program.request (.file (.status surroundings.settings)))) :=
    ⟨trivial, fun _ _ _ => trivial⟩
  refine asks.bind fun (found : Except IoFault FileStatus) _ => ?_
  cases found with
  | ok status => exact loads
  | error fault =>
    dsimp only
    split
    · trivial
    · trivial

/-- The document of a rule is shown unless the settings, the file or the rule in it cannot be used:
a rule that was loaded has a document. -/
theorem meets_runRender (surroundings : Surroundings) (file : Path) :
    (Command.runRender surroundings file).Meets (fun _ => True) IsOfInput := by
  refine Task.Meets.bind (meets_loadIfPresent surroundings) fun settings _ => ?_
  refine Task.Meets.bind (Task.meets_ofOperation
    (Rule.meets_load surroundings.readers surroundings.now file)
    fun _ => isOfInput_of_isOfLoading) fun rule valid => ?_
  obtain ⟨document, _, compiled⟩ := Rule.exists_document_of_validate valid
    (ManagerConfig.ofSettings settings.nginx).renderOptions
  rw [compiled]
  trivial

end Cli

end ProxyKeeper
