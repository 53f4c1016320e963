import ProxyKeeper.Proofs.Controller.RollBack
import ProxyKeeper.Proofs.Rule.Valid

/-!
# The files that rules call for

A list of rules that is accepted calls for one file for each enabled rule, under different ids that
can be names of files. A list that is not accepted is refused before any file is touched.

## Main Definitions

* `OperationError.IsInvalid` — a rule is refused, or has no document
* `Rule.calledFor` — the files that rules call for
* `Shelf.IsExactly` — the shelf holds the files of some rules and no others
* `Shelf.Syncs` — what a shelf becomes in step with some rules

## Main Results

* `Controller.desiredFiles_ok`, `Controller.desiredFiles_error` — the files, or the refusal
* `Controller.desiredFiles_perm` — the order of the rules is that of the files
* `Shelf.syncs_of_desiredFiles` — a shelf in step with the files called for
-/

namespace ProxyKeeper

/-- Whether an operation fails because a rule is not valid, or has no document. -/
def OperationError.IsInvalid (error : OperationError) : Prop :=
  (∃ id field reason, error = .validation id field reason) ∨ ∃ id reason, error = .compile id reason

theorem OperationError.IsInvalid.tells {error : OperationError} (invalid : error.IsInvalid)
    {rollback faults : Bool} {requested : Shelf → Prop} {shelf : Shelf} :
    error.Tells rollback faults requested shelf shelf := by
  obtain ⟨id, field, reason, rfl⟩ | ⟨id, reason, rfl⟩ := invalid
  · rfl
  · rfl

namespace Rule

variable {rule : Rule} {error : OperationError}

theorem validation_of_validate (h : rule.validate = .error error) :
    ∃ id field reason, error = .validation id field reason := by
  rw [validate] at h
  split at h
  next => cases h
  next fault _ =>
    cases h
    exact ⟨_, _, _, rfl⟩

theorem isInvalid_of_validate (h : rule.validate = .error error) : error.IsInvalid :=
  .inl (validation_of_validate h)

/-- The file of a rule belongs to its context. -/
theorem context_of_file {options : RenderOptions} {ruleFile : RuleFile}
    (h : rule.file options = .ok ruleFile) : ruleFile.context = rule.context := by
  rw [file] at h
  cases compiled : rule.compile options with
  | ok text =>
    rw [compiled] at h
    cases h
    rfl
  | error e =>
    rw [compiled] at h
    cases h

/-- The text of the file of a rule is its document. -/
theorem compile_of_file {options : RenderOptions} {ruleFile : RuleFile}
    (h : rule.file options = .ok ruleFile) : rule.compile options = .ok ruleFile.text := by
  rw [file] at h
  cases compiled : rule.compile options with
  | ok text =>
    rw [compiled] at h
    cases h
    rfl
  | error e =>
    rw [compiled] at h
    cases h

theorem isInvalid_of_file {options : RenderOptions} (h : rule.file options = .error error) :
    error.IsInvalid := by
  rw [file, compile] at h
  cases rendered : rule.render options with
  | ok text =>
    rw [rendered] at h
    cases h
  | error fault =>
    rw [rendered] at h
    cases h
    exact .inr ⟨_, _, rfl⟩

/-- The files that rules call for, by id. -/
def calledFor (options : RenderOptions) (rules : List Rule) : List (String × Option RuleFile) :=
  rules.map fun rule => (rule.id, (rule.file options).toOption)

end Rule

namespace Controller

variable {rules : List Rule} {error : OperationError}

/-! ## Checks -/

/-- Rules that pass the checks have different ids, and each is valid. -/
theorem checkRules_ok {seen : List String} (h : checkRules seen rules = .ok ()) :
    (rules.map Rule.id).Nodup ∧ ∀ rule ∈ rules, rule.id ∉ seen ∧ rule.validate = .ok () := by
  induction rules generalizing seen with
  | nil => exact ⟨List.nodup_nil, by simp⟩
  | cons rule rules ih =>
    rw [checkRules] at h
    split at h
    next => cases h
    next unseen =>
      cases valid : rule.validate with
      | error e =>
        rw [valid] at h
        cases h
      | ok _ =>
        rw [valid] at h
        simp only [bind, Except.bind] at h
        obtain ⟨nodup, rest⟩ := ih h
        refine ⟨?_, List.forall_mem_cons.2 ⟨⟨?_, valid⟩, ?_⟩⟩
        · rw [List.map_cons, List.nodup_cons]
          refine ⟨?_, nodup⟩
          -- the checks of the rest have seen this id
          intro again
          obtain ⟨other, listed, same⟩ := List.mem_map.1 again
          exact (rest other listed).1 (same ▸ List.mem_cons_self ..)
        · simpa using unseen
        · intro other listed
          obtain ⟨fresh, validOther⟩ := rest other listed
          exact ⟨fun old => fresh (List.mem_cons_of_mem _ old), validOther⟩

/-- Rules with different ids, all valid, pass the checks. -/
theorem checkRules_eq_ok {seen : List String} (nodup : (rules.map Rule.id).Nodup)
    (each : ∀ rule ∈ rules, rule.id ∉ seen ∧ rule.validate = .ok ()) :
    checkRules seen rules = .ok () := by
  induction rules generalizing seen with
  | nil => rfl
  | cons rule rules ih =>
    obtain ⟨⟨unseen, valid⟩, each⟩ := List.forall_mem_cons.1 each
    obtain ⟨apart, nodup⟩ := List.nodup_cons.1 nodup
    rw [checkRules, if_neg (by simpa using unseen), valid]
    refine ih nodup fun other listed => ⟨?_, (each other listed).2⟩
    rw [List.mem_cons, not_or]
    refine ⟨fun same => ?_, (each other listed).1⟩
    exact apart (same ▸ List.mem_map_of_mem listed)

theorem checkRules_error {seen : List String} (h : checkRules seen rules = .error error) :
    ∃ id field reason, error = .validation id field reason := by
  induction rules generalizing seen with
  | nil => cases h
  | cons rule rules ih =>
    rw [checkRules] at h
    split at h
    next =>
      cases h
      exact ⟨_, _, _, rfl⟩
    next =>
      cases valid : rule.validate with
      | error e =>
        rw [valid] at h
        cases h
        exact Rule.validation_of_validate valid
      | ok _ =>
        rw [valid] at h
        simp only [bind, Except.bind] at h
        exact ih h

/-! ## Files -/

theorem filesOf_cons_ok_iff {options : RenderOptions} {rule : Rule}
    {files : List (String × RuleFile)} :
    filesOf options (rule :: rules) = .ok files ↔ ∃ file rest, rule.file options = .ok file ∧
      filesOf options rules = .ok rest ∧ files = (rule.id, file) :: rest := by
  rw [filesOf]
  cases own : rule.file options with
  | error e => exact ⟨nofun, nofun⟩
  | ok file =>
    cases others : filesOf options rules with
    | error e => exact ⟨nofun, nofun⟩
    | ok rest =>
      simp only [bind, Except.bind, Except.ok.injEq]
      constructor
      · rintro rfl
        exact ⟨file, rest, rfl, rfl, rfl⟩
      · rintro ⟨_, _, rfl, rfl, rfl⟩
        rfl

/-- The files of rules are one for each, in their order. -/
theorem filesOf_ok {options : RenderOptions} {files : List (String × RuleFile)}
    (h : filesOf options rules = .ok files) :
    files.map Prod.fst = rules.map Rule.id ∧
      ∀ rule ∈ rules, ∃ file, rule.file options = .ok file ∧ (rule.id, file) ∈ files := by
  induction rules generalizing files with
  | nil =>
    cases h
    exact ⟨rfl, by simp⟩
  | cons rule rules ih =>
    obtain ⟨file, rest, own, others, rfl⟩ := filesOf_cons_ok_iff.1 h
    obtain ⟨ids, held⟩ := ih others
    refine ⟨?_, List.forall_mem_cons.2 ⟨⟨file, own, List.mem_cons_self ..⟩, ?_⟩⟩
    · rw [List.map_cons, List.map_cons, ids]
    · intro other listed
      obtain ⟨f, is, inRest⟩ := held other listed
      exact ⟨f, is, List.mem_cons_of_mem _ inRest⟩

/-- So each id has the file that its rule calls for. -/
theorem calledFor_of_filesOf {options : RenderOptions} {files : List (String × RuleFile)}
    (h : filesOf options rules = .ok files) :
    Shelf.calledFor files = Rule.calledFor options rules := by
  induction rules generalizing files with
  | nil =>
    cases h
    rfl
  | cons rule rules ih =>
    obtain ⟨file, rest, own, others, rfl⟩ := filesOf_cons_ok_iff.1 h
    rw [Shelf.calledFor, List.map_cons, ← Shelf.calledFor, ih others, Rule.calledFor,
      Rule.calledFor, List.map_cons, own]
    rfl

/-- Rules in another order have the same files, in another order. -/
theorem filesOf_perm {options : RenderOptions} {rules' : List Rule}
    {files : List (String × RuleFile)} (perm : rules'.Perm rules)
    (h : filesOf options rules = .ok files) :
    ∃ files', filesOf options rules' = .ok files' ∧ files'.Perm files := by
  induction perm generalizing files with
  | nil => exact ⟨files, h, .refl files⟩
  | cons rule _ ih =>
    obtain ⟨file, rest, own, others, rfl⟩ := filesOf_cons_ok_iff.1 h
    obtain ⟨rest', others', same⟩ := ih others
    exact ⟨_, filesOf_cons_ok_iff.2 ⟨file, rest', own, others', rfl⟩, same.cons _⟩
  | swap rule other rules =>
    obtain ⟨file, _, own, others, rfl⟩ := filesOf_cons_ok_iff.1 h
    obtain ⟨file', rest, own', others', rfl⟩ := filesOf_cons_ok_iff.1 others
    have swapped := filesOf_cons_ok_iff.2 ⟨file, rest, own, others', rfl⟩
    exact ⟨_, filesOf_cons_ok_iff.2 ⟨file', _, own', swapped, rfl⟩, .swap ..⟩
  | trans _ _ ih ih' =>
    obtain ⟨_, h, same⟩ := ih' h
    obtain ⟨files', h, same'⟩ := ih h
    exact ⟨files', h, same'.trans same⟩

theorem filesOf_error {options : RenderOptions} (h : filesOf options rules = .error error) :
    error.IsInvalid := by
  induction rules with
  | nil => cases h
  | cons rule rules ih =>
    rw [filesOf] at h
    cases own : rule.file options with
    | error e =>
      rw [own] at h
      cases h
      exact Rule.isInvalid_of_file own
    | ok file =>
      cases others : filesOf options rules with
      | error e =>
        rw [own, others] at h
        cases h
        exact ih others
      | ok rest =>
        rw [own, others] at h
        cases h

variable {controller : Controller}

/-- The files that rules call for: one for each enabled rule, under ids that differ. -/
theorem desiredFiles_ok {files : List (String × RuleFile)}
    (h : controller.desiredFiles rules = .ok files) :
    (files.map Prod.fst).Nodup ∧ (∀ named ∈ files, isRuleId named.1 = true) ∧
      files.map Prod.fst = (rules.filter (·.enabled)).map Rule.id ∧
      ∀ rule ∈ rules.filter (·.enabled),
        ∃ file, rule.file controller.options = .ok file ∧ (rule.id, file) ∈ files := by
  rw [desiredFiles] at h
  cases checked : checkRules [] rules with
  | error e =>
    rw [checked] at h
    cases h
  | ok _ =>
    rw [checked] at h
    obtain ⟨nodup, valid⟩ := checkRules_ok checked
    obtain ⟨ids, held⟩ := filesOf_ok h
    refine ⟨?_, ?_, ids, held⟩
    · rw [ids]
      exact nodup.sublist (List.filter_sublist.map _)
    · intro named listed
      have listed : named.1 ∈ files.map Prod.fst := List.mem_map_of_mem listed
      rw [ids] at listed
      obtain ⟨rule, inRules, same⟩ := List.mem_map.1 listed
      rw [← same]
      exact Rule.isRuleId_of_validate (valid rule (List.mem_filter.1 inRules).1).2

/-- Each id has the file that its rule calls for. -/
theorem calledFor_of_desiredFiles {files : List (String × RuleFile)}
    (h : controller.desiredFiles rules = .ok files) :
    Shelf.calledFor files = Rule.calledFor controller.options (rules.filter (·.enabled)) := by
  rw [desiredFiles] at h
  cases checked : checkRules [] rules with
  | error e =>
    rw [checked] at h
    cases h
  | ok _ =>
    rw [checked] at h
    exact calledFor_of_filesOf h

/-- Rules in another order call for the same files, in another order. -/
theorem desiredFiles_perm {rules' : List Rule} {files : List (String × RuleFile)}
    (perm : rules'.Perm rules) (h : controller.desiredFiles rules = .ok files) :
    ∃ files', controller.desiredFiles rules' = .ok files' ∧ files'.Perm files := by
  rw [desiredFiles] at h
  cases checked : checkRules [] rules with
  | error e =>
    rw [checked] at h
    cases h
  | ok _ =>
    rw [checked] at h
    obtain ⟨nodup, each⟩ := checkRules_ok checked
    have checked' : checkRules [] rules' = .ok () :=
      checkRules_eq_ok ((perm.map Rule.id).nodup_iff.2 nodup) fun rule listed =>
        each rule (perm.mem_iff.1 listed)
    rw [desiredFiles, checked']
    exact filesOf_perm (perm.filter _) h

/-- Files are called for by valid rules only. -/
theorem validate_of_desiredFiles {files : List (String × RuleFile)}
    (h : controller.desiredFiles rules = .ok files) : ∀ rule ∈ rules, rule.validate = .ok () := by
  rw [desiredFiles] at h
  cases checked : checkRules [] rules with
  | error e =>
    rw [checked] at h
    cases h
  | ok _ => exact fun rule listed => ((checkRules_ok checked).2 rule listed).2

/-- Rules that are not accepted are refused for what they are. -/
theorem desiredFiles_error (h : controller.desiredFiles rules = .error error) :
    error.IsInvalid := by
  rw [desiredFiles] at h
  cases checked : checkRules [] rules with
  | error e =>
    rw [checked] at h
    cases h
    exact .inl (checkRules_error checked)
  | ok _ =>
    rw [checked] at h
    exact filesOf_error h

end Controller

/-- Whether the files on a shelf are those of some rules and no others. -/
structure Shelf.IsExactly (shelf : Shelf) (options : RenderOptions) (rules : List Rule) :
    Prop where
  holds : ∀ rule ∈ rules, ∃ file, rule.file options = .ok file ∧
    shelf rule.id = Shelf.row (some file)
  nothingElse : ∀ id, (∀ rule ∈ rules, rule.id ≠ id) → shelf id = Shelf.row none

/-- Whether a shelf is what another one becomes when it is brought in step with some rules: each of
their ids with its file, and no other id with any. -/
structure Shelf.Syncs (before : Shelf) (options : RenderOptions) (rules : List Rule)
    (after : Shelf) : Prop where
  holds : ∀ rule ∈ rules, ∃ file, rule.file options = .ok file ∧
    after rule.id = Shelf.inStepWith (before rule.id) file
  nothingElse : ∀ id, (∀ rule ∈ rules, rule.id ≠ id) → after id = Shelf.row none

/-- Where no id had two files, what is brought in step with rules has their files and no others. -/
theorem Shelf.Syncs.isExactly {before after : Shelf} {options : RenderOptions} {rules : List Rule}
    (syncs : before.Syncs options rules after) (single : before.IsSingle) :
    after.IsExactly options rules := by
  refine ⟨fun rule listed => ?_, syncs.nothingElse⟩
  obtain ⟨file, own, held⟩ := syncs.holds rule listed
  exact ⟨file, own, held.trans (Shelf.inStepWith_eq_row (single rule.id))⟩

/-- A shelf that was brought in step with the files that rules call for. -/
theorem Shelf.syncs_of_desiredFiles {controller : Controller} {rules : List Rule}
    {files : List (String × RuleFile)} {before after : Shelf}
    (h : controller.desiredFiles rules = .ok files)
    (held : ∀ named ∈ files, after named.1 = Shelf.inStepWith (before named.1) named.2)
    (others : ∀ id, id ∉ files.map Prod.fst → after id = Shelf.row none) :
    before.Syncs controller.options (rules.filter (·.enabled)) after := by
  obtain ⟨_, _, ids, called⟩ := Controller.desiredFiles_ok h
  refine ⟨?_, ?_⟩
  · intro rule listed
    obtain ⟨file, is, inFiles⟩ := called rule listed
    exact ⟨file, is, held _ inFiles⟩
  · intro id absent
    refine others id ?_
    rw [ids]
    intro listed
    obtain ⟨rule, inRules, same⟩ := List.mem_map.1 listed
    exact absent rule inRules same

end ProxyKeeper
