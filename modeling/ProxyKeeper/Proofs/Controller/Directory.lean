import Mathlib.Data.List.Nodup
import ProxyKeeper.Libraries
import ProxyKeeper.Proofs.Controller.Desired
import ProxyKeeper.Proofs.Controller.Enumeration
import ProxyKeeper.Proofs.Rule.Directory

/-!
# Directories of rules in force

A directory of rules is loaded and brought into force, and nothing of what comes of it depends on
the order in which the directory is enumerated. The rules are sorted by id, but that does not tell
apart those that have the same id: these come in the order of their entries. What makes up for it is
that such rules are refused, whichever of them comes first, and that the refusal only tells the id.

Rules that differ in id are told by their ids once they are sorted. So there are two cases, and the
files that are called for are the same in both. The time of loading is in the rules, but not in what
is called for.

## Main Definitions

* `Rule.AreSorted` — rules in the order of their ids
* `Rule.Gives` — what the entries of a directory give, each by itself

## Main Results

* `Controller.desiredFiles_eq_of_perm` — valid rules that are sorted call for the same files
* `Controller.sync_loaded` — what is loaded from a directory, and what comes of it
-/

namespace ProxyKeeper

open Program

namespace Rule

variable {readers : Readers} {now now' : Timestamp} {tree : Tree} {root path directory : Path}
  {rule : Rule}

/-! ## Rules by id -/

/-- Whether rules stand in the order of their ids. -/
def AreSorted (rules : List Rule) : Prop :=
  rules.Pairwise fun a b => a.id ≤ b.id

theorem areSorted_mergeSort (rules : List Rule) : AreSorted (rules.mergeSort precedes) := by
  have sorted : (rules.mergeSort precedes).Pairwise fun a b => precedes a b = true := by
    refine List.pairwise_mergeSort ?_ ?_ rules
    · intro a b c first second
      simp only [precedes, decide_eq_true_eq] at first second ⊢
      exact String.le_trans first second
    · intro a b
      simpa [precedes] using String.le_total a.id b.id
  exact sorted.imp fun before => of_decide_eq_true before

/-! ## The time of loading -/

/-- A rule without the time of its creation. -/
def untimed (rule : Rule) : Rule :=
  { rule with created := .epoch }

theorem isSameBut_untimed (rule : Rule) : rule.IsSameBut rule.untimed :=
  ⟨_, rfl⟩

/-- An entry gives the same rule at any time, but for the time of creation. -/
theorem map_untimed_given (readers : Readers) (now now' : Timestamp) (tree : Tree)
    (root path : Path) :
    (given readers now' tree root path).map untimed =
      (given readers now tree root path).map untimed := by
  have later (now now' : Timestamp) {rule : Rule}
      (is : given readers now tree root path = some rule) :
      (given readers now' tree root path).map untimed = some rule.untimed := by
    obtain ⟨canonical, located, isFile, loaded⟩ := given_eq_some_iff.1 is
    obtain ⟨_, loaded', created, rfl⟩ := loaded.anytime now' rfl rfl
    rw [given_eq_some_iff.2 ⟨canonical, located, isFile, loaded'⟩]
    rfl
  cases is : given readers now tree root path with
  | some rule => exact later now now' is
  | none =>
    cases is' : given readers now' tree root path with
    | none => rfl
    | some rule' =>
      have missing := later now' now is'
      rw [is] at missing
      cases missing

/-- The rules of a directory are the same at any time, but for the times of creation. -/
theorem map_untimed_rulesOf (readers : Readers) (now now' : Timestamp) (tree : Tree)
    (root directory : Path) (names : List String) :
    (rulesOf readers now' tree root directory names).map untimed =
      (rulesOf readers now tree root directory names).map untimed := by
  have sorted (rules : List Rule) :
      (rules.mergeSort precedes).map untimed = (rules.map untimed).mergeSort precedes :=
    List.map_mergeSort fun _ _ _ _ => rfl
  rw [rulesOf, rulesOf, sorted, sorted, List.map_filterMap, List.map_filterMap]
  simp only [map_untimed_given readers now now']

/-! ## What is loaded -/

/-- What the entries of a directory give: the rule that each of them gives, whatever else is listed
with it. -/
structure Gives (readers : Readers) (now : Timestamp) (tree : Tree) (directory : Path)
    (found : String → Option Rule) : Prop where
  each : ∀ name rule, found name = some rule ↔ IsGivenBy readers now tree directory name rule
  alone : ∀ root names, tree.canonical directory = .ok root →
    (loadEntries readers now root directory names).run.onTree tree = .ok (names.filterMap found)

theorem gives_given (located : tree.canonical directory = .ok root)
    (readers : Readers) (now : Timestamp) :
    Gives readers now tree directory
      fun name => given readers now tree root (directory.child name) := by
  refine ⟨fun name rule => ?_, fun root' names located' => ?_⟩
  · rw [given_eq_some_iff, IsGivenBy]
    simp [located]
  · obtain rfl := Except.ok.inj (located.symm.trans located')
    exact onTree_loadEntries readers now tree root directory names

theorem validate_of_mem_rulesOf {names : List String}
    (listed : rule ∈ rulesOf readers now tree root directory names) : rule.validate = .ok () := by
  rw [rulesOf, List.mem_mergeSort, List.mem_filterMap] at listed
  obtain ⟨name, -, is⟩ := listed
  obtain ⟨canonical, -, -, loaded⟩ := given_eq_some_iff.1 is
  exact loaded.valid

theorem rulesOf_perm {names names' : List String} (perm : names.Perm names') :
    (rulesOf readers now tree root directory names').Perm
      (rulesOf readers now tree root directory names) :=
  (List.mergeSort_perm _ _).trans ((perm.symm.filterMap _).trans (List.mergeSort_perm _ _).symm)

end Rule

namespace Controller

variable {controller : Controller} {rules rules' : List Rule}

/-! ## What rules call for -/

/-- Of valid rules the checks see the ids only. -/
theorem checkRules_congr {seen : List String} (same : rules.map Rule.id = rules'.map Rule.id)
    (valid : ∀ rule ∈ rules, rule.validate = .ok ())
    (valid' : ∀ rule ∈ rules', rule.validate = .ok ()) :
    checkRules seen rules = checkRules seen rules' := by
  induction rules generalizing rules' seen with
  | nil =>
    obtain rfl := List.map_eq_nil_iff.1 same.symm
    rfl
  | cons rule rules ih =>
    obtain ⟨rule', rest', rfl, id, ids⟩ := List.map_eq_cons_iff.1 same.symm
    obtain ⟨own, valid⟩ := List.forall_mem_cons.1 valid
    obtain ⟨own', valid'⟩ := List.forall_mem_cons.1 valid'
    rw [checkRules, checkRules, id, own, own', show _ = _ from ih ids.symm valid valid']

/-- The same valid rules, sorted by id, call for the same files, or are refused alike. -/
theorem desiredFiles_eq_of_perm (perm : rules'.Perm rules) (sorted : Rule.AreSorted rules)
    (sorted' : Rule.AreSorted rules') (valid : ∀ rule ∈ rules, rule.validate = .ok ()) :
    controller.desiredFiles rules' = controller.desiredFiles rules := by
  have sameIds : rules'.map Rule.id = rules.map Rule.id :=
    (perm.map Rule.id).eq_of_pairwise (fun _ _ _ _ le ge => String.le_antisymm le ge)
      (List.pairwise_map.2 sorted') (List.pairwise_map.2 sorted)
  have sameChecks : checkRules [] rules' = checkRules [] rules :=
    checkRules_congr sameIds (fun rule listed => valid rule (perm.mem_iff.1 listed)) valid
  rw [desiredFiles, desiredFiles, sameChecks]
  cases checked : checkRules [] rules with
  | error e => rfl
  | ok _ =>
    -- the ids differ, so there is one order only
    have apart := List.inj_on_of_nodup_map (checkRules_ok checked).1
    have same : rules' = rules :=
      perm.eq_of_pairwise (fun a b listed listed' le ge =>
        apart (perm.mem_iff.1 listed) listed' (String.le_antisymm le ge)) sorted' sorted
    rw [same]

/-- What rules call for does not depend on the times of their creation. -/
theorem desiredFiles_map_untimed (rules : List Rule) :
    controller.desiredFiles (rules.map Rule.untimed) = controller.desiredFiles rules := by
  have checks (seen : List String) :
      checkRules seen (rules.map Rule.untimed) = checkRules seen rules := by
    induction rules generalizing seen with
    | nil => rfl
    | cons rule rules ih =>
      have valid : rule.untimed.validate = rule.validate := rule.isSameBut_untimed.validate_eq
      rw [List.map_cons, checkRules, checkRules, ih, valid]
      rfl
  have files (rules : List Rule) :
      filesOf controller.options (rules.map Rule.untimed) = filesOf controller.options rules := by
    induction rules with
    | nil => rfl
    | cons rule rules ih =>
      have own : rule.untimed.file controller.options = rule.file controller.options := by
        rw [Rule.file, Rule.file, rule.isSameBut_untimed.compile_eq]
        rfl
      rw [List.map_cons, filesOf, filesOf, own, ih]
      rfl
  have enabled : (rules.map Rule.untimed).filter (·.enabled) =
      (rules.filter (·.enabled)).map Rule.untimed := List.filter_map
  rw [desiredFiles, desiredFiles, checks, enabled, files]

/-- The rules of a directory are brought into force by the same synchronization in whatever order
the entries are listed, and at any time. -/
theorem sync_rulesOf {names names' : List String} (perm : names.Perm names')
    (readers : Readers) (now now' : Timestamp) (tree : Tree) (root directory : Path) :
    controller.sync (Rule.rulesOf readers now' tree root directory names') =
      controller.sync (Rule.rulesOf readers now tree root directory names) := by
  have same : controller.desiredFiles (Rule.rulesOf readers now' tree root directory names') =
      controller.desiredFiles (Rule.rulesOf readers now tree root directory names) := by
    rw [← desiredFiles_map_untimed, Rule.map_untimed_rulesOf readers now, desiredFiles_map_untimed]
    exact desiredFiles_eq_of_perm (Rule.rulesOf_perm perm) (Rule.areSorted_mergeSort _)
      (Rule.areSorted_mergeSort _) fun rule => Rule.validate_of_mem_rulesOf
  rw [sync, sync, same]

/-! ## Loading and bringing into force -/

/-- A directory of rules is loaded and brought into force in one way, in whatever order it is listed
and at any time. -/
theorem exists_only_end (controller : Controller) (readers : Readers) (directory : Path)
    (replies : List Nginx.Reply) (world : World) :
    ∃ result after, ∀ now result' after',
      (Rule.loadAll readers now directory >>= controller.sync).run.Ends (inAnyOrder World.meet)
          ({ replies }, world) result' after' ↔ result' = result ∧ after' = after := by
  cases listed : world.tree.list directory with
  | error fault =>
    refine ⟨.error (.ruleLoad directory.text ("failed to read directory: " ++ fault.message)),
      ({ replies }, world), fun now result' after' => ?_⟩
    rw [ExceptT.run_bind, ends_bind]
    constructor
    · rintro ⟨loaded, u, ends, rest⟩
      obtain ⟨rfl, rfl⟩ := (Rule.ends_loadAll_iff_of_error listed).1 ends
      obtain ⟨is, same⟩ := ends_done.1 rest
      exact ⟨is.symm, same.symm⟩
    · rintro ⟨rfl, rfl⟩
      exact ⟨_, _, (Rule.ends_loadAll_iff_of_error listed).2 ⟨rfl, rfl⟩, .done _ _⟩
  | ok names =>
    obtain ⟨root, located⟩ := Rule.exists_canonical_of_list listed
    let rules := Rule.rulesOf readers .epoch world.tree root directory names
    let ended := (controller.sync rules).run.run World.meet ({ replies }, world)
    have only (now : Timestamp) {names' : List String} (perm : names.Perm names')
        {result : Except OperationError SyncReport} {after : Outcomes × World} :
        (controller.sync (Rule.rulesOf readers now world.tree root directory names')).run.Ends
            (inAnyOrder World.meet) ({ replies }, world) result after ↔
          result = ended.1 ∧ after = ended.2 := by
      rw [sync_rulesOf perm readers .epoch now, (controller.ignoresOrder_sync _).ends_iff, eq_comm]
      exact Prod.ext_iff
    refine ⟨ended.1, ended.2, fun now result' after' => ?_⟩
    rw [ExceptT.run_bind, ends_bind]
    constructor
    · rintro ⟨loaded, u, ends, rest⟩
      obtain ⟨⟨names', perm, rfl⟩, rfl⟩ := (Rule.ends_loadAll_iff listed located).1 ends
      exact (only now perm).1 rest
    · intro same
      exact ⟨_, _, (Rule.ends_loadAll_iff listed located).2 ⟨⟨names, .refl names, rfl⟩, rfl⟩,
        (only now (.refl names)).2 same⟩

/-- A directory of rules is loaded and brought into force. In whatever order it is listed it is
loaded, with one rule for each entry that gives one, by id, and every such rule is valid; loading
changes nothing. What comes of both, whether a report or a failure, and the world that is left, do
not depend on the order in which directories are listed, also where several entries give rules with
the same id, nor on the time. -/
theorem sync_loaded (controller : Controller) (readers : Readers) (directory : Path)
    (replies : List Nginx.Reply) (world : World) :
    (∀ now names, world.tree.list directory = .ok names →
      ∃ found, Rule.Gives readers now world.tree directory found ∧
        (∀ result after,
          (Rule.loadAll readers now directory).run.Ends (inAnyOrder World.meet)
              ({ replies }, world) result after ↔
            (∃ order : List String, names.Perm order ∧
              result = .ok ((order.filterMap found).mergeSort Rule.precedes)) ∧
            after = ({ replies }, world)) ∧
        ∀ rules after,
          (Rule.loadAll readers now directory).run.Ends (inAnyOrder World.meet) ({ replies }, world)
              (.ok rules) after →
            rules.Perm (names.filterMap found) ∧ Rule.AreSorted rules ∧
              ∀ rule ∈ rules, rule.validate = .ok ()) ∧
    ∃ result after, ∀ now result' after',
      (Rule.loadAll readers now directory >>= controller.sync).run.Ends (inAnyOrder World.meet)
          ({ replies }, world) result' after' ↔ result' = result ∧ after' = after := by
  refine ⟨fun now names listed => ?_, exists_only_end controller readers directory replies world⟩
  obtain ⟨root, located⟩ := Rule.exists_canonical_of_list listed
  refine ⟨_, Rule.gives_given located readers now,
    fun _ _ => Rule.ends_loadAll_iff listed located, ?_⟩
  intro rules after ends
  obtain ⟨⟨order, perm, is⟩, -⟩ := (Rule.ends_loadAll_iff listed located).1 ends
  obtain rfl := Except.ok.inj is
  refine ⟨?_, Rule.areSorted_mergeSort _, fun _ => Rule.validate_of_mem_rulesOf⟩
  exact (List.mergeSort_perm _ _).trans (perm.symm.filterMap _)

/-- A directory with two rules of the same id, an entry that is no rule, one that is no file, and a
link that leads out of it. -/
theorem sync_loaded_twice :
    let rule (port : String) : Entry := .file
      ("id = \"web\"\ntarget_container = \"shop\"\ntarget_port = " ++ port).toUTF8
    let tree : Tree :=
      { entries := [(["r"], .directory), (["r", "new.toml"], rule "81"), (["r", "sub"], .directory),
        (["r", "old.toml"], rule "80"), (["r", "bad.toml"], .file "id = ".toUTF8),
        (["r", "out.toml"], .link ⟨"../x.toml"⟩), (["x.toml"], rule "82")] }
    let names := ["new.toml", "sub", "old.toml", "bad.toml", "out.toml"]
    let readers := Libraries.standard.toReaders
    tree.list ⟨"/r"⟩ = .ok names ∧
    (∀ rules after,
      (Rule.loadAll readers .epoch ⟨"/r"⟩).run.Ends (inAnyOrder World.meet) ({}, { tree })
          (.ok rules) after → rules.map Rule.id = ["web", "web"]) ∧
    ∀ now result after,
      (Rule.loadAll readers now ⟨"/r"⟩ >>= (default : Controller).sync).run.Ends
          (inAnyOrder World.meet) ({}, { tree }) result after →
        result = .error (.validation "web" "id" "duplicate id in rule set") := by
  intro rule tree names readers
  have listed : tree.list ⟨"/r"⟩ = .ok names := by decide +kernel
  obtain ⟨loads, _, _, only⟩ := sync_loaded default readers ⟨"/r"⟩ [] { tree }
  obtain ⟨found, gives, each, tells⟩ := loads .epoch names listed
  have ids (rules : List Rule) (after : Outcomes × World)
      (ends : (Rule.loadAll readers .epoch ⟨"/r"⟩).run.Ends (inAnyOrder World.meet) ({}, { tree })
        (.ok rules) after) : rules.map Rule.id = ["web", "web"] := by
    have alone := gives.alone ⟨"/r"⟩ names (by decide +kernel)
    have same : ((Rule.loadEntries readers .epoch ⟨"/r"⟩ ⟨"/r"⟩ names).run.onTree tree).map
      (·.map Rule.id) = .ok (List.replicate 2 "web") := by decide +kernel
    rw [alone] at same
    have perm := (tells rules after ends).1.map Rule.id
    rw [show (names.filterMap found).map Rule.id = _ from Except.ok.inj same] at perm
    exact List.perm_replicate.1 perm
  refine ⟨listed, ids, fun now result after ends => ?_⟩
  -- what comes at any time comes at this one
  have ends := (only .epoch result after).2 ((only now result after).1 ends)
  rw [ExceptT.run_bind, ends_bind] at ends
  obtain ⟨loaded, u, first, rest⟩ := ends
  obtain ⟨⟨order, -, rfl⟩, -⟩ := (each loaded u).1 first
  let web : Rule :=
    { id := "web", targetContainer := "shop", targetPort := 80, created := .epoch }
  have valid : web.validate = .ok () := by decide +kernel
  have refused : checkRules [] _ = checkRules [] [web, web] :=
    checkRules_congr (ids _ u first) (tells _ u first).2.2 (by simp [valid])
  have twice : checkRules [] [web, web] =
    .error (.validation "web" "id" "duplicate id in rule set") := by decide +kernel
  dsimp only at rest
  rw [sync, desiredFiles, refused, twice] at rest
  exact (ends_done.1 rest).1.symm

end Controller

end ProxyKeeper
