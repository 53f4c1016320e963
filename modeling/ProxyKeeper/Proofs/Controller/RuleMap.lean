import ProxyKeeper.Proofs.Controller.InForce

/-!
# Rule maps

What a controller keeps, seen from outside: a map from ids to files. Each change of rules updates
it, as the change and its result tell. A rule that is applied is put in, a rule that is removed is
taken out, whether or not nginx agrees, and a synchronization that succeeds replaces the whole map.
Any other change leaves it alone. Over every run of changes in a world without faults, when files
are put back after a failed reload, the rule files on disk are those of the map.

## Main Definitions

* `RuleMap` — the maps, with `RuleMap.shelf` for their files
* `Task.update` — what a change does to the map
* `RuleMap.afterAll` — the map after some changes

## Main Results

* `Task.meets_update` — one change does to the files what it does to the map
* `Controller.refines` — so does every run of changes
-/

namespace ProxyKeeper

/-- The one file that an id has, or none. -/
abbrev RuleMap := String → Option RuleFile

namespace RuleMap

variable {map : RuleMap} {id : String} {file : RuleFile}

/-- The files of a map. -/
def shelf (map : RuleMap) : Shelf := fun id => Shelf.row (map id)

/-- The map with another file for an id, or with none. -/
def set (map : RuleMap) (id : String) (file : Option RuleFile) : RuleMap :=
  Function.update map id file

/-- The files of rules. -/
def ofRules (options : RenderOptions) (rules : List Rule) : RuleMap := fun id =>
  (rules.find? (·.id = id)).bind fun rule => (rule.file options).toOption

theorem set_of_ne {i : String} (h : i ≠ id) (map : RuleMap) (file : Option RuleFile) :
    map.set id file i = map i := by
  rw [set, Function.update_of_ne h]

theorem shelf_set (map : RuleMap) (id : String) (file : Option RuleFile) :
    (map.set id file).shelf = map.shelf.set id file := by
  funext i
  by_cases same : i = id
  · subst same
    rw [shelf, set, Function.update_self, Shelf.set_self]
  · rw [shelf, set_of_ne same, Shelf.set_of_ne same, shelf]

/-- A map has one file for each id at most. -/
theorem isSingle_shelf (map : RuleMap) : map.shelf.IsSingle := by
  intro id
  show Shelf.row (map id) .http = none ∨ Shelf.row (map id) .stream = none
  cases map id with
  | none => exact .inl rfl
  | some file =>
    obtain ⟨_ | _, text⟩ := file
    · exact .inr rfl
    · exact .inl rfl

end RuleMap

/-- A shelf with exactly the files of some rules has those of their map. -/
theorem Shelf.IsExactly.eq_shelf {shelf : Shelf} {options : RenderOptions} {rules : List Rule}
    (exactly : shelf.IsExactly options rules) : shelf = (RuleMap.ofRules options rules).shelf := by
  funext id
  rw [RuleMap.shelf, RuleMap.ofRules]
  cases found : rules.find? (·.id = id) with
  | none =>
    refine exactly.nothingElse id fun rule listed => ?_
    simpa using List.find?_eq_none.1 found rule listed
  | some rule =>
    obtain ⟨file, own, row⟩ := exactly.holds rule (List.mem_of_find?_eq_some found)
    have same : rule.id = id := by simpa using List.find?_some found
    rw [← same, row, Option.bind_some, own, Except.toOption]

/-! ## One change -/

namespace Task

/-- The rules that a task is given. -/
def rules : Task → List Rule
  | .apply rule => [rule]
  | .sync rules => rules
  | _ => []

/-- Whether a task may change the files of an id. A synchronization is about all ids. -/
def concerns : Task → String → Prop
  | .apply rule, id => id = rule.id
  | .remove removed, id => id = removed
  | .sync _, _ => True
  | _, _ => False

/-- What a task with its result does to the map. -/
def update (options : RenderOptions) : Task → TaskResult → RuleMap → RuleMap
  | .apply rule, .applied outcome, map =>
    if rule.validate.isOk then
      if rule.enabled then
        if outcome.isOk then map.set rule.id (rule.file options).toOption else map
      else map.set rule.id none
    else map
  | .remove id, .removed _, map => map.set id none
  | .sync rules, .synced (.ok _), _ => RuleMap.ofRules options (rules.filter (·.enabled))
  | _, _, map => map

/-- The map keeps the files of the ids that a task is not about. -/
theorem update_of_not_concerns {options : RenderOptions} {task : Task} {result : TaskResult}
    {map : RuleMap} {id : String} (other : ¬ task.concerns id) :
    task.update options result map id = map id := by
  cases task with
  | apply rule =>
    cases result with
    | applied outcome =>
      rw [update]
      repeat' split
      · exact RuleMap.set_of_ne other _ _
      · rfl
      · exact RuleMap.set_of_ne other _ _
      · rfl
    | _ => rfl
  | remove removed =>
    cases result with
    | removed outcome => exact RuleMap.set_of_ne other _ _
    | _ => rfl
  | sync rules => exact absurd trivial other
  | _ => rfl

end Task

namespace Controller

open Site

variable {controller : Controller} {site : Site} {live : Live} {before : Shelf} {id : String}

/-- A removal that succeeds has removed the files. -/
theorem Removed.exists_at (removed : controller.Removed live before id site) :
    ∃ live, controller.store.At live (before.set id none) site := by
  rcases removed with ⟨same, there⟩ | there
  · exact ⟨live, same ▸ there⟩
  · exact ⟨_, there⟩

/-- Without faults, so has one that fails. What is no id has no files to remove. -/
theorem RemovalFails.exists_at {error : OperationError}
    (fails : controller.RemovalFails false live before id error site) :
    ∃ live, controller.store.At live (before.set id none) site := by
  cases fails with
  | invalid noId _ there =>
    refine ⟨live, ?_⟩
    rw [Shelf.set_none_eq_self]
    · exact there
    · intro context
      rw [← there.shelf_eq, Store.shelf, noId, if_neg Bool.false_ne_true]
  | io _ faulty _ => cases faulty
  | refused _ there => exact ⟨live, there⟩

end Controller

namespace Task

open Site

variable {controller : Controller} {site : Site} {live : Live} {map : RuleMap}

/-- A change does to the files what it does to the map, and it succeeds for valid rules only. -/
theorem meets_update (rollback : controller.config.rollbackOnApplyFailure = true)
    (here : controller.store.At live map.shelf site) {task : Task} (change : task.isChange = true) :
    (task.program controller).Meets (terms false)
      (fun result s =>
        (∃ live, controller.store.At live (task.update controller.options result map).shelf s) ∧
          (result.isOk = true → ∀ rule ∈ task.rules, rule.validate = .ok ())) site := by
  have asBefore {within : List String → Prop} {requested : Shelf → Prop}
      {error : OperationError} {s : Site}
      (undoes : controller.Undoes false live within requested map.shelf error s) :
      controller.store.At live map.shelf s := by
    obtain ⟨after, there, tells⟩ := undoes.tells map.isSingle_shelf
    rw [rollback] at tells
    rwa [tells.eq] at there
  cases task with
  | apply rule =>
    have valid (h : rule.validate = .ok ()) : ∀ given ∈ [rule], given.validate = .ok () := by
      simpa using h
    refine Program.meets_bind.2 ?_
    cases enabled : rule.enabled with
    | true =>
      let requested (_ : Shelf) : Prop := True
      have wanted (file : RuleFile) (_ : rule.file controller.options = .ok file) :
          requested (map.shelf.set rule.id (some file)) := trivial
      refine Program.Meets.mono (undoes_apply here enabled wanted) ?_
      intro outcome s ended
      cases outcome with
      | ok _ =>
        obtain ⟨validated, file, own, there⟩ := ended
        refine ⟨⟨⟨s.tree, live.reloads + 1⟩, ?_⟩, fun _ => valid validated⟩
        rw [update, validated, enabled, own]
        exact (map.shelf_set rule.id (some file)).symm ▸ there
      | error e =>
        refine ⟨⟨live, ?_⟩, nofun⟩
        rw [update, enabled]
        exact (ite_self map).symm ▸ asBefore ended
    | false =>
      refine Program.Meets.mono (removes_disabled here enabled) ?_
      intro outcome s ended
      have removed (validated : rule.validate = .ok ())
          (there : ∃ live, controller.store.At live (map.shelf.set rule.id none) s) :
          ∃ live, controller.store.At live ((Task.apply rule).update controller.options
            (.applied outcome) map).shelf s := by
        rw [update, validated, enabled]
        exact (map.shelf_set rule.id none).symm ▸ there
      cases outcome with
      | ok _ => exact ⟨removed ended.1 ended.2.exists_at, fun _ => valid ended.1⟩
      | error e =>
        refine ⟨?_, nofun⟩
        rcases ended with ⟨refused, there⟩ | ⟨validated, fails⟩
        · refine ⟨live, ?_⟩
          rw [update, refused]
          exact there
        · exact removed validated fails.exists_at
  | remove id =>
    refine Program.Meets.bind (Site.removes here id) ?_
    intro outcome s ended
    refine ⟨?_, fun _ => by simp [rules]⟩
    show ∃ live, controller.store.At live (map.set id none).shelf s
    rw [RuleMap.shelf_set]
    cases outcome with
    | ok _ => exact Controller.Removed.exists_at ended
    | error e => exact Controller.RemovalFails.exists_at ended
  | sync given =>
    refine Program.Meets.bind (undoes_sync here given) ?_
    intro outcome s ended
    cases outcome with
    | ok report =>
      obtain ⟨valid, after, syncs, there⟩ := ended
      refine ⟨?_, fun _ => valid⟩
      show ∃ live, controller.store.At live
        (RuleMap.ofRules controller.options (given.filter (·.enabled))).shelf s
      rw [← (syncs.isExactly map.isSingle_shelf).eq_shelf]
      rcases there with there | ⟨same, there⟩
      · exact ⟨_, there⟩
      · exact ⟨live, same ▸ there⟩
    | error e => exact ⟨⟨live, asBefore ended⟩, nofun⟩
  | bootstrap => cases change
  | status => cases change
  | gate => cases change
  | list => cases change

end Task

/-! ## Runs of changes -/

/-- The map after some changes that began with none. -/
def RuleMap.afterAll (options : RenderOptions) (calls : List (Task × TaskResult)) : RuleMap :=
  calls.foldl (fun map call => call.1.update options call.2 map) fun _ => none

theorem Rule.file_of_toOption {rule : Rule} {options : RenderOptions} {ruleFile : RuleFile}
    (h : (rule.file options).toOption = some ruleFile) : rule.file options = .ok ruleFile := by
  cases is : rule.file options with
  | ok own =>
    rw [is] at h
    exact congrArg _ (Option.some.inj h)
  | error e =>
    rw [is] at h
    cases h

/-- Whether every file of a map is that of a rule that is enabled and valid, and was given. -/
def RuleMap.ComesFrom (map : RuleMap) (options : RenderOptions) (given : List Rule) : Prop :=
  ∀ id file, map id = some file →
    ∃ rule ∈ given, rule.enabled = true ∧ rule.validate = .ok () ∧ rule.id = id ∧
      rule.file options = .ok file

namespace RuleMap.ComesFrom

variable {map : RuleMap} {options : RenderOptions} {given wider : List Rule}

theorem mono (comes : map.ComesFrom options given) (widens : given ⊆ wider) :
    map.ComesFrom options wider := by
  intro id file held
  obtain ⟨rule, listed, is⟩ := comes id file held
  exact ⟨rule, widens listed, is⟩

theorem set_none (comes : map.ComesFrom options given) (id : String) :
    (map.set id none).ComesFrom options given := by
  intro i file held
  by_cases same : i = id
  · rw [same, set, Function.update_self] at held
    cases held
  · rw [set_of_ne same] at held
    exact comes i file held

/-- The file of a rule that is put in comes from that rule. -/
theorem set_rule (comes : map.ComesFrom options given) {rule : Rule} (listed : rule ∈ given)
    (enabled : rule.enabled = true) (valid : rule.validate = .ok ()) :
    (map.set rule.id (rule.file options).toOption).ComesFrom options given := by
  intro i file held
  by_cases same : i = rule.id
  · rw [same, set, Function.update_self] at held
    exact ⟨rule, listed, enabled, valid, same.symm, Rule.file_of_toOption held⟩
  · rw [set_of_ne same] at held
    exact comes i file held

theorem ofRules (rules : List Rule) (valid : ∀ rule ∈ rules, rule.validate = .ok ()) :
    (RuleMap.ofRules options (rules.filter (·.enabled))).ComesFrom options rules := by
  intro id file held
  obtain ⟨rule, found, own⟩ := Option.bind_eq_some_iff.1 held
  obtain ⟨listed, enabled⟩ := List.mem_filter.1 (List.mem_of_find?_eq_some found)
  exact ⟨rule, listed, enabled, valid rule listed, by simpa using List.find?_some found,
    Rule.file_of_toOption own⟩

/-- A change puts in what it is given only. -/
theorem update (comes : map.ComesFrom options given) (task : Task) (result : TaskResult)
    (valid : result.isOk = true → ∀ rule ∈ task.rules, rule.validate = .ok ()) :
    (task.update options result map).ComesFrom options (given ++ task.rules) := by
  have kept := comes.mono (List.subset_append_left given task.rules)
  cases task with
  | apply rule =>
    cases result with
    | applied outcome =>
      rw [Task.update]
      cases enabled : rule.enabled with
      | true =>
        cases outcome with
        | ok _ =>
          have validated := valid rfl rule (List.mem_singleton_self rule)
          rw [validated]
          exact kept.set_rule (by simp [Task.rules]) enabled validated
        | error e => exact (ite_self map).symm ▸ kept
      | false =>
        split
        · exact kept.set_none rule.id
        · exact kept
    | _ => exact kept
  | remove id =>
    cases result with
    | removed outcome => exact kept.set_none id
    | _ => exact kept
  | sync rules =>
    cases result with
    | synced outcome =>
      cases outcome with
      | ok report =>
        exact (ComesFrom.ofRules rules (valid rfl)).mono (List.subset_append_right given rules)
      | error e => exact kept
    | _ => exact kept
  | _ => exact kept

end RuleMap.ComesFrom

namespace Controller

open Site

variable {controller : Controller} {site site' : Site} {calls : List (Task × TaskResult)}

/-- The rule files of a site are those of a map, which come from rules that were given. -/
structure Keeps (controller : Controller) (map : RuleMap) (given : List Rule) (site : Site) :
    Prop where
  here : ∃ live, controller.store.At live map.shelf site
  comes : map.ComesFrom controller.options given

/-- One change keeps it so. -/
theorem Keeps.call {map : RuleMap} {given : List Rule} (keeps : controller.Keeps map given site)
    (rollback : controller.config.rollbackOnApplyFailure = true) {task : Task}
    {result : TaskResult} (change : task.isChange = true)
    (ends : (task.program controller).Ends (terms false) site result site') :
    controller.Keeps (task.update controller.options result map) (given ++ task.rules) site' := by
  obtain ⟨live, here⟩ := keeps.here
  obtain ⟨there, valid⟩ := (Task.meets_update rollback here change).of_ends ends
  exact ⟨there, keeps.comes.update task result valid⟩

/-- A run of changes keeps it so. -/
theorem Keeps.run {map : RuleMap} {given : List Rule} (keeps : controller.Keeps map given site)
    (rollback : controller.config.rollbackOnApplyFailure = true)
    (changes : ∀ call ∈ calls, call.1.isChange = true) (runs : controller.Runs site calls site') :
    controller.Keeps (calls.foldl (fun map call => call.1.update controller.options call.2 map) map)
      (given ++ calls.flatMap fun call => call.1.rules) site' := by
  induction runs generalizing map given with
  | nil site => simpa using keeps
  | cons ends runs ih =>
    obtain ⟨change, changes⟩ := List.forall_mem_cons.1 changes
    have rest := ih (keeps.call rollback change ends) changes
    rwa [List.append_assoc] at rest

/-- A controller is a map. In a run of changes without faults, when files are put back after a
failed reload and there were no rule files at first, the rule files on disk are always those of the
map that the changes with their results update. So no id has two files, every file is that of an
enabled and valid rule that was given, and no change touches the file of an id that it is not
about. -/
theorem refines (controller : Controller)
    (rollback : controller.config.rollbackOnApplyFailure = true) {site site' : Site}
    {calls : List (Task × TaskResult)} (tidy : controller.store.Tidy site.tree)
    (empty : ∀ id context, controller.store.shelf site.tree id context = none)
    (changes : ∀ call ∈ calls, call.1.isChange = true)
    (runs : controller.Runs site calls site') :
    controller.store.shelf site'.tree = (RuleMap.afterAll controller.options calls).shelf ∧
      (controller.store.shelf site'.tree).IsSingle ∧
      (∀ id context content, controller.store.shelf site'.tree id context = some content →
        ∃ call ∈ calls, ∃ rule ∈ call.1.rules, rule.enabled = true ∧ rule.validate = .ok () ∧
          rule.id = id ∧ rule.context = context ∧
          ∃ text, rule.compile controller.options = .ok text ∧ content = text.toUTF8) ∧
      ∀ (task : Task) result after, task.isChange = true →
        (task.program controller).Ends (terms false) site' result after →
          ∀ id, ¬ task.concerns id →
            controller.store.shelf after.tree id = controller.store.shelf site'.tree id := by
  have start : controller.Keeps (fun _ => none) [] site := by
    refine ⟨⟨site.live, rfl, tidy, ?_⟩, nofun⟩
    funext id context
    exact empty id context
  have keeps := start.run rollback changes runs
  obtain ⟨live, here⟩ := keeps.here
  have same : controller.store.shelf site'.tree = (RuleMap.afterAll controller.options calls).shelf :=
    here.shelf_eq
  refine ⟨same, ?_, ?_, ?_⟩
  · rw [same]
    exact RuleMap.isSingle_shelf _
  · intro id context content held
    rw [same] at held
    obtain ⟨file, is, inContext, text⟩ := Shelf.exists_of_row held
    obtain ⟨rule, given, enabled, valid, own, compiled⟩ := keeps.comes id file is
    obtain ⟨call, called, listed⟩ := List.mem_flatMap.1 given
    exact ⟨call, called, rule, listed, enabled, valid, own,
      (Rule.context_of_file compiled).symm.trans inContext, file.text,
      Rule.compile_of_file compiled, text⟩
  · intro task result after change ends id other
    obtain ⟨live', there⟩ := (keeps.call rollback change ends).here
    rw [there.shelf_eq, same]
    exact congrArg Shelf.row (Task.update_of_not_concerns other)

/-- A rule is applied, and again for plain connections, and nginx refuses another one: there is one
file, that of the second call. -/
theorem refines_moved :
    let controller : Controller := ⟨{ activeDir := ⟨"/a"⟩ }⟩
    let web : Rule :=
      { id := "web", targetContainer := "web", targetPort := 80, created := .epoch }
    let plain : Rule := { web with protocol := .tcp }
    let api : Rule := { web with id := "api" }
    let tree : Tree := { entries := [(["a"], .directory)] }
    let calls : List (Task × TaskResult) :=
      [(.apply web, .applied (.ok web)), (.apply plain, .applied (.ok plain)),
        (.apply api, .applied (.error (.testFailed "no")))]
    ∃ site, controller.Runs ⟨tree, ⟨tree, 0⟩⟩ calls site ∧
      controller.store.shelf site.tree "web" .http = none ∧
      controller.store.shelf site.tree "web" .stream = some
        "# (web)\n\nserver \x7b\n    listen 80;\n    proxy_pass web:80;\n\x7d\n".toUTF8 ∧
      controller.store.shelf site.tree "api" .http = none := by
  intro controller web plain api tree calls
  let accept : Nginx.Reply := .finished { success := true }
  let replies := [accept, accept, accept, accept, .finished { stderr := "no" }]
  have told : ((controller.followAll? (calls.map Prod.fst) (replies, ⟨tree, ⟨tree, 0⟩⟩)).map
      Prod.fst) = some calls := by decide +kernel
  obtain ⟨⟨run, left, site⟩, followed, rfl⟩ := Option.map_eq_some_iff.1 told
  have runs := runs_followAll? followed
  have tidy : controller.store.Tidy tree := by
    refine Store.Tidy.of_entries (by decide) ?_ ?_ ⟨["a"], ?_⟩ (by decide)
    · decide
    · simp [tree]
    · decide
  have empty (id : String) (context : Context) : controller.store.shelf tree id context = none := by
    refine Store.shelf_eq_none fun context directory leads name content listed => ?_
    simp [tree] at listed
  have changes : ∀ call ∈ calls, call.1.isChange = true := by simp [calls, Task.isChange]
  have same := (@refines controller rfl ⟨tree, ⟨tree, 0⟩⟩ site calls tidy empty changes runs).1
  refine ⟨site, runs, ?_⟩
  rw [same]
  decide +kernel

/-- Where the directory of plain connections is the active directory itself, by way of a link, a
rule is applied, and there is no file. -/
theorem not_refines_link :
    let controller : Controller := ⟨{ activeDir := ⟨"/a"⟩ }⟩
    let rule : Rule :=
      { id := "web", targetContainer := "web", targetPort := 80, created := .epoch }
    let tree : Tree := { entries := [(["a"], .directory), (["a", "stream"], .link ⟨"."⟩)] }
    let calls : List (Task × TaskResult) := [(.apply rule, .applied (.ok rule))]
    controller.config.rollbackOnApplyFailure = true ∧
      (∀ id context, controller.store.shelf tree id context = none) ∧
      ∃ site, controller.Runs ⟨tree, ⟨tree, 0⟩⟩ calls site ∧
        controller.store.shelf site.tree ≠ (RuleMap.afterAll controller.options calls).shelf := by
  intro controller rule tree calls
  refine ⟨rfl, ?_, ?_⟩
  · intro id context
    refine Store.shelf_eq_none fun context directory leads name content listed => ?_
    simp [tree] at listed
  · have told : ((controller.followAll? (calls.map Prod.fst) ([], ⟨tree, ⟨tree, 0⟩⟩)).map
        fun ended => (ended.1, controller.store.shelf ended.2.2.tree "web" .http)) =
          some (calls, none) := by decide +kernel
    obtain ⟨⟨run, left, site⟩, followed, told⟩ := Option.map_eq_some_iff.1 told
    obtain ⟨rfl, missing⟩ := Prod.mk.inj told
    refine ⟨site, runs_followAll? followed, fun same => ?_⟩
    -- the map has a file where there is none
    have held : ((RuleMap.afterAll controller.options calls).shelf "web" .http).isSome = true := by
      decide +kernel
    rw [← same, missing] at held
    cases held

end Controller

end ProxyKeeper
