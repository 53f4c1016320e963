import ProxyKeeper.Cli.Execution
import ProxyKeeper.Proofs.Controller.Applied
import ProxyKeeper.Proofs.Rule.Directory

/-!
# The document that is shown is the one that is applied

Two commands make the document of a rule: one shows it, the other brings it into force. They come to
their options on different ways, for the command that shows does without settings and does not look
at them as closely. Where the rule can be applied both ways lead to the same options, and the text
that is shown is what the file of the rule holds.

## Main Definitions

* `Settings.IsLoaded` — what the file of the settings is when settings are loaded
* `Cli.Shows` — what is shown of a rule, to people and to programs

## Main Results

* `Cli.asks_render` — to show a document only looks at files
* `Cli.render_eq_applied` — what is shown is what was applied
-/

namespace ProxyKeeper

open Program

variable {readers : Readers} {environment : Environment} {now : Timestamp} {faults : Bool}
  {site after : Site} {tree : Tree} {path : Path}

/-! ## Settings -/

/-- What can be read is known. -/
theorem Tree.exists_status_of_read {content : ByteArray} (read : tree.read path = .ok content) :
    ∃ status, tree.status path = .ok status := by
  rw [Tree.read] at read
  obtain ⟨⟨location, entry⟩, found, _⟩ := exists_of_bind_ok read
  rw [status, found]
  cases entry <;> exact ⟨_, rfl⟩

namespace Settings

variable {settings : Settings}

/-- Whether settings are loaded from a path and the environment, by what a call of the file system
answers. -/
def IsLoaded (readers : Readers) (environment : Environment) (path : Path) (tree : Tree)
    (settings : Settings) : Prop :=
  ∃ stated, ofContent readers path (tree.read path) = .ok stated ∧
    (stated.override environment).checked = .ok settings

/-- Settings that were loaded were loaded from what was there. -/
theorem isLoaded_of_ends
    (ends : (load readers environment path).run.Ends (Site.terms faults) site (.ok settings)
      after) :
    IsLoaded readers environment path site.tree settings ∧ after.tree = site.tree := by
  obtain ⟨stated, u, first, second⟩ := ends_bind_ok.1 ends
  obtain ⟨answer, v, asked, told⟩ := ends_bind_ok.1 first
  obtain ⟨own, rfl⟩ := ends_mk_ok.1 told
  obtain ⟨checked, rfl⟩ := ends_mk_ok.1 second
  obtain ⟨tree, answered, rfl⟩ := Operation.ends_call_ok.1 asked
  cases answer with
  | error fault => cases own
  | ok content =>
    obtain ⟨same, same'⟩ := Prod.mk.inj answered.ok
    refine ⟨⟨stated, ?_, checked⟩, same'.symm⟩
    rw [show site.tree.read path = .ok content from same]
    exact own

/-- There is one thing at most that is loaded. -/
theorem IsLoaded.unique {other : Settings}
    (loaded : IsLoaded readers environment path tree settings)
    (loaded' : IsLoaded readers environment path tree other) : settings = other := by
  obtain ⟨stated, own, checked⟩ := loaded
  obtain ⟨stated', own', checked'⟩ := loaded'
  obtain rfl := Except.ok.inj (own.symm.trans own')
  exact Except.ok.inj (checked.symm.trans checked')

theorem IsLoaded.finds {nginx : NginxModel} {world : World}
    (loaded : IsLoaded readers environment path world.tree settings) :
    Finds nginx world (load readers environment path) settings := by
  obtain ⟨stated, own, checked⟩ := loaded
  have seen : Finds nginx world
      (ExceptT.lift (request (.file (.read path))) : Loading (FileCall.read path).Answer)
      (world.tree.read path) := finds_call rfl rfl
  have file : Finds nginx world (ofFile readers path) stated := seen.bind (finds_mk own)
  exact file.bind (finds_mk checked)

end Settings

theorem Controller.ofConfig_eq_ok_iff {config : ManagerConfig} {controller : Controller} :
    ofConfig config = .ok controller ↔ config.validate = .ok () ∧ ⟨config⟩ = controller := by
  rw [ofConfig]
  cases config.validate with
  | ok _ => exact (Except.ok.injEq ..).to_iff.trans (by simp)
  | error e => simp [Except.map]

namespace Cli

variable {libraries : Libraries} {settings : Settings} {rule : Rule} {file : Path}

/-! ## What is asked for -/

theorem asks_load (readers : Readers) (environment : Environment) (path : Path) :
    (Settings.load readers environment path).run.Asks Store.Looks :=
  Asks.bind_except (Asks.bind_except ⟨rfl, fun _ => trivial⟩ fun _ => trivial) fun _ => trivial

/-- To show the document of a rule is to look at files, and to ask nginx nothing. -/
theorem asks_render (libraries : Libraries) (environment : Environment) (path file : Path)
    (now : Timestamp) (format : Format) (palette : Palette) :
    (Invocation.run ⟨.render file, path, format⟩ libraries environment now palette).Asks
      Store.Looks := by
  have told {α ε : Type} {tell : ε → CommandError} {part : ExceptT ε Program α}
      (asks : part.run.Asks Store.Looks) :
      (part.run.bind fun result => .done (result.mapError tell)).Asks Store.Looks :=
    Asks.bind asks fun _ => trivial
  have settings :
      (Surroundings.loadIfPresent ⟨libraries, environment, path, now⟩).run.Asks Store.Looks := by
    refine Asks.bind_except ⟨rfl, fun _ => trivial⟩ fun found => ?_
    cases found with
    | ok _ => exact told (asks_load libraries.toReaders environment path)
    | error fault =>
      dsimp only
      split <;> trivial
  refine Asks.bind (Asks.bind_except settings fun settings => ?_) fun _ => trivial
  refine Asks.bind_except (told (Rule.looks_load libraries.toReaders now file)) fun rule => ?_
  exact Asks.bind_except trivial fun _ => trivial

/-! ## What is found -/

/-- A rule that is brought into force was loaded under settings that were loaded, from the files
that were there. -/
theorem exists_of_ends_runApply {report : Report}
    (ends : (Command.runApply ⟨libraries, environment, path, now⟩ file).run.Ends
      (Site.terms faults) site (.ok report) after) :
    ∃ settings rule, Settings.IsLoaded libraries.toReaders environment path site.tree settings ∧
      Rule.IsLoaded libraries.toReaders now file site.tree rule ∧
      (ManagerConfig.ofSettings settings.nginx).validate = .ok () ∧
      ∃ (before : Site) (result : Rule), before.tree = site.tree ∧
        (Controller.apply ⟨ManagerConfig.ofSettings settings.nginx⟩ rule).run.Ends
          (Site.terms faults) before (.ok result) after := by
  obtain ⟨⟨settings, controller⟩, u, prepared, step⟩ := ends_bind_ok.1 ends
  obtain ⟨rule, v, ruleLoaded, step'⟩ := ends_bind_ok.1 step
  obtain ⟨result, w, applied, last⟩ := ends_bind_ok.1 step'
  obtain ⟨-, rfl⟩ := ends_pure_ok.1 last
  obtain ⟨own, x, settingsLoaded, prepared'⟩ := ends_bind_ok.1 prepared
  obtain ⟨own', y, made, last'⟩ := ends_bind_ok.1 prepared'
  obtain ⟨same, rfl⟩ := ends_pure_ok.1 last'
  obtain ⟨rfl, rfl⟩ := Prod.mk.inj same
  obtain ⟨found, kept⟩ := Settings.isLoaded_of_ends (ends_mapError_ok.1 settingsLoaded)
  obtain ⟨checked, rfl⟩ := Operation.ends_ofExcept_ok.1 (ends_mapError_ok.1 made)
  obtain ⟨loaded, kept'⟩ := Rule.isLoaded_of_ends (ends_mapError_ok.1 ruleLoaded)
  rw [kept] at loaded kept'
  obtain ⟨valid, rfl⟩ := Controller.ofConfig_eq_ok_iff.1 checked
  exact ⟨own, rule, found, loaded, valid, v, result, kept', ends_mapError_ok.1 applied⟩

/-- The document of a rule that is loaded under settings that are loaded is shown. -/
theorem finds_runRender {nginx : NginxModel} {world : World} {text : String}
    (found : Settings.IsLoaded libraries.toReaders environment path world.tree settings)
    (loaded : Rule.IsLoaded libraries.toReaders now file world.tree rule)
    (compiled : rule.compile (ManagerConfig.ofSettings settings.nginx).renderOptions = .ok text) :
    Finds nginx world (Command.runRender ⟨libraries, environment, path, now⟩ file)
      (.render rule.id rule.context text) := by
  obtain ⟨stated, own, checked⟩ := found
  obtain ⟨content, read⟩ : ∃ content, world.tree.read path = .ok content := by
    cases read : world.tree.read path with
    | ok content => exact ⟨content, rfl⟩
    | error fault => rw [read] at own; cases own
  obtain ⟨status, known⟩ := Tree.exists_status_of_read read
  have settings : Finds nginx world
      (Surroundings.loadIfPresent ⟨libraries, environment, path, now⟩) settings :=
    (@finds_call _ nginx world (.status path) rfl _ known).bind
      (Settings.IsLoaded.finds ⟨stated, own, checked⟩).mapError
  refine settings.bind (loaded.finds.mapError.bind ?_)
  exact (finds_mk (by rw [compiled]; rfl)).bind (finds_pure _)

/-! ## What is printed -/

/-- A failed command ends with a code of its own. -/
theorem exitCode_ne_zero (error : CommandError) : error.exitCode ≠ 0 := by
  cases error <;> exact Nat.noConfusion

/-- A command that ends without a code has a report. -/
theorem Answer.exists_of_exitCode {format : Format} {palette : Palette}
    {result : Except CommandError Report}
    (success : (ofResult format palette result).exitCode = 0) :
    ∃ report, result = .ok report := by
  cases result with
  | ok report => exact ⟨report, rfl⟩
  | error error => exact absurd success (exitCode_ne_zero error)

/-- What is shown of a rule to programs: its id, its context and its document. -/
def preview (rule : Rule) (text : String) : Json :=
  .object
    [("rule_id", .string rule.id), ("context", .string rule.context.name),
     ("config", .string text)]

/-- Whether the document of the rule in a file is shown, to people and to programs, at any time and
without a failure, and the world is left as it is. -/
def Shows (libraries : Libraries) (environment : Environment) (path file : Path)
    (nginx : NginxModel) (world : World) (rule : Rule) (text : String) : Prop :=
  ∀ now palette,
    (Invocation.run ⟨.render file, path, .text⟩ libraries environment now palette).runIn nginx
          world =
        (⟨text, none⟩, world) ∧
      (Invocation.run ⟨.render file, path, .json⟩ libraries environment now palette).runIn nginx
          world =
        (⟨(preview rule text).indented ++ "\n", none⟩, world)

/-- The document of a rule is shown wherever the settings and the rule are as in a tree they were
loaded from. -/
theorem shows_of_isLoaded {nginx : NginxModel} {world : World} {text : String}
    (found : Settings.IsLoaded libraries.toReaders environment path tree settings)
    (loaded : Rule.IsLoaded libraries.toReaders now file tree rule)
    (compiled : rule.compile (ManagerConfig.ofSettings settings.nginx).renderOptions = .ok text)
    (sameSettings : world.tree.read path = tree.read path)
    (known : world.tree.status file = tree.status file)
    (sameRule : world.tree.read file = tree.read file) :
    Shows libraries environment path file nginx world rule text := by
  intro now' palette
  obtain ⟨other, loaded', differs⟩ := loaded.anytime now' known sameRule
  have found' : Settings.IsLoaded libraries.toReaders environment path world.tree settings := by
    rw [Settings.IsLoaded, sameSettings]
    exact found
  have finds : Finds nginx world (Command.runRender ⟨libraries, environment, path, now'⟩ file)
      (.render other.id other.context text) :=
    finds_runRender found' loaded' ((differs.compile_eq _).trans compiled)
  rw [differs.id_eq, differs.context_eq] at finds
  have printed (format : Format) :
      (Invocation.run ⟨.render file, path, format⟩ libraries environment now' palette).runIn nginx
          world =
        (.ofResult format palette (.ok (.render rule.id rule.context text)), world) := by
    rw [Invocation.run, runIn, run_bind]
    show (done _).run _ _ = _
    rw [show (Command.run ⟨libraries, environment, path, now'⟩ (.render file)).run.run
      (World.answer nginx) world = _ from finds]
    rfl
  exact ⟨printed .text, printed .json⟩

/-- The document that is shown is the one that is applied. Where a rule was applied it is shown
without a failure, with the same settings and the same file of the rule, and the text that is shown
is what the file of the rule holds, in the directory of the context that is shown with it. The file
is there exactly when the way to its directory does not lead through a file of the rule, and the two
directories are not the same one. To show a document only looks at files. -/
theorem render_eq_applied (libraries : Libraries) (environment : Environment)
    (path file : Path) :
    (∀ now format palette,
      (Invocation.run ⟨.render file, path, format⟩ libraries environment now palette).Asks
        Store.Looks) ∧
    ∀ {faults : Bool} {site after : Site} {now format palette answer},
      (Invocation.run ⟨.apply file, path, format⟩ libraries environment now palette).Ends
        (Site.terms faults) site answer after →
      answer.exitCode = 0 →
      ∃ (store : Store) (rule : Rule) (text : String),
        (∃ settings, Settings.IsLoaded libraries.toReaders environment path site.tree settings ∧
          store = ⟨ManagerConfig.ofSettings settings.nginx⟩) ∧
        Rule.IsLoaded libraries.toReaders now file site.tree rule ∧
        (rule.enabled = true → ∀ content,
          after.tree.read ((store.directory rule.context).child (Store.fileName rule.id)) =
              .ok content ↔
            content = text.toUTF8 ∧ store.Separates rule.id rule.context
              (site.tree.createDirectories (store.directory rule.context)).2) ∧
        ∀ (nginx : NginxModel) (world : World), world.tree.read path = site.tree.read path →
          world.tree.status file = site.tree.status file →
          world.tree.read file = site.tree.read file →
          Shows libraries environment path file nginx world rule text := by
  refine ⟨fun now format palette =>
    asks_render libraries environment path file now format palette, ?_⟩
  intro faults site after now format palette answer ends success
  obtain ⟨result, u, applied, last⟩ := ends_bind.1 ends
  obtain ⟨rfl, rfl⟩ := ends_done.1 last
  obtain ⟨report, rfl⟩ := Answer.exists_of_exitCode success
  obtain ⟨settings, rule, found, loaded, valid, before, result, same, wrote⟩ :=
    exists_of_ends_runApply applied
  obtain ⟨document, -, compiled⟩ := Rule.exists_document_of_validate loaded.valid
    (ManagerConfig.ofSettings settings.nginx).renderOptions
  refine ⟨⟨ManagerConfig.ofSettings settings.nginx⟩, rule, document.render, ⟨settings, found, rfl⟩,
    loaded, ?_, fun nginx world => shows_of_isLoaded found loaded compiled⟩
  intro enabled content
  rw [← same]
  exact @Controller.read_eq_ok_iff_of_ends_apply faults before u
    ⟨ManagerConfig.ofSettings settings.nginx⟩ rule result
    (ManagerConfig.activeDir_ne_empty valid) enabled document.render compiled wrote content

/-- A rule that is applied where nothing is there yet. -/
theorem render_eq_applied_shop :
    let environment : Environment := fun _ => none
    let tree : Tree :=
      { entries := [(["s"], .file "[nginx]\nactive_dir = \"/a\"".toUTF8),
        (["r"], .file "id = \"web\"\ntarget_container = \"shop\"\ntarget_port = 80".toUTF8)] }
    ∃ answer after,
      (Invocation.run ⟨.apply ⟨"/r"⟩, ⟨"/s"⟩, .text⟩ .standard environment .epoch .plain).Ends
        (Site.terms false) ⟨tree, ⟨tree, 0⟩⟩ answer after ∧
      answer.exitCode = 0 ∧
      ∃ rule text, rule.enabled = true ∧ after.tree.read ⟨"/a/web.conf"⟩ = .ok text.toUTF8 ∧
        Shows .standard environment ⟨"/s"⟩ ⟨"/r"⟩ World.withoutNginx { tree := after.tree } rule
          text := by
  intro environment tree
  have applied : (((Invocation.run ⟨.apply ⟨"/r"⟩, ⟨"/s"⟩, .text⟩ .standard environment .epoch
      .plain).follow? Site.act? ([], ⟨tree, ⟨tree, 0⟩⟩)).map fun ended =>
        (ended.1.exitCode, decide (ended.2.2.tree.read ⟨"/s"⟩ = tree.read ⟨"/s"⟩ ∧
          ended.2.2.tree.status ⟨"/r"⟩ = tree.status ⟨"/r"⟩ ∧
          ended.2.2.tree.read ⟨"/r"⟩ = tree.read ⟨"/r"⟩))) = some (0, true) := by
    decide +kernel
  obtain ⟨⟨answer, left, after⟩, followed, told⟩ := Option.map_eq_some_iff.1 applied
  obtain ⟨success, same⟩ := Prod.mk.inj told
  obtain ⟨sameSettings, known, sameRule⟩ := of_decide_eq_true same
  obtain ⟨store, rule, text, ⟨settings, found, rfl⟩, loaded, held, shows⟩ :=
    (render_eq_applied .standard environment ⟨"/s"⟩ ⟨"/r"⟩).2 (Site.ends_act? followed false)
      success
  obtain rfl : settings = { nginx := { activeDir := "/a" } } :=
    found.unique ⟨{ nginx := { activeDir := "/a" } }, by decide +kernel, by decide +kernel⟩
  have loaded' : Rule.IsLoaded Libraries.standard.toReaders .epoch ⟨"/r"⟩ tree
      { id := "web", targetContainer := "shop", targetPort := 80, created := .epoch } :=
    ⟨⟨_, rfl, by decide +kernel⟩,
      ⟨_, "id = \"web\"\ntarget_container = \"shop\"\ntarget_port = 80", rfl, by decide +kernel,
        by decide +kernel⟩,
      by decide +kernel⟩
  obtain rfl := loaded.unique loaded'
  exact ⟨answer, after, Site.ends_act? followed false, success, _, text, rfl,
    (held rfl _).2 ⟨rfl, by decide +kernel⟩, shows _ _ sameSettings known sameRule⟩

/-- Links are what can lead past the file. Where the directory of plain connections is the active
directory itself, the file is removed as soon as it is written. Where the way to the active
directory leads through a link that stands for the file of the rule in the other directory, that
link is removed, and the file is not found any more. The way may be one that is only opened when
the directories are made. -/
theorem not_render_eq_applied :
    let ruleText := "id = \"web\"\ntarget_container = \"shop\"\ntarget_port = 80"
    let rule : Rule :=
      { id := "web", targetContainer := "shop", targetPort := 80, created := .epoch }
    let tree (settings : String) (entries : List (Location × Entry)) : Tree :=
      { entries := [(["s"], .file settings.toUTF8), (["r"], .file ruleText.toUTF8)] ++ entries }
    let misses (tree : Tree) (path : Path) : Prop :=
      Rule.IsLoaded Libraries.standard.toReaders .epoch ⟨"/r"⟩ tree rule ∧
      ∃ answer after,
        (Invocation.run ⟨.apply ⟨"/r"⟩, ⟨"/s"⟩, .text⟩ .standard (fun _ => none) .epoch .plain).Ends
          (Site.terms false) ⟨tree, ⟨tree, 0⟩⟩ answer after ∧
        answer.exitCode = 0 ∧ ∀ content, after.tree.read path ≠ .ok content
    rule.enabled = true ∧
      misses (tree "[nginx]\nactive_dir = \"/a\""
        [(["a"], .directory), (["a", "stream"], .link ⟨"."⟩)]) ⟨"/a/web.conf"⟩ ∧
      misses (tree "[nginx]\nactive_dir = \"/new/../b/web.conf\""
        [(["a"], .directory), (["a", "stream"], .link ⟨"/b"⟩), (["b"], .directory),
          (["b", "web.conf"], .link ⟨"/new/../a"⟩)]) ⟨"/new/../b/web.conf/web.conf"⟩ := by
  intro ruleText rule tree misses
  have misses_of_applied (settings : String) (entries : List (Location × Entry)) (path : Path)
      (applied : (((Invocation.run ⟨.apply ⟨"/r"⟩, ⟨"/s"⟩, .text⟩ .standard (fun _ => none) .epoch
        .plain).follow? Site.act?
          ([], ⟨tree settings entries, ⟨tree settings entries, 0⟩⟩)).map fun ended =>
            (ended.1.exitCode, (ended.2.2.tree.read path).toOption)) = some (0, none)) :
      misses (tree settings entries) path := by
    obtain ⟨⟨answer, left, after⟩, followed, told⟩ := Option.map_eq_some_iff.1 applied
    obtain ⟨success, missing⟩ := Prod.mk.inj told
    have loaded : Rule.IsLoaded Libraries.standard.toReaders .epoch ⟨"/r"⟩
        (tree settings entries) rule :=
      ⟨⟨_, rfl, by decide +kernel⟩, ⟨_, ruleText, rfl, by decide +kernel, by decide +kernel⟩,
        by decide +kernel⟩
    refine ⟨loaded, answer, after, Site.ends_act? followed false, success, ?_⟩
    intro content there
    rw [there] at missing
    cases missing
  refine ⟨rfl, misses_of_applied _ _ _ ?_, misses_of_applied _ _ _ ?_⟩
  · decide +kernel
  · decide +kernel

end Cli

end ProxyKeeper
