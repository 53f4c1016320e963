import ProxyKeeper.Proofs.Controller.Requests
import ProxyKeeper.Proofs.Controller.TestedReload
import ProxyKeeper.Proofs.Files.Targets
import ProxyKeeper.Proofs.Rule.Valid
import ProxyKeeper.Proofs.Store.Founding
import ProxyKeeper.Proofs.Store.Shelf

/-!
# The main configuration

Tasks leave the main configuration alone when its place is not that of a rule file, nor of one that
is being written. A valid configuration keeps the places apart as far as the texts of its two paths
can be compared: when they begin alike and do not go up. Otherwise they may be one path in two
spellings, and then a rule can be written over the main configuration.

## Main Definitions

* `ManagerConfig.IsPlainlySpelled` — paths that can be compared by their texts
* `Store.IsApart` — the main configuration has a place of its own
* `Controller.SparesMain` — the state of tasks that leave the main configuration alone

## Main Results

* `Store.isApart_of_validate` — valid configurations with comparable paths
* `Controller.SparesMain.takeAll` — whatever happens, the main configuration stays
* `Controller.mainConfig_stays` — and it is listed for no rule
-/

namespace ProxyKeeper

/-! ## Spellings -/

namespace Path

/-- The part that a path begins with, besides its names. -/
def lead (path : Path) : List Part :=
  if path.isAbsolute then [.root]
  else if path.pieces.head? = some "." then [.here]
  else []

/-- The names of a path without the dots. -/
def loudNames (path : Path) : List String :=
  path.names.filter (· != ".")

variable {path base : Path}

/-- Paths that do not go up are a beginning and names. -/
theorem parts_of_notMem (level : ".." ∉ path.pieces) :
    path.parts = path.lead ++ path.loudNames.map .name := by
  have named (pieces : List String) (level : ".." ∉ pieces) : pieces.filterMap partOf? =
      ((pieces.filter (· != "")).filter (· != ".")).map .name := by
    induction pieces with
    | nil => rfl
    | cons piece pieces ih =>
      obtain ⟨plain, level⟩ := List.ne_and_not_mem_of_not_mem_cons level
      by_cases empty : piece = ""
      · rw [List.filterMap_cons_none (by simp [partOf?, empty]),
          List.filter_cons_of_neg (by simp [empty]), ih level]
      · rw [List.filter_cons_of_pos (by simpa using empty)]
        by_cases here : piece = "."
        · rw [List.filterMap_cons_none (by simp [partOf?, here]),
            List.filter_cons_of_neg (by simp [here]), ih level]
        · have part : partOf? piece = some (.name piece) := by
            simp [partOf?, empty, here, Ne.symm plain]
          rw [List.filterMap_cons_some part, List.filter_cons_of_pos (by simpa using here),
            List.map_cons, ih level]
  exact congrArg (path.lead ++ ·) (named path.pieces level)

theorem isAbsolute_of_lead (same : path.lead = base.lead) : path.isAbsolute = base.isAbsolute := by
  have root (path : Path) : path.isAbsolute = true ↔ path.lead = [.root] := by
    rw [lead]
    cases path.isAbsolute with
    | true => simp
    | false =>
      by_cases here : path.pieces.head? = some "." <;> simp [here]
  rw [Bool.eq_iff_iff, root, root, same]

/-- The place of a path that does not go up is told by its names. -/
theorem target_of_notMem (level : ".." ∉ path.pieces) (start : Location) :
    path.target start = Tree.origin path start ++ path.loudNames := by
  have silent (location : Location) (pieces : List String) :
      location.follow pieces = location.follow (pieces.filter (· != ".")) := by
    induction pieces generalizing location with
    | nil => rfl
    | cons piece pieces ih =>
      by_cases here : piece = "."
      · rw [List.filter_cons_of_neg (by simp [here]), Location.follow, if_pos here, ih]
      · rw [List.filter_cons_of_pos (by simpa using here), Location.follow, Location.follow,
          if_neg here, if_neg here, ← ih, ← ih]
  rw [target, silent]
  refine Location.follow_names _ fun name listed => ?_
  obtain ⟨listed, loud⟩ := List.mem_filter.1 listed
  refine ⟨by simpa using loud, ?_⟩
  rintro rfl
  exact level (List.mem_filter.1 listed).1

/-- Of two paths that begin alike and do not go up, one that leads below the other has the text of
the other in front. -/
theorem startsWith_of_target (same : path.lead = base.lead) (level : ".." ∉ path.pieces)
    (levelBase : ".." ∉ base.pieces) {start : Location} {rest : List String}
    (below : path.target start = base.target start ++ rest) : path.startsWith base = true := by
  rw [target_of_notMem level, target_of_notMem levelBase, Tree.origin, Tree.origin,
    isAbsolute_of_lead same, List.append_assoc] at below
  rw [startsWith, List.isPrefixOf_iff_prefix, parts_of_notMem level, parts_of_notMem levelBase,
    List.append_cancel_left below, same, List.map_append, ← List.append_assoc]
  exact List.prefix_append _ _

end Path

/-- Whether the paths of the main configuration and of the active directory begin alike and do not
go up, so that their texts tell whether one is below the other. -/
structure ManagerConfig.IsPlainlySpelled (config : ManagerConfig) : Prop where
  lead : config.mainConfig.lead = config.activeDir.lead
  main : ".." ∉ config.mainConfig.pieces
  active : ".." ∉ config.activeDir.pieces

/-- A valid configuration has its main configuration outside of the active directory, by the
texts. -/
theorem ManagerConfig.not_startsWith_of_validate {config : ManagerConfig}
    (valid : config.validate = .ok ()) :
    config.mainConfig.startsWith config.activeDir = false := by
  have outside := holds_of_validate valid ⟨!config.mainConfig.startsWith config.activeDir,
    "main_config", "must not live inside active_dir"⟩ (by simp [checks])
  simpa using outside

namespace Store

variable {store : Store} {start : Location}

/-- Whether the place of the main configuration is neither that of a rule file nor that of one that
is being written, for one who begins at a location. -/
structure IsApart (store : Store) (start : Location) : Prop where
  rule : ∀ id context, isRuleId id = true →
    ((store.directory context).child (fileName id)).target start ≠
      store.config.mainConfig.target start
  temporary : ∀ id context count, isRuleId id = true →
    (beside ((store.directory context).child (fileName id)) (World.freshName count)).target start ≠
      store.config.mainConfig.target start

theorem directory_ne_empty (valid : store.config.validate = .ok ()) (context : Context) :
    (store.directory context).text ≠ "" := by
  have given := ManagerConfig.activeDir_ne_empty valid
  cases context with
  | http => exact given
  | stream => exact Tree.child_text_ne given isPlainName_stream

/-- The directory of a context is the active directory, or in it. -/
theorem exists_target_directory (valid : store.config.validate = .ok ()) (context : Context) :
    ∃ names, ∀ start, (store.directory context).target start =
      store.config.activeDir.target start ++ names := by
  cases context with
  | http => exact ⟨[], fun start => (List.append_nil _).symm⟩
  | stream =>
    exact ⟨["stream"], fun start =>
      Path.target_child (ManagerConfig.activeDir_ne_empty valid) isPlainName_stream start⟩

/-- A file that is being written is in the directory of its context. -/
theorem target_beside (valid : store.config.validate = .ok ()) {id : String}
    (isId : isRuleId id = true) (context : Context) (count : Nat) (start : Location) :
    (beside ((store.directory context).child (fileName id)) (World.freshName count)).target start =
      (store.directory context).target start ++
        [temporaryName (fileName id) (World.freshName count)] := by
  have given := directory_ne_empty valid context
  have plain := isPlainName_fileName isId
  obtain ⟨above, parent, full, same⟩ := Path.target_parent? given plain
  rw [beside, parent, Path.fileName?_child given plain, Option.getD_some, Option.getD_some,
    Path.target_child full
      (isPlainName_temporaryName plain.noSlash (Text.noSlash_freshName count)), same]

/-- The texts of the paths of a valid configuration keep the main configuration apart, when they can
be compared. -/
theorem isApart_of_validate (valid : store.config.validate = .ok ())
    (plain : store.config.IsPlainlySpelled) (start : Location) : store.IsApart start := by
  have outside {rest : List String}
      (below : store.config.mainConfig.target start =
        store.config.activeDir.target start ++ rest) : False := by
    have inside := Path.startsWith_of_target plain.lead plain.main plain.active below
    rw [ManagerConfig.not_startsWith_of_validate valid] at inside
    cases inside
  refine ⟨fun id context isId same => ?_, fun id context count isId same => ?_⟩
  · obtain ⟨names, there⟩ := exists_target_directory valid context
    rw [Path.target_child (directory_ne_empty valid context) (isPlainName_fileName isId), there,
      List.append_assoc] at same
    exact outside same.symm
  · obtain ⟨names, there⟩ := exists_target_directory valid context
    rw [target_beside valid isId, there, List.append_assoc] at same
    exact outside same.symm

/-! ## Requests -/

/-- What a request is answered with while the main configuration is there: it is found, and names
are given out by their numbers. -/
def Answers (store : Store) : (r : Request) → r.Answer → Prop
  | .file (.status path), answer => path = store.config.mainConfig → answer ≠ .error .notFound
  | .freshName, name => ∃ count, name = World.freshName count
  | _, _ => True

/-- The terms under which the main configuration stays: it is there, and no call touches it. -/
def sparing (store : Store) (start : Location) : Terms Unit where
  allows r _ := ∀ call, r = .file call →
    ¬ call.Touches start (store.config.mainConfig.target start)
  answers r _ answer _ := store.Answers r answer

theorem allows_of_isQuiet {r : Request} (quiet : r.isQuiet = true) :
    (store.sparing start).allows r () := by
  rintro call rfl
  cases call <;> first | exact id | simp [Request.isQuiet, FileCall.changes] at quiet

open Operation

theorem keeps_file (path : Path) {call : FileCall}
    (spared : ¬ call.Touches start (store.config.mainConfig.target start)) :
    (Operation.file path call).run.Keeps (store.sparing start) := by
  have allowed : (store.sparing start).allows (.file call) () := by
    rintro other same
    cases same
    exact spared
  refine keeps_bind (keeps_request allowed) fun (answer : call.Answer) => ?_
  cases answer <;> trivial

/-- A file is written and removed beside the main configuration when its place is apart, and so is
that of the file it is first written to. -/
theorem keeps_writeWhole {path : Path} (text : String)
    (apart : path.target start ≠ store.config.mainConfig.target start)
    (apartToo : ∀ count, (beside path (World.freshName count)).target start ≠
      store.config.mainConfig.target start) :
    (writeWhole path text).run.Keeps (store.sparing start) := by
  have attempts {call : FileCall}
      (spared : ¬ call.Touches start (store.config.mainConfig.target start)) :
      (attempt call).run.Keeps (store.sparing start) := by
    refine keeps_request fun other same => ?_
    cases same
    exact spared
  refine ⟨nofun, ?_⟩
  rintro _ _ ⟨count, rfl⟩
  refine keeps_bind (keeps_file _ (apartToo count)) fun _ => ?_
  refine keeps_bind (attempts (not_or.2 ⟨apartToo count, apart⟩)) fun answer => ?_
  cases answer with
  | ok _ => trivial
  | error fault => exact keeps_bind (attempts (apartToo count)) fun _ => trivial

theorem keeps_removeIfPresent {path : Path}
    (apart : path.target start ≠ store.config.mainConfig.target start) :
    (removeIfPresent path).run.Keeps (store.sparing start) := by
  refine keeps_bind (keeps_request ?_) fun (answer : FileCall.Answer (.remove path)) => ?_
  · rintro call same
    cases same
    exact apart
  · cases answer with
    | ok _ => trivial
    | error fault => dsimp only; split <;> trivial

/-- What is done with the path of a rule file is done with one that is apart. -/
theorem keeps_path_bind {α : Type} {f : Path → Operation α} (id : String) (context : Context)
    (rest : isRuleId id = true →
      (f ((store.directory context).child (fileName id))).run.Keeps (store.sparing start)) :
    (Operation.ofExcept (store.path id context) >>= f).run.Keeps (store.sparing start) := by
  rw [path]
  split
  next isId => exact rest isId
  next => trivial

/-- The store keeps to the terms when the place of the main configuration is apart. -/
theorem keeps_sparing (apart : store.IsApart start) : store.Keeps (store.sparing start) where
  quiet r := allows_of_isQuiet
  writes id file := by
    refine keeps_path_bind id file.context fun isId => ?_
    refine keeps_bind (keeps_file _ nofun) fun _ => ?_
    refine keeps_bind (keeps_writeWhole _ (apart.rule id _ isId)
      fun count => apart.temporary id _ count isId) fun _ => ?_
    refine keeps_path_bind id file.context.other fun isId => ?_
    exact keeps_bind (keeps_removeIfPresent (apart.rule id _ isId)) fun _ => trivial
  removes id := by
    refine keeps_path_bind id .http fun isId => ?_
    refine keeps_bind (keeps_removeIfPresent (apart.rule id _ isId)) fun _ => ?_
    refine keeps_path_bind id .stream fun isId => ?_
    exact keeps_bind (keeps_removeIfPresent (apart.rule id _ isId)) fun _ => trivial
  founds := by
    refine keeps_bind (keeps_file _ nofun) fun _ => ?_
    refine keeps_bind (keeps_file _ nofun) fun _ => ?_
    have present : (isPresent store.config.mainConfig).Meets (store.sparing start)
        (fun present _ => present = true) (fun _ _ => True) () := by
      refine meets_bind.2 (meets_request.2 ⟨allows_of_isQuiet rfl, ?_⟩)
      intro (answer : FileCall.Answer (.status store.config.mainConfig)) _ honest
      cases answer with
      | ok status => exact rfl
      | error fault =>
        have other : fault ≠ .notFound := fun missing => honest rfl (congrArg Except.error missing)
        dsimp only
        rw [if_neg other]
        trivial
    -- the main configuration is found, so it is not written
    refine keeps_bind_of_meets present ?_
    rintro _ rfl
    trivial

/-! ## Listings -/

/-- What is listed are ids, whatever the file system answers. -/
theorem meets_list_ids : store.list.Meets ⟨fun _ _ => True, fun _ _ _ _ => True⟩
    (fun ids (_ : Unit) => ∀ id ∈ ids, isRuleId id = true) (fun _ _ => True) () := by
  have lists (path : Path) : (listDirectory path).Meets ⟨fun _ _ => True, fun _ _ _ _ => True⟩
      (fun ids (_ : Unit) => ∀ id ∈ ids, isRuleId id = true) (fun _ _ => True) () := by
    refine meets_bind.2 (meets_request.2 ⟨trivial, ?_⟩)
    rintro (answer : FileCall.Answer (.list path)) _ -
    cases answer with
    | ok names =>
      refine meets_pure.2 fun id listed => ?_
      obtain ⟨name, _, is⟩ := List.mem_filterMap.1 listed
      exact isRuleId_of_ruleId? is
    | error fault =>
      dsimp only
      split
      · exact meets_pure.2 (by simp)
      · trivial
  refine (lists _).bind fun http _ valid => (lists _).bind fun stream _ validToo => ?_
  refine meets_pure.2 fun id listed => ?_
  rcases List.mem_append.1 (mem_ascendingNames.1 listed) with there | there
  · exact valid id there
  · exact validToo id there

theorem isRuleId_of_list {nginx : NginxModel} {world after : World} {ids : List String}
    (listed : store.list.run.runIn nginx world = (.ok ids, after)) :
    ∀ id ∈ ids, isRuleId id = true := by
  have promised := Program.Meets.of_run store.meets_list_ids (World.answer nginx)
    (fun _ _ => trivial) world
  rw [Program.runIn] at listed
  rw [listed] at promised
  exact promised

end Store

/-! ## Turns -/

open Store

/-- Whether what is left of a program keeps to terms. -/
def Thread.Heeds {α : Type} (terms : Terms Unit) : Thread α → Prop
  | .ready program => program.Keeps terms
  | .calling _ next => ∀ reply, (next reply).Keeps terms
  | .finished _ => True
  | .dropped => True

namespace Controller

variable {controller : Controller} {start : Tree} {main : Location} {content : ByteArray}
  {turns : Turns TaskResult}

/-- The state of tasks that leave the main configuration alone: what they are still going to ask for
keeps to the terms, and the main configuration is where and what it was at the start. -/
structure SparesMain (controller : Controller) (start : Tree) (turns : Turns TaskResult) :
    Prop where
  threads : ∀ (i : Nat) (thread : Thread TaskResult), turns.threads[i]? = some thread →
    thread.Heeds (controller.store.sparing start.workingDirectory)
  holds : Tree.Holds (controller.config.mainConfig.target start.workingDirectory) start
    turns.world.tree

namespace SparesMain

/-- One program goes on, and the others stay as they are. -/
theorem put (spares : controller.SparesMain start turns) (i : Nat) (thread : Thread TaskResult)
    (heeds : thread.Heeds (controller.store.sparing start.workingDirectory)) :
    controller.SparesMain start (turns.put i thread) := by
  refine ⟨fun j other there => ?_, spares.holds⟩
  rw [Turns.put, List.getElem?_set] at there
  split at there
  next =>
    split at there
    next => cases there; exact heeds
    next => cases there
  next => exact spares.threads j other there

/-- The main configuration is there, so a call that asks for it finds it. -/
theorem answers (spares : controller.SparesMain start turns) (noLink : start.HasNoLink)
    (found : start.entryAt controller.config.mainConfig = .ok (main, .file content))
    (call : FileCall) :
    controller.store.Answers (.file call) (turns.world.tree.perform call).1 := by
  cases call with
  | status path =>
    rintro rfl
    have place := (Tree.location_of_entryAt noLink found).1
    have there := Tree.Holds.entryAt (place ▸ spares.holds) noLink found
    show turns.world.tree.status controller.config.mainConfig ≠ .error .notFound
    rw [Tree.status, there]
    exact nofun
  | _ => trivial

/-- The next request of a program is answered. -/
theorem step (spares : controller.SparesMain start turns) (noLink : start.HasNoLink)
    (found : start.entryAt controller.config.mainConfig = .ok (main, .file content)) (i : Nat) :
    controller.SparesMain start (turns.step i) := by
  rw [Turns.step]
  cases here : turns.threads[i]? with
  | none => exact spares
  | some thread =>
    have heeds := spares.threads i thread here
    cases thread with
    | calling call next => exact spares
    | finished a => exact spares
    | dropped => exact spares
    | ready program =>
      cases program with
      | done a => exact spares.put i (.finished a) trivial
      | ask request next =>
        obtain ⟨allowed, rest⟩ := heeds
        have goes (answer : request.Answer) (answered : controller.store.Answers request answer) :
            controller.SparesMain start (turns.put i (.ready (next answer))) :=
          spares.put i (.ready (next answer)) (rest answer () answered)
        cases request with
        | file call =>
          have performed : Tree.Holds (controller.config.mainConfig.target start.workingDirectory)
              turns.world.tree (turns.world.tree.perform call).2 := by
            refine Tree.holds_perform spares.holds.noLink ?_
            rw [spares.holds.keeps.origin]
            exact allowed call rfl
          exact ⟨(goes _ (spares.answers noLink found call)).threads,
            spares.holds.trans performed⟩
        | nginx call =>
          exact spares.put i (.calling call next) fun reply => rest reply () trivial
        | freshName => exact ⟨(goes _ ⟨_, rfl⟩).threads, spares.holds⟩
        | acquire =>
          dsimp only
          split
          next => exact ⟨(goes () trivial).threads, spares.holds⟩
          next => exact spares
        | release => exact ⟨(goes () trivial).threads, spares.holds⟩
        | publish phase => exact ⟨(goes () trivial).threads, spares.holds⟩
        | count event => exact ⟨(goes () trivial).threads, spares.holds⟩

/-- Whatever happens to a program, the main configuration stays, as long as no call fails for not
finding what is there. -/
theorem take (spares : controller.SparesMain start turns) (noLink : start.HasNoLink)
    (found : start.entryAt controller.config.mainConfig = .ok (main, .file content)) (turn : Turn)
    (honest : ∀ i, turn ≠ .fail i .notFound) : controller.SparesMain start (turns.take turn) := by
  cases turn with
  | step i => exact spares.step noLink found i
  | fail i fault =>
    rw [Turns.take, Turns.fail]
    split
    next call next here =>
      have rest := (spares.threads i _ here).2 (.error fault) ()
      refine spares.put i (.ready (next (.error fault))) (rest ?_)
      cases call with
      | status path =>
        rintro - missing
        cases missing
        exact honest i rfl
      | _ => trivial
    next => exact spares
  | reply i given =>
    rw [Turns.take, Turns.reply]
    split
    next call next here => exact spares.put i (.ready (next given)) (spares.threads i _ here given)
    next => exact spares
  | drop i =>
    have dropped := spares.put i .dropped trivial
    rw [Turns.take, Turns.drop]
    split
    next => exact ⟨dropped.threads, spares.holds⟩
    next => exact dropped

/-- And so it does over any number of turns. -/
theorem takeAll (spares : controller.SparesMain start turns) (noLink : start.HasNoLink)
    (found : start.entryAt controller.config.mainConfig = .ok (main, .file content))
    (history : List Turn) (honest : ∀ i, .fail i .notFound ∉ history) :
    controller.SparesMain start (turns.takeAll history) := by
  induction history generalizing turns with
  | nil => exact spares
  | cons turn history ih =>
    refine ih (spares.take noLink found turn fun i same => ?_) fun i listed => ?_
    · exact honest i (same ▸ List.mem_cons_self ..)
    · exact honest i (List.mem_cons_of_mem _ listed)

end SparesMain

/-- Tasks that have not begun leave the main configuration alone when it has a place of its own. -/
theorem sparesMain_start {world : World} (noLink : world.tree.HasNoLink)
    (apart : controller.store.IsApart world.tree.workingDirectory) (tasks : List Task) :
    controller.SparesMain world.tree (controller.start world tasks) where
  threads := by
    intro i thread there
    rw [start, List.getElem?_map] at there
    obtain ⟨task, _, rfl⟩ := Option.map_eq_some_iff.1 there
    exact task.keeps (keeps_sparing apart)
  holds := .refl noLink

/-- Whatever tasks do on one controller, in any order, however nginx and the file system answer and
whoever is dropped, in a tree without symbolic links: a main configuration that is there stays where
and what it is, and its place is never that of the file of a rule that is listed. This holds for a
valid configuration whose paths can be compared by their texts, and for any other one whose main
configuration has a place of its own. -/
theorem mainConfig_stays (controller : Controller) (valid : controller.config.validate = .ok ())
    {world : World} (noLink : world.tree.HasNoLink) {main : Location} {content : ByteArray}
    (found : world.tree.entryAt controller.config.mainConfig = .ok (main, .file content))
    (apart : controller.config.IsPlainlySpelled ∨
      controller.store.IsApart world.tree.workingDirectory)
    (tasks : List Task) (history : List Turn) (honest : ∀ i, .fail i .notFound ∉ history) :
    let turns := (controller.start world tasks).takeAll history
    turns.world.tree.entryAt controller.config.mainConfig = .ok (main, .file content) ∧
      ∀ nginx ids after, controller.store.list.run.runIn nginx turns.world = (.ok ids, after) →
        ∀ id ∈ ids, ∀ context directory,
          turns.world.tree.directory? (controller.store.directory context) = some directory →
            directory ++ [fileName id] ≠ main := by
  intro turns
  have apart : controller.store.IsApart world.tree.workingDirectory :=
    apart.elim (fun plain => isApart_of_validate valid plain _) id
  obtain ⟨_, holds⟩ := (sparesMain_start noLink apart tasks).takeAll noLink found history honest
  have place := (Tree.location_of_entryAt noLink found).1
  refine ⟨Tree.Holds.entryAt (place ▸ holds) noLink found, ?_⟩
  intro nginx ids after listed id among context directory leads same
  have isId := isRuleId_of_list listed id among
  have there : (controller.store.directory context).target world.tree.workingDirectory =
      directory := by
    rw [Tree.location_of_directory? holds.noLink leads, holds.keeps.origin]
  -- the file of the rule would have the place of the main configuration
  refine apart.rule id context isId ?_
  rw [Path.target_child (directory_ne_empty valid context) (isPlainName_fileName isId), there]
  exact same.trans place

/-- A rule is applied while the store is founded: the file of the rule is written, and the main
configuration stays. -/
theorem mainConfig_stays_founded :
    let controller : Controller :=
      ⟨{ activeDir := ⟨"/n/active"⟩, mainConfig := ⟨"/n/./nginx.conf"⟩ }⟩
    let rule : Rule :=
      { id := "web", targetContainer := "web", targetPort := 80, created := .epoch }
    let world : World :=
      { tree := { entries := [(["n"], .directory), (["n", "nginx.conf"], .file "main".toUTF8)] } }
    let history := (List.replicate 12 [Turn.step 0, Turn.step 1]).flatten
    (((controller.start world [.apply rule, .bootstrap]).takeAll history).world.tree.content?
        ["n", "active", "web.conf"]).isSome = true ∧
      ((controller.start world [.apply rule, .bootstrap]).takeAll history).world.tree.entryAt
          controller.config.mainConfig =
        .ok (["n", "nginx.conf"], .file "main".toUTF8) := by
  intro controller rule world history
  have noLink : world.tree.HasNoLink := Tree.hasNoLink_of_entries (by simp [world])
  have plain : controller.config.IsPlainlySpelled := ⟨by decide, by decide, by decide⟩
  have found : world.tree.entryAt controller.config.mainConfig =
      .ok (["n", "nginx.conf"], .file "main".toUTF8) := by decide +kernel
  have honest : ∀ turn ∈ history, ∃ i, turn = .step i := by simp [history]
  have stays := controller.mainConfig_stays (by decide) noLink found (.inl plain)
    [.apply rule, .bootstrap] history fun i listed => nomatch honest _ listed
  refine ⟨?_, stays.1⟩
  decide +kernel

/-- A path with a dot in front, one that goes up, and one that begins at the root while the other
does not, may lead to the place of a rule file in a valid configuration. Then the main configuration
is listed for a rule, and applying that rule replaces it. -/
theorem not_mainConfig_stays :
    let rule : Rule :=
      { id := "web", targetContainer := "web", targetPort := 80, created := .epoch }
    let world : World :=
      { tree :=
          { entries := [(["w"], .directory), (["w", "a"], .directory),
              (["w", "a", "web.conf"], .file "main".toUTF8)],
            workingDirectory := ["w"] } }
    ∀ main ∈ ["./a/web.conf", "../w/a/web.conf", "/w/a/web.conf"],
      let controller : Controller := ⟨{ activeDir := ⟨"a"⟩, mainConfig := ⟨main⟩ }⟩
      let turns := (controller.start world [.apply rule]).takeAll (List.replicate 12 (.step 0))
      controller.config.validate = .ok () ∧
        world.tree.content? ["w", "a", "web.conf"] = some "main".toUTF8 ∧
        (world.tree.place .busy ⟨main⟩).toOption.map Tree.Place.location = some ["w", "a", "web.conf"] ∧
        turns.world.tree.content? ["w", "a", "web.conf"] ≠ some "main".toUTF8 ∧
        (controller.store.list.run.runIn World.withoutNginx world).1 = .ok ["web"] := by
  decide +kernel

end Controller

end ProxyKeeper
