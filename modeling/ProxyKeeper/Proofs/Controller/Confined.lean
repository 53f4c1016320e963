import ProxyKeeper.Proofs.Controller.Requests
import ProxyKeeper.Proofs.Store.Confined

/-!
# Where tasks work

Tasks reach files through the store alone, so they work where the store does. The ids that they work
for are those that they are given, and those that the store has listed, so in a tree without
symbolic links whatever is not named for an id is left alone, whichever tasks there are, and
whichever calls break off.

## Main Definitions

* `Controller.inTurn` — tasks, one after another
* `Store.Listed` — the ids that were listed

## Main Results

* `Store.Confines.of_reaches` — a program that stays confined, at every moment
* `Controller.isConfined` — the store and the tasks stay confined
-/

namespace ProxyKeeper

namespace Store

open Operation

variable {α : Type} {store : Store} {ids : String → Prop} {start : Tree} {breaks : Breaks}

/-- The ids of the files that were listed in the directories of a store. -/
def Listed (store : Store) (history : History) (id : String) : Prop :=
  ∃ (context : Context) (names : List String),
    (⟨.file (.list (store.directory context)), .ok names⟩ : Exchange) ∈ history.exchanges ∧
      id ∈ names.filterMap ruleId?

/-- A program that stays confined, as long as it is answered in some way, is so at every moment. -/
theorem Confines.of_reaches (noLink : start.HasNoLink) {p rest : Program α} {history : History}
    {kind : (request : Request) → request.Answer → Prop}
    (sustains : p.Sustains ((store.confined ids breaks start).within kind)
      (store.Confines ids start))
    (reached : p.Reaches (History.terms breaks) { tree := start } rest history)
    (told : ∀ exchange ∈ history.exchanges, kind exchange.request exchange.answer) :
    ∀ made ∈ history.trees, store.Confines ids start made := by
  have : IsTrans Tree fun _ made => store.Confines ids start made := ⟨fun _ _ _ _ second => second⟩
  have here : store.Confines ids start start := .refl noLink
  have moments : history.trees.Pairwise fun _ made => store.Confines ids start made :=
    History.pairwise_of_reaches_within (List.pairwise_singleton _ _) reached (sustains start here)
      told
  obtain ⟨later, is⟩ := History.prefix_of_reaches reached
  rw [← is] at moments ⊢
  exact List.forall_mem_cons.2 ⟨here, (List.pairwise_cons.1 moments).1⟩

/-- Where the ids that were listed are among some ids, only files of these were. -/
theorem lists_of_listed {history : History} (listed : ∀ id, store.Listed history id → ids id) :
    ∀ exchange ∈ history.exchanges, store.Lists ids exchange.request exchange.answer := by
  rintro ⟨request, answer⟩ told
  cases request with
  | file call =>
    cases call with
    | list path =>
      rintro context names rfl rfl id is
      exact listed id ⟨context, names, told, is⟩
    | _ => trivial
  | _ => trivial

/-- The store stays confined to the files of some ids, when it lists no others. -/
theorem sustains_confined (store : Store) (ids : String → Prop) (breaks : Breaks) (start : Tree) :
    store.Sustains ((store.confined ids breaks start).within (store.Lists ids))
      (store.Confines ids start) ids where
  quiet r quiet s here := by
    refine Program.Meets.within (sustains_quiet ?_ s here) _
    rintro call rfl
    simpa [Request.isQuiet] using quiet
  writes id file own s here := (sustains_write own file s here).within _
  removes id own s here := (sustains_remove own s here).within _
  lists s here := meets_list_confined here

end Store

namespace Controller

variable {controller : Controller}

/-- Carries out some tasks, one after another. -/
def inTurn (controller : Controller) : List Task → Program (List TaskResult)
  | [] => return []
  | task :: tasks => do
    let result ← task.program controller
    let results ← controller.inTurn tasks
    return result :: results

/-- Tasks in turn keep to the terms that the store keeps to, and keep its invariants. -/
theorem sustains_inTurn {σ : Type} {terms : Terms σ} {I : σ → Prop} {ids : String → Prop}
    (sustains : controller.store.Sustains terms I ids) {tasks : List Task}
    (noFounding : Task.bootstrap ∉ tasks) (own : ∀ id ∈ tasks.flatMap Task.ids, ids id) :
    (controller.inTurn tasks).Sustains terms I := by
  induction tasks with
  | nil => exact Program.sustains_done _
  | cons task tasks ih =>
    rw [List.flatMap_cons] at own
    obtain ⟨first, rest⟩ := List.forall_mem_append.1 own
    obtain ⟨other, others⟩ := List.ne_and_not_mem_of_not_mem_cons noFounding
    refine (task.sustains sustains (fun is => absurd is.symm other) first).bind fun _ => ?_
    exact (ih others rest).bind fun _ => Program.sustains_done _

/-- No id escapes the active directory. Whatever is no id is refused before anything is asked for,
and every id has files of its own in the two directories. In a tree without symbolic links, a call
of the store about an id leaves every entry as it is, at every moment of every run, but those in the
places of its files and those beside them that bore no name before, and makes directories where
nothing was on the way there. So do any tasks but founding, for the ids they are given and those
that were listed. Whatever is not named for an id stays, and no file beside a rule file is named
like one. -/
theorem isConfined (controller : Controller) {tree : Tree} (noLink : tree.HasNoLink)
    (breaks : Breaks) :
    (∀ (call : StoreCall) (id : String), call.id? = some id → isRuleId id = false →
      call.program controller.store =
        throw (.validation id "id" "not a valid file name component")) ∧
    (∀ id id' context context' path path', controller.store.path id context = .ok path →
      controller.store.path id' context' = .ok path' → path.names = path'.names →
        id = id' ∧ context = context') ∧
    (∀ (call : StoreCall) (id : String), call.id? = some id → ∀ rest history,
      (call.program controller.store).run.Reaches (History.terms breaks) { tree } rest history →
        ∀ made ∈ history.trees, controller.store.Confines (· = id) tree made) ∧
    (∀ tasks, Task.bootstrap ∉ tasks → ∀ rest history,
      (controller.inTurn tasks).Reaches (History.terms breaks) { tree } rest history →
        ∀ made ∈ history.trees, controller.store.Confines
          (fun id => id ∈ tasks.flatMap Task.ids ∨ controller.store.Listed history id) tree made) ∧
    (∀ ids made, controller.store.Confines ids tree made → ∀ directory name entry,
      (∀ id, isRuleId id = true → name ≠ Store.fileName id) →
        tree.entry? (directory ++ [name]) = some entry →
          made.entry? (directory ++ [name]) = some entry) ∧
    ∀ name fresh, ¬ ".conf".toList <:+ (Store.temporaryName name fresh).toList := by
  refine ⟨fun call id named invalid => call.program_of_not_isRuleId _ named invalid, ?_, ?_, ?_, ?_,
    ?_⟩
  · intro id id' context context' path path' is is' same
    obtain ⟨valid, rfl⟩ := Store.path_eq_ok_iff.1 is
    obtain ⟨valid', rfl⟩ := Store.path_eq_ok_iff.1 is'
    exact Store.place_inj valid valid' same
  · intro call id named rest history reached
    have sustains : (call.program controller.store).run.Sustains
        (controller.store.confined (· = id) breaks tree)
        (controller.store.Confines (· = id) tree) :=
      Store.sustains_program fun i is => Option.some.inj (is.symm.trans named)
    exact Store.Confines.of_reaches noLink (fun s here => (sustains s here).within fun _ _ => True)
      reached fun _ _ => trivial
  · intro tasks noFounding rest history reached
    exact Store.Confines.of_reaches noLink
      (sustains_inTurn (controller.store.sustains_confined _ _ _) noFounding fun _ => .inl) reached
      (Store.lists_of_listed fun _ => .inr)
  · intro ids made confines directory name entry other there
    exact confines.kept other there
  · rintro name fresh ⟨front, is⟩
    have last := congrArg List.getLast? is
    have ending : (Store.temporaryName name fresh).toList =
        ("." ++ name ++ "." ++ fresh).toList ++ ['.', 't', 'm', 'p'] := by
      simp [Store.temporaryName]
    rw [ending, List.getLast?_append, List.getLast?_append] at last
    simp at last

/-- Rules come and go, and files that are named for none stay. -/
theorem isConfined_foreign :
    let controller : Controller := ⟨{ activeDir := ⟨"/a"⟩ }⟩
    let tree : Tree :=
      { entries := [(["a"], .directory), (["a", "old.conf"], .file "old".toUTF8),
        (["a", "my site.conf"], .file "x".toUTF8), (["a", "web.conf.bak"], .file "y".toUTF8)] }
    let rule : Rule :=
      { id := "web", targetContainer := "web", targetPort := 80, created := .epoch }
    tree.HasNoLink ∧ ∃ results history,
      (controller.inTurn [.apply rule, .sync []]).Ends (History.terms .never) { tree } results
          history ∧
        history.tree.entry? ["a", "old.conf"] = none ∧ ∀ made ∈ history.trees,
          made.entry? ["a", "my site.conf"] = some (.file "x".toUTF8) ∧
            made.entry? ["a", "web.conf.bak"] = some (.file "y".toUTF8) := by
  intro controller tree rule
  have noLink : tree.HasNoLink := Tree.hasNoLink_of_entries (by simp [tree])
  have ends := @History.ends_act _ .never (controller.inTurn [.apply rule, .sync []]) ([], { tree })
  have gone : ((controller.inTurn [.apply rule, .sync []]).run History.act
      ([], { tree })).2.2.tree.entry? ["a", "old.conf"] = none := by decide +kernel
  obtain ⟨_, _, _, always, kept, _⟩ := isConfined controller noLink .never
  have foreign {name : String} (other : Store.ruleId? name = none) (id : String)
      (valid : isRuleId id = true) : name ≠ Store.fileName id := by
    rintro rfl
    cases other.symm.trans (Store.ruleId?_fileName valid)
  refine ⟨noLink, _, _, ends, gone, fun made listed => ?_⟩
  have confines := always _ (by decide) _ _ ends.reaches made listed
  exact ⟨kept _ made confines ["a"] "my site.conf" _ (foreign (by decide)) (by decide),
    kept _ made confines ["a"] "web.conf.bak" _ (foreign (by decide)) (by decide)⟩

end Controller

end ProxyKeeper
