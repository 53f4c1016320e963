import ProxyKeeper.Proofs.Store.Effects

/-!
# Before the active directory is there

The active directory is made when the first rule file is written. Until then no rule file is there:
nothing is read, listed or removed. Where the directory can be made, and is then an empty one of its
own, the store works with the tree from then on as with any other. No calls but those that find
nothing are to fail here.

## Main Definitions

* `Shelf.empty` — the shelf with nothing on it
* `Store.Vacant` — trees in which the active directory is still to be made

## Main Results

* `Store.Vacant.meets_read`, `Store.Vacant.meets_list`, `Store.Vacant.meets_remove` — nothing is
  found
* `Store.Vacant.meets_write` — the first rule file is written
-/

namespace ProxyKeeper

variable {site : Site}

/-- The shelf with nothing on it. -/
def Shelf.empty : Shelf := fun _ _ => none

theorem Shelf.isSingle_empty : Shelf.empty.IsSingle :=
  fun _ => .inl rfl

namespace Store

open Operation

variable {store : Store} {tree : Tree} {live : Live} {id : String} {context : Context}

/-- Whether the active directory is missing, can be made, and is an empty one of its own then. -/
structure Vacant (store : Store) (tree : Tree) : Prop where
  given : store.config.activeDir.text ≠ ""
  missing : ∀ context, tree.directory? (store.directory context) = none
  made : ∀ context, (tree.createDirectories (store.directory context)).1 = .ok () ∧
    let made := (tree.createDirectories (store.directory context)).2
    store.Tidy made ∧ store.shelf made = .empty ∧
      ∃ directory, made.directory? (store.directory context) = some directory

namespace Vacant

/-- The directories of both contexts are given. -/
theorem directory_ne (vacant : store.Vacant tree) (context : Context) :
    (store.directory context).text ≠ "" :=
  store.directory_ne_of_activeDir vacant.given context

/-- No link is in a directory that is missing. -/
theorem noLink (vacant : store.Vacant tree) (context : Context) (name : String) :
    tree.NoLinkIn (store.directory context) name := by
  intro directory leads
  rw [vacant.missing context] at leads
  cases leads

theorem shelf_eq (vacant : store.Vacant tree) : store.shelf tree = .empty := by
  funext id context
  unfold shelf
  split
  · rw [Tree.fileIn?, vacant.missing context]
    rfl
  · rfl

/-- What is not found ends no operation. -/
theorem fault_eq {call : FileCall} {fault : IoFault} {tree' : Tree}
    (answered : tree.Answers false call (.error fault) tree') : fault = .notFound := by
  by_contra other
  exact Bool.noConfusion (answered.faulty other)

/-- No rule file is read where no directory is. -/
theorem meets_readIfPresent (vacant : store.Vacant site.tree) (valid : isRuleId id = true) :
    (readIfPresent ((store.directory context).child (fileName id))).Meets (Site.terms false)
      (fun text s => s = site ∧ text = none) (fun _ _ => False) site := by
  refine meets_bind.2 (meets_attempt fun answer tree answered => ?_)
  cases answer with
  | ok content =>
    obtain ⟨read, _⟩ := Prod.mk.inj answered.ok
    have there := Tree.read_child_ok (vacant.directory_ne context) (isPlainName_fileName valid)
      (vacant.noLink context _) read
    rw [Tree.fileIn?, vacant.missing context] at there
    cases there
  | error fault =>
    obtain rfl := fault_eq answered
    have same : tree = site.tree := answered.fault.eq_of_not_changes rfl
    rw [same]
    exact ⟨rfl, rfl⟩

theorem meets_read (vacant : store.Vacant site.tree) (valid : isRuleId id = true) :
    (store.read id).Meets (Site.terms false) (fun file s => s = site ∧ file = none)
      (fun _ _ => False) site := by
  rw [read, readFrom, path_of_isRuleId store valid]
  refine meets_bind.2 (meets_ok.2 ((vacant.meets_readIfPresent valid).bind ?_))
  rintro _ s ⟨rfl, rfl⟩
  dsimp only
  rw [readFrom, path_of_isRuleId store valid]
  refine meets_bind.2 (meets_ok.2 ((vacant.meets_readIfPresent valid).bind ?_))
  rintro _ s ⟨rfl, rfl⟩
  exact ⟨rfl, rfl⟩

/-- No id is listed where no directory is. -/
theorem meets_listDirectory (vacant : store.Vacant site.tree) :
    (listDirectory (store.directory context)).Meets (Site.terms false)
      (fun ids s => s = site ∧ ids = []) (fun _ _ => False) site := by
  refine meets_bind.2 (meets_attempt fun answer tree answered => ?_)
  cases answer with
  | ok names =>
    obtain ⟨list, _⟩ := Prod.mk.inj answered.ok
    obtain ⟨directory, leads, _⟩ := Tree.list_ok list
    rw [vacant.missing context] at leads
    cases leads
  | error fault =>
    obtain rfl := fault_eq answered
    have same : tree = site.tree := answered.fault.eq_of_not_changes rfl
    rw [same]
    exact ⟨rfl, rfl⟩

theorem meets_list (vacant : store.Vacant site.tree) :
    store.list.Meets (Site.terms false) (fun ids s => s = site ∧ ids = [])
      (fun _ _ => False) site := by
  refine vacant.meets_listDirectory.bind ?_
  rintro _ s ⟨rfl, rfl⟩
  refine vacant.meets_listDirectory.bind ?_
  rintro _ s ⟨rfl, rfl⟩
  exact ⟨rfl, rfl⟩

/-- No rule file is removed where no directory is. -/
theorem meets_removeIfPresent (vacant : store.Vacant site.tree) (valid : isRuleId id = true) :
    (removeIfPresent ((store.directory context).child (fileName id))).Meets (Site.terms false)
      (fun found s => s = site ∧ found = false) (fun _ _ => False) site := by
  refine meets_bind.2 (meets_attempt fun answer tree answered => ?_)
  cases answer with
  | ok result =>
    have removed := Tree.changed_eq_ok_iff.1 answered.ok
    obtain ⟨directory, _, leads, _⟩ := Tree.remove_child_ok (vacant.directory_ne context)
      (isPlainName_fileName valid) (vacant.noLink context _) removed
    rw [vacant.missing context] at leads
    cases leads
  | error fault =>
    obtain rfl := fault_eq answered
    have same : site.tree = tree := (Tree.changed_eq_error_iff.1 answered.notFound).2
    rw [← same]
    exact ⟨rfl, rfl⟩

theorem meets_remove (vacant : store.Vacant site.tree) (valid : isRuleId id = true) :
    (store.remove id).Meets (Site.terms false) (fun found s => s = site ∧ found = false)
      (fun _ _ => False) site := by
  rw [remove, path_of_isRuleId store valid, path_of_isRuleId store valid]
  refine meets_bind.2 (meets_ok.2 ((vacant.meets_removeIfPresent valid).bind ?_))
  rintro _ s ⟨rfl, rfl⟩
  refine meets_bind.2 (meets_ok.2 ((vacant.meets_removeIfPresent valid).bind ?_))
  rintro _ s ⟨rfl, rfl⟩
  exact ⟨rfl, rfl⟩

/-- The first rule file is the only one. -/
theorem meets_write (vacant : store.Vacant site.tree) (valid : isRuleId id = true)
    (file : RuleFile) :
    (store.write id file).Meets (Site.terms false)
      (fun _ s => store.At site.live (Shelf.empty.set id (some file)) s)
      (fun _ _ => False) site := by
  obtain ⟨succeeds, tidy, empty, leads⟩ := vacant.made file.context
  rw [write, path_of_isRuleId store valid]
  refine meets_bind.2 (meets_ok.2 (meets_bind.2 (meets_file ?_ ?_)))
  · intro _ tree answered
    obtain rfl : (site.tree.createDirectories (store.directory file.context)).2 = tree :=
      congrArg Prod.snd answered.ok
    have here : store.At site.live .empty
        { site with tree := (site.tree.createDirectories (store.directory file.context)).2 } :=
      ⟨rfl, tidy, empty⟩
    exact (meets_writeMade here valid file leads).mono (fun _ _ written => written)
      fun _ _ spoils => Bool.noConfusion spoils.2.1
  · intro fault tree answered
    obtain rfl := fault_eq answered
    have failed : (site.tree.createDirectories (store.directory file.context)).1 =
        .error .notFound := congrArg Prod.fst answered.notFound
    rw [succeeds] at failed
    cases failed

end Vacant

end Store

end ProxyKeeper
