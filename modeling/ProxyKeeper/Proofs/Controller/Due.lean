import ProxyKeeper.Proofs.Controller.InStep
import ProxyKeeper.Proofs.Store.Operations

/-!
# What there is to do

A synchronization writes the files that are not right, and then removes those of all other ids that
are listed. What it does can be told from what the store showed before: writing the file of an id
neither makes that of another one right or wrong, nor adds another one to the list. Where no call
fails, the files are in step afterwards.

## Main Definitions

* `Store.shows` — whether the file of an id is right
* `Store.dueReport` — what is to be done, by what the store shows
* `Store.Writes`, `Store.Purges` — what has been done

## Main Results

* `Store.Writes.inStep` — files in step when all others are gone
* `Controller.writes_writeFiles`, `Controller.purges_removeEach` — the two loops
* `Controller.brings_writeDesired` — what is told in the end, and the files in step
-/

namespace ProxyKeeper

namespace Store

variable {store : Store} {files : List (String × RuleFile)} {tree made left : Tree}
  {ids : List String}

/-! ## What is to be done -/

/-- Whether the file of an id is right. -/
def shows (store : Store) (tree : Tree) (named : String × RuleFile) : Bool :=
  match store.readIn tree named.1 with
  | .ok current => current = some named.2
  | .error _ => false

theorem shows_eq_true_iff {named : String × RuleFile} :
    store.shows tree named = true ↔ store.readIn tree named.1 = .ok (some named.2) := by
  rw [shows]
  cases store.readIn tree named.1 with
  | error e => simp
  | ok current => simp

/-- The ids of the files that are not right. -/
def wrongIds (store : Store) (tree : Tree) (files : List (String × RuleFile)) : List String :=
  (files.filter (!store.shows tree ·)).map Prod.fst

/-- The ids of the files that are right. -/
def rightIds (store : Store) (tree : Tree) (files : List (String × RuleFile)) : List String :=
  (files.filter (store.shows tree ·)).map Prod.fst

/-- The ids that are listed, but not called for. -/
def strayIds (files : List (String × RuleFile)) (listed : List String) : List String :=
  listed.filter (· ∉ files.map Prod.fst)

/-- What is to be done for files that are called for, when some ids are listed. -/
def dueReport (store : Store) (tree : Tree) (files : List (String × RuleFile))
    (listed : List String) : SyncReport :=
  { written := store.wrongIds tree files
    removed := strayIds files listed
    unchanged := store.rightIds tree files }

/-! ## What is done -/

/-- Whether a tree is what another one becomes when the files that are not right are written. -/
structure Writes (store : Store) (files : List (String × RuleFile)) (tree left : Tree) : Prop where
  changes : store.ChangesOnly (files.map Prod.fst) tree left
  right : ∀ named ∈ files, store.readIn left named.1 = .ok (some named.2)
  still : store.wrongIds tree files = [] → left = tree

theorem shows_congr {named : String × RuleFile}
    (same : store.readIn left named.1 = store.readIn tree named.1) :
    store.shows left named = store.shows tree named := by
  rw [shows, shows, same]

section Cons

variable {id : String} {file : RuleFile} (sound : store.Sound tree)
  (nodup : (((id, file) :: files).map Prod.fst).Nodup) (one : store.ChangesOnly [id] tree made)

include sound nodup one

/-- Files of other ids are as right as before. -/
theorem shows_of_changesOnly :
    ∀ named ∈ files, store.shows made named = store.shows tree named := by
  intro named is
  have apart : named.1 ≠ id := by
    rintro rfl
    exact (List.nodup_cons.1 nodup).1 (List.mem_map.2 ⟨named, is, rfl⟩)
  exact shows_congr ((one.sameBut sound).read _ (by simpa using apart))

theorem rightIds_of_changesOnly : store.rightIds made files = store.rightIds tree files := by
  rw [rightIds, List.filter_congr (shows_of_changesOnly sound nodup one), rightIds]

theorem wrongIds_of_changesOnly : store.wrongIds made files = store.wrongIds tree files := by
  rw [wrongIds, wrongIds, List.filter_congr fun named is =>
    congrArg Bool.not (shows_of_changesOnly sound nodup one named is)]

/-- A file that was right, or was written, and then the others. -/
theorem Writes.cons (own : store.readIn made id = .ok (some file))
    (still : store.shows tree (id, file) = true → made = tree)
    (rest : store.Writes files made left) : store.Writes ((id, file) :: files) tree left := by
  refine ⟨one.trans rest.changes, List.forall_mem_cons.2 ⟨?_, rest.right⟩, fun nothing => ?_⟩
  · rw [← own]
    exact (rest.changes.sameBut one.sound).read id (List.nodup_cons.1 nodup).1
  · have same := wrongIds_of_changesOnly sound nodup one
    rw [wrongIds, List.filter_cons] at nothing
    split at nothing
    next => cases nothing
    next right =>
      rw [rest.still (same.trans nothing), still (by simpa using right)]

end Cons

/-- Whether a tree is what another one becomes when the files of some ids are removed. -/
structure Purges (store : Store) (ids : List String) (tree left : Tree) : Prop where
  changes : store.ChangesOnly ids tree left
  gone : ∀ id ∈ ids, ∀ context, store.held left id context = none
  still : ids = [] → left = tree

theorem Purges.cons {id : String} (one : store.ChangesOnly [id] tree made)
    (gone : ∀ context, store.held made id context = none) (rest : store.Purges ids made left) :
    store.Purges (id :: ids) tree left := by
  refine ⟨one.trans rest.changes, List.forall_mem_cons.2 ⟨fun context => ?_, rest.gone⟩, nofun⟩
  by_cases again : id ∈ ids
  · exact rest.gone id again context
  · rw [rest.changes.held_eq id again]
    exact gone context

/-- To write the files that are called for does not change which others are listed. -/
theorem Writes.exists_listed (writes : store.Writes files tree made) (sound : store.Sound tree)
    {listed : List String} (after : store.listIn made = .ok listed) :
    ∃ before, store.listIn tree = .ok before ∧ strayIds files before = strayIds files listed :=
  (writes.changes.sameBut sound).symm.exists_listIn after

/-- Files that were written are in step once all others are removed. -/
theorem Writes.inStep (writes : store.Writes files tree made) {listed : List String}
    (after : store.listIn made = .ok listed)
    (purges : store.Purges (strayIds files listed) made left) : store.InStep files left := by
  have same := purges.changes.sameBut writes.changes.sound
  obtain ⟨ids, now, kept⟩ := same.exists_listIn after
  refine ⟨fun named is => ?_, ids, now, fun id is => ?_⟩
  · rw [← writes.right named is]
    refine same.read _ fun stray => ?_
    have apart : named.1 ∉ files.map Prod.fst := by simpa using (List.mem_filter.1 stray).2
    exact apart (List.mem_map_of_mem is)
  · by_contra other
    -- what is listed in the end was not removed, so it was listed before, and was to be removed
    obtain ⟨context, there⟩ := (purges.changes.sound.mem_listIn_iff now).1 is
    have stays : id ∉ strayIds files listed := fun stray => there (purges.gone id stray context)
    have was : id ∈ listed.filter (· ∉ strayIds files listed) := by
      rw [← kept]
      exact List.mem_filter.2 ⟨is, by simpa using stays⟩
    exact stays (List.mem_filter.2 ⟨(List.mem_filter.1 was).1, by simpa using other⟩)

end Store

namespace Controller

variable {controller : Controller} {files : List (String × RuleFile)} {tree : Tree}
  {ids : List String}

/-- Where nothing fails, the files that are not right are written, and told apart from the others.
-/
theorem writes_writeFiles (sound : controller.store.Sound tree)
    (valid : ∀ named ∈ files, isRuleId named.1 = true) (nodup : (files.map Prod.fst).Nodup)
    (progress : SyncProgress) :
    (controller.writeFiles files progress).Meets Tree.exactly (fun made left =>
      made.failure = none → controller.store.Writes files tree left ∧
        made.report = { progress.report with
          written := progress.report.written ++ controller.store.wrongIds tree files
          unchanged := progress.report.unchanged ++ controller.store.rightIds tree files })
      tree := by
  induction files generalizing progress tree with
  | nil =>
    refine Program.meets_pure.2 fun _ => ⟨⟨.refl sound, nofun, fun _ => rfl⟩, ?_⟩
    simp [Store.wrongIds, Store.rightIds]
  | cons named files ih =>
    obtain ⟨id, file⟩ := named
    obtain ⟨own, valid⟩ := List.forall_mem_cons.1 valid
    have rest := (List.nodup_cons.1 nodup).2
    refine Program.Meets.bind (Program.meets_of_looks (controller.store.asks_read id)) ?_
    rintro current tree ⟨is, rfl⟩
    cases current with
    | error e => exact Program.meets_pure.2 nofun
    | ok current =>
      dsimp only
      split
      next same =>
        have read : controller.store.readIn tree id = .ok (some file) :=
          is.symm.trans (congrArg Except.ok same)
        have right : controller.store.shows tree (id, file) = true :=
          Store.shows_eq_true_iff.2 read
        refine (ih sound valid rest _).mono fun made left promised done => ?_
        obtain ⟨writes, told⟩ := promised done
        refine ⟨.cons sound nodup (.refl sound) read (fun _ => rfl) writes, ?_⟩
        rw [told]
        simp [Store.wrongIds, Store.rightIds, right]
      next other =>
        have wrong : controller.store.shows tree (id, file) = false := by
          rw [← Bool.not_eq_true, Store.shows_eq_true_iff]
          exact fun read => other (Except.ok.inj (is.trans read))
        refine Program.Meets.bind (sound.meets_write own file) ?_
        rintro (e | _) made promised
        · exact Program.meets_pure.2 nofun
        · obtain ⟨one, read⟩ := promised
          refine (ih one.sound valid rest _).mono fun _ left promised done => ?_
          obtain ⟨writes, told⟩ := promised done
          refine ⟨.cons sound nodup one read (fun right => ?_) writes, ?_⟩
          · cases wrong.symm.trans right
          · rw [told, Store.rightIds_of_changesOnly sound nodup one,
              Store.wrongIds_of_changesOnly sound nodup one]
            simp [Store.wrongIds, Store.rightIds, wrong]

/-- Where nothing fails, the files of all ids are removed. -/
theorem purges_removeEach (sound : controller.store.Sound tree)
    (valid : ∀ id ∈ ids, isRuleId id = true) (progress : SyncProgress) :
    (controller.removeEach ids progress).Meets Tree.exactly (fun made left =>
      made.failure = none → controller.store.Purges ids tree left ∧
        made.report =
          { progress.report with removed := progress.report.removed ++ ids }) tree := by
  induction ids generalizing progress tree with
  | nil =>
    refine Program.meets_pure.2 fun _ => ⟨⟨.refl sound, nofun, fun _ => rfl⟩, ?_⟩
    rw [List.append_nil]
  | cons id ids ih =>
    obtain ⟨own, valid⟩ := List.forall_mem_cons.1 valid
    refine Program.Meets.bind (Program.meets_of_looks (controller.store.asks_read id)) ?_
    rintro current tree ⟨-, rfl⟩
    cases current with
    | error e => exact Program.meets_pure.2 nofun
    | ok current =>
      refine Program.Meets.bind (sound.meets_remove own) ?_
      rintro (e | _) made promised
      · exact Program.meets_pure.2 nofun
      · obtain ⟨one, gone⟩ := promised
        refine (ih one.sound valid _).mono fun _ left promised done => ?_
        obtain ⟨purges, told⟩ := promised done
        refine ⟨.cons one gone purges, ?_⟩
        rw [told]
        simp

/-- Where nothing fails, files are brought in step, and what was done is told. -/
theorem brings_writeDesired (sound : controller.store.Sound tree)
    (valid : ∀ named ∈ files, isRuleId named.1 = true) (nodup : (files.map Prod.fst).Nodup) :
    (controller.writeDesired files).Meets Tree.exactly (fun made left =>
      made.failure = none → ∃ listed, controller.store.listIn tree = .ok listed ∧
        controller.store.InStep files left ∧
        made.report = controller.store.dueReport tree files listed ∧
        (made.report.hasChanges = false → left = tree)) tree := by
  refine Program.Meets.bind (writes_writeFiles sound valid nodup {}) fun progress made promised => ?_
  split
  next failed =>
    refine Program.meets_pure.2 fun done => ?_
    rw [done] at failed
    cases failed
  next done =>
    obtain ⟨writes, told⟩ := promised (by simpa using done)
    refine Program.Meets.bind (Program.meets_of_looks controller.store.asks_list) ?_
    rintro outcome made ⟨is, rfl⟩
    cases outcome with
    | error e => exact Program.meets_pure.2 nofun
    | ok ids =>
      have listed : controller.store.listIn made = .ok ids := is.symm
      have strays : (ids.filter fun id => !(files.map Prod.fst).contains id) =
          Store.strayIds files ids := List.filter_congr fun id _ => by simp
      dsimp only
      rw [strays]
      have validIds : ∀ id ∈ Store.strayIds files ids, isRuleId id = true := fun id stray =>
        writes.changes.sound.isRuleId_of_listIn listed (List.mem_filter.1 stray).1
      refine (purges_removeEach writes.changes.sound validIds _).mono fun _ left promised done => ?_
      obtain ⟨purges, told'⟩ := promised done
      obtain ⟨before, was, same⟩ := writes.exists_listed sound listed
      refine ⟨before, was, writes.inStep listed purges, ?_, fun none => ?_⟩
      · rw [told', told, Store.dueReport, same]
        rfl
      · rw [told', told] at none
        obtain ⟨noneWritten, noneRemoved⟩ : controller.store.wrongIds tree files = [] ∧
            Store.strayIds files ids = [] := by simpa [SyncReport.hasChanges] using none
        rw [purges.still noneRemoved, writes.still noneWritten]

end Controller

end ProxyKeeper
