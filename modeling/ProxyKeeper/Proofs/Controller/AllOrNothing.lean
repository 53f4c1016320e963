import ProxyKeeper.Proofs.Controller.Desired

/-!
# All or nothing

A change of rules reaches the files wholly or not at all, whichever calls of the file system fail on
the way and whatever nginx replies. When it cannot put back what it has changed, it says so.

A synchronization changes one id after another. Up to each of them, whatever has changed is covered
by a snapshot, and a failure has spoilt the files of the one id at hand at most.

## Main Definitions

* `Controller.Comes`, `Controller.ComesInStep` — how far the files have come when the writing of a
  synchronization ends
* `Controller.IsAllOrNothing` — what a result tells of the rule files

## Main Results

* `Site.undoes_apply`, `Site.undoes_sync` — the two changes on a site
* `Site.meets_apply`, `Site.meets_sync` — the same where no id has two files
* `Controller.isAllOrNothing` — all or nothing under any faults
-/

namespace ProxyKeeper

namespace Controller

/-- How far the files have come when a part of a synchronization ends: what has changed is covered.
Snapshots were taken of the ids that are due, one after another, and without a failure of all of
them; then the shelf is as the part was to make it. -/
def Comes (controller : Controller) (live : Live) (before : Shelf) (due : List String)
    (reached : Shelf → Prop) (progress : SyncProgress) (site : Site) : Prop :=
  ∃ shelf, controller.store.At live shelf site ∧ Covers progress.snapshots before shelf ∧
    match progress.failure with
    | some error => progress.snapshots.map Prod.fst <+: due ∧ error.IsIo
    | none => progress.snapshots.map Prod.fst = due ∧
      (progress.report.hasChanges = false → shelf = before) ∧ reached shelf

theorem Comes.mono {controller : Controller} {live : Live} {before : Shelf} {due : List String}
    {reached wider : Shelf → Prop} {progress : SyncProgress} {site : Site}
    (h : controller.Comes live before due reached progress site)
    (widens : ∀ shelf, reached shelf → wider shelf) :
    controller.Comes live before due wider progress site := by
  obtain ⟨shelf, here, covers, ended⟩ := h
  refine ⟨shelf, here, covers, ?_⟩
  cases failure : progress.failure with
  | some error => rwa [failure] at ended
  | none =>
    rw [failure] at ended
    obtain ⟨taken, idle, there⟩ := ended
    exact ⟨taken, idle, widens shelf there⟩

/-- How far the files have come when they were to be brought in step with those called for. First
the ids that are out of step are due, and then some for which nothing is called for. -/
def ComesInStep (controller : Controller) (live : Live) (before : Shelf)
    (files : List (String × RuleFile)) (progress : SyncProgress) (site : Site) : Prop :=
  ∃ surplus : List String, (∀ id ∈ surplus, id ∉ files.map Prod.fst) ∧
    controller.Comes live before (before.outOfStep (Shelf.calledFor files) ++ surplus)
      (fun after =>
        (∀ named ∈ files, after named.1 = Shelf.inStepWith (before named.1) named.2) ∧
          ∀ id, id ∉ files.map Prod.fst → after id = Shelf.row none)
      progress site

/-- What a result tells of the rule files after a change that should have led to `requested`. -/
def IsAllOrNothing {α : Type} (controller : Controller) (requested : Shelf → Prop)
    (before after : Shelf) : Except OperationError α → Prop
  | .ok _ => requested after
  | .error error =>
    error.Tells controller.config.rollbackOnApplyFailure true requested before after

end Controller

namespace Site

open Operation

variable {controller : Controller} {site : Site} {faults : Bool} {live : Live}
  {before shelf : Shelf} {id : String}

/-! ## One rule -/

/-- The file of a rule is the only one of its id in the end, or the change is undone. -/
theorem meets_applyFile (here : controller.store.At live before site)
    (valid : isRuleId id = true) (file : RuleFile) {requested : Shelf → Prop}
    (wanted : requested (before.set id (some file))) :
    (controller.applyFile id file).Meets (terms faults)
      (fun _ s => controller.store.At ⟨s.tree, live.reloads + 1⟩ (before.set id (some file)) s)
      (controller.Undoes faults live (· <+: [id]) requested before) site := by
  refine meets_bind.2 ((Store.meets_read here valid).mono ?_ ?_)
  · rintro file' s ⟨same, shows⟩
    obtain rfl : site = s := same.symm
    have covers {after : Shelf} (others : ∀ i, i ≠ id → after i = before i) :
        Covers [(id, file')] before after := (Covers.nil before).append valid shows others
    refine meets_bind.2 (meets_outcome.2 ((Store.meets_write here valid file).mono ?_ ?_))
    · intro _ s written
      refine meets_settle written (covers fun i ne => Shelf.set_of_ne ne _ _) ?_ wanted
      exact List.prefix_refl _
    · rintro e s ⟨io, _, spoilt, others, there⟩
      refine meets_rollBack there (covers others) ?_ fun _ => io.tells
      exact List.prefix_refl _
  · -- without a snapshot nothing is written
    rintro e s ⟨io, rfl⟩
    exact .untouched List.nil_prefix here io.tells

/-- Applying an enabled rule brings its file into force, or is undone. -/
theorem undoes_apply (here : controller.store.At live before site) {rule : Rule}
    (enabled : rule.enabled = true) {requested : Shelf → Prop}
    (wanted : ∀ file, rule.file controller.options = .ok file →
      requested (before.set rule.id (some file))) :
    (controller.apply rule).Meets (terms faults)
      (fun _ s => rule.validate = .ok () ∧ ∃ file, rule.file controller.options = .ok file ∧
        controller.store.At ⟨s.tree, live.reloads + 1⟩ (before.set rule.id (some file)) s)
      (controller.Undoes faults live (· <+: [rule.id]) requested before) site := by
  rw [Controller.apply, enabled, Bool.not_true, if_neg Bool.false_ne_true]
  refine meets_bind.2 ?_
  cases valid : rule.validate with
  | error e =>
    have invalid := Rule.isInvalid_of_validate valid
    exact meets_error.2 (.untouched List.nil_prefix here invalid.tells)
  | ok _ =>
    refine meets_ok.2 (meets_bind.2 ?_)
    cases own : rule.file controller.options with
    | error e =>
      have invalid := Rule.isInvalid_of_file own
      exact meets_error.2 (.untouched List.nil_prefix here invalid.tells)
    | ok file =>
      have id := Rule.isRuleId_of_validate valid
      refine meets_ok.2 (Meets.bind
        (meets_exclusively (meets_applyFile here id file (wanted file own))) ?_)
      intro _ s promised
      exact ⟨rfl, file, rfl, promised⟩

/-- Where no id has two files, applying an enabled rule brings its file into force, or leaves all as
before. -/
theorem meets_apply (here : controller.store.At live before site) (single : before.IsSingle)
    {rule : Rule} (enabled : rule.enabled = true) {requested : Shelf → Prop}
    (wanted : ∀ file, rule.file controller.options = .ok file →
      requested (before.set rule.id (some file))) :
    (controller.apply rule).Meets (terms faults)
      (fun _ s => ∃ file, rule.file controller.options = .ok file ∧
        controller.store.At ⟨s.tree, live.reloads + 1⟩ (before.set rule.id (some file)) s)
      (fun e s => ∃ after, controller.store.At live after s ∧
        e.Tells controller.config.rollbackOnApplyFailure faults requested before after) site :=
  (undoes_apply here enabled wanted).mono (fun _ _ applied => applied.2)
    fun _ _ undoes => undoes.tells single

/-! ## Many rules -/

/-- The files that differ are written, and those of other ids stay as they are. -/
theorem meets_writeFiles {files : List (String × RuleFile)} {progress : SyncProgress}
    (here : controller.store.At live shelf site)
    (covers : Covers progress.snapshots before shelf) (clean : progress.failure = none)
    (idle : progress.report.hasChanges = false → shelf = before)
    (nodup : (files.map Prod.fst).Nodup) (valid : ∀ named ∈ files, isRuleId named.1 = true)
    (untouched : ∀ named ∈ files, shelf named.1 = before named.1) :
    (controller.writeFiles files progress).Meets (terms faults)
      (controller.Comes live before
        (progress.snapshots.map Prod.fst ++ before.outOfStep (Shelf.calledFor files))
        fun after =>
          (∀ named ∈ files, after named.1 = Shelf.inStepWith (before named.1) named.2) ∧
            ∀ id, id ∉ files.map Prod.fst → after id = shelf id) site := by
  -- the ids to come are as before the change, so that a snapshot of them shows what was there
  induction files generalizing progress site shelf with
  | nil =>
    refine ⟨shelf, here, covers, ?_⟩
    rw [clean]
    exact ⟨(List.append_nil _).symm, idle, by simp, fun _ _ => rfl⟩
  | cons named files ih =>
    obtain ⟨id, file⟩ := named
    obtain ⟨absent, nodup⟩ := List.nodup_cons.1 nodup
    obtain ⟨validId, valid⟩ := List.forall_mem_cons.1 valid
    obtain ⟨asBefore, untouched⟩ := List.forall_mem_cons.1 untouched
    have others {named : String × RuleFile} (listed : named ∈ files) : named.1 ≠ id := by
      intro same
      exact absent (List.mem_map.2 ⟨named, listed, same⟩)
    refine Program.Meets.bind (Store.meets_read here validId) ?_
    intro outcome s ended
    cases outcome with
    | error e =>
      obtain ⟨io, rfl⟩ := ended
      exact ⟨shelf, here, covers, List.prefix_append _ _, io⟩
    | ok current =>
      obtain ⟨same, shows⟩ := ended
      obtain rfl : site = s := same.symm
      rw [asBefore] at shows
      dsimp only
      split
      next right =>
        -- the file is right already, so the shelf is as it should be for this id
        rw [right] at shows
        have step : before.outOfStep (Shelf.calledFor ((id, file) :: files)) =
            before.outOfStep (Shelf.calledFor files) := Shelf.outOfStep_cons_of_shows shows
        rw [step]
        refine Program.Meets.mono (ih here ?_ ?_ ?_ nodup valid untouched) ?_
        · exact covers
        · exact clean
        · exact idle
        intro progress' s comes
        refine comes.mono fun after reached => ⟨?_, ?_⟩
        · refine List.forall_mem_cons.2 ⟨?_, reached.1⟩
          rw [reached.2 id absent, asBefore, Shelf.inStepWith, if_pos shows]
        · intro i outside
          exact reached.2 i fun listed => outside (List.mem_cons_of_mem _ listed)
      next wrong =>
        have covered {after : Shelf} (same : ∀ i, i ≠ id → after i = shelf i) :
            Covers (progress.snapshots ++ [(id, current)]) before after :=
          covers.append validId shows same
        have differs : ¬ Shelf.Shows (before id) (some file) :=
          fun right => wrong (shows.unique right)
        have step : progress.snapshots.map Prod.fst ++
              before.outOfStep (Shelf.calledFor ((id, file) :: files)) =
            (progress.snapshots ++ [(id, current)]).map Prod.fst ++
              before.outOfStep (Shelf.calledFor files) := by
          rw [List.map_append, List.append_assoc]
          exact congrArg _ (Shelf.outOfStep_cons_of_not_shows differs)
        rw [step]
        refine Program.Meets.bind (Store.meets_write here validId file) ?_
        intro outcome s ended
        cases outcome with
        | error e =>
          -- what was spoilt is covered, for the snapshot was taken first
          obtain ⟨io, _, spoilt, same, there⟩ := ended
          exact ⟨spoilt, there, covered same, List.prefix_append _ _, io⟩
        | ok _ =>
          have there : controller.store.At live (shelf.set id (some file)) s := ended
          refine Program.Meets.mono (ih there ?_ ?_ ?_ nodup valid ?_) ?_
          · exact covered fun i ne => Shelf.set_of_ne ne _ _
          · exact clean
          · intro unchanged
            simp [SyncReport.hasChanges] at unchanged
          · intro named listed
            rw [Shelf.set_of_ne (others listed)]
            exact untouched named listed
          intro progress' s comes
          refine comes.mono fun after reached => ⟨?_, ?_⟩
          · refine List.forall_mem_cons.2 ⟨?_, reached.1⟩
            rw [reached.2 id absent, Shelf.set_self, Shelf.inStepWith, if_neg differs]
          · exact Shelf.eq_outside_cons reached.2

/-- The files of some ids are removed, and those of other ids stay as they are. -/
theorem meets_removeEach {ids : List String} {progress : SyncProgress}
    (here : controller.store.At live shelf site)
    (covers : Covers progress.snapshots before shelf) (clean : progress.failure = none)
    (idle : progress.report.hasChanges = false → shelf = before)
    (nodup : ids.Nodup) (valid : ∀ id ∈ ids, isRuleId id = true)
    (untouched : ∀ id ∈ ids, shelf id = before id) :
    (controller.removeEach ids progress).Meets (terms faults)
      (controller.Comes live before (progress.snapshots.map Prod.fst ++ ids) fun after =>
        (∀ id ∈ ids, after id = Shelf.row none) ∧ ∀ id, id ∉ ids → after id = shelf id) site := by
  induction ids generalizing progress site shelf with
  | nil =>
    refine ⟨shelf, here, covers, ?_⟩
    rw [clean]
    exact ⟨(List.append_nil _).symm, idle, by simp, fun _ _ => rfl⟩
  | cons id ids ih =>
    obtain ⟨absent, nodup⟩ := List.nodup_cons.1 nodup
    obtain ⟨validId, valid⟩ := List.forall_mem_cons.1 valid
    obtain ⟨asBefore, untouched⟩ := List.forall_mem_cons.1 untouched
    refine Program.Meets.bind (Store.meets_read here validId) ?_
    intro outcome s ended
    cases outcome with
    | error e =>
      obtain ⟨io, rfl⟩ := ended
      exact ⟨shelf, here, covers, List.prefix_append _ _, io⟩
    | ok current =>
      obtain ⟨same, shows⟩ := ended
      obtain rfl : site = s := same.symm
      have covered {after : Shelf} (same : ∀ i, i ≠ id → after i = shelf i) :
          Covers (progress.snapshots ++ [(id, current)]) before after :=
        covers.append validId (asBefore ▸ shows) same
      have step : progress.snapshots.map Prod.fst ++ id :: ids =
          (progress.snapshots ++ [(id, current)]).map Prod.fst ++ ids := by
        rw [List.map_append, List.append_assoc]
        rfl
      rw [step]
      refine Program.Meets.bind (Store.meets_remove here validId) ?_
      intro outcome s ended
      cases outcome with
      | error e =>
        obtain ⟨io, _, spoilt, same, there⟩ := ended
        exact ⟨spoilt, there, covered same, List.prefix_append _ _, io⟩
      | ok found =>
        obtain ⟨_, there⟩ := ended
        refine Program.Meets.mono (ih there ?_ ?_ ?_ nodup valid ?_) ?_
        · exact covered fun i ne => Shelf.set_of_ne ne _ _
        · exact clean
        · intro unchanged
          simp [SyncReport.hasChanges] at unchanged
        · intro other listed
          rw [Shelf.set_of_ne]
          · exact untouched other listed
          · rintro rfl
            exact absent listed
        intro progress' s comes
        refine comes.mono fun after reached => ⟨?_, ?_⟩
        · refine List.forall_mem_cons.2 ⟨?_, reached.1⟩
          rw [reached.2 id absent, Shelf.set_self]
        · exact Shelf.eq_outside_cons reached.2

/-- When the files called for were written, the files of no other ids are left. -/
theorem meets_writeDesired_of_writeFiles {files : List (String × RuleFile)}
    (wrote : (controller.writeFiles files {}).Meets (terms faults)
      (controller.Comes live before (before.outOfStep (Shelf.calledFor files)) fun after =>
        (∀ named ∈ files, after named.1 = Shelf.inStepWith (before named.1) named.2) ∧
          ∀ id, id ∉ files.map Prod.fst → after id = before id) site) :
    (controller.writeDesired files).Meets (terms faults)
      (controller.ComesInStep live before files) site := by
  refine Program.meets_bind.2 (wrote.mono ?_)
  rintro progress s ⟨shelf, there, covers, ended⟩
  cases failure : progress.failure with
  | some error =>
    rw [failure] at ended
    refine ⟨[], by simp, shelf, there, covers, ?_⟩
    rw [failure, List.append_nil]
    exact ended
  | none =>
    rw [failure] at ended
    obtain ⟨taken, idle, held, asBefore⟩ := ended
    refine Program.Meets.bind (Store.meets_list there) ?_
    intro outcome s' listing
    cases outcome with
    | error e =>
      obtain ⟨io, rfl⟩ := listing
      refine ⟨[], by simp, shelf, there, covers, ?_, io⟩
      rw [List.append_nil]
      exact ⟨[], (List.append_nil _).trans taken⟩
    | ok ids =>
      obtain ⟨same, nodupIds, validIds, all⟩ := listing
      obtain rfl : s = s' := same.symm
      have mem_surplus {id : String} :
          id ∈ (ids.filter fun id => !(files.map Prod.fst).contains id) ↔
            id ∈ ids ∧ id ∉ files.map Prod.fst := by
        rw [List.mem_filter, Bool.not_eq_true', List.contains_eq_mem, decide_eq_false_iff_not]
      refine (meets_removeEach there covers failure idle
        (nodupIds.sublist List.filter_sublist)
        (fun id listed => validIds id (mem_surplus.1 listed).1)
        (fun id listed => asBefore id (mem_surplus.1 listed).2)).mono fun progress' s comes => ?_
      rw [taken] at comes
      refine ⟨_, fun id listed => (mem_surplus.1 listed).2, comes.mono fun after reached => ?_⟩
      refine ⟨?_, ?_⟩
      · intro named listed
        rw [reached.2]
        · exact held named listed
        · exact fun surplus => (mem_surplus.1 surplus).2 (List.mem_map_of_mem listed)
      · intro id outside
        by_cases listed : id ∈ ids
        · exact reached.1 id (mem_surplus.2 ⟨listed, outside⟩)
        · -- an id without a file is not listed, and needs no removal
          rw [reached.2 id fun surplus => listed (mem_surplus.1 surplus).1]
          funext context
          by_contra held
          exact listed (all id context held)

/-- The ids are brought in step with the files called for, and no others have any. -/
theorem meets_writeDesired {files : List (String × RuleFile)}
    (here : controller.store.At live before site) (nodup : (files.map Prod.fst).Nodup)
    (valid : ∀ named ∈ files, isRuleId named.1 = true) :
    (controller.writeDesired files).Meets (terms faults)
      (controller.ComesInStep live before files) site := by
  have clean : ({} : SyncProgress).failure = none := rfl
  exact meets_writeDesired_of_writeFiles
    (meets_writeFiles here (Covers.nil before) clean (fun _ => rfl) nodup valid fun _ _ => rfl)

/-- When files were brought in step, they come into force, unless they were there before, or the
change is undone. -/
theorem meets_syncFiles_of_writeDesired {files : List (String × RuleFile)}
    {requested : Shelf → Prop}
    (wrote : (controller.writeDesired files).Meets (terms faults)
      (controller.ComesInStep live before files) site)
    (wanted : ∀ after : Shelf,
      (∀ named ∈ files, after named.1 = Shelf.inStepWith (before named.1) named.2) →
      (∀ id, id ∉ files.map Prod.fst → after id = Shelf.row none) → requested after) :
    (controller.syncFiles files).Meets (terms faults)
      (fun _ s => ∃ after, requested after ∧
        (controller.store.At ⟨s.tree, live.reloads + 1⟩ after s ∨
          after = before ∧ controller.store.At live before s))
      (controller.Undoes faults live (before.MaySync (Shelf.calledFor files)) requested before)
      site := by
  refine meets_bind.2 (meets_lift.2 (wrote.mono ?_))
  rintro progress s ⟨surplus, uncalled, shelf, there, covers, ended⟩
  have maySync {touched : List String}
      (taken : touched <+: before.outOfStep (Shelf.calledFor files) ++ surplus) :
      before.MaySync (Shelf.calledFor files) touched := by
    refine ⟨surplus, ?_, taken⟩
    rwa [Shelf.map_fst_calledFor]
  cases failure : progress.failure with
  | some error =>
    rw [failure] at ended
    obtain ⟨taken, io⟩ := ended
    exact meets_bind.2 (meets_rollBack there covers (maySync taken) fun _ => io.tells)
  | none =>
    rw [failure] at ended
    obtain ⟨taken, idle, held, others⟩ := ended
    have done : requested shelf := wanted shelf held others
    dsimp only
    split
    next unchanged =>
      -- no id was passed over wrongly, so the files were right from the start
      have same : shelf = before := idle (by simpa using unchanged)
      refine meets_pure.2 ⟨shelf, done, .inr ⟨same, ?_⟩⟩
      rw [← same]
      exact there
    next =>
      refine (meets_settle there covers (maySync (taken ▸ List.prefix_refl _)) done).bind ?_
      intro _ s settled
      exact ⟨shelf, done, .inl settled⟩

/-- The files called for come into force, unless they were there before, or the change is undone. -/
theorem meets_syncFiles {files : List (String × RuleFile)}
    (here : controller.store.At live before site) (nodup : (files.map Prod.fst).Nodup)
    (valid : ∀ named ∈ files, isRuleId named.1 = true) {requested : Shelf → Prop}
    (wanted : ∀ after : Shelf,
      (∀ named ∈ files, after named.1 = Shelf.inStepWith (before named.1) named.2) →
      (∀ id, id ∉ files.map Prod.fst → after id = Shelf.row none) → requested after) :
    (controller.syncFiles files).Meets (terms faults)
      (fun _ s => ∃ after, requested after ∧
        (controller.store.At ⟨s.tree, live.reloads + 1⟩ after s ∨
          after = before ∧ controller.store.At live before s))
      (controller.Undoes faults live (before.MaySync (Shelf.calledFor files)) requested before)
      site :=
  meets_syncFiles_of_writeDesired (meets_writeDesired here nodup valid) wanted

/-- A synchronization brings the enabled rules into force, or it is undone. -/
theorem undoes_sync (here : controller.store.At live before site) (rules : List Rule) :
    (controller.sync rules).Meets (terms faults)
      (fun _ s => (∀ rule ∈ rules, rule.validate = .ok ()) ∧ ∃ after : Shelf,
        before.Syncs controller.options (rules.filter (·.enabled)) after ∧
          (controller.store.At ⟨s.tree, live.reloads + 1⟩ after s ∨
            after = before ∧ controller.store.At live before s))
      (controller.Undoes faults live
        (before.MaySync (Rule.calledFor controller.options (rules.filter (·.enabled))))
        (before.Syncs controller.options (rules.filter (·.enabled))) before) site := by
  refine meets_bind.2 ?_
  cases desired : controller.desiredFiles rules with
  | error e =>
    have invalid := Controller.desiredFiles_error desired
    exact meets_error.2 (.untouched (.nil before _) here invalid.tells)
  | ok files =>
    obtain ⟨nodup, valid, _⟩ := Controller.desiredFiles_ok desired
    rw [← Controller.calledFor_of_desiredFiles desired]
    refine meets_ok.2 (meets_exclusively ((meets_syncFiles here nodup valid ?_).mono
      (fun _ _ reached => ⟨Controller.validate_of_desiredFiles desired, reached⟩)
      fun _ _ undoes => undoes))
    intro after held others
    exact Shelf.syncs_of_desiredFiles desired held others

/-- Where no id has two files, a synchronization brings exactly the enabled rules into force, or
leaves all as before. -/
theorem meets_sync (here : controller.store.At live before site) (single : before.IsSingle)
    (rules : List Rule) :
    (controller.sync rules).Meets (terms faults)
      (fun _ s => ∃ after : Shelf,
        after.IsExactly controller.options (rules.filter (·.enabled)) ∧
          (controller.store.At ⟨s.tree, live.reloads + 1⟩ after s ∨
            after = before ∧ controller.store.At live before s))
      (fun e s => ∃ after, controller.store.At live after s ∧
        e.Tells controller.config.rollbackOnApplyFailure faults
          (fun shelf => shelf.IsExactly controller.options (rules.filter (·.enabled))) before after)
      site := by
  refine (undoes_sync here rules).mono ?_ ?_
  · rintro _ s ⟨_, after, syncs, there⟩
    exact ⟨after, syncs.isExactly single, there⟩
  · intro e s undoes
    obtain ⟨after, there, tells⟩ := undoes.tells single
    exact ⟨after, there, tells.mono fun _ syncs => syncs.isExactly single⟩

end Site

namespace Controller

open Site

/-- Where the files are tidy and no id has two of them, applying an enabled rule and bringing the
files in step with a list of rules are all or nothing, whichever calls of the file system fail and
whatever nginx replies. After a success the files are those asked for, and so they are when nginx
does not take them up and that is not to be undone; after any other failure the files are as before,
unless it is told that they could not be put back. -/
theorem isAllOrNothing (controller : Controller) {site : Site}
    (tidy : controller.store.Tidy site.tree)
    (single : (controller.store.shelf site.tree).IsSingle) :
    (∀ rule result after, rule.enabled = true →
      (controller.apply rule).run.Ends (terms true) site result after →
        controller.IsAllOrNothing
          (fun shelf => ∃ file, rule.file controller.options = .ok file ∧
            shelf = (controller.store.shelf site.tree).set rule.id (some file))
          (controller.store.shelf site.tree) (controller.store.shelf after.tree) result) ∧
    ∀ rules result after, (controller.sync rules).run.Ends (terms true) site result after →
      controller.IsAllOrNothing
        (fun shelf => shelf.IsExactly controller.options (rules.filter (·.enabled)))
        (controller.store.shelf site.tree) (controller.store.shelf after.tree) result := by
  have here : controller.store.At site.live (controller.store.shelf site.tree) site :=
    ⟨rfl, tidy, rfl⟩
  refine ⟨?_, ?_⟩
  · intro rule result after enabled ends
    let requested (shelf : Shelf) : Prop := ∃ file, rule.file controller.options = .ok file ∧
      shelf = (controller.store.shelf site.tree).set rule.id (some file)
    have wanted (file : RuleFile) (own : rule.file controller.options = .ok file) :
        requested ((controller.store.shelf site.tree).set rule.id (some file)) := ⟨file, own, rfl⟩
    have promised := Program.Meets.of_ends (meets_apply here single enabled wanted) ends
    cases result with
    | ok _ =>
      obtain ⟨file, own, there⟩ := promised
      exact ⟨file, own, there.shelf_eq⟩
    | error e =>
      obtain ⟨shelf, there, tells⟩ := promised
      rw [there.shelf_eq]
      exact tells
  · intro rules result after ends
    have promised := Program.Meets.of_ends (meets_sync here single rules) ends
    cases result with
    | ok _ =>
      obtain ⟨shelf, exactly, there | ⟨same, there⟩⟩ := promised
      · rw [there.shelf_eq]
        exact exactly
      · rw [there.shelf_eq, ← same]
        exact exactly
    | error e =>
      obtain ⟨shelf, there, tells⟩ := promised
      rw [there.shelf_eq]
      exact tells

/-- nginx refuses a rule that replaces a file, and the file is put back. -/
theorem isAllOrNothing_refused :
    let controller : Controller := ⟨{ activeDir := ⟨"/a"⟩ }⟩
    let tree : Tree :=
      { entries := [(["a"], .directory), (["a", "web.conf"], .file "old".toUTF8)] }
    let rule : Rule :=
      { id := "web", targetContainer := "web", targetPort := 80, created := .epoch }
    ∃ after, (controller.apply rule).run.Ends (terms true) ⟨tree, ⟨tree, 0⟩⟩
        (.error (.testFailed "no")) after ∧
      controller.store.shelf after.tree = controller.store.shelf tree := by
  intro controller tree rule
  have refused : (((controller.apply rule).run.follow? act?
      ([.finished { stderr := "no" }], ⟨tree, ⟨tree, 0⟩⟩)).map Prod.fst) =
        some (.error (.testFailed "no")) := by decide +kernel
  obtain ⟨⟨result, left, after⟩, followed, rfl⟩ := Option.map_eq_some_iff.1 refused
  have tidy : controller.store.Tidy tree := by
    refine Store.Tidy.of_entries (by decide) ?_ ?_ ⟨["a"], ?_⟩ (by decide)
    · decide
    · simp [tree]
    · decide
  have single : (controller.store.shelf tree).IsSingle :=
    Store.isSingle_of_directory? (by decide)
  have ends := ends_act? followed true
  refine ⟨after, ends, ?_⟩
  exact (@isAllOrNothing controller ⟨tree, ⟨tree, 0⟩⟩ tidy single).1 rule _ after rfl ends

/-- Links are what the files may not be reached by. Where the directory of plain connections is the
active directory itself, by way of a link, the file of a rule is removed as soon as it is written,
and the rule is applied without a file. Where a link stands for the file of a rule, a file is put
back in its place. -/
theorem not_isAllOrNothing_link :
    let controller : Controller := ⟨{ activeDir := ⟨"/a"⟩ }⟩
    let rule : Rule :=
      { id := "web", targetContainer := "web", targetPort := 80, created := .epoch }
    let shared : Tree := { entries := [(["a"], .directory), (["a", "stream"], .link ⟨"."⟩)] }
    let linked : Tree :=
      { entries := [(["a"], .directory), (["a", "web.conf"], .link ⟨"/x"⟩),
        (["x"], .file "old".toUTF8)] }
    let breaks (tree : Tree) (result : Except OperationError Rule) : Prop :=
      (∀ id context, controller.store.shelf tree id context = none) ∧
        ∃ after, (controller.apply rule).run.Ends (terms true) ⟨tree, ⟨tree, 0⟩⟩ result after ∧
          ¬ controller.IsAllOrNothing
            (fun shelf => ∃ file, rule.file controller.options = .ok file ∧
              shelf = (controller.store.shelf tree).set rule.id (some file))
            (controller.store.shelf tree) (controller.store.shelf after.tree) result
    rule.enabled = true ∧ breaks shared (.ok rule) ∧ breaks linked (.error (.testFailed "no")) := by
  intro controller rule shared linked breaks
  refine ⟨rfl, ⟨?_, ?_⟩, ?_, ?_⟩
  · intro id context
    refine Store.shelf_eq_none fun context directory leads name content listed => ?_
    simp [shared] at listed
  · have applied : ((controller.apply rule).run.follow? act? ([], ⟨shared, ⟨shared, 0⟩⟩)).map
        (fun ended => (ended.1, controller.store.shelf ended.2.2.tree "web" .http)) =
          some (.ok rule, none) := by decide +kernel
    obtain ⟨⟨result, left, after⟩, followed, told⟩ := Option.map_eq_some_iff.1 applied
    obtain ⟨rfl, missing⟩ := Prod.mk.inj told
    refine ⟨after, ends_act? followed true, ?_⟩
    -- the rule calls for a file, and there is none
    rintro ⟨file, own, same⟩
    have context : file.context = .http := Rule.context_of_file own
    have held : controller.store.shelf after.tree "web" .http = some file.text.toUTF8 := by
      rw [same, Shelf.set_self, Shelf.row, if_pos context.symm]
    rw [missing] at held
    cases held
  · intro id context
    refine Store.shelf_eq_none fun context directory leads name content listed => ?_
    have root : directory ++ [name] = [] ++ ["x"] := by
      simp only [linked, List.mem_cons, Prod.mk.injEq, reduceCtorEq, and_false, false_or,
        List.not_mem_nil, or_false] at listed
      exact listed.1
    rw [(List.append_singleton_inj.1 root).1] at leads
    cases context with
    | http => exact absurd leads (by decide)
    | stream => exact absurd leads (by decide)
  · have applied : ((controller.apply rule).run.follow? act?
        ([.finished { stderr := "no" }], ⟨linked, ⟨linked, 0⟩⟩)).map
        (fun ended => (ended.1, (controller.store.shelf ended.2.2.tree "web" .http).isSome)) =
          some (.error (.testFailed "no"), true) := by decide +kernel
    obtain ⟨⟨result, left, after⟩, followed, told⟩ := Option.map_eq_some_iff.1 applied
    obtain ⟨rfl, there⟩ := Prod.mk.inj told
    refine ⟨after, ends_act? followed true, ?_⟩
    -- the files should be as before, when there was none
    intro (same : controller.store.shelf after.tree = controller.store.shelf linked)
    have before : controller.store.shelf linked "web" .http = none := by decide
    rw [same, before] at there
    cases there

end Controller

end ProxyKeeper
