import ProxyKeeper.Controller.Basic
import ProxyKeeper.Proofs.Program.Enumeration
import ProxyKeeper.Proofs.Store.Readings

/-!
# Synchronization and the order of directories

A synchronization lists the directories of the store, to find what has to go. It sorts what it has
found before it does anything with it, so it is the same synchronization in whatever order the
directories are enumerated. Nothing else that it does lists anything.

## Main Results

* `ascendingNames_perm` — the same names are the same set
* `Store.ignoresOrder_list` — the store sorts what it lists
* `Controller.ignoresOrder_sync` — the whole of a synchronization
-/

namespace ProxyKeeper

open Operation Program

variable {α : Type}

/-- Sets of names do not depend on the order in which the names are given. -/
theorem ascendingNames_perm {names names' : List String} (perm : names.Perm names') :
    ascendingNames names = ascendingNames names' := by
  refine Store.eq_of_pairwise_lt (pairwise_ascendingNames _) (pairwise_ascendingNames _) ?_
  intro name
  rw [mem_ascendingNames, mem_ascendingNames]
  exact perm.mem_iff

/-! ## The store -/

namespace Store

/-- To list the ids in a directory is one request. -/
theorem listDirectory_eq (directory : Path) :
    (listDirectory directory).run =
      .ask (.file (.list directory)) fun answer => .done (idsOf directory answer) := by
  refine congrArg (Program.ask (.file (.list directory))) (funext fun answer => ?_)
  cases answer with
  | ok names => rfl
  | error fault => exact (apply_ite Program.done _ _ _).symm

/-- What goes on in the same way with the same ids, in whatever order they come, ignores the order
in which they are listed. -/
theorem ignoresOrder_listDirectory_bind (directory : Path) {f : List String → Operation α}
    (same : ∀ ids ids', ids.Perm ids' → f ids = f ids')
    (rest : ∀ ids, (f ids).run.IgnoresOrder) :
    (listDirectory directory >>= f).run.IgnoresOrder := by
  rw [ExceptT.run_bind, listDirectory_eq]
  refine ⟨fun answer answer' shuffles => ?_, fun answer => ?_⟩
  · cases shuffles with
    | refl => rfl
    | names perm => exact congrArg ExceptT.run (same _ _ (perm.filterMap ruleId?))
  · refine IgnoresOrder.bind (p := .done (idsOf directory answer)) trivial fun result => ?_
    cases result with
    | ok ids => exact rest ids
    | error e => trivial

variable (store : Store)

/-- The ids that are listed are sorted before anything is done with them. -/
theorem ignoresOrder_list : store.list.run.IgnoresOrder := by
  refine ignoresOrder_listDirectory_bind _ (fun http http' perm => ?_) fun http => ?_
  · refine congrArg (listDirectory _ >>= ·) (funext fun stream => ?_)
    rw [ascendingNames_perm (perm.append_right stream)]
  · refine ignoresOrder_listDirectory_bind _ (fun stream stream' perm => ?_) fun _ => trivial
    rw [ascendingNames_perm (perm.append_left http)]

theorem isSingle_file {call : FileCall} (single : call.lists = false) :
    (Request.file call).IsSingle :=
  single

theorem ignoresOrder_read (id : String) : (store.read id).run.IgnoresOrder :=
  (store.asks_read_of (fun _ => isSingle_file rfl) id).ignoresOrder

theorem ignoresOrder_write (id : String) (file : RuleFile) :
    (store.write id file).run.IgnoresOrder :=
  (store.asks_write_of (fun _ => isSingle_file) trivial id file).ignoresOrder

theorem ignoresOrder_remove (id : String) : (store.remove id).run.IgnoresOrder :=
  (store.asks_remove_of (fun _ => isSingle_file) id).ignoresOrder

theorem ignoresOrder_restore (id : String) (file : Option RuleFile) :
    (store.restore id file).run.IgnoresOrder :=
  (store.asks_restore_of (fun _ => isSingle_file) trivial id file).ignoresOrder

end Store

/-! ## The controller -/

namespace Controller

variable (controller : Controller)

theorem ignoresOrder_gate : controller.gate.IgnoresOrder := by
  refine IgnoresOrder.bind (Program.ignoresOrder_request trivial) fun (reply : Nginx.Reply) => ?_
  refine IgnoresOrder.bind (Program.ignoresOrder_request trivial) fun _ => ?_
  split
  · trivial
  · exact IgnoresOrder.bind (Program.ignoresOrder_request trivial) fun _ => trivial

theorem ignoresOrder_reload : controller.reload.run.IgnoresOrder := by
  refine ignoresOrder_bind (Operation.ignoresOrder_request trivial) fun (reply : Nginx.Reply) => ?_
  dsimp only
  split
  · trivial
  · exact ignoresOrder_bind (Operation.ignoresOrder_request trivial) fun _ => trivial

theorem ignoresOrder_publish (phase : Phase) : (publish phase).run.IgnoresOrder :=
  Operation.ignoresOrder_request trivial

theorem ignoresOrder_restoreEach (snapshots : List Snapshot) :
    (controller.restoreEach snapshots).IgnoresOrder := by
  induction snapshots with
  | nil => trivial
  | cons snapshot snapshots ih =>
    refine (controller.store.ignoresOrder_restore _ _).bind fun outcome => ?_
    refine ih.bind fun failures => ?_
    cases outcome <;> trivial

theorem ignoresOrder_rollBack (snapshots : List Snapshot) (error : OperationError) :
    (controller.rollBack snapshots error).run.IgnoresOrder := by
  refine ignoresOrder_bind (ignoresOrder_publish _) fun _ => ?_
  refine ignoresOrder_bind ?_ fun _ => trivial
  refine ignoresOrder_bind (Operation.ignoresOrder_request trivial) fun _ => ?_
  refine ignoresOrder_bind (ignoresOrder_lift ?_) fun failures => ?_
  · exact controller.ignoresOrder_restoreEach _
  · split <;> trivial

theorem ignoresOrder_settle (snapshots : List Snapshot) :
    (controller.settle snapshots).run.IgnoresOrder := by
  refine ignoresOrder_bind (ignoresOrder_publish _) fun _ => ?_
  refine ignoresOrder_bind (ignoresOrder_lift controller.ignoresOrder_gate) fun outcome => ?_
  split
  · exact controller.ignoresOrder_rollBack _ _
  · refine ignoresOrder_bind (ignoresOrder_publish _) fun _ => ?_
    refine ignoresOrder_bind (ignoresOrder_lift controller.ignoresOrder_reload) fun result => ?_
    cases result with
    | ok _ => trivial
    | error e =>
      dsimp only
      split
      · exact controller.ignoresOrder_rollBack _ _
      · trivial

theorem ignoresOrder_record (kind : OperationKind) (ok : Bool) :
    (controller.record kind ok).IgnoresOrder := by
  refine IgnoresOrder.bind (Program.ignoresOrder_request trivial) fun _ => ?_
  refine controller.store.ignoresOrder_list.bind fun listed => ?_
  cases listed with
  | ok ids => exact Program.ignoresOrder_request trivial
  | error e => trivial

theorem ignoresOrder_exclusively (kind : OperationKind) (isIdle : α → Bool)
    {change : Operation α} (h : change.run.IgnoresOrder) :
    (controller.exclusively kind isIdle change).run.IgnoresOrder := by
  have released : (Operation.request .release).run.IgnoresOrder :=
    Operation.ignoresOrder_request trivial
  have release (result : Except OperationError α) :
      (Operation.request .release >>= fun _ => Operation.ofExcept result).run.IgnoresOrder :=
    ignoresOrder_bind released fun _ => trivial
  have records (ok : Bool) (result : Except OperationError α) :
      (ExceptT.lift (controller.record kind ok) >>= fun _ =>
        Operation.request .release >>= fun _ => Operation.ofExcept result).run.IgnoresOrder :=
    ignoresOrder_bind (ignoresOrder_lift (controller.ignoresOrder_record kind ok)) fun _ =>
      release result
  refine ignoresOrder_bind (Operation.ignoresOrder_request trivial) fun _ => ?_
  refine ignoresOrder_bind (ignoresOrder_publish _) fun _ => ?_
  refine ignoresOrder_bind (ignoresOrder_lift h) fun result => ?_
  refine ignoresOrder_bind (ignoresOrder_publish _) fun _ => ?_
  cases result with
  | ok a =>
    dsimp only
    split
    · exact records true (.ok a)
    · exact release (.ok a)
  | error e => exact records false (.error e)

/-! ### Files in step -/

theorem ignoresOrder_writeFiles (files : List (String × RuleFile)) (progress : SyncProgress) :
    (controller.writeFiles files progress).IgnoresOrder := by
  induction files generalizing progress with
  | nil => trivial
  | cons named files ih =>
    obtain ⟨id, file⟩ := named
    refine (controller.store.ignoresOrder_read id).bind fun outcome => ?_
    cases outcome with
    | error e => trivial
    | ok current =>
      dsimp only
      split
      · exact ih _
      · refine (controller.store.ignoresOrder_write id file).bind fun outcome => ?_
        cases outcome with
        | error e => trivial
        | ok _ => exact ih _

theorem ignoresOrder_removeEach (ids : List String) (progress : SyncProgress) :
    (controller.removeEach ids progress).IgnoresOrder := by
  induction ids generalizing progress with
  | nil => trivial
  | cons id ids ih =>
    refine (controller.store.ignoresOrder_read id).bind fun outcome => ?_
    cases outcome with
    | error e => trivial
    | ok current =>
      refine (controller.store.ignoresOrder_remove id).bind fun outcome => ?_
      cases outcome with
      | error e => trivial
      | ok _ => exact ih _

theorem ignoresOrder_writeDesired (files : List (String × RuleFile)) :
    (controller.writeDesired files).IgnoresOrder := by
  refine (controller.ignoresOrder_writeFiles files {}).bind fun progress => ?_
  split
  · trivial
  · refine controller.store.ignoresOrder_list.bind fun outcome => ?_
    cases outcome with
    | error e => trivial
    | ok ids => exact controller.ignoresOrder_removeEach _ _

theorem ignoresOrder_syncFiles (files : List (String × RuleFile)) :
    (controller.syncFiles files).run.IgnoresOrder := by
  refine ignoresOrder_bind (ignoresOrder_lift (controller.ignoresOrder_writeDesired files))
    fun progress => ?_
  split
  · exact ignoresOrder_bind (controller.ignoresOrder_rollBack _ _) fun _ => trivial
  · split
    · trivial
    · exact ignoresOrder_bind (controller.ignoresOrder_settle _) fun _ => trivial

/-- A synchronization is the same in whatever order directories are listed. -/
theorem ignoresOrder_sync (rules : List Rule) : (controller.sync rules).run.IgnoresOrder := by
  have files : (Operation.ofExcept (controller.desiredFiles rules)).run.IgnoresOrder := trivial
  refine ignoresOrder_bind files fun files => ?_
  exact controller.ignoresOrder_exclusively _ _ (controller.ignoresOrder_syncFiles files)

end Controller

end ProxyKeeper
