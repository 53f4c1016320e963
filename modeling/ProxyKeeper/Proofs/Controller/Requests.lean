import ProxyKeeper.Controller.Task
import ProxyKeeper.Proofs.Controller.Desired
import ProxyKeeper.Proofs.Program.Invariants
import ProxyKeeper.Proofs.Store.Requests

/-!
# What tasks ask for

Tasks change files by what the store does for them, and by nothing else. So whatever terms the
store keeps to when it writes and removes the files of rules, and when it is founded, every task
keeps to as well, if the terms allow what changes no file. The ids whose files are written and
removed are those that a task is given, and those that the store lists.

## Main Definitions

* `Program.Keeps` — a program keeps to terms that have one state
* `Request.isQuiet` — requests that change no file
* `Store.Sustains` — a store does so, when it is about some ids

## Main Results

* `Controller.asks_writeDesired` — files are brought in step by the store alone
* `Task.sustains` — tasks keep to the terms, and keep the invariants, that the store does
* `Task.keeps` — the same for terms with one state
-/

namespace ProxyKeeper

/-- Whether a request changes no file. -/
def Request.isQuiet : Request → Bool
  | .file call => !call.changes
  | _ => true

/-- What only looks changes no file. -/
theorem Request.isQuiet_of_isLook {r : Request} (look : r.isLook = true) : r.isQuiet = true := by
  cases r with
  | file call => exact look
  | _ => rfl

variable {α β : Type} {terms : Terms Unit}

/-! ## The parts of changes that only work on files -/

namespace Controller

variable (controller : Controller)

theorem asks_restoreEach (snapshots : List Snapshot) :
    (controller.restoreEach snapshots).Asks Store.Stores := by
  induction snapshots with
  | nil => trivial
  | cons snapshot snapshots ih =>
    refine (controller.store.asks_restore _ _).bind fun outcome => ih.bind fun failures => ?_
    cases outcome <;> trivial

/-- Reading is part of working on files. -/
theorem asks_read (id : String) : (controller.store.read id).run.Asks Store.Stores :=
  (controller.store.asks_read id).mono fun _ => Request.isStorage_of_isLook

theorem asks_writeFiles (files : List (String × RuleFile)) (progress : SyncProgress) :
    (controller.writeFiles files progress).Asks Store.Stores := by
  induction files generalizing progress with
  | nil => trivial
  | cons named files ih =>
    obtain ⟨id, file⟩ := named
    refine (controller.asks_read id).bind fun outcome => ?_
    cases outcome with
    | error e => trivial
    | ok current =>
      dsimp only
      split
      · exact ih _
      · refine (controller.store.asks_write id file).bind fun outcome => ?_
        cases outcome with
        | error e => trivial
        | ok _ => exact ih _

theorem asks_removeEach (ids : List String) (progress : SyncProgress) :
    (controller.removeEach ids progress).Asks Store.Stores := by
  induction ids generalizing progress with
  | nil => trivial
  | cons id ids ih =>
    refine (controller.asks_read id).bind fun outcome => ?_
    cases outcome with
    | error e => trivial
    | ok current =>
      refine (controller.store.asks_remove id).bind fun outcome => ?_
      cases outcome with
      | error e => trivial
      | ok _ => exact ih _

/-- Files are brought in step by the store alone. -/
theorem asks_writeDesired (files : List (String × RuleFile)) :
    (controller.writeDesired files).Asks Store.Stores := by
  refine (controller.asks_writeFiles files {}).bind fun progress => ?_
  split
  · trivial
  · have lists : controller.store.list.run.Asks Store.Stores :=
      controller.store.asks_list.mono fun _ => Request.isStorage_of_isLook
    refine lists.bind fun outcome => ?_
    cases outcome with
    | error e => trivial
    | ok ids => exact controller.asks_removeEach _ _

end Controller

/-! ## Terms with one state -/

namespace Program

/-- Whether a program asks only for what is allowed, however it is answered. -/
def Keeps (terms : Terms Unit) (p : Program α) : Prop :=
  p.Meets terms (fun _ _ => True) ()

theorem Keeps.bind {p : Program α} {f : α → Program β} (first : p.Keeps terms)
    (second : ∀ a, (f a).Keeps terms) : (p >>= f).Keeps terms :=
  Meets.bind first fun a _ _ => second a

theorem keeps_request {r : Request} (allowed : terms.allows r ()) : (request r).Keeps terms :=
  meets_request.2 ⟨allowed, fun _ _ _ => trivial⟩

/-- What asks for nothing but what is allowed keeps to the terms. -/
theorem Asks.keeps {kind : Request → Prop} {p : Program α} (asks : p.Asks kind)
    (allowed : ∀ r, kind r → terms.allows r ()) : p.Keeps terms :=
  (asks.meets allowed fun _ _ _ _ _ => rfl).mono fun _ _ _ => trivial

end Program

namespace Operation

variable {operation : Operation α} {f : α → Operation β}

theorem keeps_bind (first : operation.run.Keeps terms) (second : ∀ a, (f a).run.Keeps terms) :
    (operation >>= f).run.Keeps terms := by
  rw [ExceptT.run_bind]
  refine Program.Keeps.bind first fun result => ?_
  cases result with
  | ok a => exact second a
  | error e => trivial

/-- The second part goes on from what the first one promises. -/
theorem keeps_bind_of_meets {reached : α → Prop}
    (first : operation.Meets terms (fun a _ => reached a) (fun _ _ => True) ())
    (second : ∀ a, reached a → (f a).run.Keeps terms) :
    (operation >>= f).run.Keeps terms := by
  rw [ExceptT.run_bind]
  refine Program.Meets.bind first fun result _ promised => ?_
  cases result with
  | ok a => exact second a promised
  | error e => trivial

theorem keeps_lift {p : Program α} (h : p.Keeps terms) :
    (ExceptT.lift p : Operation α).run.Keeps terms := by
  rw [ExceptT.run_lift, ← bind_pure_comp]
  exact h.bind fun _ => trivial

theorem keeps_request {r : Request} (allowed : terms.allows r ()) :
    (request r).run.Keeps terms :=
  keeps_lift (Program.keeps_request allowed)

end Operation

open Operation

/-! ## The controller -/

/-- What it takes for tasks to keep to terms, and to keep an invariant: whatever changes no file
does so, and what the store does to write and to remove the files of some ids. The ids that the
store lists are among them. -/
structure Store.Sustains {σ : Type} (store : Store) (terms : Terms σ) (I : σ → Prop)
    (ids : String → Prop) : Prop where
  quiet : ∀ r, r.isQuiet = true → (Program.request r).Sustains terms I
  writes : ∀ id file, ids id → (store.write id file).run.Sustains terms I
  removes : ∀ id, ids id → (store.remove id).run.Sustains terms I
  lists : ∀ s, I s →
    store.list.Meets terms (fun listed s => (∀ id ∈ listed, ids id) ∧ I s) (fun _ s => I s) s

namespace Controller

variable {σ : Type} {terms : Terms σ} {I : σ → Prop} {ids : String → Prop}
  {controller : Controller} (sustains : controller.store.Sustains terms I ids)

include sustains

/-- What only looks keeps the invariant. -/
theorem sustains_of_asks_looks {p : Program α} (asks : p.Asks Store.Looks) :
    p.Sustains terms I :=
  asks.sustains fun r look => sustains.quiet r (Request.isQuiet_of_isLook look)

theorem sustains_gate : controller.gate.Sustains terms I := by
  refine (sustains.quiet _ rfl).bind fun (reply : Nginx.Reply) => ?_
  refine (sustains.quiet _ rfl).bind fun _ => ?_
  split
  · exact Program.sustains_done _
  · exact (sustains.quiet _ rfl).bind fun _ => Program.sustains_done _

theorem sustains_status : controller.status.Sustains terms I := by
  refine (sustains.quiet _ rfl).bind fun (reply : Nginx.Reply) => ?_
  cases reply <;> exact Program.sustains_done _

theorem sustains_reload : controller.reload.run.Sustains terms I := by
  refine sustains_bind (sustains_lift (sustains.quiet _ rfl)) fun (reply : Nginx.Reply) => ?_
  dsimp only
  split
  · exact sustains_pure _
  · exact sustains_bind (sustains_lift (sustains.quiet _ rfl)) fun _ => sustains_throw _

theorem sustains_publish (phase : Phase) : (publish phase).run.Sustains terms I :=
  sustains_lift (sustains.quiet _ rfl)

/-! ### Putting files back -/

theorem sustains_restoreEach {snapshots : List Snapshot}
    (own : ∀ snapshot ∈ snapshots, ids snapshot.1) :
    (controller.restoreEach snapshots).Sustains terms I := by
  induction snapshots with
  | nil => exact Program.sustains_done _
  | cons snapshot snapshots ih =>
    obtain ⟨id, file⟩ := snapshot
    obtain ⟨first, rest⟩ := List.forall_mem_cons.1 own
    have restores : (controller.store.restore id file).run.Sustains terms I := by
      cases file with
      | some file => exact sustains.writes id file first
      | none => exact sustains_bind (sustains.removes id first) fun _ => sustains_pure _
    refine restores.bind fun outcome => (ih rest).bind fun failures => ?_
    cases outcome <;> exact Program.sustains_done _

theorem sustains_rollBack {snapshots : List Snapshot}
    (own : ∀ snapshot ∈ snapshots, ids snapshot.1) (error : OperationError) :
    (controller.rollBack snapshots error).run.Sustains terms I := by
  refine sustains_bind (sustains_publish sustains _) fun _ => ?_
  refine sustains_bind ?_ fun _ => sustains_throw _
  refine sustains_bind (sustains_lift (sustains.quiet _ rfl)) fun _ => ?_
  refine sustains_bind (sustains_lift (sustains_restoreEach sustains ?_)) fun failures => ?_
  · simpa using own
  · split
    · exact sustains_pure _
    · exact sustains_throw _

theorem sustains_settle {snapshots : List Snapshot}
    (own : ∀ snapshot ∈ snapshots, ids snapshot.1) :
    (controller.settle snapshots).run.Sustains terms I := by
  refine sustains_bind (sustains_publish sustains _) fun _ => ?_
  refine sustains_bind (sustains_lift (sustains_gate sustains)) fun outcome => ?_
  split
  · exact sustains_rollBack sustains own _
  · refine sustains_bind (sustains_publish sustains _) fun _ => ?_
    refine sustains_bind (sustains_outcome (sustains_reload sustains)) fun result => ?_
    cases result with
    | ok _ => exact sustains_pure _
    | error e =>
      dsimp only
      split
      · exact sustains_rollBack sustains own _
      · exact sustains_throw _

/-! ### Changes -/

theorem sustains_record (kind : OperationKind) (ok : Bool) :
    (controller.record kind ok).Sustains terms I := by
  refine (sustains.quiet _ rfl).bind fun _ => ?_
  refine (sustains_of_asks_looks sustains controller.store.asks_list).bind fun listed => ?_
  cases listed with
  | ok ids => exact sustains.quiet _ rfl
  | error e => exact Program.sustains_done _

theorem sustains_exclusively (kind : OperationKind) (isIdle : α → Bool) {change : Operation α}
    (h : change.run.Sustains terms I) :
    (controller.exclusively kind isIdle change).run.Sustains terms I := by
  have quietly (r : Request) (quiet : r.isQuiet = true) :
      (Operation.request r).run.Sustains terms I := sustains_lift (sustains.quiet r quiet)
  have release (result : Except OperationError α) :
      (request .release >>= fun _ => Operation.ofExcept result).run.Sustains terms I :=
    sustains_bind (quietly _ rfl) fun _ => sustains_ofExcept result
  have records (ok : Bool) (result : Except OperationError α) :
      (ExceptT.lift (controller.record kind ok) >>= fun _ =>
        request .release >>= fun _ => Operation.ofExcept result).run.Sustains terms I :=
    sustains_bind (sustains_lift (sustains_record sustains kind ok)) fun _ => release result
  refine sustains_bind (quietly _ rfl) fun _ => ?_
  refine sustains_bind (sustains_publish sustains _) fun _ => ?_
  refine sustains_bind (sustains_outcome h) fun result => ?_
  refine sustains_bind (sustains_publish sustains _) fun _ => ?_
  cases result with
  | ok a =>
    dsimp only
    split
    · exact records true (.ok a)
    · exact release (.ok a)
  | error e => exact records false (.error e)

theorem sustains_applyFile {id : String} (own : ids id) (file : RuleFile) :
    (controller.applyFile id file).run.Sustains terms I := by
  refine sustains_bind (sustains_of_asks_looks sustains (controller.store.asks_read id))
    fun before => ?_
  have snapshots : ∀ snapshot ∈ [((id, before) : Snapshot)], ids snapshot.1 := by simpa using own
  refine sustains_bind (sustains_outcome (sustains.writes id file own)) fun result => ?_
  cases result with
  | ok _ => exact sustains_settle sustains snapshots
  | error e => exact sustains_rollBack sustains snapshots _

theorem sustains_removeFiles {id : String} (own : ids id) :
    (controller.removeFiles id).run.Sustains terms I := by
  refine sustains_bind (sustains.removes id own) fun removed => ?_
  split
  · exact sustains_pure _
  · refine sustains_bind (sustains_publish sustains _) fun _ => ?_
    refine sustains_bind (sustains_lift (sustains_gate sustains)) fun outcome => ?_
    split
    · exact sustains_throw _
    · refine sustains_bind (sustains_publish sustains _) fun _ => ?_
      exact sustains_bind (sustains_reload sustains) fun _ => sustains_pure _

theorem sustains_remove {id : String} (own : ids id) :
    (controller.remove id).run.Sustains terms I :=
  sustains_exclusively sustains _ _ (sustains_removeFiles sustains own)

theorem sustains_apply {rule : Rule} (own : ids rule.id) :
    (controller.apply rule).run.Sustains terms I := by
  refine sustains_bind (sustains_ofExcept _) fun _ => ?_
  split
  · exact sustains_bind (sustains_remove sustains own) fun _ => sustains_pure _
  · refine sustains_bind (sustains_ofExcept _) fun file => ?_
    refine sustains_bind ?_ fun _ => sustains_pure _
    exact sustains_exclusively sustains _ _ (sustains_applyFile sustains own file)

/-! ### Synchronization -/

/-- Snapshots are taken of the files that are written. -/
theorem meets_snapshots_writeFiles {files : List (String × RuleFile)}
    (own : ∀ named ∈ files, ids named.1) {progress : SyncProgress}
    (before : ∀ snapshot ∈ progress.snapshots, ids snapshot.1) {s : σ} (holds : I s) :
    (controller.writeFiles files progress).Meets terms
      (fun progress s => (∀ snapshot ∈ progress.snapshots, ids snapshot.1) ∧ I s) s := by
  induction files generalizing progress s with
  | nil => exact ⟨before, holds⟩
  | cons named files ih =>
    obtain ⟨id, file⟩ := named
    obtain ⟨first, rest⟩ := List.forall_mem_cons.1 own
    refine Program.Meets.bind
      (sustains_of_asks_looks sustains (controller.store.asks_read id) s holds)
      fun outcome s holds => ?_
    cases outcome with
    | error e => exact ⟨before, holds⟩
    | ok current =>
      dsimp only
      split
      · refine ih rest ?_ holds
        exact before
      · have after : ∀ snapshot ∈ progress.snapshots ++ [(id, current)], ids snapshot.1 :=
          List.forall_mem_append.2 ⟨before, by simpa using first⟩
        refine Program.Meets.bind (sustains.writes id file first s holds)
          fun outcome s holds => ?_
        cases outcome with
        | error e => exact ⟨after, holds⟩
        | ok _ => exact ih rest after holds

/-- Snapshots are taken of the files that are removed. -/
theorem meets_snapshots_removeEach {names : List String} (own : ∀ id ∈ names, ids id)
    {progress : SyncProgress} (before : ∀ snapshot ∈ progress.snapshots, ids snapshot.1) {s : σ}
    (holds : I s) :
    (controller.removeEach names progress).Meets terms
      (fun progress s => (∀ snapshot ∈ progress.snapshots, ids snapshot.1) ∧ I s) s := by
  induction names generalizing progress s with
  | nil => exact ⟨before, holds⟩
  | cons id names ih =>
    obtain ⟨first, rest⟩ := List.forall_mem_cons.1 own
    refine Program.Meets.bind
      (sustains_of_asks_looks sustains (controller.store.asks_read id) s holds)
      fun outcome s holds => ?_
    cases outcome with
    | error e => exact ⟨before, holds⟩
    | ok current =>
      have after : ∀ snapshot ∈ progress.snapshots ++ [(id, current)], ids snapshot.1 :=
        List.forall_mem_append.2 ⟨before, by simpa using first⟩
      refine Program.Meets.bind (sustains.removes id first s holds) fun outcome s holds => ?_
      cases outcome with
      | error e => exact ⟨after, holds⟩
      | ok _ => exact ih rest after holds

theorem meets_snapshots_writeDesired {files : List (String × RuleFile)}
    (own : ∀ named ∈ files, ids named.1) {s : σ} (holds : I s) :
    (controller.writeDesired files).Meets terms
      (fun progress s => (∀ snapshot ∈ progress.snapshots, ids snapshot.1) ∧ I s) s := by
  refine Program.Meets.bind (meets_snapshots_writeFiles sustains own (by simp) holds)
    fun progress s promised => ?_
  obtain ⟨snapshots, holds⟩ := promised
  split
  · exact ⟨snapshots, holds⟩
  · refine Program.Meets.bind (sustains.lists s holds) fun outcome s promised => ?_
    cases outcome with
    | error e => exact ⟨snapshots, promised⟩
    | ok listed =>
      refine meets_snapshots_removeEach sustains (fun id is => ?_) snapshots promised.2
      exact promised.1 id (List.mem_of_mem_filter is)

theorem sustains_syncFiles {files : List (String × RuleFile)}
    (own : ∀ named ∈ files, ids named.1) : (controller.syncFiles files).run.Sustains terms I := by
  refine sustains_iff_meets.2 fun s holds => ?_
  refine Meets.bind (meets_lift.2 (meets_snapshots_writeDesired sustains own holds))
    fun progress s promised => ?_
  obtain ⟨snapshots, holds⟩ := promised
  split
  · refine Meets.bind (sustains_iff_meets.1 (sustains_rollBack sustains snapshots _) s holds) ?_
    exact fun _ _ holds => holds
  · split
    · exact holds
    · refine Meets.bind (sustains_iff_meets.1 (sustains_settle sustains snapshots) s holds) ?_
      exact fun _ _ holds => holds

theorem sustains_sync {rules : List Rule} (own : ∀ rule ∈ rules, ids rule.id) :
    (controller.sync rules).run.Sustains terms I := by
  rw [sync]
  cases desired : controller.desiredFiles rules with
  | error e => exact Program.sustains_done _
  | ok files =>
    refine sustains_exclusively sustains _ _ (sustains_syncFiles sustains fun named listed => ?_)
    have there := List.mem_map_of_mem (f := Prod.fst) listed
    rw [(desiredFiles_ok desired).2.2.1] at there
    obtain ⟨rule, enabled, same⟩ := List.mem_map.1 there
    exact same ▸ own rule (List.mem_of_mem_filter enabled)

theorem sustains_bootstrap (founds : controller.store.bootstrap.run.Sustains terms I) :
    controller.bootstrap.run.Sustains terms I := by
  refine sustains_bind (sustains_lift (sustains.quiet _ rfl)) fun _ => ?_
  refine sustains_bind (sustains_outcome founds) fun result => ?_
  exact sustains_bind (sustains_lift (sustains.quiet _ rfl)) fun _ => sustains_ofExcept result

end Controller

namespace Task

/-- The ids that a task is given. -/
def ids : Task → List String
  | .apply rule => [rule.id]
  | .remove id => [id]
  | .sync rules => rules.map (·.id)
  | _ => []

/-- Every task keeps to the terms that the store keeps to, and keeps its invariants. -/
theorem sustains {σ : Type} {terms : Terms σ} {I : σ → Prop} {ids : String → Prop}
    {controller : Controller} (sustains : controller.store.Sustains terms I ids) {task : Task}
    (founds : task = .bootstrap → controller.store.bootstrap.run.Sustains terms I)
    (own : ∀ id ∈ task.ids, ids id) : (task.program controller).Sustains terms I := by
  cases task with
  | apply rule =>
    exact (Controller.sustains_apply sustains (own _ (by simp [Task.ids]))).bind
      fun _ => Program.sustains_done _
  | remove id =>
    exact (Controller.sustains_remove sustains (own _ (by simp [Task.ids]))).bind
      fun _ => Program.sustains_done _
  | sync rules =>
    refine (Controller.sustains_sync sustains fun rule listed => ?_).bind
      fun _ => Program.sustains_done _
    exact own _ (List.mem_map_of_mem listed)
  | bootstrap =>
    exact (Controller.sustains_bootstrap sustains (founds rfl)).bind
      fun _ => Program.sustains_done _
  | status => exact (Controller.sustains_status sustains).bind fun _ => Program.sustains_done _
  | gate => exact (Controller.sustains_gate sustains).bind fun _ => Program.sustains_done _
  | list =>
    exact (Controller.sustains_of_asks_looks sustains controller.store.asks_list).bind
      fun _ => Program.sustains_done _

end Task

/-! ## The controller on terms with one state -/

/-- What terms have to allow for tasks to keep to them: whatever changes no file, and what the store
does to write and to remove the files of a rule, and to be founded. -/
structure Store.Keeps (store : Store) (terms : Terms Unit) : Prop where
  quiet : ∀ r, r.isQuiet = true → terms.allows r ()
  writes : ∀ id file, (store.write id file).run.Keeps terms
  removes : ∀ id, (store.remove id).run.Keeps terms
  founds : store.bootstrap.run.Keeps terms

/-- Every task keeps to the terms that the store keeps to. -/
theorem Task.keeps {controller : Controller} (keeps : controller.store.Keeps terms) (task : Task) :
    (task.program controller).Keeps terms := by
  have sustains : controller.store.Sustains terms (fun _ => True) fun _ => True := by
    refine ⟨fun r quiet _ _ => ⟨keeps.quiet r quiet, fun _ _ _ => trivial⟩,
      fun id file _ _ _ => keeps.writes id file, fun id _ _ _ => keeps.removes id, fun _ _ => ?_⟩
    refine Program.Meets.mono (controller.store.asks_list.keeps fun r look =>
      keeps.quiet r (Request.isQuiet_of_isLook look)) fun result _ _ => ?_
    cases result with
    | ok listed => exact ⟨fun _ _ => trivial, trivial⟩
    | error e => trivial
  exact Task.sustains sustains (fun _ _ _ => keeps.founds) (fun _ _ => trivial) () trivial

end ProxyKeeper
