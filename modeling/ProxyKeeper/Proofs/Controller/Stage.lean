import ProxyKeeper.Controller.Task
import ProxyKeeper.Proofs.Store.Requests

/-!
# The stages of an operation

Where an operation of the controller has got to. A change takes the lock, writes files, lets nginx
check them, makes nginx take them up, and may put files back before it lets go of the lock. What a
stage allows is the discipline of the controller: files are changed only while they are written or
put back, nginx is asked to check only after that, and asked to reload only when the check just
passed. Every task follows it, however its requests are answered.

## Main Definitions

* `Task.isChange`, `Task.isExclusive` — the tasks that change rules, and those that take the lock
* `Stage` — the stages, with `Stage.next` for what a request leads to
* `Stage.allows` — what may be asked at a stage
* `Controller.discipline` — both, as terms

## Main Results

* `Controller.program_of_change` — what every change of rules has in common
* `Task.meets_discipline` — every task keeps to the discipline
-/

namespace ProxyKeeper

/-- Whether a task changes rules. -/
def Task.isChange : Task → Bool
  | .apply _ => true
  | .remove _ => true
  | .sync _ => true
  | _ => false

/-- Whether a task takes the lock. -/
def Task.isExclusive : Task → Bool
  | .bootstrap => true
  | task => task.isChange

/-- Where an operation has got to. -/
inductive Stage where
  /-- It has asked nothing of nginx and does not have the lock. -/
  | outside
  /-- It has the lock and has not said that it writes. -/
  | entered
  | writing
  /-- nginx is to check the files. -/
  | testing
  /-- nginx refused the files, or did not answer. -/
  | refused
  /-- nginx accepted the files. -/
  | passed
  /-- nginx is to take up the files. -/
  | applying
  /-- nginx has been asked to take up the files. -/
  | settled
  | rollingBack
  /-- The phase is idle again and the lock is still held. -/
  | closing
  /-- It asks for nothing more but to count and to look. -/
  | spent
deriving DecidableEq

namespace Stage

/-- Whether the lock is held at a stage. -/
def holdsLock : Stage → Bool
  | .outside => false
  | .spent => false
  | _ => true

/-- Whether files may be changed at a stage. -/
def mayChange : Stage → Bool
  | .entered => true
  | .writing => true
  | .rollingBack => true
  | _ => false

/-- The stage that a phase leads to, when it may be published. -/
def published? : Stage → Phase → Option Stage
  | .entered, .writing => some .writing
  | .writing, .testing => some .testing
  | .writing, .rollingBack => some .rollingBack
  | .writing, .idle => some .closing
  | .refused, .rollingBack => some .rollingBack
  | .refused, .idle => some .closing
  | .passed, .applying => some .applying
  | .settled, .rollingBack => some .rollingBack
  | .settled, .idle => some .closing
  | .rollingBack, .idle => some .closing
  | _, _ => none

/-- Whether a call of nginx may be made at a stage. -/
def calls (config : ManagerConfig) (call : Nginx.Call) : Stage → Prop
  | .outside => call = config.testCall ∨ call = config.versionCall
  | .testing => call = config.testCall
  | .applying => call = config.reloadCall
  | _ => False

/-- What may be asked at a stage. -/
def allows (config : ManagerConfig) : Request → Stage → Prop
  | .file call, stage => call.changes = true → stage.mayChange = true
  | .nginx call, stage => stage.calls config call
  | .freshName, _ => True
  | .acquire, stage => stage = .outside
  | .release, stage => stage = .entered ∨ stage = .closing
  | .publish phase, stage => (stage.published? phase).isSome = true
  | .count _ _, _ => True

/-- The stage after a call of nginx. -/
def replied (reply : Nginx.Reply) : Stage → Stage
  | .outside => .spent
  | .testing => if reply.isSuccess then .passed else .refused
  | .applying => .settled
  | stage => stage

/-- The stage that a request leads to. -/
def next : (request : Request) → request.Answer → Stage → Stage
  | .file _, _, stage => stage
  | .nginx _, reply, stage => stage.replied reply
  | .freshName, _, stage => stage
  | .acquire, _, _ => .entered
  | .release, _, _ => .spent
  | .publish phase, _, stage => (stage.published? phase).getD stage
  | .count _ _, _, stage => stage

/-- Whether the phase may go back to idle at a stage. -/
def mayClose (stage : Stage) : Prop :=
  stage.published? .idle = some .closing

theorem holdsLock_of_mayChange {stage : Stage} (h : stage.mayChange = true) :
    stage.holdsLock = true := by
  cases stage <;> simp [mayChange, holdsLock] at h ⊢

theorem holdsLock_of_published? {stage next : Stage} {phase : Phase}
    (h : stage.published? phase = some next) :
    stage.holdsLock = true ∧ next.holdsLock = true := by
  rw [published?.eq_def] at h
  split at h <;> first | (cases h; exact ⟨rfl, rfl⟩) | cases h

end Stage

namespace Controller

open Operation

/-- The discipline of the controller: each stage allows some requests, and the answer decides on
the next stage. -/
def discipline (config : ManagerConfig) : Terms Stage where
  allows := Stage.allows config
  answers request stage answer stage' := stage' = stage.next request answer

variable {α : Type} (controller : Controller) {stage : Stage}

/-- An operation that ends at one of two stages, by its outcome. -/
abbrev Leads (operation : Operation α) (stage done failed : Stage) : Prop :=
  operation.Meets (discipline controller.config) (fun _ s => s = done) (fun _ s => s = failed) stage

/-! ## Files -/

/-- Looking is allowed at every stage. -/
theorem meets_of_asks_looks {p : Program α} (h : p.Asks Store.Looks) (stage : Stage) :
    p.Meets (discipline controller.config) (fun _ s => s = stage) stage := by
  refine h.meets ?_ ?_
  · intro r looks
    cases r with
    | file call =>
      intro changes
      simp [Store.Looks, Request.isLook, changes] at looks
    | _ => exact absurd looks Bool.noConfusion
  · intro r answer s' looks answered
    cases r with
    | file call => exact answered
    | _ => exact absurd looks Bool.noConfusion

/-- Files may be changed where the stage says so. -/
theorem meets_of_asks_stores {p : Program α} (h : p.Asks Store.Stores)
    (may : stage.mayChange = true) :
    p.Meets (discipline controller.config) (fun _ s => s = stage) stage := by
  refine h.meets ?_ ?_
  · intro r stores
    cases r with
    | file call => exact fun _ => may
    | freshName => trivial
    | _ => exact absurd stores Bool.noConfusion
  · intro r answer s' stores answered
    cases r with
    | file call => exact answered
    | freshName => exact answered
    | _ => exact absurd stores Bool.noConfusion

theorem leads_of_asks_stores {operation : Operation α} (h : operation.run.Asks Store.Stores)
    (may : stage.mayChange = true) : controller.Leads operation stage stage stage := by
  refine (controller.meets_of_asks_stores h may).mono fun result s same => ?_
  cases result with
  | ok a => exact same
  | error e => exact same

theorem leads_of_asks_looks {operation : Operation α} (h : operation.run.Asks Store.Looks)
    (stage : Stage) : controller.Leads operation stage stage stage := by
  refine (controller.meets_of_asks_looks h stage).mono fun result s same => ?_
  cases result with
  | ok a => exact same
  | error e => exact same

/-! ## Calls of nginx -/

/-- A published phase leads on. -/
theorem meets_publish {phase : Phase} {next : Stage} (h : stage.published? phase = some next)
    {fails : OperationError → Stage → Prop} :
    (publish phase).Meets (discipline controller.config) (fun _ s => s = next) fails stage := by
  refine meets_request.2 ⟨?_, ?_⟩
  · show (stage.published? phase).isSome = true
    rw [h]
    rfl
  · intro answer s' answered
    refine answered.trans ?_
    rw [Stage.next, h, Option.getD_some]

theorem meets_count (event : Event) (tally : Option Tally) (stage : Stage) :
    (Program.request (.count event tally)).Meets (discipline controller.config)
      (fun _ s => s = stage) stage :=
  ⟨trivial, fun _ _ answered => answered⟩

/-- The check passes or not, and the stage after it says which. -/
theorem meets_gate_testing :
    controller.gate.Meets (discipline controller.config)
      (fun outcome s => s = if outcome.ok then .passed else .refused) .testing := by
  refine Program.meets_bind.2 ⟨rfl, ?_⟩
  rintro (reply : Nginx.Reply) s' rfl
  refine (controller.meets_count .test none _).bind ?_
  rintro _ s rfl
  cases success : reply.isSuccess with
  | true => simp [Program.meets_pure, Stage.next, Stage.replied, success]
  | false =>
    refine (controller.meets_count .testFailure none _).bind ?_
    rintro _ s rfl
    simp [Program.meets_pure, Stage.next, Stage.replied, success]

/-- A check that is no part of a change asks for nothing after it. -/
theorem meets_gate_outside :
    controller.gate.Meets (discipline controller.config) (fun _ s => s = .spent) .outside := by
  refine Program.meets_bind.2 ⟨.inl rfl, ?_⟩
  rintro (reply : Nginx.Reply) s' rfl
  refine (controller.meets_count .test none _).bind ?_
  rintro _ s rfl
  cases success : reply.isSuccess with
  | true => simp [Program.meets_pure, Stage.next, Stage.replied]
  | false =>
    refine (controller.meets_count .testFailure none _).bind ?_
    rintro _ s rfl
    rfl

theorem meets_status_outside :
    controller.status.Meets (discipline controller.config) (fun _ s => s = .spent) .outside := by
  refine Program.meets_bind.2 ⟨.inr rfl, ?_⟩
  rintro (reply : Nginx.Reply) s' rfl
  cases reply with
  | finished output => rfl
  | notStarted message => rfl
  | timedOut => rfl

theorem leads_reload : controller.Leads controller.reload .applying .settled .settled := by
  refine meets_bind.2 (meets_request.2 ⟨rfl, ?_⟩)
  rintro (reply : Nginx.Reply) s' rfl
  dsimp only
  split
  · rfl
  · refine meets_bind.2 (meets_request.2 ⟨trivial, ?_⟩)
    rintro _ s' rfl
    rfl

/-! ## Changes -/

theorem meets_restoreEach (snapshots : List Snapshot) :
    (controller.restoreEach snapshots).Meets (discipline controller.config)
      (fun _ s => s = .rollingBack) .rollingBack := by
  induction snapshots with
  | nil => rfl
  | cons snapshot snapshots ih =>
    refine (controller.meets_of_asks_stores (controller.store.asks_restore _ _) rfl).bind ?_
    rintro outcome s rfl
    refine ih.bind ?_
    rintro failures s rfl
    cases outcome with
    | ok _ => rfl
    | error e => rfl

/-- Putting files back always ends in a failure. -/
theorem meets_rollBack (h : stage.published? .rollingBack = some .rollingBack)
    (snapshots : List Snapshot) (error : OperationError) {returns : Unit → Stage → Prop} :
    (controller.rollBack snapshots error).Meets (discipline controller.config) returns
      (fun _ s => s = .rollingBack) stage := by
  refine (controller.meets_publish h).bind ?_
  rintro _ s rfl
  refine meets_bind.2 (meets_bind.2 (meets_request.2 ⟨trivial, ?_⟩))
  rintro _ s' rfl
  refine meets_bind.2 (meets_lift.2 ((controller.meets_restoreEach _).mono ?_))
  rintro failures s rfl
  split
  · rfl
  · rfl

theorem meets_settle (snapshots : List Snapshot) :
    (controller.settle snapshots).Meets (discipline controller.config) (fun _ s => s = .settled)
      (fun _ s => s.mayClose) .writing := by
  -- whether it comes to a reload or is undone, the phase may go back to idle
  have closes {operation : Operation Unit} {stage : Stage}
      (h : operation.Meets (discipline controller.config) (fun _ s => s = .settled)
        (fun _ s => s = .rollingBack) stage) :
      operation.Meets (discipline controller.config) (fun _ s => s = .settled)
        (fun _ s => s.mayClose) stage := by
    refine h.mono (fun _ _ same => same) ?_
    rintro _ s rfl
    rfl
  refine (controller.meets_publish rfl).bind ?_
  rintro _ s rfl
  refine meets_bind.2 (meets_lift.2 (controller.meets_gate_testing.mono ?_))
  rintro outcome s rfl
  cases ok : outcome.ok with
  | false => exact closes (controller.meets_rollBack rfl _ _)
  | true =>
    refine (controller.meets_publish rfl).bind ?_
    rintro _ s rfl
    refine meets_bind.2 (meets_outcome.2 (controller.leads_reload.mono ?_ ?_))
    · rintro _ s rfl
      rfl
    · rintro error s rfl
      dsimp only
      split
      · exact closes (controller.meets_rollBack rfl _ _)
      · rfl

theorem meets_record (kind : OperationKind) (ok : Bool) (stage : Stage) :
    (controller.record kind ok).Meets (discipline controller.config) (fun _ s => s = stage)
      stage := by
  refine (controller.meets_count _ _ _).bind ?_
  rintro _ s rfl
  refine (controller.meets_of_asks_looks controller.store.asks_list _).bind ?_
  rintro outcome s rfl
  cases outcome with
  | ok ids => exact controller.meets_count _ none _
  | error e => rfl

/-- The lock is let go of last, whatever the outcome. -/
theorem leads_release (result : Except OperationError α) :
    controller.Leads (request .release >>= fun _ => Operation.ofExcept result) .closing .spent
      .spent := by
  refine meets_bind.2 (meets_request.2 ⟨.inr rfl, ?_⟩)
  rintro _ s' rfl
  cases result with
  | ok a => rfl
  | error e => rfl

/-- A change that ends where the phase may go back to idle gives the lock back. -/
theorem leads_exclusively (kind : OperationKind) (isIdle : α → Bool) {change : Operation α}
    (h : change.Meets (discipline controller.config) (fun _ s => s.mayClose)
      (fun _ s => s.mayClose) .writing) :
    controller.Leads (controller.exclusively kind isIdle change) .outside .spent .spent := by
  refine meets_bind.2 (meets_request.2 ⟨rfl, ?_⟩)
  rintro _ s' rfl
  refine (controller.meets_publish rfl).bind ?_
  rintro _ s rfl
  refine meets_bind.2 (meets_outcome.2 (h.mono ?_ ?_))
  · intro a stage closes
    refine (controller.meets_publish closes).bind ?_
    rintro _ s rfl
    dsimp only
    split
    · refine meets_bind.2 (meets_lift.2 ((controller.meets_record kind true _).mono ?_))
      rintro _ s rfl
      exact controller.leads_release (.ok a)
    · exact controller.leads_release (.ok a)
  · intro e stage closes
    refine (controller.meets_publish closes).bind ?_
    rintro _ s rfl
    refine meets_bind.2 (meets_lift.2 ((controller.meets_record kind false _).mono ?_))
    rintro _ s rfl
    exact controller.leads_release (.error e)

/-- What a change promises: the phase may go back to idle after it. -/
abbrev Closes (operation : Operation α) : Prop :=
  operation.Meets (discipline controller.config) (fun _ s => s.mayClose) (fun _ s => s.mayClose)
    .writing

theorem closes_settle (snapshots : List Snapshot) :
    controller.Closes (controller.settle snapshots) := by
  refine (controller.meets_settle snapshots).mono ?_ fun _ _ closes => closes
  rintro _ s rfl
  rfl

theorem closes_rollBack (snapshots : List Snapshot) (error : OperationError) :
    controller.Closes (controller.rollBack snapshots error) := by
  refine (controller.meets_rollBack rfl snapshots error).mono (fun _ _ closes => closes) ?_
  rintro _ s rfl
  rfl

theorem closes_applyFile (id : String) (file : RuleFile) :
    controller.Closes (controller.applyFile id file) := by
  refine meets_bind.2
    ((controller.leads_of_asks_looks (controller.store.asks_read id) _).mono ?_ ?_)
  · rintro before s rfl
    refine meets_bind.2 (meets_outcome.2
      ((controller.leads_of_asks_stores (controller.store.asks_write id file) rfl).mono ?_ ?_))
    · rintro _ s rfl
      exact controller.closes_settle _
    · rintro error s rfl
      exact controller.closes_rollBack _ _
  · rintro error s rfl
    rfl

theorem closes_removeFiles (id : String) : controller.Closes (controller.removeFiles id) := by
  refine meets_bind.2
    ((controller.leads_of_asks_stores (controller.store.asks_remove id) rfl).mono ?_ ?_)
  · rintro removed s rfl
    split
    · rfl
    · refine (controller.meets_publish rfl).bind ?_
      rintro _ s rfl
      refine meets_bind.2 (meets_lift.2 (controller.meets_gate_testing.mono ?_))
      rintro outcome s rfl
      cases ok : outcome.ok with
      | false => rfl
      | true =>
        refine (controller.meets_publish rfl).bind ?_
        rintro _ s rfl
        refine meets_bind.2 (controller.leads_reload.mono ?_ ?_)
        · rintro _ s rfl
          rfl
        · rintro _ s rfl
          rfl
  · rintro error s rfl
    rfl

/-! ## Synchronization -/

theorem meets_writeFiles (files : List (String × RuleFile)) (progress : SyncProgress) :
    (controller.writeFiles files progress).Meets (discipline controller.config)
      (fun _ s => s = .writing) .writing := by
  induction files generalizing progress with
  | nil => rfl
  | cons entry files ih =>
    obtain ⟨id, file⟩ := entry
    refine (controller.meets_of_asks_looks (controller.store.asks_read id) _).bind ?_
    rintro outcome s rfl
    cases outcome with
    | error e => rfl
    | ok current =>
      dsimp only
      split
      · exact ih _
      · refine (controller.meets_of_asks_stores (controller.store.asks_write id file) rfl).bind ?_
        rintro outcome s rfl
        cases outcome with
        | error e => rfl
        | ok _ => exact ih _

theorem meets_removeEach (ids : List String) (progress : SyncProgress) :
    (controller.removeEach ids progress).Meets (discipline controller.config)
      (fun _ s => s = .writing) .writing := by
  induction ids generalizing progress with
  | nil => rfl
  | cons id ids ih =>
    refine (controller.meets_of_asks_looks (controller.store.asks_read id) _).bind ?_
    rintro outcome s rfl
    cases outcome with
    | error e => rfl
    | ok current =>
      refine (controller.meets_of_asks_stores (controller.store.asks_remove id) rfl).bind ?_
      rintro outcome s rfl
      cases outcome with
      | error e => rfl
      | ok _ => exact ih _

theorem meets_writeDesired (files : List (String × RuleFile)) :
    (controller.writeDesired files).Meets (discipline controller.config)
      (fun _ s => s = .writing) .writing := by
  refine (controller.meets_writeFiles files {}).bind ?_
  rintro progress s rfl
  dsimp only
  split
  · rfl
  · refine (controller.meets_of_asks_looks controller.store.asks_list _).bind ?_
    rintro outcome s rfl
    cases outcome with
    | error e => rfl
    | ok ids => exact controller.meets_removeEach _ _

theorem closes_syncFiles (files : List (String × RuleFile)) :
    controller.Closes (controller.syncFiles files) := by
  refine meets_bind.2 (meets_lift.2 ((controller.meets_writeDesired files).mono ?_))
  rintro progress s rfl
  dsimp only
  split
  · exact (controller.closes_rollBack _ _).bind fun _ _ closes => closes
  · split
    · rfl
    · exact (controller.closes_settle _).bind fun _ _ closes => closes

/-! ## Tasks -/

theorem leads_bootstrap :
    controller.Leads controller.bootstrap .outside .spent .spent := by
  refine meets_bind.2 (meets_request.2 ⟨rfl, ?_⟩)
  rintro _ s' rfl
  refine meets_bind.2 (meets_outcome.2
    ((controller.leads_of_asks_stores controller.store.asks_bootstrap rfl).mono ?_ ?_))
  · rintro made s rfl
    refine meets_bind.2 (meets_request.2 ⟨.inl rfl, ?_⟩)
    rintro _ s' rfl
    rfl
  · rintro error s rfl
    refine meets_bind.2 (meets_request.2 ⟨.inl rfl, ?_⟩)
    rintro _ s' rfl
    rfl

/-- What holds of a program that is done, of one that makes a change with the lock held, and of one
that puts the result of such a program into another form, holds of every change of rules. For what
is worked out before the lock is taken asks for nothing. -/
theorem program_of_change (P : ∀ {α : Type}, Program α → Prop)
    (done : ∀ {α : Type} (a : α), P (.done a))
    (bind : ∀ {α β : Type} {p : Program α} {f : α → Program β}, P p →
      (∀ a, ∃ b, f a = .done b) → P (p >>= f))
    (locked : ∀ {α : Type} (kind : OperationKind) (isIdle : α → Bool) {change : Operation α},
      controller.Closes change → P (controller.exclusively kind isIdle change).run)
    {task : Task} (change : task.isChange = true) : P (task.program controller) := by
  have removes (id : String) : P (controller.remove id).run :=
    locked _ _ (controller.closes_removeFiles id)
  cases task with
  | apply rule =>
    refine bind ?_ fun _ => ⟨_, rfl⟩
    have returns {α : Type} {operation : Operation α} (h : P operation.run) :
        P (operation >>= fun _ => pure rule).run := by
      rw [ExceptT.run_bind]
      refine bind h fun result => ?_
      cases result with
      | ok a => exact ⟨_, rfl⟩
      | error e => exact ⟨_, rfl⟩
    rw [apply]
    cases rule.validate with
    | error e => exact done (Except.error e)
    | ok _ =>
      cases rule.enabled with
      | false => exact returns (removes rule.id)
      | true =>
        cases rule.file controller.options with
        | error e => exact done (Except.error e)
        | ok file => exact returns (locked _ _ (controller.closes_applyFile rule.id file))
  | remove id => exact bind (removes id) fun _ => ⟨_, rfl⟩
  | sync rules =>
    refine bind ?_ fun _ => ⟨_, rfl⟩
    rw [sync]
    cases controller.desiredFiles rules with
    | error e => exact done (Except.error e)
    | ok files => exact locked _ _ (controller.closes_syncFiles files)
  | _ => cases change

end Controller

/-- Every task keeps to the discipline, and at its end it does not hold the lock. -/
theorem Task.meets_discipline (controller : Controller) (task : Task) :
    (task.program controller).Meets (Controller.discipline controller.config)
      (fun _ s => s.holdsLock = false) .outside := by
  have ends {α : Type} {operation : Operation α}
      (h : controller.Leads operation .outside .spent .spent) :
      operation.run.Meets (Controller.discipline controller.config)
        (fun _ s => s.holdsLock = false) .outside := by
    refine Program.Meets.mono h fun outcome s spent => ?_
    cases outcome with
    | ok a => exact (congrArg Stage.holdsLock spent).trans rfl
    | error e => exact (congrArg Stage.holdsLock spent).trans rfl
  by_cases change : task.isChange = true
  · refine controller.program_of_change
      (fun p => p.Meets (Controller.discipline controller.config) (fun _ s => s.holdsLock = false)
        .outside) ?_ ?_ ?_ change
    · intro _ _
      rfl
    · intro α β p f h returns
      refine h.bind fun a s ended => ?_
      obtain ⟨b, is⟩ := returns a
      rw [is]
      exact ended
    · intro α kind isIdle operation closes
      exact ends (controller.leads_exclusively kind isIdle closes)
  cases task with
  | bootstrap => exact (ends controller.leads_bootstrap).bind fun _ _ ended => ended
  | status =>
    refine controller.meets_status_outside.bind ?_
    rintro status s rfl
    rfl
  | gate =>
    refine controller.meets_gate_outside.bind ?_
    rintro outcome s rfl
    rfl
  | list =>
    refine (controller.meets_of_asks_looks controller.store.asks_list _).bind ?_
    rintro outcome s rfl
    rfl
  | _ => exact absurd rfl change

end ProxyKeeper
