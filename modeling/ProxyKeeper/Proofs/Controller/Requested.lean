import ProxyKeeper.Proofs.Controller.AllOrNothing
import ProxyKeeper.Proofs.Controller.Requests

/-!
# What is checked

A rule that is brought into force, or a list of rules, asks for certain files. They are all written
before nginx is asked to check them, and they are written over what was there. So while nginx checks
the files, those asked for are the ones in place, whatever comes of it.

## Main Definitions

* `Task.brings` — the tasks that bring rules into force
* `Task.Requests` — the rule files that such a task asks for
* `Site.checking` — terms on which nginx checks only files that were asked for

## Main Results

* `Task.meets_checking` — every such task keeps to them
-/

namespace ProxyKeeper

/-- Whether a task brings rules into force. -/
def Task.brings : Task → Bool
  | .apply rule => rule.enabled
  | .sync _ => true
  | _ => false

/-- Whether a shelf is what another one becomes when a task is carried out that brings rules into
force: an enabled rule puts its file in the place of all others of its id, and a list of rules
brings all files in step. -/
def Task.Requests (controller : Controller) (before after : Shelf) : Task → Prop
  | .apply rule => ∃ file, rule.file controller.options = .ok file ∧
      after = before.set rule.id (some file)
  | .sync rules => before.Syncs controller.options (rules.filter (·.enabled)) after
  | _ => False

/-- Only one shelf is asked for. -/
theorem Task.Requests.unique {controller : Controller} {before after after' : Shelf} {task : Task}
    (requests : task.Requests controller before after)
    (requests' : task.Requests controller before after') : after' = after := by
  cases task with
  | apply rule =>
    obtain ⟨file, own, rfl⟩ := requests
    obtain ⟨file', own', rfl⟩ := requests'
    rw [own] at own'
    obtain rfl := Except.ok.inj own'
    rfl
  | sync rules =>
    funext id
    by_cases listed : ∃ rule ∈ rules.filter (·.enabled), rule.id = id
    · obtain ⟨rule, listed, rfl⟩ := listed
      obtain ⟨file, own, held⟩ := Shelf.Syncs.holds requests rule listed
      obtain ⟨file', own', held'⟩ := Shelf.Syncs.holds requests' rule listed
      rw [own] at own'
      obtain rfl := Except.ok.inj own'
      rw [held, held']
    · have absent : ∀ rule ∈ rules.filter (·.enabled), rule.id ≠ id :=
        fun rule here same => listed ⟨rule, here, same⟩
      rw [Shelf.Syncs.nothingElse requests id absent, Shelf.Syncs.nothingElse requests' id absent]
  | _ => exact requests.elim

/-- Requests other than that for a check. -/
def Controller.NoCheck (controller : Controller) (r : Request) : Prop :=
  r ≠ .nginx controller.config.testCall

namespace Controller

open Operation

variable {controller : Controller} {α : Type} {p : Program α}

theorem noCheck_of_stores (asks : p.Asks Store.Stores) : p.Asks controller.NoCheck := by
  refine asks.mono fun r stores => ?_
  rintro rfl
  cases stores

theorem noCheck_publish (phase : Phase) : (publish phase).run.Asks controller.NoCheck :=
  ⟨nofun, fun _ => trivial⟩

theorem noCheck_count (event : Event) (tally : Option Tally) :
    (Program.request (.count event tally)).Asks controller.NoCheck :=
  ⟨nofun, fun _ => trivial⟩

theorem noCheck_rollBack (snapshots : List Snapshot) (error : OperationError) :
    (controller.rollBack snapshots error).run.Asks controller.NoCheck := by
  refine asks_bind (noCheck_publish _) fun _ => asks_bind ?_ fun _ => trivial
  refine asks_bind ⟨nofun, fun _ => trivial⟩ fun _ => ?_
  have restores : (controller.restoreEach snapshots.reverse).Asks controller.NoCheck :=
    noCheck_of_stores (controller.asks_restoreEach _)
  refine asks_bind (restores.bind fun _ => trivial) fun failures => ?_
  split <;> trivial

theorem noCheck_reload : controller.reload.run.Asks controller.NoCheck := by
  refine asks_bind ⟨?_, fun _ => trivial⟩ fun (reply : Nginx.Reply) => ?_
  · -- a reload is another action than a check
    intro same
    cases congrArg Nginx.Call.action (Request.nginx.inj same)
  · dsimp only
    split
    · trivial
    · exact asks_bind ⟨nofun, fun _ => trivial⟩ fun _ => trivial

end Controller

namespace Site

open Operation

/-- The terms of a site on which nginx is asked to check only what was asked for. -/
def checking (controller : Controller) (requested : Shelf → Prop) : Terms Site where
  allows request site :=
    request = .nginx controller.config.testCall → requested (controller.store.shelf site.tree)
  answers := (terms true).answers

variable {controller : Controller} {requested : Shelf → Prop} {α : Type} {site : Site}

/-- What asks for no check may do what it does. -/
theorem meets_checking {p : Program α} {promise : α → Site → Prop}
    (asks : p.Asks controller.NoCheck) (h : p.Meets (terms true) promise site) :
    p.Meets (checking controller requested) promise site := by
  induction p generalizing site with
  | done a => exact h
  | ask request next ih =>
    exact ⟨fun same => absurd same asks.1,
      fun answer s answered => ih answer (asks.2 answer) (h.2 answer s answered)⟩

theorem meets_of_noCheck {p : Program α} (asks : p.Asks controller.NoCheck) :
    p.Meets (checking controller requested) (fun _ _ => True) site := by
  induction p generalizing site with
  | done a => trivial
  | ask request next ih =>
    exact ⟨fun same => absurd same asks.1, fun answer s _ => ih answer (asks.2 answer)⟩

/-- An operation by which nginx is asked to check only what was asked for, whatever it comes to. -/
abbrev Checks (controller : Controller) (requested : Shelf → Prop) (operation : Operation α)
    (site : Site) : Prop :=
  operation.Meets (checking controller requested) (fun _ _ => True) (fun _ _ => True) site

theorem checks_of_noCheck {operation : Operation α} (asks : operation.run.Asks controller.NoCheck) :
    Checks controller requested operation site := by
  refine Program.Meets.mono (meets_of_noCheck asks) fun result _ _ => ?_
  cases result <;> trivial

/-- Files that were asked for are checked, and after that nothing is. -/
theorem checks_settle (wanted : requested (controller.store.shelf site.tree))
    (snapshots : List Snapshot) :
    Checks controller requested (controller.settle snapshots) site := by
  refine meets_bind.2 (meets_request.2 ⟨nofun, ?_⟩)
  rintro _ s rfl
  have gate : controller.gate.Meets (checking controller requested) (fun _ _ => True) s := by
    refine Program.meets_bind.2 ⟨fun _ => wanted, fun (reply : Nginx.Reply) s _ => ?_⟩
    refine meets_of_noCheck ((Controller.noCheck_count _ _).bind fun _ => ?_)
    split
    · trivial
    · exact (Controller.noCheck_count _ _).bind fun _ => trivial
  refine meets_bind.2 (meets_lift.2 (gate.mono fun checked s _ => checks_of_noCheck ?_))
  split
  · exact Controller.noCheck_rollBack _ _
  · refine asks_bind (Controller.noCheck_publish _) fun _ => ?_
    have reloads : (outcome controller.reload).run.Asks controller.NoCheck :=
      Controller.noCheck_reload.bind fun _ => trivial
    refine asks_bind reloads fun result => ?_
    cases result with
    | ok _ => trivial
    | error e =>
      dsimp only
      split
      · exact Controller.noCheck_rollBack _ _
      · trivial

theorem checks_exclusively (kind : OperationKind) (isIdle : α → Bool) {change : Operation α}
    (h : Checks controller requested change site) :
    Checks controller requested (controller.exclusively kind isIdle change) site := by
  refine meets_bind.2 (meets_request.2 ⟨nofun, ?_⟩)
  rintro _ s rfl
  refine meets_bind.2 (meets_request.2 ⟨nofun, ?_⟩)
  rintro _ s rfl
  -- the lock and the phases are no concern of what is checked, nor is what is counted
  have records (ok : Bool) : (controller.record kind ok).Asks controller.NoCheck := by
    have lists : controller.store.list.run.Asks controller.NoCheck :=
      Controller.noCheck_of_stores
        (controller.store.asks_list.mono fun _ => Request.isStorage_of_isLook)
    refine (Controller.noCheck_count _ _).bind fun _ => lists.bind fun outcome => ?_
    cases outcome with
    | ok ids => exact Controller.noCheck_count _ _
    | error e => trivial
  have release (result : Except OperationError α) :
      (request .release >>= fun _ => Operation.ofExcept result).run.Asks controller.NoCheck :=
    asks_bind ⟨nofun, fun _ => trivial⟩ fun _ => trivial
  have ends (ok : Bool) (result : Except OperationError α) :
      (ExceptT.lift (controller.record kind ok) >>= fun _ =>
        request .release >>= fun _ => Operation.ofExcept result).run.Asks controller.NoCheck :=
    asks_bind ((records ok).bind fun _ => trivial) fun _ => release result
  refine meets_bind.2 (meets_outcome.2 (h.mono ?_ ?_))
  · intro a s _
    refine checks_of_noCheck (asks_bind (Controller.noCheck_publish _) fun _ => ?_)
    dsimp only
    split
    · exact ends true (.ok a)
    · exact release (.ok a)
  · intro e s _
    exact checks_of_noCheck
      (asks_bind (Controller.noCheck_publish _) fun _ => ends false (.error e))

/-- What only works on files does what it does. -/
theorem checking_of_stores {operation : Operation α} {returns : α → Site → Prop}
    {fails : OperationError → Site → Prop} (stores : operation.run.Asks Store.Stores)
    (h : operation.Meets (terms true) returns fails site) :
    operation.Meets (checking controller requested) returns fails site :=
  meets_checking (Controller.noCheck_of_stores stores) h

variable {live : Live} {before : Shelf}

/-- The file of a rule is in its place when nginx checks it. -/
theorem checks_applyFile (here : controller.store.At live before site) {id : String}
    (valid : isRuleId id = true) (file : RuleFile)
    (wanted : requested (before.set id (some file))) :
    Checks controller requested (controller.applyFile id file) site := by
  refine meets_bind.2 ((checking_of_stores (controller.asks_read id)
    (Store.meets_read here valid)).mono ?_ fun _ _ _ => trivial)
  rintro file' s ⟨rfl, _⟩
  refine meets_bind.2 (meets_outcome.2 ((checking_of_stores (controller.store.asks_write id file)
    (Store.meets_write here valid file)).mono ?_ ?_))
  · intro _ s written
    have done : requested (controller.store.shelf s.tree) := by
      rw [written.shelf_eq]
      exact wanted
    exact checks_settle done _
  · intro e s _
    exact checks_of_noCheck (Controller.noCheck_rollBack _ _)

/-- When files were brought in step, they are in their places when nginx checks them. -/
theorem checks_syncFiles (here : controller.store.At live before site)
    {files : List (String × RuleFile)} (nodup : (files.map Prod.fst).Nodup)
    (valid : ∀ named ∈ files, isRuleId named.1 = true)
    (wanted : ∀ after : Shelf,
      (∀ named ∈ files, after named.1 = Shelf.inStepWith (before named.1) named.2) →
      (∀ id, id ∉ files.map Prod.fst → after id = Shelf.row none) → requested after) :
    Checks controller requested (controller.syncFiles files) site := by
  have stores := controller.asks_writeDesired files
  refine meets_bind.2 (meets_lift.2 ((meets_checking (Controller.noCheck_of_stores stores)
    (meets_writeDesired here nodup valid)).mono ?_))
  rintro progress s ⟨_, _, shelf, there, _, ended⟩
  cases failure : progress.failure with
  | some error =>
    exact checks_of_noCheck (asks_bind (Controller.noCheck_rollBack _ _) fun _ => trivial)
  | none =>
    rw [failure] at ended
    obtain ⟨_, _, held, others⟩ := ended
    dsimp only
    split
    · exact checks_of_noCheck trivial
    · have done : requested (controller.store.shelf s.tree) := by
        rw [there.shelf_eq]
        exact wanted shelf held others
      exact (checks_settle done _).bind fun _ _ _ => trivial

end Site

open Operation in
/-- While nginx checks the files for a task that brings rules into force, the files are those that
the task asks for. -/
theorem Task.meets_checking {controller : Controller} {site : Site} {task : Task}
    (brings : task.brings = true) (tidy : controller.store.Tidy site.tree) :
    (task.program controller).Meets
      (Site.checking controller fun after =>
        task.Requests controller (controller.store.shelf site.tree) after)
      (fun _ _ => True) site := by
  have here : controller.store.At site.live (controller.store.shelf site.tree) site :=
    ⟨rfl, tidy, rfl⟩
  let requested (after : Shelf) : Prop :=
    task.Requests controller (controller.store.shelf site.tree) after
  have ends {α : Type} {operation : Operation α} {f : Except OperationError α → TaskResult}
      (h : Site.Checks controller requested operation site) :
      (operation.run >>= fun result => pure (f result)).Meets
        (Site.checking controller requested) (fun _ _ => True) site :=
    Program.Meets.bind h fun _ _ _ => trivial
  cases task with
  | apply rule =>
    refine ends ?_
    have enabled : rule.enabled = true := brings
    rw [Controller.apply, enabled, Bool.not_true, if_neg Bool.false_ne_true]
    refine meets_bind.2 ?_
    cases valid : rule.validate with
    | error e => trivial
    | ok _ =>
      refine meets_ok.2 (meets_bind.2 ?_)
      cases own : rule.file controller.options with
      | error e => trivial
      | ok file =>
        have id := Rule.isRuleId_of_validate valid
        refine meets_ok.2 (Meets.bind (Site.checks_exclusively _ _ ?_) fun _ _ _ => trivial)
        exact Site.checks_applyFile here id file ⟨file, own, rfl⟩
  | sync rules =>
    refine ends (meets_bind.2 ?_)
    cases desired : controller.desiredFiles rules with
    | error e => trivial
    | ok files =>
      obtain ⟨nodup, valid, _⟩ := Controller.desiredFiles_ok desired
      refine meets_ok.2 (Site.checks_exclusively _ _ (Site.checks_syncFiles here nodup valid ?_))
      intro after held others
      exact Shelf.syncs_of_desiredFiles desired held others
  | _ => cases brings

end ProxyKeeper
