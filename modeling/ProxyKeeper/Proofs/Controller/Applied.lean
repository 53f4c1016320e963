import ProxyKeeper.Proofs.Controller.Requests
import ProxyKeeper.Proofs.Rule.Valid
import ProxyKeeper.Proofs.Store.Written

/-!
# Rules that were applied

A rule is applied when its file was written and nginx took it up. Whatever comes after the writing
changes no file on the way to success, for files are only put back on the way to a failure. So what
is at the path of the file in the end is what was written there.

## Main Definitions

* `Request.isAside` — requests that neither change a file nor call nginx

## Main Results

* `Controller.exists_ends_of_settle` — files that are brought into force were tested and taken up
* `Controller.exists_ends_of_exclusively` — a change that succeeds with the lock held
* `Controller.read_eq_ok_iff_of_ends_apply` — the file of a rule that was applied
-/

namespace ProxyKeeper

open Program Operation

variable {α : Type} {faults : Bool} {site after : Site}

/-- nginx changes no file. -/
theorem Site.tree_replied (call : Nginx.Call) (reply : Nginx.Reply) (site : Site) :
    (site.replied call reply).tree = site.tree := by
  unfold replied
  split <;> rfl

/-- A request that changes no file leaves the files as they are. -/
theorem Site.tree_eq_of_answers {r : Request} {answer : r.Answer} (quiet : r.isQuiet = true)
    (answered : (Site.terms faults).answers r site answer after) : after.tree = site.tree := by
  cases r with
  | file call =>
    obtain ⟨tree, answered, rfl⟩ := answered
    have looks : call.changes = false := by simpa [Request.isQuiet] using quiet
    cases answered with
    | performs => exact site.tree.perform_of_not_changes looks
    | fails _ _ left => exact left.eq_of_not_changes looks
  | nginx call =>
    obtain rfl : after = site.replied call answer := answered
    exact Site.tree_replied call answer site
  | freshName => rw [answered.2]
  | acquire => rw [show after = site from answered]
  | release => rw [show after = site from answered]
  | publish phase => rw [show after = site from answered]
  | count event => rw [show after = site from answered]

/-- What changes no file leaves the files as they are. -/
theorem Site.tree_eq_of_quiet {p : Program α} {a : α} (asks : p.Asks (·.isQuiet = true))
    (ends : p.Ends (Site.terms faults) site a after) : after.tree = site.tree :=
  ends.view_eq asks Site.tree fun _ _ _ _ quiet answered => tree_eq_of_answers quiet answered

/-- Whether a request neither changes a file nor calls nginx. -/
def Request.isAside : Request → Bool
  | .file call => !call.changes
  | .nginx _ => false
  | _ => true

theorem Request.isAside_of_isLook {r : Request} (look : r.isLook = true) : r.isAside = true := by
  cases r with
  | file call => exact look
  | nginx call => cases look
  | _ => rfl

theorem Request.isQuiet_of_isAside {r : Request} (aside : r.isAside = true) :
    r.isQuiet = true := by
  cases r with
  | file call => exact aside
  | _ => rfl

theorem quiet_of_looks {p : Program α} (asks : p.Asks Store.Looks) : p.Asks (·.isQuiet = true) :=
  asks.mono fun _ => Request.isQuiet_of_isLook

namespace Controller

variable {controller : Controller}

/-! ## What changes no file -/

theorem quiet_request (r : Request) (quiet : r.isQuiet = true) :
    (Operation.request r).run.Asks (·.isQuiet = true) :=
  ⟨quiet, fun _ => trivial⟩

theorem quiet_gate (controller : Controller) : controller.gate.Asks (·.isQuiet = true) := by
  rw [gate]
  refine Asks.bind ⟨rfl, fun _ => trivial⟩ fun (reply : Nginx.Reply) => ?_
  refine Asks.bind ⟨rfl, fun _ => trivial⟩ fun _ => ?_
  split
  · trivial
  · exact ⟨rfl, fun _ => trivial⟩

theorem quiet_reload (controller : Controller) :
    controller.reload.run.Asks (·.isQuiet = true) := by
  rw [reload]
  refine asks_bind (quiet_request _ rfl) fun (reply : Nginx.Reply) => ?_
  dsimp only
  split
  · trivial
  · exact asks_bind (quiet_request _ rfl) fun _ => trivial

/-- To count what was done and what there is, the store is looked at. -/
theorem asks_record (controller : Controller) (kind : OperationKind) (ok : Bool) :
    (controller.record kind ok).Asks (·.isAside = true) := by
  rw [record]
  refine Asks.bind ⟨rfl, fun _ => trivial⟩ fun _ => ?_
  refine (controller.store.asks_list.mono fun _ => Request.isAside_of_isLook).bind
    fun listed => ?_
  cases listed with
  | ok ids => exact ⟨rfl, fun _ => trivial⟩
  | error e => trivial

/-! ## The way to success -/

section Success

variable {σ τ : Type} {terms : Terms σ} {s t : σ}

theorem ends_outcome_ok {operation : Operation α} {result : Except OperationError α} :
    (outcome operation).run.Ends terms s (.ok result) t ↔ operation.run.Ends terms s result t :=
  ends_lift_ok

/-- Files are put back on the way to a failure. -/
theorem not_ends_rollBack_ok (snapshots : List Snapshot) (error : OperationError) :
    ¬ (controller.rollBack snapshots error).run.Ends terms s (.ok ()) t := by
  intro ends
  obtain ⟨_, u, _, step⟩ := ends_bind_ok.1 ends
  obtain ⟨_, v, _, failed⟩ := ends_bind_ok.1 step
  exact not_ends_throw_ok failed

/-- Files that are brought into force were accepted by nginx, and taken up. -/
theorem exists_ends_of_settle {snapshots : List Snapshot}
    (ends : (controller.settle snapshots).run.Ends terms s (.ok ()) t) :
    ∃ outcome u v w, (publish .testing).run.Ends terms s (.ok ()) u ∧
      controller.gate.Ends terms u outcome v ∧ outcome.ok = true ∧
      (publish .applying).run.Ends terms v (.ok ()) w ∧
      controller.reload.run.Ends terms w (.ok ()) t := by
  obtain ⟨_, u, published, step⟩ := ends_bind_ok.1 ends
  obtain ⟨outcome, v, gated, step'⟩ := ends_bind_ok.1 step
  split at step'
  next => exact absurd step' (not_ends_rollBack_ok _ _)
  next accepted =>
    obtain ⟨_, w, published', step⟩ := ends_bind_ok.1 step'
    obtain ⟨result, x, reloaded, last⟩ := ends_bind_ok.1 step
    cases result with
    | ok _ =>
      obtain ⟨-, rfl⟩ := ends_pure_ok.1 last
      exact ⟨outcome, u, v, w, published, ends_lift_ok.1 gated, by simpa using accepted, published',
        ends_outcome_ok.1 reloaded⟩
    | error e =>
      dsimp only at last
      split at last
      next => exact absurd last (not_ends_rollBack_ok _ _)
      next => exact absurd last not_ends_throw_ok

/-- A change that succeeds with the lock held succeeds by itself. What is seen of the states is the
same before both and after both, if requests on the side do not change it. -/
theorem exists_ends_of_exclusively {kind : OperationKind} {isIdle : α → Bool}
    {change : Operation α} {a : α} (view : σ → τ)
    (kept : ∀ r s answer s', r.isAside = true → terms.answers r s answer s' → view s' = view s)
    (ends : (controller.exclusively kind isIdle change).run.Ends terms s (.ok a) t) :
    ∃ before changed, view before = view s ∧ change.run.Ends terms before (.ok a) changed ∧
      view t = view changed := by
  obtain ⟨_, u, acquired, step⟩ := ends_bind_ok.1 ends
  obtain ⟨_, v, published, step'⟩ := ends_bind_ok.1 step
  obtain ⟨result, w, done, step⟩ := ends_bind_ok.1 step'
  obtain ⟨_, x, published', step'⟩ := ends_bind_ok.1 step
  have aside {u v : σ} {r : Request} {answer : r.Answer} (isAside : r.isAside = true)
      (asked : (Operation.request r).run.Ends terms u (.ok answer) v) : view v = view u := by
    have asks : (Operation.request r).run.Asks (·.isAside = true) := ⟨isAside, fun _ => trivial⟩
    exact asked.view_eq asks view kept
  have released {u : σ} {result : Except OperationError α}
      (ends : (Operation.request .release >>= fun _ => Operation.ofExcept result).run.Ends
        terms u (.ok a) t) : result = .ok a ∧ view t = view u := by
    obtain ⟨_, v, asked, last⟩ := ends_bind_ok.1 ends
    obtain ⟨same, rfl⟩ := ends_ofExcept_ok.1 last
    exact ⟨same, aside rfl asked⟩
  have recorded {u v : σ} {ok : Bool}
      (ends : (ExceptT.lift (controller.record kind ok) : Operation Unit).run.Ends
        terms u (.ok ()) v) : view v = view u :=
    (ends_lift_ok.1 ends).view_eq (controller.asks_record kind ok) view kept
  have finished : result = .ok a ∧ view t = view x := by
    dsimp only at step'
    cases result with
    | error e =>
      obtain ⟨_, y, counted, last⟩ := ends_bind_ok.1 step'
      cases (released last).1
    | ok b =>
      dsimp only at step'
      split at step'
      next =>
        obtain ⟨_, y, counted, last⟩ := ends_bind_ok.1 step'
        obtain ⟨same, kept⟩ := released last
        exact ⟨same, kept.trans (recorded counted)⟩
      next => exact released step'
  obtain ⟨rfl, kept⟩ := finished
  exact ⟨v, w, (aside rfl published).trans (aside rfl acquired), ends_outcome_ok.1 done,
    kept.trans (aside rfl published')⟩

end Success

/-! ## Rules that were applied -/

/-- Files that nginx accepted and took up are left. -/
theorem tree_eq_of_ends_settle {snapshots : List Snapshot}
    (ends : (controller.settle snapshots).run.Ends (Site.terms faults) site (.ok ()) after) :
    after.tree = site.tree := by
  obtain ⟨_, u, v, w, published, gated, _, published', reloaded⟩ := exists_ends_of_settle ends
  rw [Site.tree_eq_of_quiet controller.quiet_reload reloaded,
    Site.tree_eq_of_quiet (quiet_request _ rfl) published',
    Site.tree_eq_of_quiet controller.quiet_gate gated,
    Site.tree_eq_of_quiet (quiet_request _ rfl) published]

/-- A rule file that was brought into force was written on the files there were. -/
theorem exists_ends_write_of_applyFile {id : String} {file : RuleFile}
    (ends : (controller.applyFile id file).run.Ends (Site.terms faults) site (.ok ()) after) :
    ∃ before written : Site, before.tree = site.tree ∧
      (controller.store.write id file).run.Ends (Site.terms faults) before (.ok ()) written ∧
      after.tree = written.tree := by
  obtain ⟨found, u, read, step⟩ := ends_bind_ok.1 ends
  obtain ⟨result, v, wrote, last⟩ := ends_bind_ok.1 step
  cases result with
  | error e => exact absurd last (not_ends_rollBack_ok _ _)
  | ok _ =>
    exact ⟨u, v, Site.tree_eq_of_quiet (quiet_of_looks (controller.store.asks_read id)) read,
      ends_outcome_ok.1 wrote, tree_eq_of_ends_settle last⟩

/-- What is read at the path of the file of an enabled rule that was applied is its document, and it
is read exactly when the way there does not lead through the files of the rule. -/
theorem read_eq_ok_iff_of_ends_apply {rule result : Rule}
    (given : controller.config.activeDir.text ≠ "") (enabled : rule.enabled = true) {text : String}
    (compiled : rule.compile controller.options = .ok text)
    (ends : (controller.apply rule).run.Ends (Site.terms faults) site (.ok result) after)
    {content : ByteArray} :
    after.tree.read ((controller.store.directory rule.context).child (Store.fileName rule.id)) =
        .ok content ↔
      content = text.toUTF8 ∧ controller.store.Separates rule.id rule.context
        (site.tree.createDirectories (controller.store.directory rule.context)).2 := by
  obtain ⟨_, u, checked, step⟩ := ends_bind_ok.1 ends
  obtain ⟨valid, rfl⟩ := ends_ofExcept_ok.1 checked
  rw [enabled] at step
  obtain ⟨file, v, made, step'⟩ := ends_bind_ok.1 step
  obtain ⟨own, rfl⟩ := ends_ofExcept_ok.1 made
  rw [Rule.file, compiled] at own
  obtain rfl := Except.ok.inj own
  obtain ⟨_, w, changed, last⟩ := ends_bind_ok.1 step'
  obtain ⟨-, rfl⟩ := ends_pure_ok.1 last
  obtain ⟨before, done, same, applied, kept⟩ := exists_ends_of_exclusively Site.tree
    (fun r s answer s' aside => Site.tree_eq_of_answers (Request.isQuiet_of_isAside aside)) changed
  obtain ⟨before', written, same', wrote, kept'⟩ := exists_ends_write_of_applyFile applied
  rw [kept, kept', ← same, ← same']
  exact @Store.read_eq_ok_iff_of_ends_write controller.store rule.id faults before' written given
    (Rule.isRuleId_of_validate valid) ⟨rule.context, text⟩ content wrote

end Controller

end ProxyKeeper
