import ProxyKeeper.Proofs.Controller.Applied
import ProxyKeeper.Proofs.Controller.Due

/-!
# What a synchronization reports

A synchronization that succeeds tells every enabled rule as written or unchanged, and all others
that were listed as removed. When it changed files, it had nginx test them once and take them up
once. The files are in step afterwards, so there is nothing left to do for a second synchronization
with the same rules, in whatever order.

## Main Definitions

* `SyncReport.IsExact` — what a report tells of the ids that are enabled and of those listed
* `History.nginxCalls` — the calls of nginx that were made

## Main Results

* `Store.isExact_dueReport` — what was to be done makes an exact report
* `Controller.seen_of_ends_settle` — how nginx is called
* `Controller.isExact_sync` — synchronizations that succeed, and the ones after them
-/

namespace ProxyKeeper

open Program Operation

/-- The ids of the rules that are enabled. -/
def Rule.enabledIds (rules : List Rule) : List String :=
  (rules.filter (·.enabled)).map Rule.id

/-- Whether a report tells exactly what is done for the ids that are enabled, and for those that
were listed before: the first are written or right already, in their order, and all others that were
listed are removed. What changed was brought into force. -/
structure SyncReport.IsExact (report : SyncReport) (enabled listed : List String) : Prop where
  written : report.written.Sublist enabled
  unchanged : report.unchanged.Sublist enabled
  disjoint : report.written.Disjoint report.unchanged
  complete : (report.written ++ report.unchanged).Perm enabled
  removed : report.removed = listed.filter (· ∉ enabled)
  ascending : report.removed.Pairwise (· < ·)
  reloaded : report.reloaded = true ↔ report.written ≠ [] ∨ report.removed ≠ []

/-- What is to be done is an exact report, once it is in force if anything changed. -/
theorem Store.isExact_dueReport {store : Store} {files : List (String × RuleFile)} {tree : Tree}
    (nodup : (files.map Prod.fst).Nodup) {listed : List String}
    (sorted : listed.Pairwise (· < ·)) {reloaded : Bool}
    (inForce : reloaded = (store.dueReport tree files listed).hasChanges) :
    ({ store.dueReport tree files listed with reloaded } : SyncReport).IsExact
      (files.map Prod.fst) listed := by
  have complete : (store.wrongIds tree files ++ store.rightIds tree files).Perm
      (files.map Prod.fst) := by
    rw [wrongIds, rightIds, ← List.map_append]
    exact (List.perm_append_comm.trans (List.filter_append_perm _ files)).map _
  refine ⟨List.filter_sublist.map _, List.filter_sublist.map _, ?_, complete, rfl,
    sorted.filter _, ?_⟩
  · intro id wrong right
    exact (List.nodup_append.1 (complete.nodup_iff.2 nodup)).2.2 id wrong id right rfl
  · rw [inForce]
    simp [SyncReport.hasChanges]

/-! ## Calls of nginx -/

/-- The call of nginx that a request is. -/
def Request.nginxCall? : Request → Option Nginx.Call
  | .nginx call => some call
  | _ => none

theorem Request.nginxCall?_eq_none {r : Request} (h : r.isAside = true ∨ r.isStorage = true) :
    r.nginxCall? = none := by
  cases r with
  | nginx call => rcases h with h | h <;> cases h
  | _ => rfl

namespace History

variable {breaks : Breaks} {history next : History}

/-- The calls of nginx that were made. -/
def nginxCalls (history : History) : List Nginx.Call :=
  history.exchanges.filterMap (·.request.nginxCall?)

theorem nginxCalls_eq_of_answers {request : Request} {answer : request.Answer}
    (other : request.nginxCall? = none)
    (answered : (terms breaks).answers request history answer next) :
    next.nginxCalls = history.nginxCalls := by
  rw [nginxCalls, exchanges_of_answers answered, List.filterMap_append, List.filterMap_cons, other,
    List.filterMap_nil, List.append_nil, nginxCalls]

/-- The files there are, and the calls of nginx so far. -/
def seen (history : History) : Tree × List Nginx.Call :=
  (history.tree, history.nginxCalls)

theorem seen_eq_of_answers {request : Request} {answer : request.Answer}
    (aside : request.isAside = true)
    (answered : (terms .never).answers request history answer next) : next.seen = history.seen := by
  refine Prod.ext ?_ (nginxCalls_eq_of_answers (Request.nginxCall?_eq_none (.inl aside)) answered)
  cases request with
  | file call =>
    obtain ⟨passed, left, goes, rfl⟩ := answered
    have looks : call.changes = false := by simpa [Request.isAside] using aside
    exact (congrArg Prod.snd goes.perform_eq).symm.trans
      (history.tree.perform_of_not_changes looks)
  | freshName => obtain ⟨_, rfl⟩ := answered; rfl
  | nginx call => cases aside
  | acquire => obtain rfl := answered; rfl
  | release => obtain rfl := answered; rfl
  | publish phase => obtain rfl := answered; rfl
  | count event => obtain rfl := answered; rfl

theorem seen_eq_of_ends {α : Type} {p : Program α} {a : α} (asks : p.Asks (·.isAside = true))
    (ends : p.Ends (terms .never) history a next) : next.seen = history.seen :=
  ends.view_eq asks seen fun _ _ _ _ aside answered => seen_eq_of_answers aside answered

/-- A call of nginx changes no file. -/
theorem seen_of_ends_nginx {call : Nginx.Call} {reply : (Request.nginx call).Answer}
    (ends : (Program.request (.nginx call)).Ends (terms breaks) history reply next) :
    next.seen = (history.tree, history.nginxCalls ++ [call]) := by
  obtain ⟨answer, u, answered, last⟩ := ends_ask.1 ends
  obtain ⟨rfl, rfl⟩ := ends_done.1 last
  obtain rfl : u = history.told ⟨.nginx call, answer⟩ := answered
  rw [seen, nginxCalls, told, List.filterMap_append]
  rfl

end History

namespace Controller

variable {controller : Controller} {history after : History}

theorem seen_of_ends_gate {outcome : GateOutcome}
    (ends : controller.gate.Ends (History.terms .never) history outcome after) :
    after.seen = (history.tree, history.nginxCalls ++ [controller.config.testCall]) := by
  obtain ⟨reply, u, called, step⟩ := ends_bind.1 ends
  refine (History.seen_eq_of_ends ?_ step).trans (History.seen_of_ends_nginx called)
  refine Asks.bind ⟨rfl, fun _ => trivial⟩ fun _ => ?_
  split
  · trivial
  · exact ⟨rfl, fun _ => trivial⟩

theorem seen_of_ends_reload
    (ends : controller.reload.run.Ends (History.terms .never) history (.ok ()) after) :
    after.seen = (history.tree, history.nginxCalls ++ [controller.config.reloadCall]) := by
  obtain ⟨reply, u, called, step⟩ := ends_bind_ok.1 ends
  refine (History.seen_eq_of_ends ?_ step).trans
    (History.seen_of_ends_nginx (ends_lift_ok.1 called))
  dsimp only
  split
  · trivial
  · exact asks_bind ⟨rfl, fun _ => trivial⟩ fun _ => trivial

/-- Files that are brought into force are tested once and taken up once. -/
theorem seen_of_ends_settle {snapshots : List Snapshot}
    (ends : (controller.settle snapshots).run.Ends (History.terms .never) history (.ok ()) after) :
    after.seen = (history.tree, history.nginxCalls ++
      [controller.config.testCall, controller.config.reloadCall]) := by
  obtain ⟨outcome, u, v, w, published, gated, _, published', reloaded⟩ := exists_ends_of_settle ends
  have asks (phase : Phase) : (publish phase).run.Asks (·.isAside = true) :=
    ⟨rfl, fun _ => trivial⟩
  have first := History.seen_eq_of_ends (asks _) published
  have second := seen_of_ends_gate gated
  have third := History.seen_eq_of_ends (asks _) published'
  have last := seen_of_ends_reload reloaded
  simp only [History.seen, Prod.mk.injEq] at first second third last ⊢
  refine ⟨by rw [last.1, third.1, second.1, first.1], ?_⟩
  rw [last.2, third.2, second.2, first.2, List.append_assoc]
  rfl

/-! ## Synchronizations -/

/-- A synchronization that succeeds has brought its files in step, and into force if any changed. -/
theorem exists_ends_of_syncFiles {σ : Type} {terms : Terms σ} {s t : σ}
    {files : List (String × RuleFile)} {report : SyncReport}
    (ends : (controller.syncFiles files).run.Ends terms s (.ok report) t) :
    ∃ made u, (controller.writeDesired files).Ends terms s made u ∧ made.failure = none ∧
      (made.report.hasChanges = false ∧ report = made.report ∧ t = u ∨
        made.report.hasChanges = true ∧ report = { made.report with reloaded := true } ∧
          (controller.settle made.snapshots).run.Ends terms u (.ok ()) t) := by
  obtain ⟨made, u, written, step⟩ := ends_bind_ok.1 ends
  refine ⟨made, u, ends_lift_ok.1 written, ?_⟩
  dsimp only at step
  split at step
  next error failed =>
    obtain ⟨_, _, rolledBack, _⟩ := ends_bind_ok.1 step
    exact absurd rolledBack (not_ends_rollBack_ok _ _)
  next done =>
    refine ⟨done, ?_⟩
    split at step
    next nothing =>
      obtain ⟨rfl, rfl⟩ := ends_pure_ok.1 step
      exact .inl ⟨by simpa using nothing, rfl, rfl⟩
    next changed =>
      obtain ⟨_, v, settled, last⟩ := ends_bind_ok.1 step
      obtain ⟨rfl, rfl⟩ := ends_pure_ok.1 last
      exact .inr ⟨by simpa using changed, rfl, settled⟩

/-- A synchronization that succeeds reports what it did, calls nginx when it changed files, and
leaves the files in step. -/
theorem inStep_of_ends_sync (sound : controller.store.Sound history.tree) {rules : List Rule}
    {files : List (String × RuleFile)} (desired : controller.desiredFiles rules = .ok files)
    {report : SyncReport}
    (ends : (controller.sync rules).run.Ends (History.terms .never) history (.ok report) after) :
    controller.store.InStep files after.tree ∧
      (∃ listed, controller.store.listIn history.tree = .ok listed ∧
        report.IsExact (files.map Prod.fst) listed) ∧
      (report.reloaded = true → after.nginxCalls = history.nginxCalls ++
        [controller.config.testCall, controller.config.reloadCall]) ∧
      (report.reloaded = false → after.tree = history.tree) := by
  obtain ⟨nodup, valid, -, -⟩ := desiredFiles_ok desired
  rw [sync, desired] at ends
  obtain ⟨_, u, given, step⟩ := ends_bind_ok.1 ends
  obtain ⟨same, rfl⟩ := ends_ofExcept_ok.1 given
  obtain rfl := Except.ok.inj same
  obtain ⟨before, changed, seen, synced, kept⟩ := exists_ends_of_exclusively History.seen
    (fun _ _ _ _ aside answered => History.seen_eq_of_answers aside answered) step
  obtain ⟨made, v, written, done, last⟩ := exists_ends_of_syncFiles synced
  have start : before.tree = history.tree := congrArg Prod.fst seen
  obtain ⟨listed, was, inStep, told, still⟩ := (brings_writeDesired
    (start ▸ sound) valid nodup).of_ends written.tree done
  have asked : v.nginxCalls = before.nginxCalls :=
    written.view_eq (controller.asks_writeDesired files) History.nginxCalls fun _ _ _ _ storage =>
      History.nginxCalls_eq_of_answers (Request.nginxCall?_eq_none (.inr storage))
  have sorted := Store.pairwise_listIn was
  rw [start] at was told still
  simp only [History.seen, Prod.mk.injEq] at seen kept
  rcases last with ⟨nothing, rfl, rfl⟩ | ⟨changes, rfl, settled⟩
  · rw [kept.1]
    rw [told] at nothing ⊢
    have exactly := Store.isExact_dueReport nodup sorted nothing.symm
    refine ⟨inStep, ⟨listed, was, exactly⟩, fun taken => ?_, fun _ => still (told ▸ nothing)⟩
    cases taken
  · have taken := seen_of_ends_settle settled
    simp only [History.seen, Prod.mk.injEq] at taken
    rw [kept.1, kept.2, taken.1, taken.2, asked, seen.2, told]
    rw [told] at changes
    have exactly := Store.isExact_dueReport nodup sorted changes.symm
    refine ⟨inStep, ⟨listed, was, exactly⟩, fun _ => rfl, fun idle => ?_⟩
    cases idle

/-- A synchronization of rules whose files are in step succeeds, and does nothing. -/
theorem idles_of_ends_sync {rules : List Rule} {files : List (String × RuleFile)}
    (desired : controller.desiredFiles rules = .ok files)
    (inStep : controller.store.InStep files history.tree)
    {result : Except OperationError SyncReport}
    (ends : (controller.sync rules).run.Ends (History.terms .never) history result after) :
    result = .ok { unchanged := files.map Prod.fst } ∧ history.Idles after := by
  obtain ⟨promised, idles⟩ := Program.Meets.idles (meets_sync_of_inStep desired inStep) ends
  refine ⟨?_, idles⟩
  cases result with
  | ok report => exact congrArg Except.ok promised.1
  | error e => exact promised.elim

/-- A synchronization that succeeds is exact in its report, and leaves nothing to do for another one
with the same rules. It may start with any files in the active directory and in its directory for
plain connections, and nginx may reply anything. The report tells every enabled rule as written or
unchanged, and all others that were listed before as removed. If any file changed, nginx tested the
files once and took them up once. If none did, nothing was done but looking, and the same holds
for whatever synchronization comes next, with the rules in this order or another. -/
theorem isExact_sync (controller : Controller) {history after : History}
    (sound : controller.store.Sound history.tree) {rules : List Rule} {report : SyncReport}
    (ends : (controller.sync rules).run.Ends (History.terms .never) history (.ok report) after) :
    (∃ listed, controller.store.listIn history.tree = .ok listed ∧
      report.IsExact (Rule.enabledIds rules) listed) ∧
    (report.reloaded = true → after.nginxCalls = history.nginxCalls ++
      [controller.config.testCall, controller.config.reloadCall]) ∧
    (report.reloaded = false → history.Idles after) ∧
    ∀ rules', rules'.Perm rules →
      (∃ result later,
        (controller.sync rules').run.Ends (History.terms .never) after result later) ∧
      ∀ result later,
        (controller.sync rules').run.Ends (History.terms .never) after result later →
          result = .ok { unchanged := Rule.enabledIds rules' } ∧ after.Idles later := by
  obtain ⟨files, _, given, _⟩ := ends_bind_ok.1 ends
  obtain ⟨desired, -⟩ := ends_ofExcept_ok.1 given
  obtain ⟨-, -, ids, -⟩ := desiredFiles_ok desired
  obtain ⟨inStep, exactly, inForce, still⟩ := inStep_of_ends_sync sound desired ends
  rw [ids] at exactly
  refine ⟨exactly, inForce, fun nothing => ?_, fun rules' perm =>
    ⟨?_, fun result later ends' => ?_⟩⟩
  · rw [still nothing] at inStep
    exact (idles_of_ends_sync desired inStep ends).2
  · exact ⟨_, _, History.ends_act _ ([], after)⟩
  · obtain ⟨files', desired', same⟩ := desiredFiles_perm perm desired
    obtain ⟨-, -, ids', -⟩ := desiredFiles_ok desired'
    obtain ⟨rfl, idles⟩ := idles_of_ends_sync desired' (inStep.perm same) ends'
    rw [ids']
    exact ⟨rfl, idles⟩

/-- One file is right, one is written and one is removed, and then the rules change places. -/
theorem isExact_sync_swapped :
    let controller : Controller := ⟨{ activeDir := ⟨"/a"⟩ }⟩
    let web : Rule :=
      { id := "web", targetContainer := "web", targetPort := 80, created := .epoch }
    let api : Rule :=
      { id := "api", targetContainer := "api", targetPort := 80, created := .epoch }
    let text := "# (web)\n\nserver \x7b\n    listen 80;\n    server_name _;\n" ++
      "    location / \x7b\n        proxy_pass http://web:80;\n    \x7d\n\x7d\n"
    let tree : Tree :=
      { entries := [(["a"], .directory), (["a", "web.conf"], .file text.toUTF8),
        (["a", "old.conf"], .file "old".toUTF8)] }
    ∃ after later,
      (controller.sync [web, api]).run.Ends (History.terms .never) { tree }
        (.ok { written := ["api"], removed := ["old"], unchanged := ["web"], reloaded := true })
          after ∧
      after.nginxCalls = [controller.config.testCall, controller.config.reloadCall] ∧
      (controller.sync [api, web]).run.Ends (History.terms .never) after
        (.ok { unchanged := ["api", "web"] }) later ∧ after.Idles later := by
  intro controller web api text tree
  have plain : ∀ held ∈ tree.entries, ∀ target, held.2 ≠ .link target := by simp [tree]
  have leads : tree.directory? (controller.store.directory .http) = some ["a"] := by decide
  have settled : controller.store.Settled tree :=
    .of_plain (by decide) (Tree.isClosed_of_entries (by decide)) leads
      (Tree.ne_link_of_entries plain _) (Tree.ne_link_of_entries plain _)
  have ends := @History.ends_act _ .never (controller.sync [web, api]).run ([], { tree })
  have synced : ((controller.sync [web, api]).run.run History.act ([], { tree })).1 =
      .ok { written := ["api"], removed := ["old"], unchanged := ["web"], reloaded := true } := by
    decide +kernel
  rw [synced] at ends
  obtain ⟨_, called, _, again⟩ := @isExact_sync controller { tree } _ (.inl settled) _ _ ends
  obtain ⟨⟨result, later, ends'⟩, each⟩ := again [api, web] (.swap web api [])
  obtain ⟨rfl, idles⟩ := each result later ends'
  exact ⟨_, later, ends, called rfl, ends', idles⟩

end Controller

end ProxyKeeper
